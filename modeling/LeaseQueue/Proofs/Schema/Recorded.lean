import LeaseQueue.Proofs.Lists
import LeaseQueue.Schema.Migration
import Mathlib.Data.List.Nodup
/-! The records of migrations: which ones a list of migrations leaves pending, and what records that
are only added to, each for the next migration of the list, have in common. -/
namespace LeaseQueue

/-- The record of a migration that is applied. -/
def Migration.entry (m : Migration) : String × String := (m.name, m.checksum)

namespace Schema

/-- The records after a further one. A name that is recorded keeps its record. -/
def keepOne (records : Recorded) (record : String × String) : Recorded :=
  if record.1 ∈ records.map Prod.fst then records else records ++ [record]

def keep (records new : Recorded) : Recorded := new.foldl keepOne records

/-- The migrations of a list that are recorded come before those that are not. -/
def Prefixed (migrations : List Migration) (records : Recorded) : Prop :=
  ∃ done rest, migrations = done ++ rest ∧ (∀ m ∈ done, m.name ∈ records.map Prod.fst) ∧
    ∀ m ∈ rest, m.name ∉ records.map Prod.fst

/-- Whichever of the migrations are recorded have their own checksums. -/
def Unchanged (migrations : List Migration) (records : Recorded) : Prop :=
  ∀ m ∈ migrations, ∀ checksum, (m.name, checksum) ∈ records → checksum = m.checksum

variable {migrations : List Migration} {start records : Recorded} {m : Migration}

section Pending

variable (unique : (records.map Prod.fst).Nodup)
include unique

theorem lookup_eq_some_iff {name checksum : String} :
    records.lookup name = some checksum ↔ (name, checksum) ∈ records := by
  constructor
  · intro found
    obtain ⟨before, after, rfl, -⟩ := List.lookup_eq_some_iff.mp found
    simp
  · exact lookup_eq_some_of_mem unique

theorem lookup_eq_none_iff {name : String} :
    records.lookup name = none ↔ name ∉ records.map Prod.fst := by
  simp [Option.eq_none_iff_forall_ne_some, lookup_eq_some_iff unique]

/-- The first migration whose recorded checksum is another one is named, with both checksums. -/
theorem pending_of_changed {first after : List Migration} {checksum : String}
    (unchanged : Unchanged first records) (recorded : (m.name, checksum) ∈ records)
    (changed : checksum ≠ m.checksum) :
    pending records (first ++ m :: after) =
      .error (.checksumMismatch m.name checksum m.checksum) := by
  induction first with
  | nil => simp [pending, (lookup_eq_some_iff unique).mpr recorded, changed]
  | cons head first ih =>
    have rest := ih fun m member => unchanged m (List.mem_cons_of_mem _ member)
    cases found : records.lookup head.name with
    | none => simp [pending, found, rest, Except.map]
    | some own =>
      have same : own = head.checksum :=
        unchanged head List.mem_cons_self own ((lookup_eq_some_iff unique).mp found)
      simp [pending, found, same, rest]

theorem unchanged_of_pending {left : List Migration}
    (accepted : pending records migrations = .ok left) : Unchanged migrations records := by
  induction migrations generalizing left with
  | nil => simp [Unchanged]
  | cons head rest ih =>
    simp only [pending] at accepted
    intro m member checksum recorded
    rcases List.mem_cons.mp member with rfl | later
    · rw [(lookup_eq_some_iff unique).mpr recorded] at accepted
      by_contra changed
      simp [changed] at accepted
    · split at accepted
      · cases others : pending records rest with
        | error e => simp [others, Except.map] at accepted
        | ok others_left => exact ih others m later checksum recorded
      · split at accepted
        · exact ih accepted m later checksum recorded
        · cases accepted

theorem exists_pending_of_unchanged (unchanged : Unchanged migrations records) :
    ∃ left, pending records migrations = .ok left := by
  induction migrations with
  | nil => exact ⟨[], rfl⟩
  | cons head rest ih =>
    obtain ⟨left, others⟩ := ih fun m member => unchanged m (List.mem_cons_of_mem _ member)
    cases found : records.lookup head.name with
    | none => exact ⟨head :: left, by simp [pending, found, others, Except.map]⟩
    | some own =>
      have same : own = head.checksum :=
        unchanged head List.mem_cons_self own ((lookup_eq_some_iff unique).mp found)
      exact ⟨left, by simp [pending, found, same, others]⟩

theorem pending_of_fresh (fresh : ∀ m ∈ migrations, m.name ∉ records.map Prod.fst) :
    pending records migrations = .ok migrations := by
  induction migrations with
  | nil => rfl
  | cons head rest ih =>
    have new := (lookup_eq_none_iff unique).mpr (fresh head List.mem_cons_self)
    have others := ih fun m member => fresh m (List.mem_cons_of_mem _ member)
    simp [pending, new, others, Except.map]

theorem pending_of_recorded {done rest : List Migration} (applied : ∀ m ∈ done, m.entry ∈ records) :
    pending records (done ++ rest) = pending records rest := by
  induction done with
  | nil => rfl
  | cons head done ih =>
    have found := (lookup_eq_some_iff unique).mpr (applied head List.mem_cons_self)
    have others := ih fun m member => applied m (List.mem_cons_of_mem _ member)
    simp [pending, found, others]

end Pending

theorem unchanged_congr {shown : Recorded} (same : ∀ record, record ∈ shown ↔ record ∈ records) :
    Unchanged migrations shown ↔ Unchanged migrations records := by
  simp only [Unchanged, same]

theorem Prefixed.split (prefixed : Prefixed migrations records)
    (unchanged : Unchanged migrations records) :
    ∃ done rest, migrations = done ++ rest ∧ (∀ m ∈ done, m.entry ∈ records) ∧
      ∀ m ∈ rest, m.name ∉ records.map Prod.fst := by
  obtain ⟨done, rest, rfl, recorded, missing⟩ := prefixed
  refine ⟨done, rest, rfl, ?_, missing⟩
  intro m member
  obtain ⟨⟨name, checksum⟩, kept, rfl⟩ := List.mem_map.mp (recorded m member)
  rwa [unchanged m (by simp [member]) checksum kept] at kept

theorem unique_reverse {shown : Recorded} (same : shown.Perm records)
    (unique : (records.map Prod.fst).Nodup) : (shown.reverse.map Prod.fst).Nodup := by
  rw [List.map_reverse, List.nodup_reverse]
  exact (same.map Prod.fst).nodup_iff.mpr unique

/-! What is kept. -/

theorem prefix_keepOne (records : Recorded) (record : String × String) :
    records <+: keepOne records record := by
  unfold keepOne
  split
  · exact List.prefix_rfl
  · exact List.prefix_append records [record]

theorem prefix_keep (records new : Recorded) : records <+: keep records new := by
  induction new generalizing records with
  | nil => exact List.prefix_rfl
  | cons record new ih => exact (prefix_keepOne records record).trans (ih _)

theorem nodup_keepOne (unique : (records.map Prod.fst).Nodup) (record : String × String) :
    ((keepOne records record).map Prod.fst).Nodup := by
  unfold keepOne
  split
  next => exact unique
  next new =>
    rw [List.map_append]
    exact nodup_append_new unique new

/-- Recording the first migration that is not recorded leaves no gap. -/
theorem Prefixed.append (prefixed : Prefixed migrations records)
    (distinct : (migrations.map Migration.name).Nodup) {done rest : List Migration}
    (whole : migrations = done ++ m :: rest) (applied : ∀ d ∈ done, d.name ∈ records.map Prod.fst)
    (new : m.name ∉ records.map Prod.fst) : Prefixed migrations (records ++ [m.entry]) := by
  obtain ⟨recorded, missing, split, found, unfound⟩ := prefixed
  -- Both splits are at the first migration that is not recorded.
  have same : recorded = done ∧ missing = m :: rest := by
    rw [whole] at split
    rcases List.append_eq_append_iff.mp split with ⟨between, rfl, tail⟩ | ⟨between, rfl, tail⟩
    · cases between with
      | nil => simpa using tail.symm
      | cons head between =>
        obtain ⟨rfl, -⟩ := List.cons.inj tail
        exact absurd (found m (by simp)) new
    · cases between with
      | nil => simpa using tail
      | cons head between =>
        exact absurd (applied head (by simp)) (unfound head (by simp [tail]))
  obtain ⟨rfl, rfl⟩ := same
  refine ⟨recorded ++ [m], rest, by simp [split], ?_, ?_⟩
  · intro d member
    rcases List.mem_append.mp member with old | own
    · rw [List.map_append]
      exact List.mem_append_left _ (found d old)
    · obtain rfl : d = m := by simpa using own
      simp [Migration.entry]
  · intro d member both
    rw [List.map_append, List.mem_append] at both
    rcases both with old | own
    · exact unfound d (List.mem_cons_of_mem m member) old
    · have equal : d.name = m.name := by simpa [Migration.entry] using own
      rw [whole, List.map_append, List.map_cons] at distinct
      have fresh := (List.nodup_cons.mp (List.nodup_append.mp distinct).2.1).1
      exact fresh (equal ▸ List.mem_map_of_mem member)

/-- Records that grew from others, by records of migrations that left no gap. -/
structure Consistent (migrations : List Migration) (start records : Recorded) : Prop where
  grown : start <+: records
  unique : (records.map Prod.fst).Nodup
  shipped : ∀ record ∈ records, record ∈ start ∨ ∃ m ∈ migrations, record = m.entry
  prefixed : Prefixed migrations records

namespace Consistent

variable (distinct : (migrations.map Migration.name).Nodup)
variable (consistent : Consistent migrations start records)
include distinct consistent

theorem entry_mem (member : m ∈ migrations) (fresh : m.name ∉ start.map Prod.fst)
    (recorded : m.name ∈ records.map Prod.fst) : m.entry ∈ records := by
  obtain ⟨record, kept, same⟩ := List.mem_map.mp recorded
  rcases consistent.shipped record kept with old | ⟨other, listed, rfl⟩
  · exact absurd (same ▸ List.mem_map_of_mem old) fresh
  · rwa [← List.inj_on_of_nodup_map distinct listed member same]

theorem unchanged (unchanged : Unchanged migrations start) : Unchanged migrations records := by
  intro m member checksum recorded
  rcases consistent.shipped _ recorded with old | ⟨other, listed, same⟩
  · exact unchanged m member checksum old
  · obtain ⟨name, rfl⟩ := Prod.mk.inj same
    rw [List.inj_on_of_nodup_map distinct member listed name]

variable {done rest : List Migration} (whole : migrations = done ++ m :: rest)
variable (fresh : m.name ∉ start.map Prod.fst)
include whole fresh

theorem mem_keepOne {record : String × String} :
    record ∈ keepOne records m.entry ↔ record ∈ records ∨ record = m.entry := by
  unfold keepOne
  split
  next recorded =>
    have kept := consistent.entry_mem distinct (by simp [whole]) fresh recorded
    constructor
    · exact .inl
    · rintro (kept | rfl) <;> assumption
  next => simp

theorem keepOne (applied : ∀ d ∈ done, d.name ∈ records.map Prod.fst) :
    Consistent migrations start (keepOne records m.entry) where
  grown := consistent.grown.trans (prefix_keepOne records m.entry)
  unique := nodup_keepOne consistent.unique m.entry
  shipped := by
    intro record kept
    rcases (consistent.mem_keepOne distinct whole fresh).mp kept with old | rfl
    · exact consistent.shipped record old
    · exact .inr ⟨m, by simp [whole], rfl⟩
  prefixed := by
    unfold Schema.keepOne
    split
    next => exact consistent.prefixed
    next new => exact consistent.prefixed.append distinct whole applied new

end Consistent

/-- Nothing, or the record of a migration that was not there at the start, when all before it are
recorded. -/
def Due (migrations : List Migration) (start records new : Recorded) : Prop :=
  new = [] ∨ ∃ done m rest, new = [m.entry] ∧ migrations = done ++ m :: rest ∧
    (∀ d ∈ done, d.entry ∈ records) ∧ m.name ∉ start.map Prod.fst

namespace Due

variable {new : Recorded} (due : Due migrations start records new)
include due

theorem mem_keep (distinct : (migrations.map Migration.name).Nodup)
    (consistent : Consistent migrations start records) (record : String × String) :
    record ∈ keep records new ↔ record ∈ records ∨ record ∈ new := by
  rcases due with rfl | ⟨done, m, rest, rfl, whole, -, fresh⟩
  · simp [keep]
  · rw [List.mem_singleton]
    exact consistent.mem_keepOne distinct whole fresh

theorem consistent (distinct : (migrations.map Migration.name).Nodup)
    (consistent : Consistent migrations start records) :
    Consistent migrations start (keep records new) := by
  rcases due with rfl | ⟨done, m, rest, rfl, whole, applied, fresh⟩
  · exact consistent
  · exact consistent.keepOne distinct whole fresh fun d member =>
      List.mem_map.mpr ⟨d.entry, applied d member, rfl⟩

/-- Once all are recorded, nothing is left to record. -/
theorem keep_eq (complete : ∀ m ∈ migrations, m.entry ∈ records) : keep records new = records := by
  rcases due with rfl | ⟨done, m, rest, rfl, whole, -, -⟩
  · rfl
  · have recorded := complete m (by simp [whole])
    exact if_pos (List.mem_map.mpr ⟨m.entry, recorded, rfl⟩)

end Due

end Schema

end LeaseQueue
