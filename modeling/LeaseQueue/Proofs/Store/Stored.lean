import LeaseQueue.Proofs.Json.Lists
import LeaseQueue.Proofs.Store.Keys
import LeaseQueue.Proofs.Store.Ledger
/-! A ledger that records what the store does is the store itself, once its times are cut to
milliseconds. Each operation of the store is read here as one on exact rows. -/
namespace LeaseQueue

theorem readId_bytes (grouping : GroupingId) : Store.readId grouping.bytes = .ok grouping := by
  rw [Store.readId, GroupingId.ofBytes_bytes]
  rfl

theorem readDigests_encodeList (digests : List Digest) :
    Store.readDigests (Digest.encodeList digests) = .ok digests := by
  rw [Store.readDigests, Digest.decodeList_encodeList]
  rfl

theorem add?_of_leaseEnd {now ends : Instant} {lease : Span}
    (granted : leaseEnd now lease = .ok ends) : now.add? lease = some ends :=
  Instant.add?_eq_some_iff.mpr (leaseEnd_eq_ok_iff.mp granted)

/-- A rewriting of rows, seen through another form of them. -/
theorem map_rewritten {α β : Type} (rows : List α) (form : α → β) (f : α → α) (g : β → β)
    (same : ∀ row, form (f row) = g (form row)) :
    (rows.map f).map form = (rows.map form).map g := by
  rw [List.map_map, List.map_map]
  exact List.map_congr_left fun row _ => same row

namespace ExactSecondary

/-- Whether the row is due by its stored times. -/
def isDueStored (now : Int) (row : ExactSecondary) : Bool :=
  row.leaseEnds.millis < now && row.calculated.millis < row.updated.millis && !row.digests.isEmpty

theorem isDueStored_iff {now : Int} {row : ExactSecondary} :
    row.isDueStored now = true ↔ row.leaseEnds.millis < now ∧
      row.calculated.millis < row.updated.millis ∧ row.digests ≠ [] := by
  simp [isDueStored, and_assoc]

theorem stored_isDue? (row : ExactSecondary) (now : Int) :
    row.stored.isDue? now = some (row.isDueStored now) := by
  unfold SecondaryRow.isDue? isDueStored stored
  by_cases ended : row.leaseEnds.millis < now ∧ row.calculated.millis < row.updated.millis
  · rw [if_pos ended, Digest.arrayLength?_encodeList]
    cases row.digests with
    | nil => simp
    | cons digest rest => simp [ended]
  · rw [if_neg ended]
    rw [not_and_or] at ended
    rcases ended with running | calculated
    · simp [running]
    · simp [calculated]

theorem hasKey_iff {branch : String} {grouping : GroupingId} {row : ExactSecondary} :
    row.hasKey branch grouping = true ↔ row.branch = branch ∧ row.grouping = grouping := by
  simp [hasKey]

theorem stored_hasKey (row : ExactSecondary) (branch : String) (grouping : GroupingId) :
    row.stored.hasKey branch grouping.bytes = row.hasKey branch grouping := by
  rw [Bool.eq_iff_iff, SecondaryRow.hasKey_iff, hasKey_iff, stored, GroupingId.bytes_inj]

theorem stored_work (row : ExactSecondary) : row.stored.work = .ok row.work := by
  simp only [SecondaryRow.work, stored, readId_bytes, readDigests_encodeList]
  rfl

end ExactSecondary

namespace Ledger

variable (l : Ledger)

/-! What an operation changes, in the store and in the ledger. -/

theorem stored_leasePrimary (grouping : GroupingId) (ends : Instant) :
    (l.leasePrimary grouping ends).stored =
      l.stored.setPrimaryLease grouping.bytes ends.millis := by
  unfold stored leasePrimary Store.setPrimaryLease
  congr 1
  apply map_rewritten
  intro row
  simp only [ExactPrimary.stored, GroupingId.bytes_inj]
  split <;> rfl

theorem stored_leaseSecondary (branch : String) (grouping : GroupingId) (ends : Instant) :
    (l.leaseSecondary branch grouping ends).stored =
      l.stored.setSecondaryLease branch grouping.bytes ends.millis := by
  unfold stored leaseSecondary Store.setSecondaryLease
  congr 1
  apply map_rewritten
  intro row
  rw [ExactSecondary.stored_hasKey]
  split <;> rfl

theorem stored_completePrimary (grouping : GroupingId) (now : Instant) :
    (l.completePrimary grouping now).stored = l.stored.completePrimary grouping now := by
  unfold stored completePrimary Store.completePrimary
  congr 1
  apply map_rewritten
  intro row
  simp only [ExactPrimary.stored, GroupingId.bytes_inj]
  split <;> rfl

theorem stored_completeSecondary (branch : String) (grouping : GroupingId) (now : Instant) :
    (l.completeSecondary branch grouping now).stored =
      l.stored.completeSecondary branch grouping now := by
  unfold stored completeSecondary Store.completeSecondary
  congr 1
  apply map_rewritten
  intro row
  rw [ExactSecondary.stored_hasKey]
  split <;> rfl

theorem stored_ensureOne (grouping : GroupingId) :
    (l.ensureOne grouping).stored = l.stored.ensureOne grouping := by
  have present : (l.stored.primary.any fun row => row.key = grouping.bytes) =
      l.primary.any fun row => row.grouping = grouping := by
    simp only [stored, List.any_map, Function.comp_def, ExactPrimary.stored, GroupingId.bytes_inj]
  unfold ensureOne Store.ensureOne
  rw [present]
  split
  · rfl
  · simp only [stored, List.map_append]
    rfl

theorem stored_ensurePrimary (groupings : List GroupingId) :
    (groupings.foldl ensureOne l).stored = l.stored.ensurePrimary groupings := by
  induction groupings generalizing l with
  | nil => rfl
  | cons grouping groupings ih =>
    rw [List.foldl_cons, ih, stored_ensureOne]
    rfl

theorem stored_upsertSecondary (work : SecondaryWork) (updated : Instant) :
    (l.upsertSecondary work updated).stored =
      l.stored.upsertSecondary work.branch work.grouping work.digests updated := by
  have present : l.stored.secondary.any (SecondaryRow.hasKey work.branch work.grouping.bytes) =
      l.secondary.any (ExactSecondary.hasKey work.branch work.grouping) := by
    simp only [stored, List.any_map, Function.comp_def, ExactSecondary.stored_hasKey]
  unfold upsertSecondary Store.upsertSecondary
  simp only [present]
  split
  · unfold stored
    congr 1
    apply map_rewritten
    intro row
    rw [ExactSecondary.stored_hasKey]
    split <;> rfl
  · simp only [stored, List.map_append]
    rfl

theorem stored_retireBranch (branch : String) :
    (l.retireBranch branch).stored = (l.stored.retireBranch branch).2 := by
  unfold stored retireBranch Store.retireBranch
  congr 1
  rw [List.filter_map]
  rfl

theorem stored_putGrouping (grouping : GroupingId) (params : Params) :
    (l.putGrouping grouping params).stored = l.stored.putGrouping grouping params := by
  unfold putGrouping Store.putGrouping
  rw [apply_ite Ledger.stored]
  rfl

/-! Rows by their key. -/

theorem stored_primaryRow? (grouping : GroupingId) :
    (l.stored.primary.find? fun row => row.key = grouping.bytes) =
      (l.primaryRow? grouping).map ExactPrimary.stored := by
  simp only [stored, List.find?_map, primaryRow?, Function.comp_def, ExactPrimary.stored,
    GroupingId.bytes_inj]

theorem stored_secondaryRow? (branch : String) (grouping : GroupingId) :
    l.stored.secondary.find? (SecondaryRow.hasKey branch grouping.bytes) =
      (l.secondaryRow? branch grouping).map ExactSecondary.stored := by
  simp only [stored, List.find?_map, secondaryRow?, Function.comp_def,
    ExactSecondary.stored_hasKey]

variable {l}

theorem primaryRow?_of_mem {row : ExactPrimary} (keyed : l.stored.Keyed)
    (member : row ∈ l.primary) : l.primaryRow? row.grouping = some row := by
  have unique := keyed.primary
  rw [stored, List.map_map] at unique
  apply find?_of_key (k := row.grouping.bytes) unique
  · intro other own
    exact congrArg GroupingId.bytes (of_decide_eq_true own)
  · exact member
  · exact decide_eq_true rfl

theorem secondaryRow?_of_mem {row : ExactSecondary} (keyed : l.stored.Keyed)
    (member : row ∈ l.secondary) : l.secondaryRow? row.branch row.grouping = some row := by
  have unique := keyed.secondary
  rw [stored, List.map_map] at unique
  apply find?_of_key (k := (row.branch, row.grouping.bytes)) unique
  · intro other own
    obtain ⟨branch, grouping⟩ := ExactSecondary.hasKey_iff.mp own
    exact Prod.ext_iff.mpr ⟨branch, congrArg GroupingId.bytes grouping⟩
  · exact member
  · exact ExactSecondary.hasKey_iff.mpr ⟨rfl, rfl⟩

/-! Each claim of the store, as one on exact rows. -/

variable (l)

theorem claimPrimary_stored (now : Instant) (staleness lease : Span) :
    (∃ row ∈ l.primary, ∃ stale ends, staleCutoff now staleness = .ok stale ∧
      leaseEnd now lease = .ok ends ∧ row.leaseEnds.millis < now.millis ∧
      row.calculated.millis < stale.millis ∧
      l.stored.claimPrimary now staleness lease =
        (.ok (some row.grouping), (l.leasePrimary row.grouping ends).stored)) ∨
    ((∀ grouping, (l.stored.claimPrimary now staleness lease).1 ≠ .ok (some grouping)) ∧
      (l.stored.claimPrimary now staleness lease).2 = l.stored) := by
  refine (l.stored.claimPrimary_cases now staleness lease).imp_left ?_
  rintro ⟨_, stale, ends, cutoff, granted, found, eq⟩
  have member := List.mem_mergeSort.mp (List.mem_of_find?_eq_some found)
  obtain ⟨row, own, rfl⟩ := List.mem_map.mp member
  have due := PrimaryRow.isDue_iff.mp (List.find?_some found)
  have read : Store.readId row.stored.key = .ok row.grouping := readId_bytes row.grouping
  refine ⟨row, own, stale, ends, cutoff, granted, due.1, due.2, ?_⟩
  rw [eq, read, stored_leasePrimary]
  rfl

theorem claimOldest_stored (now : Instant) (lease : Span) :
    (∃ row ∈ l.secondary, ∃ ends, leaseEnd now lease = .ok ends ∧
      row.isDueStored now.millis = true ∧
      l.stored.claimOldest now lease =
        (.ok (some row.work), (l.leaseSecondary row.branch row.grouping ends).stored)) ∨
    ((∀ work, (l.stored.claimOldest now lease).1 ≠ .ok (some work)) ∧
      (l.stored.claimOldest now lease).2 = l.stored) := by
  refine (l.stored.claimOldest_cases now lease).imp_left ?_
  rintro ⟨_, rest, ends, granted, found, eq⟩
  obtain ⟨member, due⟩ := Store.mem_firstDue found _ List.mem_cons_self
  obtain ⟨row, own, rfl⟩ := List.mem_map.mp (List.mem_mergeSort.mp member)
  rw [ExactSecondary.stored_isDue?] at due
  refine ⟨row, own, ends, granted, Option.some.inj due, ?_⟩
  rw [eq, ExactSecondary.stored_work, stored_leaseSecondary]
  rfl

theorem leaseSecondary_stored (branch : String) (grouping : GroupingId) (now : Instant)
    (lease : Span) :
    (∃ row ends, l.secondaryRow? branch grouping = some row ∧ leaseEnd now lease = .ok ends ∧
      row.isDueStored now.millis = true ∧
      l.stored.leaseSecondary branch grouping now lease =
        (.ok (some row.digests), (l.leaseSecondary branch grouping ends).stored)) ∨
    ((∀ digests, (l.stored.leaseSecondary branch grouping now lease).1 ≠ .ok (some digests)) ∧
      (l.stored.leaseSecondary branch grouping now lease).2 = l.stored) := by
  refine (l.stored.leaseSecondary_cases branch grouping now lease).imp_left ?_
  rintro ⟨_, ends, granted, found, due, eq⟩
  rw [stored_secondaryRow?] at found
  obtain ⟨row, own, rfl⟩ := Option.map_eq_some_iff.mp found
  rw [ExactSecondary.stored_isDue?] at due
  have read : Store.readDigests row.stored.digests = .ok row.digests :=
    readDigests_encodeList row.digests
  refine ⟨row, ends, own, granted, Option.some.inj due, ?_⟩
  rw [eq, read, stored_leaseSecondary]
  rfl

theorem secondaryRow?_key {branch : String} {grouping : GroupingId} {row : ExactSecondary}
    (found : l.secondaryRow? branch grouping = some row) :
    row.branch = branch ∧ row.grouping = grouping :=
  ExactSecondary.hasKey_iff.mp (List.find?_some found)

/-- A random claim returns a row as it is when it is leased, however it was read before. -/
theorem claimRandom_stored (choice : Nat) (now : Instant) (lease : Span) :
    (∃ row ∈ l.secondary, ∃ ends, leaseEnd now lease = .ok ends ∧
      row.isDueStored now.millis = true ∧
      l.stored.claimRandom choice now lease =
        (.ok (some row.work), (l.leaseSecondary row.branch row.grouping ends).stored)) ∨
    ((∀ work, (l.stored.claimRandom choice now lease).1 ≠ .ok (some work)) ∧
      (l.stored.claimRandom choice now lease).2 = l.stored) := by
  rcases l.stored.claimRandom_cases choice now lease with ⟨_, work, _, _, eq⟩ | nothing
  · rw [eq, Store.leaseCandidate_eq]
    rcases l.leaseSecondary_stored work.branch work.grouping now lease with
      ⟨row, ends, found, granted, due, leased⟩ | ⟨none, same⟩
    · left
      obtain ⟨branch, grouping⟩ := l.secondaryRow?_key found
      refine ⟨row, List.mem_of_find?_eq_some found, ends, granted, due, ?_⟩
      rw [leased, ExactSecondary.work, branch, grouping]
      rfl
    · right
      refine ⟨?_, same⟩
      intro won wins
      obtain ⟨digests?, answer, mapped⟩ := exists_of_map_eq_ok wins
      cases digests? with
      | none => cases mapped
      | some digests => exact none digests answer
  · exact .inr nothing

/-! The ledger follows the store. -/

theorem stored_record_claimPrimary (now : Instant) (staleness lease : Span) :
    (l.stored.claimPrimary now staleness lease).2 =
      (l.record (.claimPrimary now staleness lease)
        ((l.stored.claimPrimary now staleness lease).1.map .primaryWork)).stored := by
  rcases l.claimPrimary_stored now staleness lease with
    ⟨row, _, stale, ends, _, granted, _, _, eq⟩ | ⟨none, same⟩
  · rw [eq]
    simp only [Except.map, record, add?_of_leaseEnd granted, Option.elim_some]
  · rw [same]
    rcases error_or_none none with ⟨e, h⟩ | h <;> rw [h] <;> rfl

theorem stored_record_claimOldest (now : Instant) (lease : Span) :
    (l.stored.claimOldest now lease).2 =
      (l.record (.claimOldest now lease)
        ((l.stored.claimOldest now lease).1.map .secondaryWork)).stored := by
  rcases l.claimOldest_stored now lease with ⟨row, _, ends, granted, _, eq⟩ | ⟨none, same⟩
  · rw [eq]
    simp only [Except.map, record, add?_of_leaseEnd granted, Option.elim_some, ExactSecondary.work]
  · rw [same]
    rcases error_or_none none with ⟨e, h⟩ | h <;> rw [h] <;> rfl

theorem stored_record_claimRandom (choice : Nat) (now : Instant) (lease : Span) :
    (l.stored.claimRandom choice now lease).2 =
      (l.record (.claimRandom choice now lease)
        ((l.stored.claimRandom choice now lease).1.map .secondaryWork)).stored := by
  rcases l.claimRandom_stored choice now lease with ⟨row, _, ends, granted, _, eq⟩ | ⟨none, same⟩
  · rw [eq]
    simp only [Except.map, record, add?_of_leaseEnd granted, Option.elim_some, ExactSecondary.work]
  · rw [same]
    rcases error_or_none none with ⟨e, h⟩ | h <;> rw [h] <;> rfl

theorem stored_record_leaseSecondary (branch : String) (grouping : GroupingId) (now : Instant)
    (lease : Span) :
    (l.stored.leaseSecondary branch grouping now lease).2 =
      (l.record (.leaseSecondary branch grouping now lease)
        ((l.stored.leaseSecondary branch grouping now lease).1.map .digests)).stored := by
  rcases l.leaseSecondary_stored branch grouping now lease with
    ⟨row, ends, _, granted, _, eq⟩ | ⟨none, same⟩
  · rw [eq]
    simp only [Except.map, record, add?_of_leaseEnd granted, Option.elim_some]
  · rw [same]
    rcases error_or_none none with ⟨e, h⟩ | h <;> rw [h] <;> rfl

/-- Recording an operation of the store gives the store after it. -/
theorem stored_record (c : StoreCall) :
    (l.stored.perform c).2 = (l.record c (l.stored.perform c).1).stored := by
  cases c with
  | claimPrimary now staleness lease => exact stored_record_claimPrimary l now staleness lease
  | claimOldest now lease => exact stored_record_claimOldest l now lease
  | claimRandom choice now lease => exact stored_record_claimRandom l choice now lease
  | leaseSecondary branch grouping now lease =>
    exact stored_record_leaseSecondary l branch grouping now lease
  | completePrimary grouping now => exact (stored_completePrimary l grouping now).symm
  | completeSecondary branch grouping now =>
    exact (stored_completeSecondary l branch grouping now).symm
  | ensurePrimary groupings => exact (stored_ensurePrimary l groupings).symm
  | upsertSecondary work updated => exact (stored_upsertSecondary l work updated).symm
  | retireBranch branch => exact (stored_retireBranch l branch).symm
  | putGrouping grouping params => exact (stored_putGrouping l grouping params).symm
  | groupingParams grouping => rfl
  | primaryRow grouping => rfl
  | secondaryRow branch grouping => rfl
  | candidates now limit => rfl

theorem stored_follow (calls : List StoreCall) :
    (l.follow l.stored calls).stored = l.stored.after calls := by
  induction calls generalizing l with
  | nil => rfl
  | cons c cs ih =>
    rw [follow, Store.after, stored_record]
    exact ih (l.record c (l.stored.perform c).1)

end Ledger

end LeaseQueue
