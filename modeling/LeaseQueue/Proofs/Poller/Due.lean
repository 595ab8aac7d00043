import LeaseQueue.Poller.Basic
import LeaseQueue.Proofs.Store.Legible
import LeaseQueue.Proofs.Work.Steps
/-! The rows of a queue that a claim may lease, by their keys. A lease takes its row off them, and a
completion of a row that is leased changes nothing. -/
namespace LeaseQueue

def PrimaryRow.rowKey (row : PrimaryRow) : RowKey := .primary row.key

def SecondaryRow.rowKey (row : SecondaryRow) : RowKey := .secondary row.branch row.key

namespace Store

/-- The keys of the rows of a queue that are due. -/
def dueKeys (s : Store) (now stale : Int) : Source → List RowKey
  | .primary => (s.primary.filter (PrimaryRow.isDue now stale)).map PrimaryRow.rowKey
  | .secondary => (s.secondary.filter (SecondaryRow.isDue now)).map SecondaryRow.rowKey

section Rows

variable {α κ : Type} {rows : List α} {f : α → α} {due : α → Bool} {key : α → κ}

/-- A rewriting of rows after which only rows with some of the keys are due. -/
theorem filter_map_kept {kept : κ → Bool} (keys : ∀ row, key (f row) = key row)
    (still : ∀ row ∈ rows, due (f row) = (due row && kept (key row))) :
    ((rows.map f).filter due).map key = ((rows.filter due).map key).filter kept := by
  have same : key ∘ f = key := funext keys
  have left : rows.filter (due ∘ f) = rows.filter fun row => kept (key row) && due row := by
    apply List.filter_congr
    intro row member
    rw [Function.comp_apply, still row member, Bool.and_comm]
  rw [List.filter_map, List.map_map, same, left, List.filter_map, List.filter_filter]
  rfl

theorem filter_map_same (keys : ∀ row, key (f row) = key row)
    (still : ∀ row ∈ rows, due (f row) = due row) :
    ((rows.map f).filter due).map key = (rows.filter due).map key := by
  have same : key ∘ f = key := funext keys
  have left : rows.filter (due ∘ f) = rows.filter due := List.filter_congr still
  rw [List.filter_map, List.map_map, same, left]

end Rows

variable {s : Store} {now stale : Int}

theorem mem_dueKeys_primary {row : PrimaryRow} (member : row ∈ s.primary)
    (due : row.isDue now stale = true) : .primary row.key ∈ s.dueKeys now stale .primary :=
  List.mem_map.mpr ⟨row, List.mem_filter.mpr ⟨member, due⟩, rfl⟩

theorem mem_dueKeys_secondary {row : SecondaryRow} (member : row ∈ s.secondary)
    (due : row.isDue now = true) :
    .secondary row.branch row.key ∈ s.dueKeys now stale .secondary :=
  List.mem_map.mpr ⟨row, List.mem_filter.mpr ⟨member, due⟩, rfl⟩

theorem dueKeys_primary_eq_nil (none : ∀ row ∈ s.primary, row.isDue now stale = false) :
    s.dueKeys now stale .primary = [] := by
  have empty : s.primary.filter (PrimaryRow.isDue now stale) = [] :=
    List.filter_eq_nil_iff.mpr fun row member => Bool.eq_false_iff.mp (none row member)
  rw [dueKeys, empty, List.map_nil]

theorem dueKeys_secondary_eq_nil (none : ∀ row ∈ s.secondary, row.isDue now = false) :
    s.dueKeys now stale .secondary = [] := by
  have empty : s.secondary.filter (SecondaryRow.isDue now) = [] :=
    List.filter_eq_nil_iff.mpr fun row member => Bool.eq_false_iff.mp (none row member)
  rw [dueKeys, empty, List.map_nil]

theorem Keyed.nodup_dueKeys (keyed : s.Keyed) (now stale : Int) (source : Source) :
    (s.dueKeys now stale source).Nodup := by
  cases source with
  | primary =>
    have keys : (s.primary.map PrimaryRow.rowKey).Nodup := by
      have own := List.Nodup.map (f := RowKey.primary) (fun _ _ => RowKey.primary.inj) keyed.primary
      rwa [List.map_map] at own
    exact keys.sublist (List.filter_sublist.map _)
  | secondary =>
    have keys : (s.secondary.map SecondaryRow.rowKey).Nodup := by
      have apart : Function.Injective fun k : String × List UInt8 => RowKey.secondary k.1 k.2 := by
        intro one other same
        obtain ⟨branch, key⟩ := RowKey.secondary.inj same
        exact Prod.ext branch key
      have own := List.Nodup.map apart keyed.secondary
      rwa [List.map_map] at own
    exact keys.sublist (List.filter_sublist.map _)

theorem notMem_dueKeys_other {key : RowKey} {source other : Source} (apart : other ≠ source)
    (due : key ∈ s.dueKeys now stale source) (t : Store) : key ∉ t.dueKeys now stale other := by
  intro also
  cases source <;> cases other <;> first
    | exact apart rfl
    | (obtain ⟨_, _, rfl⟩ := List.mem_map.mp due
       obtain ⟨_, _, same⟩ := List.mem_map.mp also
       cases same)

/-- A row that was leased is not due any more, and every other row is as before. -/
theorem dueKeys_setLease {ends : Int} (leased : now ≤ ends) (key : RowKey) (source : Source) :
    (s.setLease key ends).dueKeys now stale source =
      (s.dueKeys now stale source).filter fun k => k ≠ key := by
  cases key with
  | primary key =>
    cases source with
    | primary =>
      apply filter_map_kept
      · intro row
        split <;> rfl
      · intro row _
        by_cases own : row.key = key
        · rw [if_pos own, PrimaryRow.isDue_false_of_leased leased]
          simp [PrimaryRow.rowKey, own]
        · rw [if_neg own]
          simp [PrimaryRow.rowKey, own]
    | secondary =>
      symm
      apply List.filter_eq_self.mpr
      intro k member
      obtain ⟨row, _, rfl⟩ := List.mem_map.mp member
      rfl
  | secondary branch key =>
    cases source with
    | primary =>
      symm
      apply List.filter_eq_self.mpr
      intro k member
      obtain ⟨row, _, rfl⟩ := List.mem_map.mp member
      rfl
    | secondary =>
      apply filter_map_kept
      · intro row
        split <;> rfl
      · intro row _
        by_cases own : row.hasKey branch key = true
        · rw [if_pos own, SecondaryRow.isDue_false_of_leased leased]
          simp [SecondaryRow.rowKey, SecondaryRow.hasKey_iff.mp own]
        · have other : ¬ (row.branch = branch ∧ row.key = key) :=
            fun same => own (SecondaryRow.hasKey_iff.mpr same)
          rw [if_neg own]
          simp [SecondaryRow.rowKey, other]

/-- A row that is due can be leased. -/
theorem grant_of_due {now stale : Instant} {key : RowKey} {source : Source}
    (due : key ∈ s.dueKeys now.millis stale.millis source) (ends : Instant) :
    Grant s key now ends (s.setLease key ends.millis) := by
  refine ⟨?_, rfl⟩
  cases source with
  | primary =>
    obtain ⟨row, found, rfl⟩ := List.mem_map.mp due
    obtain ⟨member, ready⟩ := List.mem_filter.mp found
    exact ⟨_, mem_leases_primary member, (PrimaryRow.isDue_iff.mp ready).1⟩
  | secondary =>
    obtain ⟨row, found, rfl⟩ := List.mem_map.mp due
    obtain ⟨member, ready⟩ := List.mem_filter.mp found
    have own : row.hasKey row.branch row.key = true := SecondaryRow.hasKey_iff.mpr ⟨rfl, rfl⟩
    have known := SecondaryRow.isDue_iff.mp ready
    exact ⟨_, mem_leases_secondary member own, (SecondaryRow.isDue?_eq_true_iff.mp known).1⟩

theorem dueKeys_completePrimary {grouping : GroupingId}
    (leased : s.LeasedTo (.primary grouping.bytes) now) (time : Instant) (source : Source) :
    (s.completePrimary grouping time).dueKeys now stale source = s.dueKeys now stale source := by
  cases source with
  | secondary => rfl
  | primary =>
    apply filter_map_same
    · intro row
      split <;> rfl
    · intro row member
      split
      · rename_i own
        have ends : now ≤ row.leaseEnds := leased.2 _ (own ▸ mem_leases_primary member)
        rw [PrimaryRow.isDue_false_of_leased ends]
        exact PrimaryRow.isDue_false_of_leased ends
      · rfl

theorem dueKeys_completeSecondary {branch : String} {grouping : GroupingId}
    (leased : s.LeasedTo (.secondary branch grouping.bytes) now) (time : Instant)
    (source : Source) :
    (s.completeSecondary branch grouping time).dueKeys now stale source =
      s.dueKeys now stale source := by
  cases source with
  | primary => rfl
  | secondary =>
    apply filter_map_same
    · intro row
      split <;> rfl
    · intro row member
      split
      · rename_i own
        have ends : now ≤ row.leaseEnds := leased.2 _ (mem_leases_secondary member own)
        rw [SecondaryRow.isDue_false_of_leased ends]
        exact SecondaryRow.isDue_false_of_leased ends
      · rfl

/-- Completing work that is leased leaves what is due as it was. -/
theorem dueKeys_complete {w : World} {work : ClaimedWork} (leased : w.store.LeasedTo work.key now)
    (time : Instant) (source : Source) :
    (Stage.complete work time w).store.dueKeys now stale source =
      w.store.dueKeys now stale source := by
  obtain ⟨branch, grouping, digests⟩ := work
  cases branch with
  | none => exact dueKeys_completePrimary leased time source
  | some branch => exact dueKeys_completeSecondary leased time source

end Store

end LeaseQueue
