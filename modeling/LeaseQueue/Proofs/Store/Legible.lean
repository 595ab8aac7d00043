import LeaseQueue.Proofs.Store.Stored
/-! Stores in which every row can be read, as every store that operations have filled is. There a
claim fails only for its times, and it finds no work only where no row is due. -/
namespace LeaseQueue

def PrimaryRow.Legible (row : PrimaryRow) : Prop := ∃ exact : ExactPrimary, exact.stored = row

def SecondaryRow.Legible (row : SecondaryRow) : Prop := ∃ exact : ExactSecondary, exact.stored = row

/-- Whether a claim at `now` may lease the row. -/
def SecondaryRow.isDue (now : Int) (row : SecondaryRow) : Bool := row.isDue? now = some true

namespace SecondaryRow

theorem isDue_iff {now : Int} {row : SecondaryRow} :
    row.isDue now = true ↔ row.isDue? now = some true := decide_eq_true_iff

theorem isDue_false_of_leased {now : Int} {row : SecondaryRow} (leased : now ≤ row.leaseEnds) :
    row.isDue now = false := by
  rw [Bool.eq_false_iff]
  intro due
  have ended := (isDue?_eq_true_iff.mp (isDue_iff.mp due)).1
  omega

theorem Legible.isDue? {row : SecondaryRow} (legible : row.Legible) (now : Int) :
    row.isDue? now = some (row.isDue now) := by
  obtain ⟨exact, rfl⟩ := legible
  unfold SecondaryRow.isDue
  rw [exact.stored_isDue?]
  simp

theorem Legible.work {row : SecondaryRow} (legible : row.Legible) :
    ∃ work, row.work = .ok work ∧ Store.readDigests row.digests = .ok work.digests := by
  obtain ⟨exact, rfl⟩ := legible
  exact ⟨exact.work, exact.stored_work, readDigests_encodeList exact.digests⟩

/-- A row that is due has digests to calculate. -/
theorem Legible.digests_ne_nil {row : SecondaryRow} {now : Int} {work : SecondaryWork}
    (legible : row.Legible) (due : row.isDue now = true) (read : row.work = .ok work) :
    work.digests ≠ [] := by
  obtain ⟨exact, rfl⟩ := legible
  rw [isDue_iff, exact.stored_isDue?] at due
  cases exact.stored_work.symm.trans read
  exact (ExactSecondary.isDueStored_iff.mp (Option.some.inj due)).2.2

end SecondaryRow

theorem PrimaryRow.isDue_false_of_leased {now stale : Int} {row : PrimaryRow}
    (leased : now ≤ row.leaseEnds) : row.isDue now stale = false := by
  rw [Bool.eq_false_iff]
  intro due
  have ended := (isDue_iff.mp due).1
  omega

namespace Store

structure Legible (s : Store) : Prop where
  primary : ∀ row ∈ s.primary, row.Legible
  secondary : ∀ row ∈ s.secondary, row.Legible

theorem legible_stored (l : Ledger) : l.stored.Legible := by
  constructor
  · intro row member
    obtain ⟨exact, _, same⟩ := List.mem_map.mp member
    exact ⟨exact, same⟩
  · intro row member
    obtain ⟨exact, _, same⟩ := List.mem_map.mp member
    exact ⟨exact, same⟩

theorem legible_after (calls : List StoreCall) : (empty.after calls).Legible := by
  have followed : (Ledger.empty.follow empty calls).stored = empty.after calls :=
    Ledger.empty.stored_follow calls
  rw [← followed]
  exact legible_stored _

namespace Legible

variable {s : Store}

theorem setSecondaryLease (legible : s.Legible) (branch : String) (key : List UInt8)
    (ends : Instant) : (s.setSecondaryLease branch key ends.millis).Legible := by
  refine ⟨legible.primary, ?_⟩
  intro row member
  obtain ⟨before, own, rfl⟩ := List.mem_map.mp member
  obtain ⟨exact, rfl⟩ := legible.secondary before own
  split
  · exact ⟨{ exact with leaseEnds := ends }, rfl⟩
  · exact ⟨exact, rfl⟩

end Legible

/-! What a scan finds. -/

theorem firstDue_legible {rows : List SecondaryRow} (legible : ∀ row ∈ rows, row.Legible)
    (now : Int) (limit : Nat) :
    firstDue now limit rows = .ok ((rows.filter (SecondaryRow.isDue now)).take limit) := by
  induction rows generalizing limit with
  | nil => cases limit <;> rfl
  | cons row rows ih =>
    have rest : ∀ row ∈ rows, row.Legible :=
      fun other member => legible other (List.mem_cons_of_mem _ member)
    cases limit with
    | zero => rfl
    | succ limit =>
      rw [firstDue, (legible row List.mem_cons_self).isDue?]
      cases due : row.isDue now with
      | false => rw [List.filter_cons_of_neg (by simp [due])]; exact ih rest (limit + 1)
      | true =>
        rw [List.filter_cons_of_pos due]
        simp only [ih rest limit]
        rfl

theorem mapM_work {rows : List SecondaryRow} (legible : ∀ row ∈ rows, row.Legible) :
    ∃ works, rows.mapM SecondaryRow.work = .ok works ∧ works.length = rows.length ∧
      ∀ work ∈ works, ∃ row ∈ rows, row.work = .ok work := by
  induction rows with
  | nil => exact ⟨[], rfl, rfl, List.forall_mem_nil _⟩
  | cons row rows ih =>
    obtain ⟨work, read, _⟩ := (legible row List.mem_cons_self).work
    obtain ⟨works, more, length, members⟩ :=
      ih fun other member => legible other (List.mem_cons_of_mem _ member)
    refine ⟨work :: works, ?_, ?_, ?_⟩
    · rw [List.mapM_cons, read, more]
      rfl
    · rw [List.length_cons, List.length_cons, length]
    · intro other member
      rcases List.mem_cons.mp member with rfl | member
      · exact ⟨row, List.mem_cons_self, read⟩
      · obtain ⟨own, found, same⟩ := members other member
        exact ⟨own, List.mem_cons_of_mem _ found, same⟩

theorem pick_eq_none_iff {choice : Nat} {works : List SecondaryWork} :
    pick choice works = none ↔ works = [] := by
  unfold pick
  rw [List.getElem?_eq_none_iff]
  constructor
  · intro beyond
    rcases Nat.eq_zero_or_pos works.length with empty | filled
    · exact List.length_eq_zero_iff.mp empty
    · have inside := Nat.mod_lt choice filled
      omega
  · rintro rfl
    exact Nat.zero_le _

/-! What each claim does where rows are legible and the times are within the calendar. -/

section Claims

variable {s : Store} {now ends : Instant} {lease : Span}

theorem claimPrimary_legible {stale : Instant} {staleness : Span} (legible : s.Legible)
    (cutoff : staleCutoff now staleness = .ok stale) (granted : leaseEnd now lease = .ok ends) :
    ((∀ row ∈ s.primary, row.isDue now.millis stale.millis = false) ∧
      s.claimPrimary now staleness lease = (.ok none, s)) ∨
    ∃ row ∈ s.primary, row.isDue now.millis stale.millis = true ∧
      ∃ grouping : GroupingId, grouping.bytes = row.key ∧
        s.claimPrimary now staleness lease =
          (.ok (some grouping), s.setPrimaryLease row.key ends.millis) := by
  unfold claimPrimary
  simp only [cutoff, granted]
  cases found : s.primaryByAge.find? (PrimaryRow.isDue now.millis stale.millis) with
  | none =>
    refine .inl ⟨?_, rfl⟩
    intro row member
    have none := List.find?_eq_none.mp found row (List.mem_mergeSort.mpr member)
    exact Bool.eq_false_iff.mpr none
  | some row =>
    have member : row ∈ s.primary := List.mem_mergeSort.mp (List.mem_of_find?_eq_some found)
    obtain ⟨exact, same⟩ := legible.primary row member
    have key : exact.grouping.bytes = row.key := by rw [← same]; rfl
    have read : readId row.key = .ok exact.grouping := by rw [← key, readId_bytes]
    refine .inr ⟨row, member, List.find?_some found, exact.grouping, key, ?_⟩
    simp only [read]
    rfl

theorem claimOldest_legible (legible : s.Legible) (granted : leaseEnd now lease = .ok ends) :
    ((∀ row ∈ s.secondary, row.isDue now.millis = false) ∧
      s.claimOldest now lease = (.ok none, s)) ∨
    ∃ row ∈ s.secondary, row.isDue now.millis = true ∧ ∃ work, row.work = .ok work ∧
      s.claimOldest now lease =
        (.ok (some work), s.setSecondaryLease row.branch row.key ends.millis) := by
  have sorted : ∀ row ∈ s.secondaryByAge, row.Legible :=
    fun row member => legible.secondary row (List.mem_mergeSort.mp member)
  unfold claimOldest
  simp only [granted, firstDue_legible sorted]
  cases due : s.secondaryByAge.filter (SecondaryRow.isDue now.millis) with
  | nil =>
    refine .inl ⟨?_, rfl⟩
    intro row member
    have none := List.filter_eq_nil_iff.mp due row (List.mem_mergeSort.mpr member)
    exact Bool.eq_false_iff.mpr none
  | cons row rows =>
    have found : row ∈ s.secondaryByAge.filter (SecondaryRow.isDue now.millis) :=
      due ▸ List.mem_cons_self
    obtain ⟨member, ready⟩ := List.mem_filter.mp found
    obtain ⟨work, read, _⟩ := (sorted row member).work
    refine .inr ⟨row, List.mem_mergeSort.mp member, ready, work, read, ?_⟩
    rw [List.take_succ_cons, List.take_zero]
    simp only [read]
    rfl

/-- A random claim picks a row that is due as long as there is one. -/
theorem pick_legible (legible : s.Legible) (now : Instant) (choice : Nat) :
    ∃ works, s.candidates now candidateCount = .ok works ∧
      ((pick choice works = none ∧ ∀ row ∈ s.secondary, row.isDue now.millis = false) ∨
        ∃ row ∈ s.secondary, row.isDue now.millis = true ∧ ∃ work, row.work = .ok work ∧
          pick choice works = some work) := by
  have sorted : ∀ row ∈ s.secondaryByAge, row.Legible :=
    fun row member => legible.secondary row (List.mem_mergeSort.mp member)
  have taken : ∀ row ∈ (s.secondaryByAge.filter (SecondaryRow.isDue now.millis)).take
      candidateCount, row ∈ s.secondaryByAge ∧ row.isDue now.millis = true :=
    fun row member => List.mem_filter.mp (List.mem_of_mem_take member)
  obtain ⟨works, read, length, members⟩ := mapM_work fun row member =>
    sorted row (taken row member).1
  refine ⟨works, ?_, ?_⟩
  · unfold candidates
    simp only [firstDue_legible sorted]
    exact read
  · cases picked : pick choice works with
    | none =>
      refine .inl ⟨rfl, ?_⟩
      intro row member
      rw [pick_eq_none_iff.mp picked, List.length_nil, List.length_take] at length
      have none : s.secondaryByAge.filter (SecondaryRow.isDue now.millis) = [] := by
        apply List.length_eq_zero_iff.mp
        unfold candidateCount at length
        omega
      exact Bool.eq_false_iff.mpr
        (List.filter_eq_nil_iff.mp none row (List.mem_mergeSort.mpr member))
    | some work =>
      obtain ⟨row, found, same⟩ := members work (List.mem_of_getElem? picked)
      obtain ⟨member, due⟩ := taken row found
      exact .inr ⟨row, List.mem_mergeSort.mp member, due, work, same, rfl⟩

theorem find?_secondary (keyed : s.Keyed) {row : SecondaryRow} (member : row ∈ s.secondary) :
    s.secondary.find? (SecondaryRow.hasKey row.branch row.key) = some row := by
  apply find?_of_key (k := secondaryKey row) keyed.secondary
  · intro other own
    exact Prod.ext_iff.mpr (SecondaryRow.hasKey_iff.mp own)
  · exact member
  · exact SecondaryRow.hasKey_iff.mpr ⟨rfl, rfl⟩

/-- A candidate is leased if its row is still due, however old the candidate is. -/
theorem leaseCandidate_legible (legible : s.Legible) (keyed : s.Keyed)
    (granted : leaseEnd now lease = .ok ends) {row : SecondaryRow} (member : row ∈ s.secondary)
    {work : SecondaryWork} (branch : work.branch = row.branch)
    (key : work.grouping.bytes = row.key) :
    (row.isDue now.millis = false ∧ s.leaseCandidate work now lease = (.ok none, s)) ∨
    (row.isDue now.millis = true ∧ ∃ leased, row.work = .ok leased ∧
      s.leaseCandidate work now lease =
        (.ok (some leased), s.setSecondaryLease row.branch row.key ends.millis)) := by
  have own := legible.secondary row member
  rw [leaseCandidate_eq]
  unfold leaseSecondary
  simp only [granted, branch, key, find?_secondary keyed member, own.isDue?]
  cases due : row.isDue now.millis with
  | false => exact .inl ⟨rfl, rfl⟩
  | true =>
    obtain ⟨leased, read, digests⟩ := own.work
    obtain ⟨sameBranch, sameKey⟩ := key_of_work read
    have sameGrouping : leased.grouping = work.grouping :=
      GroupingId.bytes_inj.mp (sameKey.trans key.symm)
    refine .inr ⟨rfl, leased, read, ?_⟩
    have whole : (⟨work.branch, work.grouping, leased.digests⟩ : SecondaryWork) = leased := by
      rw [branch, ← sameBranch, ← sameGrouping]
    simp only [digests, Except.map, Option.map_some]
    rw [← branch, whole]

end Claims

end Store

/-- A store that calls have filled. -/
def Store.Reached (s : Store) : Prop := ∃ calls, Store.empty.after calls = s

namespace Store.Reached

variable {s : Store}

theorem legible (reached : s.Reached) : s.Legible := by
  obtain ⟨calls, rfl⟩ := reached
  exact legible_after calls

theorem keyed (reached : s.Reached) : s.Keyed := by
  obtain ⟨calls, rfl⟩ := reached
  exact keyed_empty.after calls

theorem perform (reached : s.Reached) (c : StoreCall) : (s.perform c).2.Reached := by
  obtain ⟨calls, rfl⟩ := reached
  exact ⟨calls ++ [c], after_append empty calls [c]⟩

theorem after (reached : s.Reached) (calls : List StoreCall) : (s.after calls).Reached := by
  obtain ⟨before, rfl⟩ := reached
  exact ⟨before ++ calls, after_append empty before calls⟩

end Store.Reached

end LeaseQueue
