import Mathlib.Control.Monad.Basic
import LeaseQueue.Proofs.Store.Leases
import LeaseQueue.Proofs.Store.Stored
/-! The store refines the queue of exact times. What it gives away is due by the exact times, and
where all times are whole milliseconds it answers as the exact queue does. -/
namespace LeaseQueue

namespace StoreCall

/-- All times and lengths of an operation are whole milliseconds. -/
def Whole : StoreCall → Prop
  | .claimPrimary now staleness lease => now.Whole ∧ staleness.Whole ∧ lease.Whole
  | .claimOldest now lease => now.Whole ∧ lease.Whole
  | .claimRandom _ now lease => now.Whole ∧ lease.Whole
  | .leaseSecondary _ _ now lease => now.Whole ∧ lease.Whole
  | .candidates now _ => now.Whole
  | .completePrimary _ now => now.Whole
  | .completeSecondary _ _ now => now.Whole
  | .upsertSecondary _ updated => updated.Whole
  | _ => True

/-- The leased row of review-branch work that an operation returned, with its digests. -/
def returned? : StoreCall → Except StoreError StoreAnswer → Option SecondaryWork
  | .claimOldest _ _, .ok (.secondaryWork work?) => work?
  | .claimRandom _ _ _, .ok (.secondaryWork work?) => work?
  | .leaseSecondary branch grouping _ _, .ok (.digests (some digests)) =>
    some ⟨branch, grouping, digests⟩
  | _, _ => none

end StoreCall

structure ExactPrimary.Whole (row : ExactPrimary) : Prop where
  calculated : row.calculated.Whole
  leaseEnds : row.leaseEnds.Whole

structure ExactSecondary.Whole (row : ExactSecondary) : Prop where
  updated : row.updated.Whole
  calculated : row.calculated.Whole
  leaseEnds : row.leaseEnds.Whole

/-- All times of a ledger are whole milliseconds. -/
structure Ledger.Whole (l : Ledger) : Prop where
  primary : ∀ row ∈ l.primary, row.Whole
  secondary : ∀ row ∈ l.secondary, row.Whole

theorem readTime_millis (t : Instant) : Store.readTime t.millis = .ok t.floorMillis := by
  unfold Store.readTime
  rw [Instant.ofMillis?_floor]

theorem ExactPrimary.stored_isDue (row : ExactPrimary) {now stale : Instant} (moment : now.Whole)
    (cutoff : stale.Whole) : row.stored.isDue now.millis stale.millis = row.isDue now stale := by
  rw [Bool.eq_iff_iff, PrimaryRow.isDue_iff]
  simp [isDue, stored, Instant.millis_lt_iff moment, Instant.millis_lt_iff cutoff]

theorem ExactSecondary.isDueStored_eq {row : ExactSecondary} {now : Instant} (moment : now.Whole)
    (whole : row.Whole) : row.isDueStored now.millis = row.isDue now := by
  simp only [isDueStored, isDue, Instant.millis_lt_iff moment,
    Instant.millis_lt_iff whole.updated]

/-- All elements of a rewritten list have what the rewriting keeps. -/
theorem forall_mem_map {α : Type} {rows : List α} {f : α → α} {P : α → Prop}
    (held : ∀ row ∈ rows, P row) (kept : ∀ row, P row → P (f row)) : ∀ row ∈ rows.map f, P row := by
  intro row member
  obtain ⟨earlier, own, rfl⟩ := List.mem_map.mp member
  exact kept earlier (held earlier own)

namespace Ledger.Whole

variable {l : Ledger}

theorem leasePrimary (whole : l.Whole) (grouping : GroupingId) {ends : Instant}
    (end_whole : ends.Whole) : (l.leasePrimary grouping ends).Whole := by
  refine ⟨forall_mem_map whole.primary ?_, whole.secondary⟩
  intro row held
  split
  · exact ⟨held.calculated, end_whole⟩
  · exact held

theorem leaseSecondary (whole : l.Whole) (branch : String) (grouping : GroupingId) {ends : Instant}
    (end_whole : ends.Whole) : (l.leaseSecondary branch grouping ends).Whole := by
  refine ⟨whole.primary, forall_mem_map whole.secondary ?_⟩
  intro row held
  split
  · exact ⟨held.updated, held.calculated, end_whole⟩
  · exact held

theorem completePrimary (whole : l.Whole) (grouping : GroupingId) {now : Instant}
    (moment : now.Whole) : (l.completePrimary grouping now).Whole := by
  refine ⟨forall_mem_map whole.primary ?_, whole.secondary⟩
  intro row held
  split
  · exact ⟨moment, held.leaseEnds⟩
  · exact held

theorem completeSecondary (whole : l.Whole) (branch : String) (grouping : GroupingId)
    {now : Instant} (moment : now.Whole) : (l.completeSecondary branch grouping now).Whole := by
  refine ⟨whole.primary, forall_mem_map whole.secondary ?_⟩
  intro row held
  split
  · exact ⟨held.updated, moment, held.leaseEnds⟩
  · exact held

theorem ensureOne (whole : l.Whole) (grouping : GroupingId) : (l.ensureOne grouping).Whole := by
  unfold Ledger.ensureOne
  split
  · exact whole
  · refine ⟨?_, whole.secondary⟩
    intro row member
    rcases List.mem_append.mp member with old | new
    · exact whole.primary row old
    · rw [List.mem_singleton.mp new]
      exact ⟨Instant.whole_epoch, Instant.whole_epoch⟩

theorem ensurePrimary (whole : l.Whole) (groupings : List GroupingId) :
    (groupings.foldl Ledger.ensureOne l).Whole := by
  induction groupings generalizing l with
  | nil => exact whole
  | cons grouping groupings ih => exact ih (whole.ensureOne grouping)

theorem upsertSecondary (whole : l.Whole) (work : SecondaryWork) {updated : Instant}
    (moment : updated.Whole) : (l.upsertSecondary work updated).Whole := by
  unfold Ledger.upsertSecondary
  split
  · refine ⟨whole.primary, forall_mem_map whole.secondary ?_⟩
    intro row held
    split
    · exact ⟨moment, held.calculated, held.leaseEnds⟩
    · exact held
  · refine ⟨whole.primary, ?_⟩
    intro row member
    rcases List.mem_append.mp member with old | new
    · exact whole.secondary row old
    · rw [List.mem_singleton.mp new]
      exact ⟨moment, Instant.whole_epoch, Instant.whole_epoch⟩

theorem retireBranch (whole : l.Whole) (branch : String) : (l.retireBranch branch).Whole :=
  ⟨whole.primary, fun row member => whole.secondary row (List.mem_filter.mp member).1⟩

theorem putGrouping (whole : l.Whole) (grouping : GroupingId) (params : Params) :
    (l.putGrouping grouping params).Whole := by
  unfold Ledger.putGrouping
  split
  · exact whole
  · exact ⟨whole.primary, whole.secondary⟩

/-- What is done with the end of a lease, if there is one. -/
theorem leased (whole : l.Whole) {now : Instant} {lease : Span} (moment : now.Whole)
    (length : lease.Whole) {f : Instant → Ledger} (kept : ∀ ends, ends.Whole → (f ends).Whole) :
    ((now.add? lease).elim l f).Whole := by
  cases sum : now.add? lease with
  | none => exact whole
  | some ends =>
    have granted := leaseEnd_eq_ok_iff.mpr (Instant.add?_eq_some_iff.mp sum)
    exact kept ends (moment.leaseEnd length granted)

theorem record (whole : l.Whole) {c : StoreCall} (times : c.Whole)
    (answer : Except StoreError StoreAnswer) : (l.record c answer).Whole := by
  unfold Ledger.record
  split
  · exact whole.leased times.1 times.2.2 fun _ => whole.leasePrimary _
  · exact whole.leased times.1 times.2 fun _ => whole.leaseSecondary _ _
  · exact whole.leased times.1 times.2 fun _ => whole.leaseSecondary _ _
  · exact whole.leased times.1 times.2 fun _ => whole.leaseSecondary _ _
  · exact whole.completePrimary _ times
  · exact whole.completeSecondary _ _ times
  · exact whole.ensurePrimary _
  · exact whole.upsertSecondary _ times
  · exact whole.retireBranch _
  · exact whole.putGrouping _ _
  · exact whole

end Ledger.Whole

namespace Ledger

variable {l : Ledger}

/-! The answers of the store, in whole milliseconds. -/

theorem stored_primaryByAge (whole : l.Whole) :
    l.stored.primaryByAge = l.primaryByAge.map ExactPrimary.stored := by
  refine (List.map_mergeSort ?_).symm
  intro a member b _
  exact decide_eq_decide.mpr (Instant.millis_le_iff (whole.primary a member).calculated).symm

theorem stored_secondaryByAge (whole : l.Whole) :
    l.stored.secondaryByAge = l.secondaryByAge.map ExactSecondary.stored := by
  refine (List.map_mergeSort ?_).symm
  intro a member b _
  exact decide_eq_decide.mpr (Instant.millis_le_iff (whole.secondary a member).calculated).symm

theorem firstDue_stored (now : Int) (limit : Nat) (rows : List ExactSecondary) :
    Store.firstDue now limit (rows.map ExactSecondary.stored) =
      .ok (((rows.filter (ExactSecondary.isDueStored now)).take limit).map
        ExactSecondary.stored) := by
  induction rows generalizing limit with
  | nil => cases limit <;> rfl
  | cons row rows ih =>
    cases limit with
    | zero => rfl
    | succ limit =>
      rw [List.map_cons, Store.firstDue, ExactSecondary.stored_isDue?]
      cases due : row.isDueStored now with
      | false => rw [List.filter_cons_of_neg (by simp [due])]; exact ih (limit + 1)
      | true =>
        rw [List.filter_cons_of_pos due]
        simp only [ih limit]
        rfl

theorem stored_due (whole : l.Whole) {now : Instant} (moment : now.Whole) (limit : Nat) :
    Store.firstDue now.millis limit l.stored.secondaryByAge =
      .ok (((l.due now).take limit).map ExactSecondary.stored) := by
  have same : l.secondaryByAge.filter (ExactSecondary.isDueStored now.millis) = l.due now := by
    apply List.filter_congr
    intro row member
    exact ExactSecondary.isDueStored_eq moment (whole.secondary row (List.mem_mergeSort.mp member))
  rw [stored_secondaryByAge whole, firstDue_stored, same]

theorem stored_claimPrimary {now : Instant} {staleness : Span} (whole : l.Whole)
    (moment : now.Whole) (age : staleness.Whole) (lease : Span) :
    (l.stored.claimPrimary now staleness lease).1 = l.claimPrimary now staleness lease := by
  unfold Store.claimPrimary claimPrimary
  cases cutoff : staleCutoff now staleness with
  | error e => rfl
  | ok stale =>
    have due : PrimaryRow.isDue now.millis stale.millis ∘ ExactPrimary.stored =
        ExactPrimary.isDue now stale :=
      funext fun row => row.stored_isDue moment (moment.staleCutoff age cutoff)
    cases leaseEnd now lease with
    | error e => rfl
    | ok ends =>
      simp only [stored_primaryByAge whole, List.find?_map, due]
      change _ = Except.ok ((l.primaryByAge.find? (ExactPrimary.isDue now stale)).map (·.grouping))
      cases l.primaryByAge.find? (ExactPrimary.isDue now stale) with
      | none => rfl
      | some row => exact congrArg (Except.map some) (readId_bytes row.grouping)

theorem stored_claimOldest {now : Instant} (whole : l.Whole) (moment : now.Whole) (lease : Span) :
    (l.stored.claimOldest now lease).1 = l.claimOldest now lease := by
  unfold Store.claimOldest claimOldest
  cases leaseEnd now lease with
  | error e => rfl
  | ok ends =>
    simp only [stored_due whole moment]
    cases l.due now with
    | nil => rfl
    | cons row rows => exact congrArg (Except.map some) row.stored_work

theorem stored_candidates {now : Instant} (whole : l.Whole) (moment : now.Whole) (limit : Nat) :
    l.stored.candidates now limit = .ok (l.candidates now limit) := by
  have size : l.stored.secondary.length = l.secondary.length := List.length_map _
  have read : SecondaryRow.work ∘ ExactSecondary.stored = fun row => pure row.work :=
    funext ExactSecondary.stored_work
  unfold Store.candidates candidates
  simp only [size, stored_due whole moment, Except.bind]
  rw [List.mapM_map, read, List.mapM_pure]
  rfl

theorem stored_leasedDigests {now : Instant} (whole : l.Whole) (moment : now.Whole)
    (branch : String) (grouping : GroupingId) (lease : Span) :
    (l.stored.leaseSecondary branch grouping now lease).1 =
      l.leasedDigests branch grouping now lease := by
  unfold Store.leaseSecondary leasedDigests
  cases leaseEnd now lease with
  | error e => rfl
  | ok ends =>
    simp only [stored_secondaryRow?]
    change _ = Except.ok
      (((l.secondaryRow? branch grouping).filter (ExactSecondary.isDue now)).map _)
    cases found : l.secondaryRow? branch grouping with
    | none => rfl
    | some row =>
      have own := whole.secondary row (List.mem_of_find?_eq_some found)
      simp only [Option.map_some, row.stored_isDue?, ExactSecondary.isDueStored_eq moment own]
      cases due : row.isDue now with
      | false => rw [Option.filter_some, due]; rfl
      | true =>
        simp only [Option.filter_some, due, if_true, Option.map_some]
        exact congrArg (Except.map some) (readDigests_encodeList row.digests)

theorem mem_due {now : Instant} {row : ExactSecondary} (member : row ∈ l.due now) :
    row ∈ l.secondary ∧ row.isDue now = true := by
  obtain ⟨own, due⟩ := List.mem_filter.mp member
  exact ⟨List.mem_mergeSort.mp own, due⟩

/-- A candidate that is leased at once still has the digests that it was read with. -/
theorem leasedDigests_candidate {now : Instant} {limit : Nat} {work : SecondaryWork}
    (keyed : l.stored.Keyed) (candidate : work ∈ l.candidates now limit) (lease : Span) :
    l.leasedDigests work.branch work.grouping now lease =
      (leaseEnd now lease).map fun _ => some work.digests := by
  obtain ⟨row, taken, rfl⟩ := List.mem_map.mp candidate
  obtain ⟨member, due⟩ := mem_due (List.mem_of_mem_take taken)
  unfold leasedDigests
  cases leaseEnd now lease with
  | error e => rfl
  | ok ends =>
    simp only [ExactSecondary.work, secondaryRow?_of_mem keyed member, Option.filter_some, due]
    rfl

theorem stored_claimRandom {now : Instant} (keyed : l.stored.Keyed) (whole : l.Whole)
    (moment : now.Whole) (choice : Nat) (lease : Span) :
    (l.stored.claimRandom choice now lease).1 = l.claimRandom choice now lease := by
  unfold Store.claimRandom Store.claimAmong claimRandom
  simp only [stored_candidates whole moment]
  cases picked : Store.pick choice (l.candidates now Store.candidateCount) with
  | none => rfl
  | some work =>
    simp only [Store.leaseCandidate_eq, stored_leasedDigests whole moment]
    rw [leasedDigests_candidate keyed (List.mem_of_getElem? picked)]
    cases leaseEnd now lease <;> rfl

/-- A row is read with the exact times of its ledger, each cut to the millisecond. -/
theorem floored_primaryRow (l : Ledger) (grouping : GroupingId) :
    l.stored.primaryRow grouping = .ok ((l.primaryRow? grouping).map fun row =>
      ⟨grouping, row.calculated.floorMillis, row.leaseEnds.floorMillis⟩) := by
  unfold Store.primaryRow
  rw [stored_primaryRow?]
  cases found : l.primaryRow? grouping with
  | none => rfl
  | some row =>
    simp only [Option.map_some, ExactPrimary.stored, readTime_millis]
    rfl

theorem floored_secondaryRow (l : Ledger) (branch : String) (grouping : GroupingId) :
    l.stored.secondaryRow branch grouping = .ok ((l.secondaryRow? branch grouping).map fun row =>
      ⟨branch, grouping, row.digests, row.updated.floorMillis, row.calculated.floorMillis,
        row.leaseEnds.floorMillis⟩) := by
  unfold Store.secondaryRow
  rw [stored_secondaryRow?]
  cases found : l.secondaryRow? branch grouping with
  | none => rfl
  | some row =>
    simp only [Option.map_some, ExactSecondary.stored, readDigests_encodeList, readTime_millis]
    rfl

theorem stored_primaryRow (whole : l.Whole) (grouping : GroupingId) :
    l.stored.primaryRow grouping = .ok ((l.primaryRow? grouping).map fun row =>
      ⟨grouping, row.calculated, row.leaseEnds⟩) := by
  rw [floored_primaryRow]
  congr 1
  apply Option.map_congr
  intro row found
  have own := whole.primary row (List.mem_of_find?_eq_some found)
  rw [Instant.floorMillis_of_whole own.calculated, Instant.floorMillis_of_whole own.leaseEnds]

theorem stored_secondaryRow (whole : l.Whole) (branch : String) (grouping : GroupingId) :
    l.stored.secondaryRow branch grouping = .ok ((l.secondaryRow? branch grouping).map fun row =>
      ⟨branch, grouping, row.digests, row.updated, row.calculated, row.leaseEnds⟩) := by
  rw [floored_secondaryRow]
  congr 1
  apply Option.map_congr
  intro row found
  have own := whole.secondary row (List.mem_of_find?_eq_some found)
  rw [Instant.floorMillis_of_whole own.updated, Instant.floorMillis_of_whole own.calculated,
    Instant.floorMillis_of_whole own.leaseEnds]

theorem stored_retired (branch : String) :
    (l.stored.retireBranch branch).1 = l.secondary.countP fun row => row.branch = branch := by
  simp only [stored, Store.retireBranch, List.countP_map]
  rfl

/-- One operation in whole milliseconds is answered as in the exact queue. -/
theorem stored_answer {c : StoreCall} (keyed : l.stored.Keyed) (whole : l.Whole) (times : c.Whole) :
    (l.stored.perform c).1 = l.answer c := by
  cases c with
  | claimPrimary now staleness lease =>
    exact congrArg (Except.map _) (stored_claimPrimary whole times.1 times.2.1 lease)
  | claimOldest now lease => exact congrArg (Except.map _) (stored_claimOldest whole times.1 lease)
  | claimRandom choice now lease =>
    exact congrArg (Except.map _) (stored_claimRandom keyed whole times.1 choice lease)
  | leaseSecondary branch grouping now lease =>
    exact congrArg (Except.map _) (stored_leasedDigests whole times.1 branch grouping lease)
  | candidates now limit => exact congrArg (Except.map _) (stored_candidates whole times limit)
  | primaryRow grouping => exact congrArg (Except.map _) (stored_primaryRow whole grouping)
  | secondaryRow branch grouping =>
    exact congrArg (Except.map _) (stored_secondaryRow whole branch grouping)
  | retireBranch branch =>
    exact congrArg (fun rows => Except.ok (StoreAnswer.removed rows)) (stored_retired branch)
  | groupingParams | putGrouping | ensurePrimary | upsertSecondary | completePrimary
  | completeSecondary => rfl

/-- A run in whole milliseconds is answered as in the exact queue. -/
theorem stored_answers {calls : List StoreCall} (keyed : l.stored.Keyed) (whole : l.Whole)
    (times : ∀ c ∈ calls, c.Whole) : l.stored.answers calls = l.answers calls := by
  induction calls generalizing l with
  | nil => rfl
  | cons c cs ih =>
    have one := times c List.mem_cons_self
    have answer := stored_answer keyed whole one
    have after := stored_record l c
    have unique := keyed.perform c
    rw [answer] at after
    rw [after] at unique
    rw [Store.answers, answers, answer, after,
      ih unique (whole.record one _) fun d member => times d (List.mem_cons_of_mem _ member)]

theorem whole_empty : Ledger.empty.Whole := ⟨List.forall_mem_nil _, List.forall_mem_nil _⟩

/-! What is leased is due by the exact times. -/

theorem exact_claimPrimary (keyed : l.stored.Keyed) {now : Instant} {staleness lease : Span}
    {grouping : GroupingId}
    (won : (l.stored.claimPrimary now staleness lease).1 = .ok (some grouping)) :
    ∃ row, l.primaryRow? grouping = some row ∧ row.leaseEnds < now ∧
      row.calculated.nanos < now.nanos - staleness.nanos := by
  rcases l.claimPrimary_stored now staleness lease with
    ⟨row, member, stale, _, cutoff, _, ended, old, eq⟩ | ⟨none, _⟩
  · rw [eq] at won
    cases won
    refine ⟨row, primaryRow?_of_mem keyed member, Instant.lt_of_millis_lt ended, ?_⟩
    rw [← staleCutoff_eq_ok_iff.mp cutoff]
    exact Instant.lt_of_millis_lt old
  · exact absurd won (none grouping)

/-- What the exact row of a leased row of review-branch work is like. -/
structure ExactlyDue (l : Ledger) (now : Instant) (work : SecondaryWork) (row : ExactSecondary) :
    Prop where
  found : l.secondaryRow? work.branch work.grouping = some row
  ended : row.leaseEnds < now
  outdated : row.calculated < row.updated
  digests : work.digests = row.digests
  filled : work.digests ≠ []

theorem exactlyDue {row : ExactSecondary} {now : Instant}
    (found : l.secondaryRow? row.branch row.grouping = some row)
    (due : row.isDueStored now.millis = true) : ExactlyDue l now row.work row := by
  obtain ⟨ended, outdated, filled⟩ := ExactSecondary.isDueStored_iff.mp due
  exact ⟨found, Instant.lt_of_millis_lt ended, Instant.lt_of_millis_lt outdated, rfl, filled⟩

theorem exact_returned (keyed : l.stored.Keyed) {c : StoreCall} {now : Instant} {lease : Span}
    {work : SecondaryWork} (asked : c.lease? = some (now, lease))
    (won : c.returned? (l.stored.perform c).1 = some work) : ∃ row, ExactlyDue l now work row := by
  cases c with
  | claimOldest now lease =>
    cases asked
    obtain ⟨_, answer, same⟩ := answer_of_some won (fun _ => rfl) rfl
    cases same
    rcases l.claimOldest_stored now lease with ⟨row, member, _, _, due, eq⟩ | ⟨none, _⟩
    · rw [eq] at answer
      cases answer
      exact ⟨row, exactlyDue (secondaryRow?_of_mem keyed member) due⟩
    · exact absurd answer (none work)
  | claimRandom choice now lease =>
    cases asked
    obtain ⟨_, answer, same⟩ := answer_of_some won (fun _ => rfl) rfl
    cases same
    rcases l.claimRandom_stored choice now lease with ⟨row, member, _, _, due, eq⟩ | ⟨none, _⟩
    · rw [eq] at answer
      cases answer
      exact ⟨row, exactlyDue (secondaryRow?_of_mem keyed member) due⟩
    · exact absurd answer (none work)
  | leaseSecondary branch grouping now lease =>
    cases asked
    obtain ⟨digests, answer, same⟩ := answer_of_some won (fun _ => rfl) rfl
    cases same
    rcases l.leaseSecondary_stored branch grouping now lease with
      ⟨row, _, found, _, due, eq⟩ | ⟨none, _⟩
    · rw [eq] at answer
      cases answer
      obtain ⟨rfl, rfl⟩ := l.secondaryRow?_key found
      exact ⟨row, exactlyDue found due⟩
    · exact absurd answer (none digests)
  | _ => cases won

end Ledger

namespace Store

/-- The store refines the queue of exact times. Of a history of operations with any times, a ledger
records the exact ones, and by them is due whatever the next operation leases. A history in whole
milliseconds is answered as the exact queue answers it. -/
theorem refines_exact_queue (calls : List StoreCall) :
    (∀ now staleness lease grouping,
      ((empty.after calls).perform (.claimPrimary now staleness lease)).1 =
        .ok (.primaryWork (some grouping)) →
      ∃ row, (Ledger.empty.follow empty calls).primaryRow? grouping = some row ∧
        row.leaseEnds < now ∧ row.calculated.nanos < now.nanos - staleness.nanos) ∧
    (∀ (c : StoreCall) (now : Instant) (lease : Span) (work : SecondaryWork),
      c.lease? = some (now, lease) →
      c.returned? ((empty.after calls).perform c).1 = some work →
      ∃ row, (Ledger.empty.follow empty calls).secondaryRow? work.branch work.grouping = some row ∧
        row.leaseEnds < now ∧ row.calculated < row.updated ∧ work.digests = row.digests ∧
        work.digests ≠ []) ∧
    ((∀ c ∈ calls, c.Whole) → empty.answers calls = Ledger.empty.answers calls) := by
  have followed : (Ledger.empty.follow empty calls).stored = empty.after calls :=
    Ledger.empty.stored_follow calls
  have keyed := keyed_empty.after calls
  rw [← followed] at keyed ⊢
  refine ⟨?_, ?_, ?_⟩
  · intro now staleness lease grouping won
    obtain ⟨_, answer, same⟩ := exists_of_map_eq_ok won
    cases same
    exact Ledger.exact_claimPrimary keyed answer
  · intro c now lease work asked won
    obtain ⟨row, due⟩ := Ledger.exact_returned keyed asked won
    exact ⟨row, due.found, due.ended, due.outdated, due.digests, due.filled⟩
  · intro times
    exact Ledger.stored_answers (l := .empty) keyed_empty Ledger.whole_empty times

/-- A row in each queue, and digests that are uploaded a second after the epoch. -/
def soleUpload : List StoreCall :=
  [.ensurePrimary [soleGrouping], .upsertSecondary soleWork (.atMillis 1000)]

def soleClaim : StoreCall := .claimOldest (.atMillis 100000) (.ofSeconds 600)

theorem refines_exact_queue_sole_upload :
    empty.answers (soleUpload ++ [soleClaim]) =
      [.ok .done, .ok .done, .ok (.secondaryWork (some soleWork))] ∧
    empty.answers (soleUpload ++ [tenMinuteClaim (.atMillis 100000)]) =
      [.ok .done, .ok .done, .ok (.primaryWork (some soleGrouping))] ∧
    (∃ row, (Ledger.empty.follow empty soleUpload).primaryRow? soleGrouping = some row ∧
      row.calculated.nanos < 40000000000) ∧
    ∃ row, (Ledger.empty.follow empty soleUpload).secondaryRow? "review" soleGrouping = some row ∧
      row.calculated < row.updated := by
  have secondary : empty.answers (soleUpload ++ [soleClaim]) =
      [.ok .done, .ok .done, .ok (.secondaryWork (some soleWork))] := by
    rw [(refines_exact_queue (soleUpload ++ [soleClaim])).2.2 (by
      simp [soleUpload, soleClaim, StoreCall.Whole, Instant.whole_atMillis, Span.Whole,
        Span.ofSeconds])]
    decide +kernel
  have primary : empty.answers (soleUpload ++ [tenMinuteClaim (.atMillis 100000)]) =
      [.ok .done, .ok .done, .ok (.primaryWork (some soleGrouping))] := by
    rw [(refines_exact_queue (soleUpload ++ [tenMinuteClaim _])).2.2 (by
      simp [soleUpload, tenMinuteClaim, StoreCall.Whole, Instant.whole_atMillis, Span.Whole,
        Span.ofSeconds])]
    decide +kernel
  obtain ⟨dueGrouping, dueWork, _⟩ := refines_exact_queue soleUpload
  refine ⟨secondary, primary, ?_, ?_⟩
  · have won := congrArg (fun answers => answers[2]?) primary
    obtain ⟨row, found, _, old⟩ := dueGrouping _ _ _ _ (Option.some.inj won)
    exact ⟨row, found, old⟩
  · have won := congrArg (fun answers => answers[2]?) secondary
    obtain ⟨row, found, _, outdated, _⟩ := dueWork soleClaim _ _ soleWork rfl
      (by
        rw [show ((empty.after soleUpload).perform soleClaim).1 = _ from Option.some.inj won]
        rfl)
    exact ⟨row, found, outdated⟩

end Store

end LeaseQueue
