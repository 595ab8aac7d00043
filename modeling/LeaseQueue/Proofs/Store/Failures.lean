import LeaseQueue.Proofs.Store.Candidates
import LeaseQueue.Proofs.Store.Healing
import LeaseQueue.Proofs.Store.Refinement
import LeaseQueue.Proofs.Store.Retries
/-! What can fail in a store that operations have filled. Every row can be read back, at both ends of
the calendar too, so only a time that an operation asks for fails it, and it has then done nothing. -/
namespace LeaseQueue

/-- No instant lies so many nanoseconds after the epoch. -/
def OffCalendar (nanos : Int) : Prop := nanos < earliestNanos ∨ latestNanos < nanos

instance (nanos : Int) : Decidable (OffCalendar nanos) := inferInstanceAs (Decidable (_ ∨ _))

theorem leaseEnd_eq_error_iff {now : Instant} {lease : Span} {e : StoreError} :
    leaseEnd now lease = .error e ↔ OffCalendar (now.nanos + lease.nanos) ∧
      e = .timestampOutOfRange (now.written ++ " + lease of " ++ lease.written) := by
  have none_iff : now.add? lease = none ↔ OffCalendar (now.nanos + lease.nanos) :=
    Instant.ofNanos?_eq_none_iff
  unfold leaseEnd
  rw [← none_iff]
  cases now.add? lease <;> simp [eq_comm]

theorem staleCutoff_eq_error_iff {now : Instant} {staleness : Span} {e : StoreError} :
    staleCutoff now staleness = .error e ↔ OffCalendar (now.nanos - staleness.nanos) ∧
      e = .timestampOutOfRange (now.written ++ " - staleness of " ++ staleness.written) := by
  have none_iff : now.sub? staleness = none ↔ OffCalendar (now.nanos - staleness.nanos) :=
    Instant.ofNanos?_eq_none_iff
  unfold staleCutoff
  rw [← none_iff]
  cases now.sub? staleness <;> simp [eq_comm]

namespace Store

/-- Some row may be leased at a moment. -/
def SomeEligible (s : Store) (now : Int) : Prop :=
  ∃ row ∈ s.secondary, row.leaseEnds < now ∧ row.calculated < row.updated ∧
    ∃ digests, readDigests row.digests = .ok digests ∧ digests ≠ []

/-- The operations that fail. A random claim needs the end of a lease only when it has a candidate. -/
def Refuses (s : Store) : StoreCall → Prop
  | .claimPrimary now staleness lease =>
    OffCalendar (now.nanos - staleness.nanos) ∨ OffCalendar (now.nanos + lease.nanos)
  | .claimOldest now lease => OffCalendar (now.nanos + lease.nanos)
  | .leaseSecondary _ _ now lease => OffCalendar (now.nanos + lease.nanos)
  | .claimRandom _ now lease => OffCalendar (now.nanos + lease.nanos) ∧ s.SomeEligible now.millis
  | _ => False

/-- An operation that fails exactly under a condition, for a time, and changes nothing then. -/
structure FailsIff {α : Type} (s : Store) (condition : Prop)
    (outcome : Except StoreError α × Store) : Prop where
  iff : (∃ e, outcome.1 = .error e) ↔ condition
  refused : ∀ e, outcome.1 = .error e → (∃ sum, e = .timestampOutOfRange sum) ∧ outcome.2 = s

namespace FailsIff

variable {α β : Type} {s : Store} {condition : Prop} {outcome : Except StoreError α × Store}

theorem of_ok {answer : α} (free : ¬ condition) (answered : outcome.1 = .ok answer) :
    s.FailsIff condition outcome := by
  constructor
  · simp [answered, free]
  · simp [answered]

theorem of_error {sum : String} (holds : condition)
    (failed : outcome = (.error (.timestampOutOfRange sum), s)) : s.FailsIff condition outcome := by
  constructor
  · simp [failed, holds]
  · simp [failed]

end FailsIff

variable {s : Store} {c : StoreCall} {now : Instant} {lease : Span}

theorem times_error {e : StoreError} (outside : c.times = .error e) :
    (∃ sum, e = .timestampOutOfRange sum) ∧ s.Refuses c := by
  cases c with
  | claimPrimary now staleness lease =>
    rw [StoreCall.times] at outside
    cases cutoff : staleCutoff now staleness with
    | error cause =>
      rw [cutoff] at outside
      cases outside
      obtain ⟨off, rfl⟩ := staleCutoff_eq_error_iff.mp cutoff
      exact ⟨⟨_, rfl⟩, .inl off⟩
    | ok stale =>
      rw [cutoff] at outside
      obtain ⟨off, rfl⟩ := leaseEnd_eq_error_iff.mp (error_of_map outside)
      exact ⟨⟨_, rfl⟩, .inr off⟩
  | claimOldest now lease =>
    obtain ⟨off, rfl⟩ := leaseEnd_eq_error_iff.mp (error_of_map outside)
    exact ⟨⟨_, rfl⟩, off⟩
  | leaseSecondary branch grouping now lease =>
    obtain ⟨off, rfl⟩ := leaseEnd_eq_error_iff.mp (error_of_map outside)
    exact ⟨⟨_, rfl⟩, off⟩
  | _ => cases outside

theorem not_refuses (inside : c.times = .ok ()) {name : String}
    (retried : c.retried? = some name) : ¬ s.Refuses c := by
  cases c with
  | claimPrimary now staleness lease =>
    rintro (off | off)
    · rw [StoreCall.times, staleCutoff_eq_error_iff.mpr ⟨off, rfl⟩] at inside
      cases inside
    · rw [StoreCall.times, leaseEnd_eq_error_iff.mpr ⟨off, rfl⟩] at inside
      cases cutoff : staleCutoff now staleness <;> rw [cutoff] at inside <;> cases inside
  | claimOldest now lease =>
    intro off
    rw [StoreCall.times, leaseEnd_eq_error_iff.mpr ⟨off, rfl⟩] at inside
    cases inside
  | leaseSecondary branch grouping now lease =>
    intro off
    rw [StoreCall.times, leaseEnd_eq_error_iff.mpr ⟨off, rfl⟩] at inside
    cases inside
  | claimRandom => cases retried
  | _ => exact id

theorem Legible.failsIff_of_retried (legible : s.Legible) {name : String}
    (retried : c.retried? = some name) : s.FailsIff (s.Refuses c) (s.perform c) := by
  cases outside : c.times with
  | error e =>
    obtain ⟨⟨sum, rfl⟩, refuses⟩ := times_error outside
    exact .of_error refuses (perform_of_times outside)
  | ok =>
    obtain ⟨answer, answered⟩ := perform_legible legible retried outside
    exact .of_ok (not_refuses outside retried) answered

theorem Legible.someEligible_iff (legible : s.Legible) {now : Int} :
    s.SomeEligible now ↔ ∃ row ∈ s.secondary, row.isDue now = true := by
  constructor
  · rintro ⟨row, member, eligible⟩
    exact ⟨row, member, (legible.isDue_iff member now).mpr eligible⟩
  · rintro ⟨row, member, due⟩
    exact ⟨row, member, (legible.isDue_iff member now).mp due⟩

theorem Reached.failsIff_claimRandom (reached : s.Reached) (choice : Nat) (now : Instant)
    (lease : Span) : s.FailsIff (s.Refuses (.claimRandom choice now lease))
      (s.perform (.claimRandom choice now lease)) := by
  have legible := reached.legible
  cases granted : leaseEnd now lease with
  | ok ends =>
    have free : ¬ s.Refuses (.claimRandom choice now lease) := by
      rintro ⟨off, _⟩
      cases granted.symm.trans (leaseEnd_eq_error_iff.mpr ⟨off, rfl⟩)
    simp only [Store.perform]
    rcases claimRandom_legible legible reached.keyed granted choice with
      ⟨_, same⟩ | ⟨_, _, _, _, _, same⟩
    · exact .of_ok free (by rw [same]; rfl)
    · exact .of_ok free (by rw [same]; rfl)
  | error e =>
    obtain ⟨off, rfl⟩ := leaseEnd_eq_error_iff.mp granted
    obtain ⟨works, read, ⟨picked, idle⟩ | ⟨row, member, due, work, _, picked⟩⟩ :=
      pick_legible legible now choice
    -- Without a candidate the claim never works out the end of its lease.
    · have free : ¬ s.Refuses (.claimRandom choice now lease) := by
        rintro ⟨_, eligible⟩
        obtain ⟨row, member, due⟩ := legible.someEligible_iff.mp eligible
        cases (idle row member).symm.trans due
      apply FailsIff.of_ok free
      simp only [Store.perform, claimRandom, claimAmong, read, picked]
      rfl
    · have refuses : s.Refuses (.claimRandom choice now lease) :=
        ⟨off, legible.someEligible_iff.mpr ⟨row, member, due⟩⟩
      apply FailsIff.of_error refuses
      simp only [Store.perform, claimRandom, claimAmong, read, picked, leaseCandidate_refused granted]
      rfl

theorem failsIff_after (calls : List StoreCall) (c : StoreCall) :
    (empty.after calls).FailsIff ((empty.after calls).Refuses c) ((empty.after calls).perform c) := by
  have reached : (empty.after calls).Reached := ⟨calls, rfl⟩
  have followed : (Ledger.empty.follow empty calls).stored = empty.after calls :=
    Ledger.empty.stored_follow calls
  cases c with
  | claimRandom choice now lease => exact reached.failsIff_claimRandom choice now lease
  | groupingParams grouping =>
    apply FailsIff.of_ok id
    simp only [perform, groupingParams_after]
    rfl
  | primaryRow grouping =>
    apply FailsIff.of_ok id
    rw [← followed]
    simp only [perform, Ledger.floored_primaryRow]
    rfl
  | secondaryRow branch grouping =>
    apply FailsIff.of_ok id
    rw [← followed]
    simp only [perform, Ledger.floored_secondaryRow]
    rfl
  | candidates now limit =>
    obtain ⟨works, _, listed⟩ := reached.legible.candidates_eq now
    apply FailsIff.of_ok id
    simp only [perform, listed]
    rfl
  | _ => exact reached.legible.failsIff_of_retried rfl

/-- An operation of a store fails exactly if a time that it needs lies outside the calendar. It has
changed nothing then. A row is always read, with its exact times cut to the millisecond. -/
theorem fails_only_off_calendar (calls : List StoreCall) :
    let s := empty.after calls
    let exact := Ledger.empty.follow empty calls
    (∀ c, ((∃ e, (s.perform c).1 = .error e) ↔ s.Refuses c) ∧
      ∀ e, (s.perform c).1 = .error e →
        (∃ sum, e = .timestampOutOfRange sum) ∧ (s.perform c).2 = s) ∧
    (∀ grouping, s.primaryRow grouping = .ok ((exact.primaryRow? grouping).map fun row =>
      ⟨grouping, row.calculated.floorMillis, row.leaseEnds.floorMillis⟩)) ∧
    (∀ branch grouping, s.secondaryRow branch grouping =
      .ok ((exact.secondaryRow? branch grouping).map fun row =>
        ⟨branch, grouping, row.digests, row.updated.floorMillis, row.calculated.floorMillis,
          row.leaseEnds.floorMillis⟩)) := by
  have followed : (Ledger.empty.follow empty calls).stored = empty.after calls :=
    Ledger.empty.stored_follow calls
  refine ⟨?_, ?_, ?_⟩
  · intro c
    exact ⟨(failsIff_after calls c).iff, (failsIff_after calls c).refused⟩
  · intro grouping
    rw [← followed]
    exact Ledger.floored_primaryRow _ grouping
  · intro branch grouping
    rw [← followed]
    exact Ledger.floored_secondaryRow _ branch grouping

/-- At either end of the calendar a nanosecond decides, but not where there is nothing to lease. -/
theorem fails_only_off_calendar_ends :
    (∃ e, (empty.perform (.claimOldest .latest ⟨1⟩)).1 = .error e) ∧
    (∃ e, (empty.perform (.claimPrimary .earliest ⟨1⟩ ⟨0⟩)).1 = .error e) ∧
    ¬ ∃ e, (empty.perform (.claimRandom 0 .latest ⟨1⟩)).1 = .error e := by
  refine ⟨?_, ?_, ?_⟩
  · exact ((fails_only_off_calendar []).1 _).1.mpr (.inr (by decide))
  · exact ((fails_only_off_calendar []).1 _).1.mpr (.inl (.inl (by decide)))
  · intro failed
    obtain ⟨_, row, member, _⟩ := ((fails_only_off_calendar []).1 _).1.mp failed
    cases member

end Store

end LeaseQueue
