import LeaseQueue.Proofs.Poller.Runs
import LeaseQueue.Proofs.Store.Failures
import LeaseQueue.Proofs.Time.Words
/-! Deadlines at the limits of their numbers. A length of time is cut where its milliseconds leave a
word, the end of a lease or a cutoff is refused where it leaves the calendar, and a back-off ends with
the calendar. Everywhere else the results are exact. -/
namespace LeaseQueue

theorem Duration.toSpan_mono {d e : Duration} (shorter : d.nanos ≤ e.nanos) :
    d.toSpan.nanos ≤ e.toSpan.nanos := by
  unfold Duration.toSpan Span.ofMillis
  simp only
  omega

theorem Instant.nanos_addOrLatest {t : Instant} {d : Span} (forward : 0 ≤ d.nanos) :
    (t.addOrLatest d).nanos = min (t.nanos + d.nanos) latestNanos := by
  unfold addOrLatest
  cases sum : t.add? d with
  | none =>
    have beyond : OffCalendar (t.nanos + d.nanos) := ofNanos?_eq_none_iff.mp sum
    have begun := t.earliest_le
    have last : latest.nanos = latestNanos := rfl
    unfold OffCalendar at beyond
    rw [Option.getD_none]
    omega
  | some later =>
    have inside := later.le_latest
    rw [Option.getD_some, ← add?_eq_some_iff.mp sum]
    omega

/-- A moment that was asked for is answered with if there is such a moment, and is refused if not. -/
structure ExactOrRefused (exact : Int) (sum : String) (answer : Except StoreError Instant) : Prop where
  given : ¬ OffCalendar exact → ∃ moment, answer = .ok moment ∧ moment.nanos = exact
  refused : OffCalendar exact → answer = .error (.timestampOutOfRange sum)

/-- It is enough to know when an answer is which moment and when it is refused. -/
theorem ExactOrRefused.of_iff {exact : Int} {sum : String} {answer : Except StoreError Instant}
    (ok : ∀ moment, answer = .ok moment ↔ moment.nanos = exact)
    (error : ∀ e, answer = .error e ↔ OffCalendar exact ∧ e = .timestampOutOfRange sum) :
    ExactOrRefused exact sum answer := by
  refine ⟨?_, fun off => (error _).mpr ⟨off, rfl⟩⟩
  intro inside
  cases given : answer with
  | error e => exact absurd ((error e).mp given).1 inside
  | ok moment => exact ⟨moment, rfl, (ok moment).mp given⟩

/-- Deadlines are exact up to their limits. A length of time counts in whole milliseconds, up to the
greatest signed word, and a longer one counts as no less. The end of a lease and the cutoff for
staleness are the exact moments, or they are refused as out of range. A queue without work is left
alone until the exact moment, or until the end of the calendar. All words on the way hold the exact
numbers, also of a moment that is refused. -/
theorem deadlines_exact (w : DurationWords) (t : Instant) :
    let length := w.duration.toSpan
    (w.millis.toNat = w.duration.nanos / 1000000 ∧
      w.signedMillis.toInt = (min (w.duration.nanos / 1000000) (2 ^ 63 - 1) : Nat) ∧
      length = .ofMillis w.signedMillis.toInt ∧
      ∀ longer : DurationWords, w.duration.nanos ≤ longer.duration.nanos →
        length.nanos ≤ longer.duration.toSpan.nanos) ∧
    ((t.words.plus w.span).value = t.nanos + length.nanos ∧
      ExactOrRefused (t.nanos + length.nanos) (t.written ++ " + lease of " ++ length.written)
        (leaseEnd t length)) ∧
    ((t.words.minus w.span).value = t.nanos - length.nanos ∧
      ExactOrRefused (t.nanos - length.nanos) (t.written ++ " - staleness of " ++ length.written)
        (staleCutoff t length)) ∧
    ∀ (p : Poller) (source : Source), p.settings.sleep = w.duration →
      let later := (p.record source .noWork t).timer source
      later.nanos = min (t.nanos + length.nanos) latestNanos ∧ t ≤ later := by
  intro length
  have forward : 0 ≤ length.nanos := w.duration.toSpan_nonneg
  refine ⟨⟨w.toNat_millis, w.toInt_signedMillis, w.toSpan_eq, ?_⟩,
    ⟨w.value_plus t, ?_⟩, ⟨w.value_minus t, ?_⟩, ?_⟩
  · exact fun _ shorter => Duration.toSpan_mono shorter
  · exact .of_iff (fun _ => leaseEnd_eq_ok_iff) fun _ => leaseEnd_eq_error_iff
  · exact .of_iff (fun _ => staleCutoff_eq_ok_iff) fun _ => staleCutoff_eq_error_iff
  · intro p source sleep later
    have ends : later = t.addOrLatest length := by
      rw [← show p.settings.sleep.toSpan = length from congrArg Duration.toSpan sleep]
      exact Poller.timer_record_noWork source
    rw [ends]
    exact ⟨Instant.nanos_addOrLatest forward, Instant.le_addOrLatest forward⟩

/-- The longest length of time that words can tell. -/
def DurationWords.longest : DurationWords := ⟨.ofNat (2 ^ 64 - 1), 999999999, by decide⟩

/-- A second, and less than a millisecond beyond it. -/
def DurationWords.overSecond : DurationWords := ⟨1, 999999, by decide⟩

/-- A poller that leaves a queue alone for as long as words can tell. -/
def Poller.patient : Poller :=
  .start { PollerSettings.default with sleep := DurationWords.longest.duration } (.ofSeed 0)

theorem deadlines_exact_ends :
    let second := DurationWords.overSecond.duration
    let longest := DurationWords.longest.duration
    second.nanos ≤ longest.nanos ∧ second.toSpan.nanos ≤ longest.toSpan.nanos ∧
      (∃ moment, leaseEnd .epoch second.toSpan = .ok moment ∧ moment.nanos = 1000000000) ∧
      leaseEnd .epoch longest.toSpan = .error (.timestampOutOfRange
        (Instant.epoch.written ++ " + lease of " ++ longest.toSpan.written)) ∧
      Poller.patient.settings.sleep = longest ∧
      ((Poller.patient.record .primary .noWork .epoch).timer .primary).nanos = latestNanos := by
  intro second longest
  obtain ⟨⟨_, _, _, monotone⟩, ⟨_, soon⟩, _, _⟩ := deadlines_exact .overSecond .epoch
  obtain ⟨_, ⟨_, never⟩, _, timer⟩ := deadlines_exact .longest .epoch
  have less : second.nanos ≤ longest.nanos := by decide
  exact ⟨less, monotone .longest less, soon.given (by decide), never.refused (by decide), rfl,
    (timer .patient .primary rfl).1⟩

end LeaseQueue
