import LeaseQueue.Poller.Run
import LeaseQueue.Proofs.Work.Steps
/-! Runs of a polling loop whose draws are any sequence at all. A loop that takes them from its
generator is one of these. -/
namespace LeaseQueue

namespace Poller

/-- The queue to try at `now`. A draw that is taken is the given one. -/
def nextBy (drawn : Draw × Generator) (p : Poller) (now : Instant) : Option Source × Poller :=
  if p.primaryUntil ≤ now then
    if p.secondaryUntil ≤ now then
      (some (if p.choosesSecondary drawn.1 then .secondary else .primary),
        { p with generator := drawn.2 })
    else (some .primary, p)
  else if p.secondaryUntil ≤ now then (some .secondary, p)
  else (none, p)

section Decision

variable (drawn : Draw × Generator) (p : Poller) (now : Instant)

theorem timer_nextBy (source : Source) : (p.nextBy drawn now).2.timer source = p.timer source := by
  unfold nextBy
  split
  · split <;> cases source <;> rfl
  · split <;> rfl

theorem settings_nextBy : (p.nextBy drawn now).2.settings = p.settings := by
  unfold nextBy
  split
  · split <;> rfl
  · split <;> rfl

/-- A queue is tried as long as one is ready, and only one that is. -/
theorem nextBy_cases :
    (∃ source, p.timer source ≤ now ∧ (p.nextBy drawn now).1 = some source) ∨
    ((∀ source, ¬ p.timer source ≤ now) ∧ (p.nextBy drawn now).1 = none) := by
  unfold nextBy
  split
  · rename_i primary
    split
    · rename_i secondary
      left
      split
      · exact ⟨.secondary, secondary, rfl⟩
      · exact ⟨.primary, primary, rfl⟩
    · exact .inl ⟨.primary, primary, rfl⟩
  · rename_i primary
    split
    · rename_i secondary
      exact .inl ⟨.secondary, secondary, rfl⟩
    · rename_i secondary
      refine .inr ⟨?_, rfl⟩
      intro source
      cases source
      · exact primary
      · exact secondary

end Decision

/-- How many queues are ready. -/
def ready (p : Poller) (now : Instant) : Nat :=
  (if p.timer .primary ≤ now then 1 else 0) + if p.timer .secondary ≤ now then 1 else 0

theorem ready_congr {p q : Poller} (timers : ∀ source, p.timer source = q.timer source)
    (now : Instant) : p.ready now = q.ready now := by
  unfold ready
  rw [timers, timers]

theorem ready_eq_zero_iff {p : Poller} {now : Instant} :
    p.ready now = 0 ↔ ∀ source, ¬ p.timer source ≤ now := by
  unfold ready
  constructor
  · intro none source ready
    cases source with
    | primary => rw [if_pos ready] at none; omega
    | secondary => rw [if_pos ready] at none; omega
  · intro shut
    rw [if_neg (shut .primary), if_neg (shut .secondary)]

section Record

variable {p : Poller} {now : Instant}

theorem record_of_tried (source : Source) {attempt : Attempt} (tried : attempt ≠ .noWork) :
    p.record source attempt now = p := by
  cases attempt with
  | noWork => exact absurd rfl tried
  | computed | failed => rfl

theorem timer_record_noWork (source : Source) :
    (p.record source .noWork now).timer source = p.backOff now := by
  cases source <;> rfl

theorem timer_record_other {source other : Source} (apart : other ≠ source) (attempt : Attempt) :
    (p.record source attempt now).timer other = p.timer other := by
  cases attempt <;> cases source <;> cases other <;> first | rfl | exact absurd rfl apart

theorem settings_record (source : Source) (attempt : Attempt) :
    (p.record source attempt now).settings = p.settings := by
  cases attempt <;> cases source <;> rfl

/-- A queue without work is left alone, unless it is the last moment of the calendar. -/
theorem lt_backOff (interval : 1000000 ≤ p.settings.sleep.nanos) (inside : now < Instant.latest) :
    ¬ p.backOff now ≤ now := by
  have later := Instant.lt_addOrLatest (Duration.toSpan_pos interval) inside
  rw [Instant.lt_iff_nanos] at later
  rw [Instant.le_iff_nanos, backOff]
  omega

theorem ready_record_noWork {source : Source} (was : p.timer source ≤ now)
    (shut : ¬ p.backOff now ≤ now) : (p.record source .noWork now).ready now + 1 = p.ready now := by
  cases source with
  | primary =>
    have other : (p.record .primary .noWork now).timer .secondary = p.timer .secondary := rfl
    unfold ready
    rw [timer_record_noWork, other, if_pos was, if_neg shut]
    omega
  | secondary =>
    have other : (p.record .secondary .noWork now).timer .primary = p.timer .primary := rfl
    unfold ready
    rw [timer_record_noWork, other, if_pos was, if_neg shut]

end Record

end Poller

namespace PollLoop

variable {σ : Type} (e : Surroundings σ) (c : Cancellation)

/-- One iteration with a given draw. -/
def iterateBy (drawn : Draw × Generator) (l : PollLoop σ) : PollLoop σ :=
  if l.result.isSome then l
  else if Cancellation.fired c l.time l.attempts then l.cancelAt l.time
  else
    let (now, state) := e.clock l.time l.state
    let (source, poller) := l.poller.nextBy drawn now
    let l := { l with poller, state }
    match source with
    | none => sleep e.tick c l
    | some source => attempt e c source l

theorem iterate_eq (l : PollLoop σ) : l.iterate e c = l.iterateBy e c l.poller.generator.next := rfl

/-- The loop after so many iterations with the draws of a sequence. -/
def drawing (draws : Nat → Draw × Generator) (l : PollLoop σ) : Nat → PollLoop σ
  | 0 => l
  | n + 1 => (drawing draws l n).iterateBy e c (draws n)

theorem run_succ (n : Nat) (l : PollLoop σ) : run e c (n + 1) l = (run e c n l).iterate e c := by
  induction n generalizing l with
  | zero => rfl
  | succ n ih => exact ih (l.iterate e c)

/-- The draws of a loop's own generator are such a sequence. -/
theorem run_eq_drawing (l : PollLoop σ) : ∃ own, ∀ n, run e c n l = drawing e c own l n := by
  refine ⟨fun n => (run e c n l).poller.generator.next, ?_⟩
  intro n
  induction n with
  | zero => rfl
  | succ n ih => rw [run_succ, iterate_eq, drawing, ← ih]

end PollLoop

/-- A shutdown token that does not fire. -/
def Cancellation.never : Cancellation := ⟨none, none⟩

namespace PollLoop

variable {σ : Type} {e : Surroundings σ} {l : PollLoop σ}

theorem iterateBy_never (running : l.result = none) (drawn : Draw × Generator) :
    l.iterateBy e .never drawn =
      let reading := e.clock l.time l.state
      let decision := l.poller.nextBy drawn reading.1
      let decided := { l with poller := decision.2, state := reading.2 }
      match decision.1 with
      | none => sleep e.tick .never decided
      | some source => attempt e .never source decided := by
  unfold iterateBy
  rw [running]
  rfl

end PollLoop

end LeaseQueue
