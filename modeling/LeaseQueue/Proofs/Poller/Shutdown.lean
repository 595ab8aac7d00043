import LeaseQueue.Proofs.Poller.BackOff
import Mathlib.Logic.Relation
/-! Shutdown of a polling loop. The token fires at any moment, and where a select finds both of its
branches ready either of them is taken. Clock readings, draws, outcomes and times are arbitrary. -/
namespace LeaseQueue

namespace PollEvent

/-- The entry with which a loop turns to a queue, or to a sleep if none is ready. -/
def opening : Option Source → Nat → PollEvent
  | some source, time => .started source time
  | none, time => .slept time

def begins : PollEvent → Bool
  | .started _ _ => true
  | _ => false

def ends : PollEvent → Bool
  | .finished _ _ _ => true
  | _ => false

end PollEvent

/-- A log, the latest first, in which each attempt and each sleep has come to an end. The next one
begins as the last one ends, which is the time of the log. -/
inductive Settled : Nat → List PollEvent → Prop where
  | nil : Settled 0 []
  | attempt {began ends : Nat} {log : List PollEvent} (attempt : Attempt) (source : Source)
      (past : Settled began log) (later : began ≤ ends) :
      Settled ends (.finished attempt source ends :: .started source began :: log)
  | sleep {since wakes : Nat} {log : List PollEvent} (past : Settled since log)
      (later : since ≤ wakes) : Settled wakes (.woke wakes :: .slept since :: log)

theorem Settled.busyAt_eq_true {at_end time : Nat} {log : List PollEvent}
    (settled : Settled at_end log) (past : at_end ≤ time) : busyAt time log = true := by
  induction settled with
  | nil => rfl
  | attempt attempt source _ later ih => exact ih (Nat.le_trans later past)
  | sleep _ _ _ => exact if_pos past

theorem Settled.ne_opening {time : Nat} {log : List PollEvent} (settled : Settled time log)
    (source? : Option Source) (since : Nat) (earlier : List PollEvent) :
    log ≠ .opening source? since :: earlier := by
  cases settled <;> cases source? <;> nofun

variable {σ : Type}

namespace PollLoop

/-- The loop as it enters a select. -/
def enter : Option Source → PollLoop σ → PollLoop σ
  | some source, l => { l with events := .started source l.time :: l.events }
  | none, l => { l with busy := false, events := .slept l.time :: l.events }

/-- The loop with what the choice of a queue leaves. -/
def decided (drawn : Draw × Generator) (now : Instant) (state : σ) (l : PollLoop σ) : PollLoop σ :=
  { l with poller := (l.poller.nextBy drawn now).2, state }

/-- The loop after an attempt that came to its end. -/
def finish (attempt : Attempt) (source : Source) (ends : Nat) (now : Instant) (state : σ)
    (l : PollLoop σ) : PollLoop σ :=
  { l with
    poller := l.poller.record source attempt now
    state
    time := ends
    busy := true
    attempts := l.attempts + 1
    events := .finished attempt source ends :: l.events }

def wake (wakes : Nat) (l : PollLoop σ) : PollLoop σ :=
  { l with time := wakes, busy := true, events := .woke wakes :: l.events }

@[simp]
theorem result_enter (source? : Option Source) (l : PollLoop σ) :
    (l.enter source?).result = l.result := by
  cases source? <;> rfl

@[simp]
theorem result_wake (wakes : Nat) (l : PollLoop σ) : (l.wake wakes).result = l.result := rfl

@[simp]
theorem result_finish (attempt : Attempt) (source : Source) (ends : Nat) (now : Instant) (state : σ)
    (l : PollLoop σ) : (l.finish attempt source ends now state).result = l.result := rfl

theorem sleep_eq (tick : Nat) (c : Cancellation) (l : PollLoop σ) :
    l.sleep tick c =
      match c.during (l.time + l.poller.settings.sleep.ticks tick) with
      | some time => (l.enter none).cancelAt time
      | none => (l.enter none).wake (l.time + l.poller.settings.sleep.ticks tick) := rfl

theorem attempt_eq (e : Surroundings σ) (c : Cancellation) (source : Source) (l : PollLoop σ) :
    l.attempt e c source =
      let ((attempt, took), state) := e.attempt source l.time l.state
      match c.during (l.time + took) with
      | some time => (l.enter (some source)).cancelAt time
      | none =>
        let reading := e.clock (l.time + took) state
        (l.enter (some source)).finish attempt source (l.time + took) reading.1 reading.2 := rfl

end PollLoop

/-- When a shutdown token fired, and what the loop had logged by then. -/
structure Firing where
  time : Nat
  events : List PollEvent

/-- Where a polling loop is: before an iteration, at a select on an attempt or on a sleep, or at its
end. -/
inductive Phase (σ : Type) where
  | ready (l : PollLoop σ)
  | waiting (source? : Option Source) (l : PollLoop σ)
  | returned (l : PollLoop σ)

def Phase.loop : Phase σ → PollLoop σ
  | .ready l | .waiting _ l | .returned l => l

structure Moment (σ : Type) where
  token : Option Firing
  phase : Phase σ

namespace Moment

/-- What can happen next to a polling loop and its token. -/
inductive Next : Moment σ → Moment σ → Prop where
  /-- The token fires before an iteration. -/
  | fire (l : PollLoop σ) : Next ⟨none, .ready l⟩ ⟨some ⟨l.time, l.events⟩, .ready l⟩
  /-- The token fires during an attempt or a sleep. -/
  | interrupt (source? : Option Source) (l : PollLoop σ) (time : Nat) (later : l.time ≤ time) :
      Next ⟨none, .waiting source? l⟩ ⟨some ⟨time, l.events⟩, .waiting source? l⟩
  | stop (f : Firing) (l : PollLoop σ) :
      Next ⟨some f, .ready l⟩ ⟨some f, .returned (l.cancelAt l.time)⟩
  | choose (drawn : Draw × Generator) (now : Instant) (state : σ) (source? : Option Source)
      (l : PollLoop σ) (chosen : (l.poller.nextBy drawn now).1 = source?) :
      Next ⟨none, .ready l⟩ ⟨none, .waiting source? ((l.decided drawn now state).enter source?)⟩
  /-- The token fires after the choice of a queue, and the select does not turn to it any more. If
  it turns to the attempt first, the loop goes on as with a token that fires as the attempt begins,
  which is `choose` and then `interrupt` at the same time: an attempt that is cut short has logged its
  start and nothing else by then. -/
  | preempt (drawn : Draw × Generator) (now : Instant) (state : σ) (source : Source)
      (l : PollLoop σ) (chosen : (l.poller.nextBy drawn now).1 = some source) :
      Next ⟨none, .ready l⟩
        ⟨some ⟨l.time, l.events⟩, .returned ((l.decided drawn now state).cancelAt l.time)⟩
  | finish (token : Option Firing) (attempt : Attempt) (source : Source) (ends : Nat)
      (now : Instant) (state : σ) (l : PollLoop σ) (later : l.time ≤ ends)
      (fired : ∀ f ∈ token, f.time ≤ ends) :
      Next ⟨token, .waiting (some source) l⟩
        ⟨token, .ready (l.finish attempt source ends now state)⟩
  /-- A sleep ends, whatever its length. -/
  | wake (token : Option Firing) (wakes : Nat) (l : PollLoop σ) (later : l.time ≤ wakes)
      (fired : ∀ f ∈ token, f.time ≤ wakes) :
      Next ⟨token, .waiting none l⟩ ⟨token, .ready (l.wake wakes)⟩
  /-- The token ends a sleep, or an attempt, which is dropped. -/
  | cut (f : Firing) (source? : Option Source) (l : PollLoop σ) :
      Next ⟨some f, .waiting source? l⟩ ⟨some f, .returned (l.cancelAt f.time)⟩

abbrev Reaches : Moment σ → Moment σ → Prop := Relation.ReflTransGen Next

/-- A polling loop before its first iteration, with a token that has not fired. -/
def first (p : Poller) (state : σ) : Moment σ := ⟨none, .ready (.start p state)⟩

/-- A loop with nothing left open. After the token has fired no attempt began. -/
structure Between (token : Option Firing) (l : PollLoop σ) : Prop where
  settled : Settled l.time l.events
  busy : l.busy = true
  fired : ∀ f ∈ token, f.time ≤ l.time ∧
    l.events.filter PollEvent.begins = f.events.filter PollEvent.begins

/-- A loop in an attempt or a sleep. If the token has fired it did so since that began. -/
structure Within (token : Option Firing) (source? : Option Source) (since : Nat)
    (l : PollLoop σ) : Prop where
  entered : ∃ log, Settled since log ∧ l.events = .opening source? since :: log
  past : since ≤ l.time
  busy : l.busy = source?.isSome
  fired : ∀ f ∈ token, since ≤ f.time ∧ f.events = l.events

/-- What holds at each moment. -/
def Sound (m : Moment σ) : Prop :=
  match m.phase with
  | .ready l => l.result = none ∧ Between m.token l
  | .waiting source? l => l.result = none ∧ Within m.token source? l.time l
  | .returned l => l.result = some .cancelled ∧ (∃ f, m.token = some f ∧ f.time ≤ l.time) ∧
    (Between m.token l ∨ ∃ source? since, Within m.token source? since l)

section Step

variable {token : Option Firing} {f : Firing} {source? : Option Source} {l : PollLoop σ}

theorem Between.enter (between : Between none l) :
    Within none source? l.time (l.enter source?) := by
  cases source? with
  | none => exact ⟨⟨_, between.settled, rfl⟩, Nat.le_refl _, rfl, nofun⟩
  | some source => exact ⟨⟨_, between.settled, rfl⟩, Nat.le_refl _, between.busy, nofun⟩

theorem Within.finish {source : Source} {ends : Nat} (within : Within token (some source) l.time l)
    (attempt : Attempt) (now : Instant) (state : σ) (later : l.time ≤ ends)
    (fired : ∀ f ∈ token, f.time ≤ ends) :
    Between token (l.finish attempt source ends now state) := by
  obtain ⟨log, settled, events⟩ := within.entered
  refine ⟨?_, rfl, ?_⟩
  · rw [PollLoop.finish, events]
    exact settled.attempt attempt source later
  · intro f known
    refine ⟨fired f known, ?_⟩
    rw [(within.fired f known).2, PollLoop.finish, List.filter_cons_of_neg Bool.false_ne_true]

theorem Within.wake {wakes : Nat} (within : Within token none l.time l) (later : l.time ≤ wakes)
    (fired : ∀ f ∈ token, f.time ≤ wakes) : Between token (l.wake wakes) := by
  obtain ⟨log, settled, events⟩ := within.entered
  refine ⟨?_, rfl, ?_⟩
  · rw [PollLoop.wake, events]
    exact settled.sleep later
  · intro f known
    refine ⟨fired f known, ?_⟩
    rw [(within.fired f known).2, PollLoop.wake, List.filter_cons_of_neg Bool.false_ne_true]

theorem Within.cut (within : Within (some f) source? l.time l) :
    Within (some f) source? l.time (l.cancelAt f.time) :=
  ⟨within.entered, (within.fired f rfl).1, within.busy, within.fired⟩

theorem Sound.next {m next : Moment σ} (sound : Sound m) (step : Next m next) : Sound next := by
  cases step with
  | fire l =>
    obtain ⟨running, between⟩ := sound
    refine ⟨running, between.settled, between.busy, ?_⟩
    rintro f ⟨⟩
    exact ⟨Nat.le_refl _, rfl⟩
  | interrupt source? l time later =>
    obtain ⟨running, within⟩ := sound
    refine ⟨running, within.entered, within.past, within.busy, ?_⟩
    rintro f ⟨⟩
    exact ⟨later, rfl⟩
  | stop f l =>
    obtain ⟨_, between⟩ := sound
    exact ⟨rfl, ⟨f, rfl, (between.fired f rfl).1⟩,
      .inl ⟨between.settled, between.busy, between.fired⟩⟩
  | choose drawn now state source? l =>
    obtain ⟨running, between⟩ := sound
    have same : Between none (l.decided drawn now state) :=
      ⟨between.settled, between.busy, between.fired⟩
    cases source? with
    | none => exact ⟨running, same.enter⟩
    | some source => exact ⟨running, same.enter⟩
  | preempt drawn now state source l =>
    obtain ⟨_, between⟩ := sound
    refine ⟨rfl, ⟨_, rfl, Nat.le_refl _⟩, .inl ⟨between.settled, between.busy, ?_⟩⟩
    rintro f ⟨⟩
    exact ⟨Nat.le_refl _, rfl⟩
  | finish token attempt source ends now state l later fired =>
    obtain ⟨running, within⟩ := sound
    exact ⟨running, within.finish attempt now state later fired⟩
  | wake token wakes l later fired =>
    obtain ⟨running, within⟩ := sound
    exact ⟨running, within.wake later fired⟩
  | cut f source? l =>
    obtain ⟨_, within⟩ := sound
    exact ⟨rfl, ⟨f, rfl, Nat.le_refl _⟩, .inr ⟨source?, l.time, within.cut⟩⟩

end Step

theorem sound_of_reaches {p : Poller} {state : σ} {m : Moment σ}
    (reached : Reaches (first p state) m) : Sound m := by
  induction reached with
  | refl => exact ⟨rfl, .nil, rfl, nofun⟩
  | tail _ step ih => exact ih.next step

theorem Sound.result {m : Moment σ} (sound : Sound m) {r : PollError}
    (returned : m.phase.loop.result = some r) :
    r = .cancelled ∧ ∃ f, m.token = some f ∧ f.time ≤ m.phase.loop.time := by
  rcases m with ⟨token, l | ⟨source?, l⟩ | l⟩
  · cases sound.1.symm.trans returned
  · cases sound.1.symm.trans returned
  · exact ⟨Option.some.inj (returned.symm.trans sound.1), sound.2.1⟩

theorem Sound.between_or_within {m : Moment σ} (sound : Sound m) :
    Between m.token m.phase.loop ∨ ∃ source? since, Within m.token source? since m.phase.loop := by
  rcases m with ⟨token, l | ⟨source?, l⟩ | l⟩
  · exact .inl sound.2
  · exact .inr ⟨source?, l.time, sound.2⟩
  · exact sound.2.2

section Log

variable {token : Option Firing} {source? : Option Source} {since : Nat} {l : PollLoop σ}

theorem Within.busyAt_eq (within : Within token source? since l) :
    busyAt l.time l.events = l.busy := by
  obtain ⟨log, settled, events⟩ := within.entered
  rw [events, within.busy]
  cases source? with
  | none => exact if_pos within.past
  | some source => exact settled.busyAt_eq_true within.past

theorem Within.busy_iff (within : Within token source? since l) :
    l.busy = false ↔ ∃ since log, l.events = .slept since :: log := by
  obtain ⟨log, _, events⟩ := within.entered
  rw [events, within.busy]
  cases source? with
  | none => exact ⟨fun _ => ⟨since, log, rfl⟩, fun _ => rfl⟩
  | some source => exact ⟨nofun, nofun⟩

theorem Between.busy_iff (between : Between token l) :
    l.busy = false ↔ ∃ since log, l.events = .slept since :: log := by
  rw [between.busy]
  refine ⟨nofun, ?_⟩
  rintro ⟨since, log, asleep⟩
  exact absurd asleep (between.settled.ne_opening none since log)

theorem Within.in_flight {source : Source} {began : Nat} {log : List PollEvent}
    (within : Within token source? since l) (dropped : l.events = .started source began :: log)
    {f : Firing} (fired : token = some f) : began ≤ f.time ∧ f.events = l.events := by
  obtain ⟨past, _, events⟩ := within.entered
  have same := events.symm.trans dropped
  cases source? with
  | none => cases same
  | some own =>
    cases same
    exact within.fired f fired

end Log

/-- The timers change only as an attempt comes to its end. -/
theorem timers_of_reaches {m later : Moment σ} (reached : Reaches m later) :
    let ended (m : Moment σ) := m.phase.loop.events.countP PollEvent.ends
    ended m ≤ ended later ∧ (ended later = ended m →
      ∀ source, later.phase.loop.poller.timer source = m.phase.loop.poller.timer source) := by
  intro ended
  induction reached with
  | refl => exact ⟨Nat.le_refl _, fun _ _ => rfl⟩
  | tail _ step ih =>
    obtain ⟨grown, kept⟩ := ih
    cases step with
    | fire | interrupt | stop | wake | cut => exact ⟨grown, kept⟩
    | choose drawn now state source? l =>
      have timers := Poller.timer_nextBy drawn l.poller now
      cases source? with
      | none => exact ⟨grown, fun same source => (timers source).trans (kept same source)⟩
      | some own => exact ⟨grown, fun same source => (timers source).trans (kept same source)⟩
    | preempt drawn now state source l =>
      have timers := Poller.timer_nextBy drawn l.poller now
      exact ⟨grown, fun same source => (timers source).trans (kept same source)⟩
    | finish token attempt source ends now state l =>
      have one_more : ended ⟨token, .ready (l.finish attempt source ends now state)⟩ =
          ended ⟨token, .waiting (some source) l⟩ + 1 := List.countP_cons_of_pos rfl
      rw [one_more]
      exact ⟨Nat.le_succ_of_le grown, fun same => absurd (same ▸ grown) (Nat.not_succ_le_self _)⟩

/-- Where a loop is between two iterations, or at its end, by the token that it goes by. -/
def ofLoop (c : Cancellation) (l : PollLoop σ) : Moment σ where
  token := if c.fired l.time l.attempts then some ⟨l.time, l.events⟩ else none
  phase := if l.result.isSome then .returned l else .ready l

theorem loop_ofLoop (c : Cancellation) (l : PollLoop σ) : (ofLoop c l).phase.loop = l := by
  cases ended : l.result.isSome <;> simp [ofLoop, ended, Phase.loop]

section Loops

variable {e : Surroundings σ} {c : Cancellation} {l : PollLoop σ}

theorem ofLoop_of_quiet (running : l.result = none) (quiet : c.fired l.time l.attempts = false) :
    ofLoop c l = ⟨none, .ready l⟩ := by
  simp [ofLoop, running, quiet]

theorem ofLoop_of_fired (running : l.result = none) (fired : c.fired l.time l.attempts) :
    ofLoop c l = ⟨some ⟨l.time, l.events⟩, .ready l⟩ := by
  simp [ofLoop, running, fired]

theorem ofLoop_cancelAt {time : Nat} (fired : c.fired time l.attempts) :
    ofLoop c (l.cancelAt time) = ⟨some ⟨time, l.events⟩, .returned (l.cancelAt time)⟩ := by
  simp [ofLoop, PollLoop.cancelAt, fired]

theorem reaches_ofLoop (running : l.result = none) : Reaches ⟨none, .ready l⟩ (ofLoop c l) := by
  cases known : c.fired l.time l.attempts with
  | true =>
    rw [ofLoop_of_fired running known]
    exact .single (.fire l)
  | false =>
    rw [ofLoop_of_quiet running known]

/-- A select that the token ends at a time at which it fires. -/
theorem reaches_cancelAt {time : Nat} (source? : Option Source) (later : l.time ≤ time)
    (fired : c.fired time l.attempts) :
    Reaches ⟨none, .waiting source? l⟩ (ofLoop c (l.cancelAt time)) := by
  rw [ofLoop_cancelAt fired]
  exact .tail (.single (.interrupt source? l time later)) (.cut ⟨time, l.events⟩ source? l)

theorem fired_of_during {ends limit : Nat} (stops : c.during ends = some limit) (attempts : Nat) :
    c.fired limit attempts := by
  obtain ⟨same, _⟩ := Option.filter_eq_some_iff.mp stops
  simp [Cancellation.fired, same]

theorem reaches_sleep (tick : Nat) (running : l.result = none)
    (quiet : c.fired l.time l.attempts = false) :
    Reaches ⟨none, .waiting none (l.enter none)⟩ (ofLoop c (l.sleep tick c)) := by
  rw [PollLoop.sleep_eq]
  cases stops : c.during (l.time + l.poller.settings.sleep.ticks tick) with
  | some limit =>
    have later := Nat.le_of_lt (PollLoop.lt_of_during quiet stops)
    exact reaches_cancelAt none later (fired_of_during stops l.attempts)
  | none =>
    have woken := Next.wake none (l.time + l.poller.settings.sleep.ticks tick) (l.enter none)
      (Nat.le_add_right _ _) nofun
    exact .head woken (reaches_ofLoop (by simpa using running))

theorem reaches_attempt (running : l.result = none) (quiet : c.fired l.time l.attempts = false)
    (source : Source) :
    Reaches ⟨none, .waiting (some source) (l.enter (some source))⟩
      (ofLoop c (l.attempt e c source)) := by
  rw [PollLoop.attempt_eq]
  rcases e.attempt source l.time l.state with ⟨⟨attempt, took⟩, state⟩
  simp only
  cases stops : c.during (l.time + took) with
  | some limit =>
    have later := Nat.le_of_lt (PollLoop.lt_of_during quiet stops)
    exact reaches_cancelAt (some source) later (fired_of_during stops l.attempts)
  | none =>
    let reading := e.clock (l.time + took) state
    have finished := Next.finish none attempt source (l.time + took) reading.1 reading.2
      (l.enter (some source)) (Nat.le_add_right _ _) nofun
    exact .head finished (reaches_ofLoop (by simpa using running))

/-- An iteration is one way in which a loop and its token go on. -/
theorem reaches_iterateBy (drawn : Draw × Generator) (l : PollLoop σ) :
    Reaches (ofLoop c l) (ofLoop c (l.iterateBy e c drawn)) := by
  unfold PollLoop.iterateBy
  split
  · exact .refl
  · rename_i running
    rw [Option.not_isSome_iff_eq_none] at running
    split
    · rename_i fired
      rw [ofLoop_of_fired running fired, ofLoop_cancelAt fired]
      exact .single (.stop _ l)
    · rename_i quiet
      rw [Bool.not_eq_true] at quiet
      rw [ofLoop_of_quiet running quiet]
      rcases e.clock l.time l.state with ⟨now, state⟩
      simp only
      cases chosen : (l.poller.nextBy drawn now).1 with
      | none =>
        have decided : Next ⟨none, .ready l⟩ _ := .choose drawn now state none l chosen
        exact .head decided (reaches_sleep (l := l.decided drawn now state) e.tick running quiet)
      | some source =>
        have decided : Next ⟨none, .ready l⟩ _ := .choose drawn now state (some source) l chosen
        exact .head decided (reaches_attempt (l := l.decided drawn now state) running quiet source)

end Loops

/-- A loop returns only when it is cancelled, once the token has fired. Each attempt is logged with
its outcome at once after its start, save for one that was in flight as the token fired and was
dropped; no attempt begins after that. The timers are those of any earlier moment since which no
attempt has ended. The worker is idle exactly in a sleep, and is left so exactly by a loop that was
cancelled out of one. -/
theorem cancels_cleanly (p : Poller) (state : σ) :
    (∀ e c,
      let loop := fun n => PollLoop.run e c n (.start p state)
      ∀ n, Reaches (first p state) (ofLoop c (loop n)) ∧
        Reaches (ofLoop c (loop n)) (ofLoop c (loop (n + 1)))) ∧
    ∀ m, Reaches (first p state) m →
      let l := m.phase.loop
      (∀ r, l.result = some r → r = .cancelled ∧ ∃ f, m.token = some f ∧ f.time ≤ l.time) ∧
      (∃ since log, Settled since log ∧
        (l.events = log ∨ ∃ source?, l.events = .opening source? since :: log)) ∧
      (∀ source since log, l.result.isSome → l.events = .started source since :: log →
        ∃ f, m.token = some f ∧ since ≤ f.time ∧ f.events = l.events) ∧
      (∀ f, m.token = some f →
        l.events.filter PollEvent.begins = f.events.filter PollEvent.begins) ∧
      (∀ earlier, Reaches earlier m →
        l.events.countP PollEvent.ends = earlier.phase.loop.events.countP PollEvent.ends →
        ∀ source, l.poller.timer source = earlier.phase.loop.poller.timer source) ∧
      (l.busy = false ↔ ∃ since log, l.events = .slept since :: log) ∧
      busyAt l.time l.events = l.busy := by
  refine ⟨?_, ?_⟩
  · intro e c loop
    have goes_on : ∀ n, Reaches (ofLoop c (loop n)) (ofLoop c (loop (n + 1))) := by
      intro n
      rw [show loop (n + 1) = _ from PollLoop.run_succ e c n _, PollLoop.iterate_eq]
      exact reaches_iterateBy _ (loop n)
    intro n
    refine ⟨?_, goes_on n⟩
    induction n with
    | zero => exact reaches_ofLoop rfl
    | succ n ih => exact ih.trans (goes_on n)
  · intro m reached l
    have sound := sound_of_reaches reached
    refine ⟨fun r returned => sound.result returned, ?_, ?_, ?_, ?_, ?_, ?_⟩
    · rcases sound.between_or_within with between | ⟨source?, since, within⟩
      · exact ⟨l.time, l.events, between.settled, .inl rfl⟩
      · obtain ⟨log, settled, events⟩ := within.entered
        exact ⟨since, log, settled, .inr ⟨source?, events⟩⟩
    · intro source since log returned dropped
      obtain ⟨r, returned⟩ := Option.isSome_iff_exists.mp returned
      obtain ⟨_, f, fired, _⟩ := sound.result returned
      rcases sound.between_or_within with between | ⟨_, _, within⟩
      · exact absurd dropped (between.settled.ne_opening (some source) since log)
      · exact ⟨f, fired, within.in_flight dropped fired⟩
    · intro f fired
      rcases sound.between_or_within with between | ⟨_, _, within⟩
      · exact (between.fired f fired).2
      · rw [(within.fired f fired).2]
    · intro earlier before same
      exact (timers_of_reaches before).2 same
    · rcases sound.between_or_within with between | ⟨_, _, within⟩
      · exact between.busy_iff
      · exact within.busy_iff
    · rcases sound.between_or_within with between | ⟨_, _, within⟩
      · rw [between.busy]
        exact between.settled.busyAt_eq_true (Nat.le_refl _)
      · exact within.busyAt_eq

end Moment

namespace ScriptedQueues

/-- A token that fires in the first attempt, and one that fires in the first sleep. -/
theorem cancels_cleanly_in_selects :
    let p : Poller := .start ⟨.ofMillis 10, .ofBits 0⟩ (.ofSeed 42)
    let c : Cancellation := ⟨some 4, none⟩
    let q : ScriptedQueues := ⟨[(.computed, 9)], []⟩
    let tried := q.poll .epoch c p
    let asleep := (⟨[], []⟩ : ScriptedQueues).poll .epoch c p
    tried.result = some .cancelled ∧ tried.events = [.started .primary 0] ∧
      (∃ f, (Moment.ofLoop c tried).token = some f ∧ 0 ≤ f.time ∧ f.events = tried.events) ∧
      (∀ source, tried.poller.timer source = p.timer source) ∧
      (tried.busy = false ↔ ∃ since log, tried.events = .slept since :: log) ∧
      asleep.result = some .cancelled ∧ asleep.busy = false ∧
      (asleep.busy = false ↔ ∃ since log, asleep.events = .slept since :: log) := by
  intro p c q tried asleep
  have returned : tried.result = some .cancelled ∧ tried.events = [.started .primary 0] := by
    decide +kernel
  have slept : asleep.result = some .cancelled ∧ asleep.busy = false := by decide +kernel
  have reached (q : ScriptedQueues) :
      (Moment.first p q).Reaches (Moment.ofLoop c (q.poll .epoch c p)) := by
    rw [poll_eq_run]
    exact ((Moment.cancels_cleanly p q).1 (surroundings .epoch) c _).1
  obtain ⟨_, _, in_flight, _, timers, busy, _⟩ := (Moment.cancels_cleanly p q).2 _ (reached q)
  obtain ⟨_, _, _, _, _, asleep_busy, _⟩ := (Moment.cancels_cleanly p _).2 _ (reached ⟨[], []⟩)
  rw [Moment.loop_ofLoop] at in_flight timers busy asleep_busy
  have none_ended : tried.events.countP PollEvent.ends =
      (Moment.first p q).phase.loop.events.countP PollEvent.ends := by
    rw [returned.2]
    rfl
  have ended := Option.isSome_iff_exists.mpr ⟨_, returned.1⟩
  exact ⟨returned.1, returned.2, in_flight .primary 0 [] ended returned.2,
    timers _ (reached q) none_ended, busy, slept.1, slept.2, asleep_busy⟩

end ScriptedQueues

end LeaseQueue
