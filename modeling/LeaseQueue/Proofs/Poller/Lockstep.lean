import LeaseQueue.Proofs.Poller.BackOff
import LeaseQueue.Proofs.Poller.Draws
import LeaseQueue.Proofs.Poller.Shutdown
/-! Two polling loops whose attempts differ only in whether the work that they found failed. They
decide alike for ever, since neither a failure nor a success is seen by the timers. -/
namespace LeaseQueue

/-- What an attempt came to, but for whether its work failed. -/
def Attempt.unjudged : Attempt → Attempt
  | .failed => .computed
  | attempt => attempt

def PollEvent.unjudged : PollEvent → PollEvent
  | .finished attempt source time => .finished attempt.unjudged source time
  | event => event

namespace Poller

theorem record_unjudged (p : Poller) (source : Source) (attempt : Attempt) (now : Instant) :
    p.record source attempt.unjudged now = p.record source attempt now := by
  cases attempt <;> rfl

/-- The same timers, and the same draws unless none is needed. -/
structure Agrees (p q : Poller) : Prop where
  settings : p.settings = q.settings
  timers : ∀ source, p.timer source = q.timer source
  draws : p.generator = q.generator ∨ p.settings.Decided

namespace Agrees

variable {p q : Poller}

theorem choosesSecondary (agrees : p.Agrees q) :
    p.choosesSecondary p.generator.next.1 = q.choosesSecondary q.generator.next.1 := by
  have same : ∀ draw, p.choosesSecondary draw = q.choosesSecondary draw := by
    intro draw
    rw [Poller.choosesSecondary, Poller.choosesSecondary, agrees.settings]
  rcases agrees.draws with drawn | decided
  · rw [drawn, same]
  · rw [p.choosesSecondary_decided decided _ q.generator.next.1, same]

theorem source_next (agrees : p.Agrees q) (now : Instant) : (p.next now).1 = (q.next now).1 := by
  have primary : p.primaryUntil = q.primaryUntil := agrees.timers .primary
  have secondary : p.secondaryUntil = q.secondaryUntil := agrees.timers .secondary
  have chosen := agrees.choosesSecondary
  by_cases first : q.primaryUntil ≤ now <;> by_cases second : q.secondaryUntil ≤ now <;>
    simp [Poller.next, primary, secondary, chosen, first, second]

theorem next (agrees : p.Agrees q) (now : Instant) : (p.next now).2.Agrees (q.next now).2 where
  settings := by
    have kept := fun p : Poller => settings_nextBy p.generator.next p now
    exact (kept p).trans (agrees.settings.trans (kept q).symm)
  timers source := by
    have kept := fun p : Poller => timer_nextBy p.generator.next p now source
    exact (kept p).trans ((agrees.timers source).trans (kept q).symm)
  draws := by
    have settings : (p.next now).2.settings = p.settings := settings_nextBy p.generator.next p now
    rw [generator_next, generator_next, ready_congr agrees.timers, settings]
    exact agrees.draws.imp_left fun same => by rw [same]

theorem record (agrees : p.Agrees q) (source : Source) {attempt other : Attempt}
    (same : attempt.unjudged = other.unjudged) (now : Instant) :
    (p.record source attempt now).Agrees (q.record source other now) where
  settings := by rw [settings_record, settings_record, agrees.settings]
  timers queue := by
    rw [← p.record_unjudged, ← q.record_unjudged, same, timer_record, timer_record,
      agrees.settings, agrees.timers]
  draws := by
    rw [generator_record, generator_record, settings_record]
    exact agrees.draws

end Agrees

end Poller

section Pairs

variable {σ τ : Type}

/-- Two surroundings with the same clock, whose attempts take equally long and find work at the same
times, as long as their states are paired. -/
structure Surroundings.Mirrors (e : Surroundings σ) (f : Surroundings τ) (paired : σ → τ → Prop) :
    Prop where
  tick : e.tick = f.tick
  clock : ∀ time s t, paired s t → (e.clock time s).1 = (f.clock time t).1 ∧
    paired (e.clock time s).2 (f.clock time t).2
  attempt : ∀ source time s t, paired s t →
    (e.attempt source time s).1.1.unjudged = (f.attempt source time t).1.1.unjudged ∧
    (e.attempt source time s).1.2 = (f.attempt source time t).1.2 ∧
    paired (e.attempt source time s).2 (f.attempt source time t).2

namespace PollLoop

/-- What two loops show alike: all but whether the work of an attempt failed. -/
structure Alike (l : PollLoop σ) (m : PollLoop τ) : Prop where
  timers : ∀ source, l.poller.timer source = m.poller.timer source
  time : l.time = m.time
  busy : l.busy = m.busy
  attempts : l.attempts = m.attempts
  events : l.events.map PollEvent.unjudged = m.events.map PollEvent.unjudged
  result : l.result = m.result

structure Lockstep (paired : σ → τ → Prop) (l : PollLoop σ) (m : PollLoop τ) : Prop where
  poller : l.poller.Agrees m.poller
  state : paired l.state m.state
  alike : l.Alike m

namespace Lockstep

variable {paired : σ → τ → Prop} {l : PollLoop σ} {m : PollLoop τ} (c : Cancellation)

theorem cancelAt (lock : Lockstep paired l m) (time : Nat) :
    Lockstep paired (l.cancelAt time) (m.cancelAt time) :=
  ⟨lock.poller, lock.state, { lock.alike with time := rfl, result := rfl }⟩

theorem enter (lock : Lockstep paired l m) (source? : Option Source) :
    Lockstep paired (l.enter source?) (m.enter source?) := by
  have events := lock.alike.events
  have time := lock.alike.time
  cases source? with
  | none =>
    exact ⟨lock.poller, lock.state, { lock.alike with
      busy := rfl
      events := by simp [PollLoop.enter, time, events] }⟩
  | some source =>
    exact ⟨lock.poller, lock.state, { lock.alike with
      events := by simp [PollLoop.enter, time, events] }⟩

theorem wake (lock : Lockstep paired l m) (wakes : Nat) :
    Lockstep paired (l.wake wakes) (m.wake wakes) :=
  ⟨lock.poller, lock.state, { lock.alike with
    time := rfl
    busy := rfl
    events := by simp [PollLoop.wake, lock.alike.events] }⟩

theorem decided (lock : Lockstep paired l m) {p q : Poller} (poller : p.Agrees q) {s : σ} {t : τ}
    (state : paired s t) :
    Lockstep paired { l with poller := p, state := s } { m with poller := q, state := t } :=
  ⟨poller, state, { lock.alike with timers := poller.timers }⟩

theorem finish (lock : Lockstep paired l m) {attempt other : Attempt}
    (same : attempt.unjudged = other.unjudged) (source : Source) (ends : Nat) (now : Instant)
    {s : σ} {t : τ} (state : paired s t) :
    Lockstep paired (l.finish attempt source ends now s) (m.finish other source ends now t) := by
  have recorded := lock.poller.record source same now
  exact ⟨recorded, state, { lock.alike with
    timers := recorded.timers
    time := rfl
    busy := rfl
    attempts := congrArg (· + 1) lock.alike.attempts
    events := by simp [PollLoop.finish, PollEvent.unjudged, same, lock.alike.events] }⟩

theorem sleep (lock : Lockstep paired l m) (tick : Nat) :
    Lockstep paired (l.sleep tick c) (m.sleep tick c) := by
  rw [sleep_eq, sleep_eq, ← lock.alike.time, ← lock.poller.settings]
  cases c.during (l.time + l.poller.settings.sleep.ticks tick) with
  | none => exact (lock.enter none).wake _
  | some time => exact (lock.enter none).cancelAt time

theorem start {settings : PollerSettings} {generator other : Generator}
    (draws : generator = other ∨ settings.Decided) {s : σ} {t : τ} (state : paired s t) :
    Lockstep paired (.start (.start settings generator) s) (.start (.start settings other) t) where
  poller := ⟨rfl, fun source => by cases source <;> rfl, draws⟩
  state := state
  alike := ⟨fun source => by cases source <;> rfl, rfl, rfl, rfl, rfl, rfl⟩

variable {e : Surroundings σ} {f : Surroundings τ}

theorem attempt (mirrors : e.Mirrors f paired) (lock : Lockstep paired l m) (source : Source) :
    Lockstep paired (l.attempt e c source) (m.attempt f c source) := by
  have outcomes := mirrors.attempt source l.time l.state m.state lock.state
  rw [attempt_eq, attempt_eq, ← lock.alike.time]
  revert outcomes
  rcases e.attempt source l.time l.state with ⟨⟨attempt, took⟩, s⟩
  rcases f.attempt source l.time m.state with ⟨⟨other, _⟩, t⟩
  rintro ⟨same, rfl, state⟩
  obtain ⟨clock, state⟩ := mirrors.clock (l.time + took) s t state
  simp only
  cases c.during (l.time + took) with
  | none =>
    rw [← clock]
    exact (lock.enter (some source)).finish same source _ _ state
  | some time => exact (lock.enter (some source)).cancelAt time

theorem iterate (mirrors : e.Mirrors f paired) (lock : Lockstep paired l m) :
    Lockstep paired (l.iterate e c) (m.iterate f c) := by
  have ended : m.result.isSome = l.result.isSome := by rw [lock.alike.result]
  have fired : c.fired m.time m.attempts = c.fired l.time l.attempts := by
    rw [lock.alike.time, lock.alike.attempts]
  have reading : (e.clock l.time l.state).1 = (f.clock m.time m.state).1 ∧
      paired (e.clock l.time l.state).2 (f.clock m.time m.state).2 := by
    rw [← lock.alike.time]
    exact mirrors.clock l.time l.state m.state lock.state
  unfold PollLoop.iterate
  rw [ended, fired]
  split
  · exact lock
  split
  · rw [← lock.alike.time]
    exact lock.cancelAt l.time
  revert reading
  rcases e.clock l.time l.state with ⟨now, s⟩
  rcases f.clock m.time m.state with ⟨_, t⟩
  rintro ⟨rfl, states⟩
  have source := lock.poller.source_next now
  have chosen := lock.decided (lock.poller.next now) states
  simp only at chosen ⊢
  rw [← source, ← mirrors.tick]
  cases (l.poller.next now).1 with
  | none => exact chosen.sleep c e.tick
  | some queue => exact chosen.attempt c mirrors queue

theorem run (mirrors : e.Mirrors f paired) (n : Nat) (lock : Lockstep paired l m) :
    Lockstep paired (l.run e c n) (m.run f c n) := by
  induction n generalizing l m with
  | zero => exact lock
  | succ n ih => exact ih (lock.iterate c mirrors)

end Lockstep

end PollLoop

end Pairs

/-- What an attempt on a queue came to, if the event is its end. -/
def PollEvent.outcome? (source : Source) : PollEvent → Option Attempt
  | .finished attempt own _ => if own = source then some attempt else none
  | _ => none

/-- What the attempts on a queue came to, the first one first. -/
def PollLoop.outcomes {σ : Type} (l : PollLoop σ) (source : Source) : List Attempt :=
  (l.events.filterMap (PollEvent.outcome? source)).reverse

namespace ScriptedQueues

def script (q : ScriptedQueues) : Source → List (Attempt × Nat)
  | .primary => q.primary
  | .secondary => q.secondary

/-- Scripts that differ at most in which of the attempts with work fail. -/
def Exchanged (q r : ScriptedQueues) : Prop :=
  ∀ source, (q.script source).map (fun entry => (entry.1.unjudged, entry.2)) =
    (r.script source).map fun entry => (entry.1.unjudged, entry.2)

variable {q r : ScriptedQueues}

theorem next_eq (q : ScriptedQueues) (source : Source) :
    (q.next source).1 = (q.script source).headD (.noWork, 0) := by
  cases source <;> rfl

theorem script_next (q : ScriptedQueues) (source other : Source) :
    (q.next source).2.script other =
      if source = other then (q.script other).tail else q.script other := by
  cases source <;> cases other <;> rfl

theorem Exchanged.next (exchanged : q.Exchanged r) (source : Source) :
    (q.next source).1.1.unjudged = (r.next source).1.1.unjudged ∧
      (q.next source).1.2 = (r.next source).1.2 ∧ (q.next source).2.Exchanged (r.next source).2 := by
  rw [← and_assoc]
  constructor
  · have same := exchanged source
    rw [next_eq, next_eq]
    revert same
    cases q.script source <;> cases r.script source <;> simp +contextual
  · intro other
    rw [script_next, script_next]
    split
    · rw [List.map_tail, List.map_tail, exchanged other]
    · exact exchanged other

theorem mirrors_paced (start : Instant) {tick : Nat} (positive : 0 < tick) :
    (paced start tick positive).Mirrors (paced start tick positive) Exchanged where
  tick := rfl
  clock _ _ _ exchanged := ⟨rfl, exchanged⟩
  attempt source _ _ _ exchanged := exchanged.next source

/-- A queue's attempts come to what its script says, and to nothing after its end. -/
def Plays (q : ScriptedQueues) (l : PollLoop ScriptedQueues) : Prop :=
  ∀ source, ∃ idle, l.outcomes source ++ (l.state.script source).map Prod.fst =
    (q.script source).map Prod.fst ++ .replicate idle .noWork

namespace Plays

variable {l : PollLoop ScriptedQueues} (start : Instant) {tick : Nat} (positive : 0 < tick)
  (c : Cancellation)

theorem told (plays : q.Plays l) {m : PollLoop ScriptedQueues} (state : m.state = l.state)
    (same : ∀ source, m.outcomes source = l.outcomes source) : q.Plays m := by
  intro source
  rw [same, state]
  exact plays source

theorem enter (plays : q.Plays l) (source? : Option Source) : q.Plays (l.enter source?) := by
  cases source? <;> exact plays.told rfl fun _ => rfl

theorem wake (plays : q.Plays l) (wakes : Nat) : q.Plays (l.wake wakes) :=
  plays.told rfl fun _ => rfl

theorem finish (plays : q.Plays l) (source : Source) (ends : Nat) (now : Instant) :
    q.Plays (l.finish (l.state.next source).1.1 source ends now (l.state.next source).2) := by
  intro other
  obtain ⟨idle, same⟩ := plays other
  by_cases own : source = other
  · subst own
    have ended : (l.finish (l.state.next source).1.1 source ends now
        (l.state.next source).2).outcomes source =
        l.outcomes source ++ [(l.state.next source).1.1] := by
      simp [PollLoop.outcomes, PollLoop.finish, PollEvent.outcome?]
    have left : (l.finish (l.state.next source).1.1 source ends now
        (l.state.next source).2).state.script source = (l.state.script source).tail := by
      simp [PollLoop.finish, script_next]
    rw [ended, left, next_eq]
    cases rest : l.state.script source with
    | nil =>
      rw [rest, List.map_nil, List.append_nil] at same
      exact ⟨idle + 1, by simp [same, List.replicate_succ']⟩
    | cons entry rest' =>
      rw [rest] at same
      exact ⟨idle, by simpa using same⟩
  · refine ⟨idle, ?_⟩
    simpa [PollLoop.outcomes, PollLoop.finish, PollEvent.outcome?, script_next, own] using same

theorem sleep (plays : q.Plays l) : q.Plays (l.sleep tick c) := by
  rw [PollLoop.sleep_eq]
  split
  · exact plays.enter none
  · exact (plays.enter none).wake _

theorem attempt (plays : q.Plays l) (source : Source) :
    q.Plays (l.attempt (paced start tick positive) c source) := by
  rw [PollLoop.attempt_eq]
  simp only
  split
  · exact plays.enter (some source)
  · exact (plays.enter (some source)).finish source _ _

theorem iterate (plays : q.Plays l) : q.Plays (l.iterate (paced start tick positive) c) := by
  unfold PollLoop.iterate
  split
  · exact plays
  split
  · exact plays
  simp only
  split
  · apply sleep
    exact plays.told rfl fun _ => rfl
  · apply attempt
    exact plays.told rfl fun _ => rfl

theorem run (plays : q.Plays l) (n : Nat) : q.Plays (l.run (paced start tick positive) c n) := by
  induction n generalizing l with
  | zero => exact plays
  | succ n ih => exact ih (plays.iterate start positive c)

end Plays

theorem length_script (exchanged : q.Exchanged r) (source : Source) :
    (q.script source).length = (r.script source).length := by
  simpa using congrArg List.length (exchanged source)

section Scheduling

variable (start : Instant) {tick : Nat} (positive : 0 < tick) (c : Cancellation)
  (settings : PollerSettings) {generator other : Generator}

theorem alike_run (exchanged : q.Exchanged r) (draws : generator = other ∨ settings.Decided)
    (n : Nat) : PollLoop.Alike
      (.run (paced start tick positive) c n (.start (.start settings generator) q))
      (.run (paced start tick positive) c n (.start (.start settings other) r)) :=
  ((PollLoop.Lockstep.start draws exchanged).run c (mirrors_paced start positive) n).alike

theorem alike_poll (exchanged : q.Exchanged r) (draws : generator = other ∨ settings.Decided) :
    (q.poll start c (.start settings generator)).Alike (r.poll start c (.start settings other)) := by
  have primary : q.primary.length = r.primary.length := length_script exchanged .primary
  have secondary : q.secondary.length = r.secondary.length := length_script exchanged .secondary
  have enough : q.iterations settings.sleep c = r.iterations settings.sleep c := by
    rw [iterations, iterations, primary, secondary]
  have alike := alike_run start (surroundings start).tick_pos c settings exchanged draws
    (q.iterations settings.sleep c)
  rw [poll_eq_run, poll_eq_run]
  exact enough ▸ alike

theorem outcomes_run (q : ScriptedQueues) (generator : Generator) (n : Nat) (source : Source) :
    ∃ idle, (PollLoop.run (paced start tick positive) c n
      (.start (.start settings generator) q)).outcomes source <+:
        (q.script source).map Prod.fst ++ .replicate idle .noWork := by
  have plays : q.Plays (.start (.start settings generator) q) :=
    fun source => ⟨0, by simp [PollLoop.start, PollLoop.outcomes]⟩
  obtain ⟨idle, same⟩ := plays.run start positive c n source
  exact ⟨idle, _, same⟩

/-- Two loops with the same settings over scripts that differ at most in which attempts fail decide
alike in every iteration, if they have the same seed or their proportion leaves nothing to draws.
The generator has moved on by the iterations that found both queues ready, and by no others. -/
theorem schedules_alike (exchanged : q.Exchanged r) (seed another : UInt64)
    (draws : seed = another ∨ settings.Decided) :
    let p : Poller := .start settings (.ofSeed seed)
    let p' : Poller := .start settings (.ofSeed another)
    let e := paced start tick positive
    (∀ n, PollLoop.Alike (.run e c n (.start p q)) (.run e c n (.start p' r))) ∧
    (q.poll start c p).Alike (r.poll start c p') ∧
    (∀ n source, ∃ idle, (PollLoop.run e c n (.start p q)).outcomes source <+:
      (q.script source).map Prod.fst ++ .replicate idle .noWork) ∧
    (∀ n, let l := PollLoop.run e c n (.start p q)
      (PollLoop.run e c (n + 1) (.start p q)).poller.generator =
        if l.draws e c then l.poller.generator.next.2 else l.poller.generator) ∧
    (∀ n, let position := (List.range n).countP fun i =>
        (PollLoop.run e c i (.start p q)).draws e c
      let current := (PollLoop.run e c n (.start p q)).poller.generator
      current = ⟨(Generator.ofSeed seed).key, position⟩ ∧
        current.next.1 = Generator.drawAt (Generator.ofSeed seed).key position) ∧
    ∀ position, let draw := Generator.drawAt (Generator.ofSeed seed).key position
      0 ≤ draw.value ∧ draw.value < 1 := by
  have generators : Generator.ofSeed seed = Generator.ofSeed another ∨ settings.Decided :=
    draws.imp_left (congrArg Generator.ofSeed)
  refine ⟨fun n => alike_run start positive c settings exchanged generators n,
    alike_poll start c settings exchanged generators,
    fun n source => outcomes_run start positive c settings q (.ofSeed seed) n source, ?_, ?_, ?_⟩
  · intro n
    rw [PollLoop.run_succ, PollLoop.generator_iterate]
  · intro n position current
    have taken : current = ⟨(Generator.ofSeed seed).key, 0 + position⟩ :=
      PollLoop.generator_run _ c _ n
    rw [Nat.zero_add] at taken
    rw [taken]
    exact ⟨rfl, rfl⟩
  · exact fun position => ⟨Draw.value_nonneg _, Draw.value_lt_one _⟩

end Scheduling

/-- Two seeds, and a proportion that always takes the review branches. -/
theorem schedules_alike_decided :
    let settings : PollerSettings := ⟨.ofMillis 10, .ofBits 0x3ff0000000000000⟩
    let q : ScriptedQueues := ⟨[(.computed, 5)], [(.failed, 3), (.noWork, 2)]⟩
    let r : ScriptedQueues := ⟨[(.failed, 5)], [(.computed, 3), (.noWork, 2)]⟩
    let c : Cancellation := ⟨none, some 3⟩
    let l := q.poll .epoch c (.start settings (.ofSeed 1))
    let m := r.poll .epoch c (.start settings (.ofSeed 2))
    l.events.head? = some (.finished .computed .primary 10) ∧
      m.events.head? = some (.finished .failed .primary 10) ∧ l.Alike m := by
  intro settings q r c l m
  have exchanged : q.Exchanged r := by
    intro source
    cases source <;> rfl
  have one : settings.secondaryProportion = .finite false 4503599627370496 (-52) := by rfl
  have decided : settings.Decided := by
    right
    rw [one]
    norm_num [Binary64.AtLeast, Binary64.finiteValue]
  refine ⟨by decide +kernel, by decide +kernel, ?_⟩
  exact (schedules_alike .epoch Nat.one_pos c settings exchanged 1 2 (.inr decided)).2.1

end ScriptedQueues

end LeaseQueue
