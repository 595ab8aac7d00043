import LeaseQueue.Proofs.Poller.Shutdown
import Mathlib.Data.List.Chain
/-! The sleeps of a polling loop. It sleeps while both queues are left alone, and the rest of either
of them is over when it wakes, whenever that rest began. -/
namespace LeaseQueue

namespace PollEvent

/-- Whether a loop turns to a queue or to a sleep with this entry. -/
def enters : PollEvent → Bool
  | .started _ _ | .slept _ => true
  | .finished _ _ _ | .woke _ => false

def isSleep : PollEvent → Bool
  | .slept _ => true
  | _ => false

end PollEvent

/-- A rest ends at most its length after it began, also where it is cut at the last moment. -/
theorem restEnd_le (sleep : Duration) (reading : Instant) :
    (restEnd sleep reading).nanos ≤ reading.nanos + (sleep.nanos : Nat) := by
  have cut : sleep.nanos / 1000000 * 1000000 ≤ sleep.nanos := Nat.div_mul_le_self _ _
  unfold restEnd
  cases sum : Instant.ofNanos? (reading.nanos + (sleep.nanos / 1000000 * 1000000 : Nat)) with
  | none =>
    have early := reading.earliest_le
    rcases Instant.ofNanos?_eq_none_iff.mp sum with before | beyond
    · omega
    · change latestNanos ≤ reading.nanos + (sleep.nanos : Nat)
      omega
  | some ends =>
    have exact := Instant.ofNanos?_eq_some_iff.mp sum
    change ends.nanos ≤ reading.nanos + (sleep.nanos : Nat)
    omega

namespace Surroundings

variable {σ : Type} (e : Surroundings σ)

theorem elapsed_add (time more : Nat) :
    e.elapsed (time + more) = e.elapsed time + e.elapsed more :=
  Nat.add_mul time more e.tick

/-- No sleep ends early. -/
theorem le_elapsed_ticks (sleep : Duration) : sleep.nanos ≤ e.elapsed (sleep.ticks e.tick) := by
  have positive := e.tick_pos
  have last := Nat.lt_div_mul_add (a := sleep.nanos + (e.tick - 1)) positive
  unfold elapsed Duration.ticks
  omega

/-- A sleep of whole ticks lasts exactly as long as it is meant to. -/
theorem elapsed_ticks {sleep : Duration} (whole : e.tick ∣ sleep.nanos) :
    e.elapsed (sleep.ticks e.tick) = sleep.nanos := by
  obtain ⟨ticks, same⟩ := whole
  have rest : (e.tick - 1) / e.tick = 0 := Nat.div_eq_of_lt (Nat.sub_one_lt_of_lt e.tick_pos)
  rw [elapsed, Duration.ticks, same, Nat.mul_add_div e.tick_pos, rest, Nat.add_zero, Nat.mul_comm]

end Surroundings

namespace PollLoop

variable {σ : Type} {e : Surroundings σ} {c : Cancellation} {l next : PollLoop σ}

/-- A loop after an iteration that has slept, to its end or until the token has fired. -/
structure Sleeps (e : Surroundings σ) (l next : PollLoop σ) : Prop where
  running : l.result = none
  shut : ∀ source, ∃ s, (e.clock l.time s).1 < l.poller.timer source
  timers : ∀ source, next.poller.timer source = l.poller.timer source
  ended : (next.events = .slept l.time :: l.events ∧ next.result ≠ none) ∨
    (next.time = l.time + l.poller.settings.sleep.ticks e.tick ∧ next.result = none ∧
      next.events = .woke next.time :: .slept l.time :: l.events)

/-- A loop after an iteration that has begun an attempt on a queue. -/
structure Tries (e : Surroundings σ) (l next : PollLoop σ) (source : Source) : Prop where
  ready : ∃ s, l.poller.timer source ≤ (e.clock l.time s).1
  events : ∃ ended, next.events = ended ++ .started source l.time :: l.events ∧
    ∀ event ∈ ended, event.enters = false

/-- The time to wake is a variable here, so that no check computes the length of the sleep. -/
theorem sleeps_wake {wakes : Nat} (woken : wakes = l.time + l.poller.settings.sleep.ticks e.tick)
    (shut : ∀ source, ∃ s, (e.clock l.time s).1 < l.poller.timer source)
    (running : l.result = none) : Sleeps e l ((l.enter none).wake wakes) :=
  ⟨running, shut, fun _ => rfl, .inr ⟨woken, running, rfl⟩⟩

theorem sleeps_sleep (shut : ∀ source, ∃ s, (e.clock l.time s).1 < l.poller.timer source)
    (running : l.result = none) : Sleeps e l (l.sleep e.tick c) := by
  rw [sleep_eq]
  cases c.during (l.time + l.poller.settings.sleep.ticks e.tick) with
  | some time => exact ⟨running, shut, fun _ => rfl, .inl ⟨rfl, nofun⟩⟩
  | none => exact sleeps_wake rfl shut running

theorem tries_attempt {source : Source}
    (ready : ∃ s, l.poller.timer source ≤ (e.clock l.time s).1) :
    Tries e l (l.attempt e c source) source := by
  unfold attempt
  rcases e.attempt source l.time l.state with ⟨⟨attempt, took⟩, state⟩
  simp only
  cases c.during (l.time + took) with
  | some time => exact ⟨ready, [], rfl, List.forall_mem_nil _⟩
  | none =>
    exact ⟨ready, [.finished attempt source (l.time + took)], rfl, by simp [PollEvent.enters]⟩

/-- An iteration ends the loop, sleeps, or begins an attempt. -/
theorem iterateBy_enters (drawn : Draw × Generator) (l : PollLoop σ) :
    ((l.result.isSome ∨ c.fired l.time l.attempts = true) ∧
      (l.iterateBy e c drawn).result ≠ none ∧ (l.iterateBy e c drawn).events = l.events) ∨
    Sleeps e l (l.iterateBy e c drawn) ∨ ∃ source, Tries e l (l.iterateBy e c drawn) source := by
  unfold iterateBy
  split
  · rename_i settled
    exact .inl ⟨.inl settled, Option.isSome_iff_ne_none.mp settled, rfl⟩
  rename_i running
  split
  · rename_i fired
    exact .inl ⟨.inr fired, nofun, rfl⟩
  right
  rcases read : e.clock l.time l.state with ⟨now, state⟩
  have own : (e.clock l.time l.state).1 = now := by rw [read]
  have settings := Poller.settings_nextBy drawn l.poller now
  have timers := Poller.timer_nextBy drawn l.poller now
  have choice := Poller.nextBy_cases drawn l.poller now
  rcases decided : l.poller.nextBy drawn now with ⟨source?, poller⟩
  rw [decided] at settings timers choice
  simp only [decided]
  rcases choice with ⟨source, ready, rfl⟩ | ⟨shut, rfl⟩
  · have chosen : ∃ s, poller.timer source ≤ (e.clock l.time s).1 :=
      ⟨l.state, by rw [timers, own]; exact ready⟩
    obtain ⟨_, events⟩ := tries_attempt (e := e) (c := c) (l := { l with poller, state }) chosen
    exact .inr ⟨source, ⟨l.state, own.symm ▸ ready⟩, events⟩
  · have sleeps := sleeps_sleep (e := e) (c := c) (l := { l with poller, state })
      (fun source => ⟨l.state, by rw [timers, own]; exact Int.not_le.mp (shut source)⟩)
      (by simpa using running)
    refine .inl ⟨sleeps.running,
      fun source => ⟨l.state, own.symm ▸ Int.not_le.mp (shut source)⟩, ?_, ?_⟩
    · intro source
      rw [sleeps.timers, timers]
    · have ended := sleeps.ended
      rwa [settings] at ended

/-- Only an iteration that sleeps logs a sleep. -/
theorem sleeps_of_logged {drawn : Draw × Generator}
    (logged : .slept l.time :: l.events <:+ (l.iterateBy e c drawn).events) :
    Sleeps e l (l.iterateBy e c drawn) := by
  rcases iterateBy_enters (e := e) (c := c) drawn l with ⟨_, _, same⟩ | sleeps | ⟨source, tries⟩
  · have longer := logged.length_le
    rw [same, List.length_cons] at longer
    omega
  · exact sleeps
  · obtain ⟨ended, events, _⟩ := tries.events
    rw [events] at logged
    have both := List.suffix_of_suffix_length_le logged (List.suffix_append ended _) (Nat.le_refl _)
    cases both.eq_of_length rfl

theorem time_iterateBy (drawn : Draw × Generator) (l : PollLoop σ) :
    l.time ≤ (l.iterateBy e c drawn).time := by
  rcases iterateBy_cases (e := e) (c := c) drawn l with ⟨_, keeps⟩ | ⟨_, _, makes⟩
  · exact keeps.time
  · exact makes.time

section Timed

variable {sleep : Duration} {start : Instant} {limit : Nat} {turns : List Turn}

/-- A clock that keeps time and a timer, at a time of the loop. -/
theorem lt_timer_of_shut (clock : e.KeepsTime start limit) (within : l.time ≤ limit)
    {source : Source} (shut : ∃ s, (e.clock l.time s).1 < l.poller.timer source) :
    start.nanos + (e.elapsed l.time : Nat) < (l.poller.timer source).nanos := by
  obtain ⟨s, later⟩ := shut
  rw [Instant.lt_iff_nanos, clock l.time within s] at later
  exact later

/-- No rest lasts longer than from now on. -/
theorem Tells.timer_le (tells : Tells e sleep l turns) (clock : e.KeepsTime start limit)
    (begun : Instant.epoch ≤ start) (within : l.time ≤ limit) (source : Source) :
    (l.poller.timer source).nanos ≤ start.nanos + (e.elapsed l.time + sleep.nanos : Nat) := by
  rw [tells.timers, leftAlone]
  cases latest : turns.findSome? (Turn.idle? source) with
  | none =>
    have positive := Instant.le_iff_nanos.mp begun
    simp only
    omega
  | some ending =>
    obtain ⟨turn, member, idle⟩ := List.exists_of_findSome?_eq_some latest
    obtain ⟨ended, _⟩ := Turn.idle?_eq_some.mp idle
    have past := tells.past turn member _ ending ended
    obtain ⟨s, read⟩ := tells.chronicle.ended_of_mem member ended
    have reading := clock ending.time (Nat.le_trans past within) s
    rw [← read] at reading
    have rest := restEnd_le sleep ending.clock
    have passed := e.elapsed_le_iff.mpr past
    simp only
    omega

/-- What a loop that keeps time has behind it: no two sleeps in a row, and if the last thing was a
sleep, then both queues are ready. -/
structure Wakeful (e : Surroundings σ) (start : Instant) (limit : Nat) (l : PollLoop σ) : Prop where
  ready : l.time ≤ limit → l.result = none →
    (∃ since, l.events.find? PollEvent.enters = some (.slept since)) →
    ∀ source, (l.poller.timer source).nanos ≤ start.nanos + (e.elapsed l.time : Nat)
  apart : l.time ≤ limit → (l.events.filter PollEvent.enters).IsChain fun later earlier =>
    later.isSleep = true → earlier.isSleep = false

theorem Sleeps.timer_le (sleeps : Sleeps e l next) (tells : Tells e sleep l turns)
    (clock : e.KeepsTime start limit) (begun : Instant.epoch ≤ start) (within : l.time ≤ limit)
    (woken : next.result = none) (source : Source) :
    (next.poller.timer source).nanos ≤ start.nanos + (e.elapsed next.time : Nat) := by
  rcases sleeps.ended with ⟨_, cut⟩ | ⟨time, _, _⟩
  · exact absurd woken cut
  · have latest := tells.timer_le clock begun within source
    have whole := e.le_elapsed_ticks sleep
    rw [sleeps.timers, time, tells.interval, e.elapsed_add]
    omega

theorem Wakeful.sleeps (wakeful : Wakeful e start limit l) (sleeps : Sleeps e l next)
    (tells : Tells e sleep l turns) (clock : e.KeepsTime start limit)
    (begun : Instant.epoch ≤ start) (onward : l.time ≤ next.time) : Wakeful e start limit next := by
  constructor
  case ready =>
    intro within woken _ source
    exact sleeps.timer_le tells clock begun (Nat.le_trans onward within) woken source
  case apart =>
    intro within
    have earlier := Nat.le_trans onward within
    have entered : next.events.filter PollEvent.enters =
        .slept l.time :: l.events.filter PollEvent.enters := by
      rcases sleeps.ended with ⟨cut, _⟩ | ⟨_, _, woken⟩
      · rw [cut]
        rfl
      · rw [woken]
        rfl
    rw [entered, List.isChain_cons]
    refine ⟨?_, wakeful.apart earlier⟩
    intro event first _
    rw [List.head?_filter] at first
    cases event with
    | slept since =>
      -- A sleep before this one has left both queues ready.
      have ready := wakeful.ready earlier sleeps.running ⟨since, first⟩ .primary
      have shut := lt_timer_of_shut clock earlier (sleeps.shut .primary)
      omega
    | _ => rfl

theorem Wakeful.tries {source : Source} (wakeful : Wakeful e start limit l)
    (tries : Tries e l next source) (onward : l.time ≤ next.time) : Wakeful e start limit next := by
  obtain ⟨ended, events, quiet⟩ := tries.events
  have entered : next.events.filter PollEvent.enters =
      .started source l.time :: l.events.filter PollEvent.enters := by
    rw [events, List.filter_append, List.filter_eq_nil_iff.mpr fun event member =>
      Bool.eq_false_iff.mp (quiet event member)]
    rfl
  constructor
  case ready =>
    rintro _ _ ⟨since, last⟩
    rw [← List.head?_filter, entered] at last
    cases last
  case apart =>
    intro within
    rw [entered, List.isChain_cons]
    exact ⟨fun _ _ => nofun, wakeful.apart (Nat.le_trans onward within)⟩

theorem wakeful_drawing (settings : PollerSettings) (generator : Generator) (state : σ)
    (draws : Nat → Draw × Generator) (clock : e.KeepsTime start limit)
    (begun : Instant.epoch ≤ start) (n : Nat) :
    Wakeful e start limit
      (drawing e c draws (.start (Poller.start settings generator) state) n) := by
  induction n with
  | zero =>
    constructor
    · rintro _ _ ⟨since, none⟩
      cases none
    · exact fun _ => .nil
  | succ n ih =>
    have tells := tells_drawing (e := e) (c := c) settings generator state draws n
    have onward := time_iterateBy (e := e) (c := c) (draws n)
      (drawing e c draws (.start (Poller.start settings generator) state) n)
    rcases iterateBy_enters (e := e) (c := c) (draws n)
        (drawing e c draws (.start (Poller.start settings generator) state) n) with
      ⟨_, settled, same⟩ | sleeps | ⟨source, tries⟩
    · refine ⟨fun _ running => absurd running settled, fun within => ?_⟩
      rw [drawing, same]
      exact ih.apart (Nat.le_trans onward within)
    · exact ih.sleeps sleeps tells clock begun onward
    · exact ih.tries tries onward

end Timed

/-- A loop whose clock keeps time sleeps only while both queues are left alone. When its sleep ends
both are ready, and the next thing it does is an attempt. A sleep that lasts exactly its interval,
as any does that is a whole number of ticks, keeps no queue that is ready again waiting as long as
that. -/
theorem wakes_to_work (e : Surroundings σ) (c : Cancellation) (settings : PollerSettings)
    (generator : Generator) (state : σ) {start : Instant} {limit : Nat}
    (begun : Instant.epoch ≤ start) (clock : e.KeepsTime start limit) :
    let first : PollLoop σ := .start (.start settings generator) state
    let step := settings.sleep.ticks e.tick
    let reading (time : Nat) : Int := start.nanos + (e.elapsed time : Nat)
    (∀ draws n,
      let l := first.drawing e c draws n
      let next := first.drawing e c draws (n + 1)
      l.time ≤ limit →
      ((l.events.filter PollEvent.enters).IsChain fun later earlier =>
        later.isSleep = true → earlier.isSleep = false) ∧
      (.slept l.time :: l.events <:+ next.events →
        (∀ source, reading l.time < (l.poller.timer source).nanos) ∧
        (e.tick ∣ settings.sleep.nanos → e.elapsed step = settings.sleep.nanos ∧
          ∀ source, ∀ time ≤ l.time + step,
            reading time - (l.poller.timer source).nanos < settings.sleep.nanos) ∧
        (next.result = none → next.time = l.time + step ∧
          (∀ source, (next.poller.timer source).nanos ≤ reading next.time) ∧
          (next.time ≤ limit → c.fired next.time next.attempts = false →
            ∃ source, .started source next.time :: next.events <:+
              (first.drawing e c draws (n + 2)).events)))) ∧
    ∃ own, ∀ n, first.run e c n = first.drawing e c own n := by
  intro first step reading
  refine ⟨?_, first.run_eq_drawing e c⟩
  intro draws n l next within
  have tells : ∀ n, Tells e settings.sleep (first.drawing e c draws n) (first.turns e c draws n) :=
    tells_drawing settings generator state draws
  have wakeful : Wakeful e start limit l :=
    wakeful_drawing settings generator state draws clock begun n
  refine ⟨wakeful.apart within, fun logged => ?_⟩
  have sleeps : Sleeps e l next := sleeps_of_logged logged
  have shut : ∀ source, reading l.time < (l.poller.timer source).nanos :=
    fun source => lt_timer_of_shut clock within (sleeps.shut source)
  refine ⟨shut, fun whole => ?_, fun woken => ?_⟩
  · have exact : e.elapsed step = settings.sleep.nanos := e.elapsed_ticks whole
    refine ⟨exact, fun source time soon => ?_⟩
    have later := shut source
    have passed := e.elapsed_le_iff.mpr soon
    rw [e.elapsed_add, exact] at passed
    simp only [reading] at later ⊢
    omega
  · have ready : ∀ source, (next.poller.timer source).nanos ≤ reading next.time :=
      fun source => sleeps.timer_le (tells n) clock begun within woken source
    refine ⟨?_, ready, fun inside quiet => ?_⟩
    · rcases sleeps.ended with ⟨_, cut⟩ | ⟨time, _, _⟩
      · exact absurd woken cut
      · rw [time, (tells n).interval]
    · rcases iterateBy_enters (e := e) (c := c) (draws (n + 1)) next with
        ⟨settled, _⟩ | again | ⟨source, tries⟩
      · rw [woken, quiet] at settled
        cases settled <;> contradiction
      · -- It would sleep again only if a queue were still left alone.
        have still := lt_timer_of_shut clock inside (again.shut .primary)
        exact absurd (ready .primary) (Int.not_le.mpr still)
      · obtain ⟨ended, events, _⟩ := tries.events
        exact ⟨source, ended, events.symm⟩

end PollLoop

namespace ScriptedQueues

/-- Surroundings with timers that tick once in a nanosecond. -/
def finely : Surroundings ScriptedQueues := paced .epoch 1 (by decide)

/-- The rests of the two queues begin four and a half milliseconds and a nanosecond apart. -/
def unevenRests (n : Nat) : PollLoop ScriptedQueues :=
  .run finely ⟨some 100000000, none⟩ n
    (.start (.start ⟨.ofMillis 10, .ofBits 0⟩ (.ofSeed 42)) ⟨[], [(.noWork, 4500001)]⟩)

/-- A sleep that begins as the later rest begins ends with it, and an attempt follows. -/
theorem wakes_to_work_uneven :
    finely.KeepsTime .epoch 100000000 ∧
    (unevenRests 3).events = .woke 14500001 :: .slept 4500001 :: (unevenRests 2).events ∧
    (∀ source, 4500001 < ((unevenRests 2).poller.timer source).nanos ∧
      (∀ time ≤ 14500001, (time : Nat) - ((unevenRests 2).poller.timer source).nanos < 10000000) ∧
      ((unevenRests 3).poller.timer source).nanos ≤ 14500001) ∧
    ∃ source, .started source 14500001 :: (unevenRests 3).events <:+ (unevenRests 4).events := by
  have clock : finely.KeepsTime .epoch 100000000 := keepsTime_paced _ (by decide)
  obtain ⟨loops, own, drawn⟩ := PollLoop.wakes_to_work finely ⟨some 100000000, none⟩
    ⟨.ofMillis 10, .ofBits 0⟩ (.ofSeed 42) ⟨[], [(.noWork, 4500001)]⟩ (Int.le_refl _) clock
  have same : ∀ n, PollLoop.drawing finely ⟨some 100000000, none⟩ own
      (.start (.start ⟨.ofMillis 10, .ofBits 0⟩ (.ofSeed 42)) ⟨[], [(.noWork, 4500001)]⟩) n =
      unevenRests n := fun n => (drawn n).symm
  have passed : ∀ time, Instant.epoch.nanos + (finely.elapsed time : Nat) = (time : Nat) := by
    intro time
    rw [Surroundings.elapsed, finely, paced, Nat.mul_one]
    exact Int.zero_add _
  have interval : (⟨.ofMillis 10, .ofBits 0⟩ : PollerSettings).sleep.ticks finely.tick =
      10000000 := rfl
  have second := loops own 2
  simp only [same, passed, interval] at second
  have time : (unevenRests 2).time = 4500001 := by decide +kernel
  have slept : (unevenRests 3).events =
      .woke 14500001 :: .slept 4500001 :: (unevenRests 2).events := by
    decide +kernel
  have logged : .slept (unevenRests 2).time :: (unevenRests 2).events <:+ (unevenRests 3).events := by
    rw [time, slept]
    exact List.suffix_cons _ _
  obtain ⟨shut, exact, woken⟩ := (second (by rw [time]; decide)).2 logged
  obtain ⟨_, waits⟩ := exact (Nat.one_dvd _)
  obtain ⟨wakes, ready, onward⟩ := woken (by decide +kernel)
  rw [time] at shut wakes waits
  rw [wakes] at ready onward
  exact ⟨clock, slept, fun source => ⟨shut source, waits source, ready source⟩,
    onward (by decide) (by decide +kernel)⟩

end ScriptedQueues

end LeaseQueue
