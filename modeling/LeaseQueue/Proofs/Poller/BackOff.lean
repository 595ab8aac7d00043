import LeaseQueue.Proofs.Poller.Turns
/-! A polling loop leaves a queue without work alone, so it asks for work in vain at most once in a
sleep interval. -/
namespace LeaseQueue

namespace Surroundings

variable {σ : Type} (e : Surroundings σ)

/-- The nanoseconds up to a virtual time. -/
def elapsed (time : Nat) : Nat := time * e.tick

theorem elapsed_le_iff {time later : Nat} : e.elapsed time ≤ e.elapsed later ↔ time ≤ later :=
  Nat.mul_le_mul_right_iff e.tick_pos

/-- Up to some time, the clock reads its start and the time that has passed. -/
def KeepsTime (start : Instant) (limit : Nat) : Prop :=
  ∀ time ≤ limit, ∀ s, (e.clock time s).1.nanos = start.nanos + (e.elapsed time : Nat)

end Surroundings

/-- Whether an attempt on a queue ended without work by a time. -/
def PollEvent.idleBy (source : Source) (limit : Nat) : PollEvent → Bool
  | .finished .noWork own time => own = source && time ≤ limit
  | _ => false

/-- When the attempts on a queue ended that found no work, the latest first. -/
def idleTimes (source : Source) (turns : List Turn) : List Nat :=
  (turns.filterMap (Turn.idle? source)).map Reading.time

variable {σ : Type} {e : Surroundings σ} {c : Cancellation} {sleep : Duration}
  {turns : List Turn} {source : Source}

theorem Turn.idle?_eq_some {turn : Turn} {ending : Reading} :
    turn.idle? source = some ending ↔
      turn.ended? = some (.noWork, ending) ∧ turn.source = source := by
  rw [idle?, Option.bind_eq_some_iff]
  constructor
  · rintro ⟨⟨attempt, reading⟩, ended, idle⟩
    obtain ⟨⟨rfl, own⟩, same⟩ := Option.ite_none_right_eq_some.mp idle
    cases same
    exact ⟨ended, own⟩
  · rintro ⟨ended, own⟩
    exact ⟨(.noWork, ending), ended, if_pos ⟨rfl, own⟩⟩

theorem idleTimes_cons (source : Source) (turn : Turn) (turns : List Turn) :
    idleTimes source (turn :: turns) =
      ((turn.idle? source).map Reading.time).toList ++ idleTimes source turns := by
  rw [idleTimes, List.filterMap_cons]
  cases turn.idle? source <;> rfl

theorem countP_turn (turn : Turn) (source : Source) (limit : Nat) :
    turn.events.countP (PollEvent.idleBy source limit) =
      ((turn.idle? source).map Reading.time).toList.countP (· ≤ limit) := by
  unfold Turn.events Turn.idle?
  rcases turn.ended? with _ | ⟨attempt, ending⟩
  · rfl
  · cases attempt with
    | computed | failed => rfl
    | noWork =>
      by_cases own : turn.source = source
      · simp [PollEvent.idleBy, own, List.countP_cons]
      · simp [PollEvent.idleBy, own]

theorem countP_turns (turns : List Turn) (source : Source) (limit : Nat) :
    (turns.flatMap Turn.events).countP (PollEvent.idleBy source limit) =
      (idleTimes source turns).countP (· ≤ limit) := by
  induction turns with
  | nil => rfl
  | cons turn turns ih =>
    rw [List.flatMap_cons, List.countP_append, countP_turn, ih, idleTimes_cons, List.countP_append]

/-- The attempts without work among the events of a loop are those among its turns. -/
theorem countP_idleBy {events : List PollEvent} (limit : Nat)
    (same : events.filter PollEvent.ofAttempt = turns.flatMap Turn.events) :
    events.countP (PollEvent.idleBy source limit) =
      (idleTimes source turns).countP (· ≤ limit) := by
  rw [← countP_turns, ← same, List.countP_filter]
  apply List.countP_congr
  intro event _
  cases event <;> simp [PollEvent.idleBy, PollEvent.ofAttempt]

section Apart

variable {step limit : Nat}

/-- Moments a step apart, the latest first, take a step each. -/
theorem length_mul_le_of_apart {time : Nat} {rest : List Nat}
    (apart : (time :: rest).Pairwise fun later earlier => earlier + step ≤ later) :
    rest.length * step ≤ time := by
  induction rest generalizing time with
  | nil => rw [List.length_nil, Nat.zero_mul]; exact Nat.zero_le time
  | cons next rest ih =>
    obtain ⟨first, later⟩ := List.pairwise_cons.mp apart
    have gap := first next List.mem_cons_self
    have spent := ih later
    rw [List.length_cons, Nat.succ_mul]
    exact Nat.le_trans (Nat.add_le_add_right spent step) gap

theorem length_le_of_apart {times : List Nat} (positive : 0 < step)
    (apart : times.Pairwise fun later earlier => earlier + step ≤ later)
    (bounded : ∀ time ∈ times, time ≤ limit) : times.length ≤ limit / step + 1 := by
  cases times with
  | nil => exact Nat.zero_le _
  | cons time rest =>
    have within : rest.length * step ≤ limit :=
      Nat.le_trans (length_mul_le_of_apart apart) (bounded time List.mem_cons_self)
    exact Nat.succ_le_succ ((Nat.le_div_iff_mul_le positive).mpr within)

end Apart

/-- A clock that has not come to its last reading and has passed a rest has passed all of it. -/
theorem le_of_restEnd_le {reading now : Instant} {millis : Nat}
    (rested : restEnd (.ofMillis millis) reading ≤ now) (inside : now < .latest) :
    reading.nanos + (millis * 1000000 : Nat) ≤ now.nanos := by
  have whole : (Duration.ofMillis millis).nanos / 1000000 * 1000000 = millis * 1000000 := by
    rw [Duration.ofMillis, Nat.mul_div_cancel millis (by decide)]
  rw [restEnd, whole] at rested
  cases sum : Instant.ofNanos? (reading.nanos + (millis * 1000000 : Nat)) with
  | none =>
    rw [sum] at rested
    exact absurd rested (Int.not_le.mpr inside)
  | some ends =>
    rw [sum] at rested
    rw [← Instant.ofNanos?_eq_some_iff.mp sum]
    exact rested

namespace Chronicle

theorem ended_of_mem (chronicle : Chronicle e sleep turns) {turn : Turn} (member : turn ∈ turns)
    {attempt : Attempt} {ending : Reading} (ended : turn.ended? = some (attempt, ending)) :
    ∃ s, ending.clock = (e.clock ending.time s).1 := by
  obtain ⟨later, earlier, rfl⟩ := List.append_of_mem member
  exact (chronicle.follows.ended attempt ending ended).2

/-- An attempt begins a whole sleep after the last one that found no work in its queue. -/
theorem rest_le {start : Instant} {millis limit : Nat} {turn : Turn} {ending : Reading}
    (follows : turn.Follows e (.ofMillis millis) turns)
    (past : Chronicle e (.ofMillis millis) turns) (clock : e.KeepsTime start limit)
    (inside : start.nanos + (e.elapsed limit : Nat) < latestNanos)
    (within : turn.began.time ≤ limit)
    (latest : turns.findSome? (Turn.idle? turn.source) = some ending) :
    e.elapsed ending.time + millis * 1000000 ≤ e.elapsed turn.began.time := by
  obtain ⟨other, member, idle⟩ := List.exists_of_findSome?_eq_some latest
  obtain ⟨ended, _⟩ := Turn.idle?_eq_some.mp idle
  have before := follows.after other member _ ending ended
  obtain ⟨s, at_end⟩ := past.ended_of_mem member ended
  obtain ⟨t, at_begin⟩ := follows.began
  have rested := follows.rested
  rw [leftAlone, latest] at rested
  have read_end := clock ending.time (Nat.le_trans before within) s
  have read_begin := clock turn.began.time within t
  rw [← at_end] at read_end
  rw [← at_begin] at read_begin
  -- The end of the rest was not cut at the end of the calendar, which the clock has not reached.
  have early : turn.began.clock < .latest := by
    have passed := e.elapsed_le_iff.mpr within
    rw [Instant.lt_iff_nanos, read_begin]
    exact Int.lt_of_le_of_lt (by omega) inside
  have passed := le_of_restEnd_le rested early
  omega

/-- Between two attempts that found no work in a queue lies a whole sleep. -/
theorem apart (source : Source) {start : Instant} {millis limit : Nat}
    (chronicle : Chronicle e (.ofMillis millis) turns) (clock : e.KeepsTime start limit)
    (inside : start.nanos + (e.elapsed limit : Nat) < latestNanos) :
    (idleTimes source turns).Pairwise fun later earlier =>
      later ≤ limit → e.elapsed earlier + millis * 1000000 ≤ e.elapsed later := by
  induction chronicle with
  | nil => exact List.Pairwise.nil
  | @cons turn earlier follows past ih =>
    rw [idleTimes_cons]
    cases idle : turn.idle? source with
    | none => exact ih
    | some ending =>
      refine List.pairwise_cons.mpr ⟨?_, ih⟩
      obtain ⟨ended, rfl⟩ := Turn.idle?_eq_some.mp idle
      intro time member within
      have began := (follows.ended _ ending ended).1
      have passed := e.elapsed_le_iff.mpr began
      cases idles : earlier.filterMap (Turn.idle? turn.source) with
      | nil =>
        rw [idleTimes, idles] at member
        cases member
      | cons first rest =>
        have latest : earlier.findSome? (Turn.idle? turn.source) = some first := by
          rw [← List.head?_filterMap, idles]
          rfl
        -- The last one before lies a sleep back, and all others lie before that.
        have gap := rest_le follows past clock inside (Nat.le_trans began within) latest
        rw [idleTimes, idles, List.map_cons] at member ih
        rcases List.mem_cons.mp member with rfl | older
        · omega
        · have before : first.time ≤ turn.began.time :=
            e.elapsed_le_iff.mp (Nat.le_of_add_right_le gap)
          have spaced := (List.pairwise_cons.mp ih).1 time older (by omega)
          omega

end Chronicle

namespace PollLoop

open Surroundings (KeepsTime)

/-- A queue without work is left alone. An attempt on it begins only where the clock reads the end
of its rest or later, and that end changes in no iteration but one whose attempt finds it without
work. So by a clock that keeps time and does not come to its last reading, a loop finds a queue
without work at most once in each sleep and once more. -/
theorem backs_off (e : Surroundings σ) (c : Cancellation) (settings : PollerSettings)
    (generator : Generator) (state : σ) :
    let first : PollLoop σ := .start (.start settings generator) state
    (∀ draws n,
      let l := first.drawing e c draws n
      let turns := first.turns e c draws n
      l.events.filter PollEvent.ofAttempt = turns.flatMap Turn.events ∧
      (∀ later turn earlier, turns = later ++ turn :: earlier →
        leftAlone settings.sleep turn.source earlier ≤ turn.began.clock) ∧
      (∀ source, l.poller.timer source = leftAlone settings.sleep source turns) ∧
      (∀ source, (first.drawing e c draws (n + 1)).poller.timer source ≠ l.poller.timer source →
        ∃ turn ending, first.turns e c draws (n + 1) = turn :: turns ∧ turn.source = source ∧
          turn.ended? = some (.noWork, ending)) ∧
      ∀ begin millis limit, settings.sleep = .ofMillis millis → 0 < millis →
        e.KeepsTime begin limit → begin.nanos + (e.elapsed limit : Nat) < latestNanos →
        ∀ source, l.events.countP (PollEvent.idleBy source limit) ≤
          e.elapsed limit / (millis * 1000000) + 1) ∧
    ∃ own, ∀ n, first.run e c n = first.drawing e c own n := by
  intro first
  refine ⟨?_, first.run_eq_drawing e c⟩
  intro draws n l turns
  have tells : Tells e settings.sleep l turns := tells_drawing settings generator state draws n
  refine ⟨tells.events, ?_, tells.timers, ?_, ?_⟩
  · intro later turn earlier split
    exact (split ▸ tells.chronicle).follows.rested
  · intro source changed
    rcases iterateBy_cases (e := e) (c := c) (draws n) l with ⟨_, keeps⟩ | ⟨turn, made, makes⟩
    · exact absurd (keeps.timers source) changed
    · cases idle : turn.idle? source with
      | none => exact absurd ((makes.timers source).trans (by rw [idle])) changed
      | some ending =>
        obtain ⟨ended, own⟩ := Turn.idle?_eq_some.mp idle
        refine ⟨turn, ending, ?_, own, ended⟩
        rw [PollLoop.turns, made]
        rfl
  · intro begin millis limit interval positive clock inside source
    -- Only the attempts that ended in time are counted, and those lie a sleep apart.
    have apart := (interval ▸ tells.chronicle).apart source clock inside
    rw [countP_idleBy limit tells.events, List.countP_eq_length_filter, ← List.length_map e.elapsed]
    have bounded : ∀ time ∈ (idleTimes source turns).filter (· ≤ limit), time ≤ limit :=
      fun time member => of_decide_eq_true (List.mem_filter.mp member).2
    apply length_le_of_apart (Nat.mul_pos positive (by decide))
    · rw [List.pairwise_map]
      exact (apart.filter _).imp_of_mem fun later _ spaced => spaced (bounded _ later)
    · intro passed member
      obtain ⟨time, counted, rfl⟩ := List.mem_map.mp member
      exact e.elapsed_le_iff.mpr (bounded time counted)

end PollLoop

namespace ScriptedQueues

theorem poll_eq_run (q : ScriptedQueues) (start : Instant) (c : Cancellation) (p : Poller) :
    q.poll start c p =
      .run (surroundings start) c (q.iterations p.settings.sleep c) (.start p q) := rfl

/-- The clock keeps time as long as what it reads is representable. -/
theorem keepsTime_paced {start : Instant} {tick limit : Nat} (positive : 0 < tick)
    (inside : start.nanos + (limit * tick : Nat) ≤ latestNanos) :
    (paced start tick positive).KeepsTime start limit := by
  intro time within q
  have early := start.earliest_le
  have passed := Nat.mul_le_mul_right tick within
  have fits : earliestNanos ≤ start.nanos + (time * tick : Nat) ∧
      start.nanos + (time * tick : Nat) ≤ latestNanos := by omega
  have read : start.addOrLatest ⟨(time * tick : Nat)⟩ = ⟨_, fits.1, fits.2⟩ := by
    rw [Instant.addOrLatest, Instant.add?, Instant.ofNanos?, dif_pos fits]
    rfl
  exact congrArg Instant.nanos read

/-- Queues that are always without work, at a sleep of ten milliseconds. -/
theorem backs_off_idle :
    let settings : PollerSettings := ⟨.ofMillis 10, .ofBits 0⟩
    let l := (⟨[], []⟩ : ScriptedQueues).poll .epoch ⟨some 26, none⟩ (.start settings (.ofSeed 42))
    l.events.countP (PollEvent.idleBy .primary 25) = 3 ∧
      l.events.countP (PollEvent.idleBy .primary 25) ≤ 25 / 10 + 1 := by
  intro settings l
  obtain ⟨bounded, own, drawn⟩ := PollLoop.backs_off (surroundings .epoch) ⟨some 26, none⟩ settings
    (.ofSeed 42) ⟨[], []⟩
  have clock : (surroundings .epoch).KeepsTime .epoch 25 := keepsTime_paced _ (by decide)
  refine ⟨by decide +kernel, ?_⟩
  rw [show l = _ from (poll_eq_run _ _ _ _).trans (drawn _)]
  exact (bounded own _).2.2.2.2 .epoch 10 25 rfl (by decide) clock (by decide) .primary

/-- A millisecond before the last representable time. -/
def lastMoments : Instant := ⟨latestNanos - 1000000, by decide, by decide⟩

/-- A clock that comes to its last reading meets the end of every rest there. -/
theorem idle_twice_in_lastMoments :
    let settings : PollerSettings := ⟨.ofMillis 10, .ofBits 0⟩
    let q : ScriptedQueues := ⟨[(.noWork, 0)], [(.computed, 1)]⟩
    let l := q.poll lastMoments ⟨none, some 3⟩ (.start settings (.ofSeed 42))
    (surroundings lastMoments).KeepsTime lastMoments 1 ∧
      ¬ l.events.countP (PollEvent.idleBy .primary 1) ≤ 1 / 10 + 1 := by
  intro settings q l
  exact ⟨keepsTime_paced _ (by decide), by decide +kernel⟩

end ScriptedQueues

end LeaseQueue
