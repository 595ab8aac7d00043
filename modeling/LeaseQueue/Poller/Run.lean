import LeaseQueue.Poller.Basic
import LeaseQueue.Work.Error
/-! The polling loop in virtual time, counted from its start in ticks of its timers. It goes on
until it is cancelled: between iterations, out of a sleep, or out of an attempt, which is then
dropped. -/
namespace LeaseQueue

/-- What a polling loop runs in: timers, a clock, and attempts that take time. Clock and attempts
may depend on the virtual time and on a state of their own. Attempts begin and end at ticks, so one
of any length at all is covered by ticks of a nanosecond. -/
structure Surroundings (σ : Type) where
  /-- The nanoseconds from one tick to the next. -/
  tick : Nat
  clock : Nat → σ → Instant × σ
  attempt : Source → Nat → σ → (Attempt × Nat) × σ
  tick_pos : 0 < tick

/-- When the shutdown token fires: at a time, or as soon as so many attempts have come to an end. -/
structure Cancellation where
  atTime : Option Nat
  afterAttempts : Option Nat

inductive PollEvent where
  | started (source : Source) (time : Nat)
  | finished (attempt : Attempt) (source : Source) (time : Nat)
  | slept (time : Nat)
  | woke (time : Nat)
deriving DecidableEq

/-- Whether the token has fired by `time`, after so many attempts. -/
def Cancellation.fired (c : Cancellation) (time attempts : Nat) : Bool :=
  (match c.atTime with | some limit => decide (limit ≤ time) | none => false) ||
    (match c.afterAttempts with | some limit => decide (limit ≤ attempts) | none => false)

/-- The time at which the token fires before `ends`, if it does. -/
def Cancellation.during (c : Cancellation) (ends : Nat) : Option Nat :=
  c.atTime.filter fun limit => limit < ends

/-- A polling loop between two of its iterations, or after its end. -/
structure PollLoop (σ : Type) where
  poller : Poller
  state : σ
  time : Nat
  busy : Bool
  /-- Attempts that came to an end. -/
  attempts : Nat
  /-- What happened, the latest first. -/
  events : List PollEvent
  result : Option PollError

namespace PollLoop

variable {σ : Type}

/-- A loop before its first iteration: the worker counts as busy. -/
def start (poller : Poller) (state : σ) : PollLoop σ :=
  { poller, state, time := 0, busy := true, attempts := 0, events := [], result := none }

def cancelAt (l : PollLoop σ) (time : Nat) : PollLoop σ :=
  { l with time, result := some .cancelled }

/-- Sleeps one whole interval, during which the worker is not busy. It lasts exactly as long as it
is meant to where that is a whole number of ticks, and to the next tick where it is not. -/
def sleep (tick : Nat) (c : Cancellation) (l : PollLoop σ) : PollLoop σ :=
  let wakes := l.time + l.poller.settings.sleep.ticks tick
  let l := { l with busy := false, events := .slept l.time :: l.events }
  match Cancellation.during c wakes with
  | some time => l.cancelAt time
  | none => { l with time := wakes, busy := true, events := .woke wakes :: l.events }

/-- Makes an attempt on a queue. The timers change at its end. -/
def attempt (e : Surroundings σ) (c : Cancellation) (source : Source) (l : PollLoop σ) :
    PollLoop σ :=
  let ((attempt, took), state) := e.attempt source l.time l.state
  let ends := l.time + took
  let begun := { l with events := .started source l.time :: l.events }
  match Cancellation.during c ends with
  | some time => begun.cancelAt time
  | none =>
    let (now, state) := e.clock ends state
    { begun with
      poller := l.poller.record source attempt now
      state
      time := ends
      busy := true
      attempts := l.attempts + 1
      events := .finished attempt source ends :: begun.events }

/-- One iteration. A loop that has ended stays as it is. -/
def iterate (e : Surroundings σ) (c : Cancellation) (l : PollLoop σ) : PollLoop σ :=
  if l.result.isSome then l
  else if Cancellation.fired c l.time l.attempts then l.cancelAt l.time
  else
    let (now, state) := e.clock l.time l.state
    let (source, poller) := l.poller.next now
    let l := { l with poller, state }
    match source with
    | none => sleep e.tick c l
    | some source => attempt e c source l

/-- The loop after so many iterations. -/
def run (e : Surroundings σ) (c : Cancellation) : Nat → PollLoop σ → PollLoop σ
  | 0, l => l
  | n + 1, l => run e c n (iterate e c l)

end PollLoop

/-- Whether the worker is busy at a time, by the sleeps in a list of events, the latest first. -/
def busyAt (time : Nat) : List PollEvent → Bool
  | [] => true
  | .slept since :: rest => if since ≤ time then false else busyAt time rest
  | .woke since :: rest => if since ≤ time then true else busyAt time rest
  | _ :: rest => busyAt time rest

/-- How many samples of the busy flag, one at each positive multiple of `interval` before `ended`,
find the worker busy. -/
def busyPulses (interval ended : Nat) (events : List PollEvent) : Nat :=
  if interval = 0 then 0
  else ((List.range ((ended - 1) / interval)).filter fun i =>
    busyAt ((i + 1) * interval) events).length

/-- Attempts that follow a script: each queue's next entry, and no work at once after the last. -/
structure ScriptedQueues where
  primary : List (Attempt × Nat)
  secondary : List (Attempt × Nat)

def ScriptedQueues.next (q : ScriptedQueues) : Source → (Attempt × Nat) × ScriptedQueues
  | .primary => (q.primary.headD (.noWork, 0), { q with primary := q.primary.tail })
  | .secondary => (q.secondary.headD (.noWork, 0), { q with secondary := q.secondary.tail })

namespace ScriptedQueues

/-- Enough iterations for a scripted loop to be cancelled: one for each entry, three for each sleep
before the time at which the token fires, two idle attempts included, and three for each attempt
that it waits for. -/
def iterations (q : ScriptedQueues) (sleep : Duration) (c : Cancellation) : Nat :=
  let rest := max (sleep.ticks Duration.timerTick) 1
  q.primary.length + q.secondary.length + 3 * (c.atTime.getD 0 / rest + 2) +
    3 * c.afterAttempts.getD 0

/-- What a loop over a script runs in, with timers that tick once in so many nanoseconds. The clock
reads the start and the virtual time. -/
def paced (start : Instant) (tick : Nat) (tick_pos : 0 < tick) : Surroundings ScriptedQueues where
  tick
  clock time q := (start.addOrLatest ⟨(time * tick : Nat)⟩, q)
  attempt source _ q := q.next source
  tick_pos

def surroundings (start : Instant) : Surroundings ScriptedQueues :=
  paced start Duration.timerTick Duration.timerTick_pos

/-- Runs a polling loop over a script until it is cancelled. -/
def poll (q : ScriptedQueues) (start : Instant) (c : Cancellation) (p : Poller) :
    PollLoop ScriptedQueues :=
  PollLoop.run (surroundings start) c (q.iterations p.settings.sleep c) (.start p q)

end ScriptedQueues

end LeaseQueue
