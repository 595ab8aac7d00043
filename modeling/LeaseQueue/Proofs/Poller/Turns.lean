import LeaseQueue.Proofs.Poller.Runs
/-! The attempts of a polling loop, with the clock as it was read. Until when a queue is left alone
follows from its own attempts without work and nothing else. -/
namespace LeaseQueue

/-- The clock as it was read at a virtual time. -/
structure Reading where
  time : Nat
  clock : Instant

/-- An attempt of a loop: the clock as its iteration began, and what it came to with the clock at
that time, unless it was dropped. -/
structure Turn where
  source : Source
  began : Reading
  ended? : Option (Attempt × Reading)

namespace Turn

/-- The clock at the end of an attempt that found a queue without work. -/
def idle? (source : Source) (t : Turn) : Option Reading :=
  t.ended?.bind fun (attempt, ending) =>
    if attempt = .noWork ∧ t.source = source then some ending else none

/-- The events of an attempt, the latest first. -/
def events (t : Turn) : List PollEvent :=
  match t.ended? with
  | some (attempt, ending) =>
    [.finished attempt t.source ending.time, .started t.source t.began.time]
  | none => [.started t.source t.began.time]

end Turn

/-- Whether an event belongs to an attempt. -/
def PollEvent.ofAttempt : PollEvent → Bool
  | .started _ _ | .finished _ _ _ => true
  | .slept _ | .woke _ => false

/-- A reading of the clock plus a sleep cut to whole milliseconds, or the last representable time
if that is not. -/
def restEnd (sleep : Duration) (reading : Instant) : Instant :=
  (Instant.ofNanos? (reading.nanos + (sleep.nanos / 1000000 * 1000000 : Nat))).getD .latest

/-- Until when a queue is left alone after some attempts, the latest first. -/
def leftAlone (sleep : Duration) (source : Source) (turns : List Turn) : Instant :=
  match turns.findSome? (Turn.idle? source) with
  | some ending => restEnd sleep ending.clock
  | none => .epoch

theorem leftAlone_cons (sleep : Duration) (source : Source) (turn : Turn) (turns : List Turn) :
    leftAlone sleep source (turn :: turns) =
      match turn.idle? source with
      | some ending => restEnd sleep ending.clock
      | none => leftAlone sleep source turns := by
  rw [leftAlone, List.findSome?_cons]
  cases turn.idle? source <;> rfl

namespace Poller

/-- The cut at the longest span makes no difference: such a sum lies beyond the calendar. -/
theorem backOff_eq_restEnd (p : Poller) (now : Instant) :
    p.backOff now = restEnd p.settings.sleep now := by
  have span : p.settings.sleep.toSpan.nanos =
      (min (p.settings.sleep.nanos / 1000000) Duration.maxSpanMillis * 1000000 : Nat) := by
    rw [Duration.toSpan, Span.ofMillis, Int.natCast_mul]
    rfl
  rw [backOff, restEnd, Instant.addOrLatest, Instant.add?, span]
  rcases Nat.le_total (p.settings.sleep.nanos / 1000000) Duration.maxSpanMillis with short | long
  · rw [Nat.min_eq_left short]
  · have beyond : ∀ span, Duration.maxSpanMillis * 1000000 ≤ span →
        Instant.ofNanos? (now.nanos + (span : Nat)) = none := by
      intro span longest
      have last : latestNanos < earliestNanos + (Duration.maxSpanMillis * 1000000 : Nat) := by
        decide
      have early := now.earliest_le
      exact Instant.ofNanos?_eq_none_iff.mpr (.inr (by omega))
    rw [Nat.min_eq_right long, beyond _ (Nat.mul_le_mul_right _ long), beyond _ (Nat.le_refl _)]

theorem timer_record (p : Poller) (source other : Source) (attempt : Attempt) (now : Instant) :
    (p.record source attempt now).timer other =
      if attempt = .noWork ∧ source = other then restEnd p.settings.sleep now
      else p.timer other := by
  split
  · rename_i own
    rw [own.1, own.2, timer_record_noWork, backOff_eq_restEnd]
  · rename_i apart
    by_cases idle : attempt = .noWork
    · exact timer_record_other (fun same => apart ⟨idle, same.symm⟩) attempt
    · rw [record_of_tried source idle]

end Poller

namespace PollLoop

variable {σ : Type} (e : Surroundings σ) (c : Cancellation)

/-- An attempt on a queue as a turn that began at a reading of the clock. -/
def turnOn (now : Instant) (source : Source) (l : PollLoop σ) : Turn :=
  let ((attempt, took), state) := e.attempt source l.time l.state
  let ends := l.time + took
  { source
    began := ⟨l.time, now⟩
    ended? :=
      match Cancellation.during c ends with
      | some _ => none
      | none => some (attempt, ⟨ends, (e.clock ends state).1⟩) }

/-- The attempt of an iteration with a given draw, if it makes one. -/
def turnBy (drawn : Draw × Generator) (l : PollLoop σ) : Option Turn :=
  if l.result.isSome then none
  else if Cancellation.fired c l.time l.attempts then none
  else
    let (now, state) := e.clock l.time l.state
    let (source, poller) := l.poller.nextBy drawn now
    source.map fun source => turnOn e c now source { l with poller, state }

/-- The attempts of so many iterations, the latest first. -/
def turns (draws : Nat → Draw × Generator) (l : PollLoop σ) : Nat → List Turn
  | 0 => []
  | n + 1 => (turnBy e c (draws n) (drawing e c draws l n)).toList ++ turns draws l n

/-- A loop after an iteration without an attempt. -/
structure Keeps (l next : PollLoop σ) : Prop where
  settings : next.poller.settings = l.poller.settings
  timers : ∀ source, next.poller.timer source = l.poller.timer source
  time : l.time ≤ next.time
  events : next.events.filter PollEvent.ofAttempt = l.events.filter PollEvent.ofAttempt

/-- A loop after an iteration with an attempt. -/
structure Makes (l next : PollLoop σ) (turn : Turn) : Prop where
  settings : next.poller.settings = l.poller.settings
  ready : l.poller.timer turn.source ≤ turn.began.clock
  began : turn.began.time = l.time ∧ ∃ s, turn.began.clock = (e.clock l.time s).1
  ended : ∀ attempt ending, turn.ended? = some (attempt, ending) →
    l.time ≤ ending.time ∧ ending.time = next.time ∧ ∃ s, ending.clock = (e.clock ending.time s).1
  time : l.time ≤ next.time
  timers : ∀ source, next.poller.timer source =
    match turn.idle? source with
    | some ending => restEnd l.poller.settings.sleep ending.clock
    | none => l.poller.timer source
  events : next.events.filter PollEvent.ofAttempt =
    turn.events ++ l.events.filter PollEvent.ofAttempt

variable {e c} {l : PollLoop σ} {now : Instant} {source : Source}

theorem lt_of_during {time attempts ends limit : Nat}
    (quiet : Cancellation.fired c time attempts = false)
    (stops : Cancellation.during c ends = some limit) : time < limit := by
  obtain ⟨same, _⟩ := Option.filter_eq_some_iff.mp stops
  rw [Cancellation.fired, same, Bool.or_eq_false_iff] at quiet
  simpa using quiet.1

theorem keeps_sleep (tick : Nat) (quiet : Cancellation.fired c l.time l.attempts = false) :
    Keeps l (l.sleep tick c) := by
  unfold sleep
  simp only
  cases stops : Cancellation.during c (l.time + l.poller.settings.sleep.ticks tick) with
  | some limit =>
    simp only
    exact ⟨rfl, fun _ => rfl, Nat.le_of_lt (lt_of_during quiet stops), rfl⟩
  | none =>
    simp only
    exact ⟨rfl, fun _ => rfl, Nat.le_add_right _ _, rfl⟩

theorem makes_attempt (quiet : Cancellation.fired c l.time l.attempts = false)
    (ready : l.poller.timer source ≤ now) (read : ∃ s, now = (e.clock l.time s).1) :
    Makes e l (l.attempt e c source) (turnOn e c now source l) := by
  unfold attempt turnOn
  rcases e.attempt source l.time l.state with ⟨⟨attempt, took⟩, state⟩
  simp only
  cases stops : Cancellation.during c (l.time + took) with
  | some limit =>
    refine ⟨rfl, ready, ⟨rfl, read⟩, ?_, Nat.le_of_lt (lt_of_during quiet stops), fun _ => rfl, rfl⟩
    intro attempt ending same
    cases same
  | none =>
    refine ⟨Poller.settings_record source attempt, ready, ⟨rfl, read⟩, ?_, Nat.le_add_right _ _,
      ?_, rfl⟩
    · intro attempt ending same
      cases same
      exact ⟨Nat.le_add_right _ _, rfl, state, rfl⟩
    · intro other
      refine (Poller.timer_record l.poller source other attempt _).trans ?_
      simp only [Turn.idle?, Option.bind_some]
      split <;> rfl

/-- An iteration makes the attempt that its turn tells of, or none. -/
theorem iterateBy_cases (drawn : Draw × Generator) (l : PollLoop σ) :
    l.turnBy e c drawn = none ∧ Keeps l (l.iterateBy e c drawn) ∨
      ∃ turn, l.turnBy e c drawn = some turn ∧ Makes e l (l.iterateBy e c drawn) turn := by
  unfold turnBy iterateBy
  split
  · exact .inl ⟨rfl, rfl, fun _ => rfl, Nat.le_refl _, rfl⟩
  split
  · exact .inl ⟨rfl, rfl, fun _ => rfl, Nat.le_refl _, rfl⟩
  rename_i quiet
  rw [Bool.not_eq_true] at quiet
  -- The decision changes neither timers nor settings, so what follows starts from the loop's.
  rcases read : e.clock l.time l.state with ⟨now, state⟩
  have settings := Poller.settings_nextBy drawn l.poller now
  have timers := Poller.timer_nextBy drawn l.poller now
  have choice := Poller.nextBy_cases drawn l.poller now
  rcases decided : l.poller.nextBy drawn now with ⟨source?, poller⟩
  rw [decided] at settings timers choice
  simp only [decided]
  rcases choice with ⟨source, ready, rfl⟩ | ⟨_, rfl⟩
  · have made := makes_attempt (e := e) (l := { l with poller, state }) quiet
      ((timers source).symm ▸ ready) ⟨l.state, by rw [read]⟩
    refine .inr ⟨_, rfl, made.settings.trans settings, ready, made.began, made.ended, made.time,
      ?_, made.events⟩
    intro other
    refine (made.timers other).trans ?_
    rw [settings, timers]
  · have kept := keeps_sleep (l := { l with poller, state }) e.tick quiet
    exact .inl ⟨rfl, kept.settings.trans settings,
      fun source => (kept.timers source).trans (timers source), kept.time, kept.events⟩

end PollLoop

variable {σ : Type} {e : Surroundings σ} {c : Cancellation} {sleep : Duration}

/-- How an attempt stands to those before it, of which the latest is the first. -/
structure Turn.Follows (e : Surroundings σ) (sleep : Duration) (turn : Turn)
    (earlier : List Turn) : Prop where
  rested : leftAlone sleep turn.source earlier ≤ turn.began.clock
  began : ∃ s, turn.began.clock = (e.clock turn.began.time s).1
  ended : ∀ attempt ending, turn.ended? = some (attempt, ending) →
    turn.began.time ≤ ending.time ∧ ∃ s, ending.clock = (e.clock ending.time s).1
  after : ∀ other ∈ earlier, ∀ attempt ending, other.ended? = some (attempt, ending) →
    ending.time ≤ turn.began.time

/-- Attempts that follow each other, the latest first. -/
inductive Chronicle (e : Surroundings σ) (sleep : Duration) : List Turn → Prop where
  | nil : Chronicle e sleep []
  | cons {turn : Turn} {earlier : List Turn} (follows : turn.Follows e sleep earlier)
    (past : Chronicle e sleep earlier) : Chronicle e sleep (turn :: earlier)

theorem Chronicle.follows {later earlier : List Turn} {turn : Turn}
    (chronicle : Chronicle e sleep (later ++ turn :: earlier)) : turn.Follows e sleep earlier := by
  induction later with
  | nil =>
    cases chronicle with
    | cons follows _ => exact follows
  | cons other later ih =>
    cases chronicle with
    | cons _ past => exact ih past

namespace PollLoop

/-- The timers and the events of a loop are those that its attempts leave. -/
structure Tells (e : Surroundings σ) (sleep : Duration) (l : PollLoop σ) (turns : List Turn) :
    Prop where
  interval : l.poller.settings.sleep = sleep
  timers : ∀ source, l.poller.timer source = leftAlone sleep source turns
  past : ∀ turn ∈ turns, ∀ attempt ending, turn.ended? = some (attempt, ending) →
    ending.time ≤ l.time
  events : l.events.filter PollEvent.ofAttempt = turns.flatMap Turn.events
  chronicle : Chronicle e sleep turns

variable {l next : PollLoop σ} {turns : List Turn}

theorem Tells.keeps (tells : Tells e sleep l turns) (keeps : Keeps l next) :
    Tells e sleep next turns where
  interval := (congrArg PollerSettings.sleep keeps.settings).trans tells.interval
  timers := fun source => (keeps.timers source).trans (tells.timers source)
  past := fun turn member attempt ending ended =>
    Nat.le_trans (tells.past turn member attempt ending ended) keeps.time
  events := keeps.events.trans tells.events
  chronicle := tells.chronicle

theorem Tells.makes {turn : Turn} (tells : Tells e sleep l turns) (makes : Makes e l next turn) :
    Tells e sleep next (turn :: turns) := by
  constructor
  · exact (congrArg PollerSettings.sleep makes.settings).trans tells.interval
  · intro source
    rw [makes.timers, leftAlone_cons, tells.interval, tells.timers]
  · intro other member attempt ending ended
    rcases List.mem_cons.mp member with rfl | old
    · exact Nat.le_of_eq (makes.ended attempt ending ended).2.1
    · exact Nat.le_trans (tells.past other old attempt ending ended) makes.time
  · rw [makes.events, tells.events, List.flatMap_cons]
  · obtain ⟨now, read⟩ := makes.began
    refine .cons ⟨tells.timers turn.source ▸ makes.ready, now ▸ read, ?_, ?_⟩ tells.chronicle
    · intro attempt ending ended
      obtain ⟨later, _, at_end⟩ := makes.ended attempt ending ended
      exact ⟨now ▸ later, at_end⟩
    · intro other member attempt ending ended
      exact now ▸ tells.past other member attempt ending ended

theorem Tells.step (tells : Tells e sleep l turns) (drawn : Draw × Generator) :
    Tells e sleep (l.iterateBy e c drawn) ((l.turnBy e c drawn).toList ++ turns) := by
  rcases iterateBy_cases (e := e) (c := c) drawn l with ⟨none, keeps⟩ | ⟨turn, some, makes⟩
  · rw [none]
    exact tells.keeps keeps
  · rw [some]
    exact tells.makes makes

theorem tells_drawing (settings : PollerSettings) (generator : Generator) (state : σ)
    (draws : Nat → Draw × Generator) (n : Nat) :
    let first := start (Poller.start settings generator) state
    Tells e settings.sleep (drawing e c draws first n) (first.turns e c draws n) := by
  intro first
  induction n with
  | zero =>
    refine ⟨rfl, ?_, ?_, rfl, .nil⟩
    · intro source
      cases source <;> rfl
    · intro turn member
      cases member
  | succ n ih => exact ih.step (draws n)

end PollLoop

end LeaseQueue
