import LeaseQueue.Decimal.Binary64
import LeaseQueue.Random.ChaCha
import LeaseQueue.Time.Instant
/-! Choosing between the two queues. A timer per queue says until when it is known to be empty.
While both queues are ready a draw decides, so neither can starve the other. -/
namespace LeaseQueue

/-- The two work queues. -/
inductive Source where
  | primary
  | secondary
deriving DecidableEq

/-- What an attempt on a queue came to. -/
inductive Attempt where
  | computed
  | noWork
  | failed
deriving DecidableEq

structure PollerSettings where
  /-- How long a queue is left alone after it had no work. -/
  sleep : Duration
  /-- The chance of the review branches when both queues are ready. -/
  secondaryProportion : Binary64

def PollerSettings.default : PollerSettings :=
  { sleep := .ofSeconds 10, secondaryProportion := .ofBits 0x3fe999999999999a }

/-- The timers of a polling loop and its source of draws. -/
structure Poller where
  settings : PollerSettings
  generator : Generator
  primaryUntil : Instant
  secondaryUntil : Instant

namespace Poller

/-- Both queues are ready at first. -/
def start (settings : PollerSettings) (generator : Generator) : Poller :=
  { settings, generator, primaryUntil := .epoch, secondaryUntil := .epoch }

/-- Until when a queue is left alone. -/
def timer (p : Poller) : Source → Instant
  | .primary => p.primaryUntil
  | .secondary => p.secondaryUntil

/-- Whether a draw takes the review branches. -/
def choosesSecondary (p : Poller) (draw : Draw) : Bool :=
  p.settings.secondaryProportion.above draw.numerator

/-- The queue to try at `now`, if one is ready. A draw is taken only when both are. -/
def next (p : Poller) (now : Instant) : Option Source × Poller :=
  if p.primaryUntil ≤ now then
    if p.secondaryUntil ≤ now then
      let (draw, generator) := p.generator.next
      (some (if p.choosesSecondary draw then .secondary else .primary), { p with generator })
    else (some .primary, p)
  else if p.secondaryUntil ≤ now then (some .secondary, p)
  else (none, p)

/-- The queues that so many decisions at one moment take. -/
def nexts (now : Instant) : Nat → Poller → List (Option Source) × Poller
  | 0, p => ([], p)
  | n + 1, p =>
    let (source, p) := p.next now
    let (rest, p) := nexts now n p
    (source :: rest, p)

/-- The end of the back-off that begins at `now`. -/
def backOff (p : Poller) (now : Instant) : Instant := now.addOrLatest p.settings.sleep.toSpan

/-- The timers after an attempt that ended at `now`. Only an attempt without work sets its queue's
timer. -/
def record (p : Poller) (source : Source) (attempt : Attempt) (now : Instant) : Poller :=
  match attempt, source with
  | .noWork, .primary => { p with primaryUntil := p.backOff now }
  | .noWork, .secondary => { p with secondaryUntil := p.backOff now }
  | _, _ => p

end Poller

end LeaseQueue
