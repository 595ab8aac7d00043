import LeaseQueue.Poller.Run
import LeaseQueue.Work.Claimer
/-! A polling loop over the units of work of a claimer. -/
namespace LeaseQueue

/-- What a unit's result means for the timers. -/
def Attempt.ofResult : Except ClaimError WorkOutcome → Attempt
  | .ok .computed => .computed
  | .ok .noWork => .noWork
  | .error _ => .failed

/-- What a claimer claims from a queue. -/
def ClaimerSettings.kind (settings : ClaimerSettings) : Source → ClaimKind
  | .primary => .primary
  | .secondary => .secondary settings.mode

/-- Runs one unit of work from a queue and records what it came to. -/
def Poller.work (p : Poller) (c : Claimer) (source : Source) (choice : Nat) (w : World) :
    Poller × World :=
  let (result, w) := c.run (c.settings.kind source) choice w
  (p.record source (.ofResult result) w.clock, w)

end LeaseQueue
