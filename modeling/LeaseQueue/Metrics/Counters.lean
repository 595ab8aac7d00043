/-! The counters that a worker exports, and their text for scraping. Recording does nothing before
the counters are set up. -/
namespace LeaseQueue

structure Counters where
  primary : Nat
  secondary : Nat
  busyPulses : Nat
deriving DecidableEq

/-- The counters once they are set up. -/
abbrev Metrics := Option Counters

namespace Metrics

def unset : Metrics := none

/-- Sets the counters up. Doing so again is harmless. -/
def init (m : Metrics) : Metrics := some (m.getD ⟨0, 0, 0⟩)

def recordPrimary (m : Metrics) : Metrics := m.map fun c => { c with primary := c.primary + 1 }

def recordSecondary (m : Metrics) : Metrics :=
  m.map fun c => { c with secondary := c.secondary + 1 }

/-- Records one sample of the busy flag. -/
def recordPulse (m : Metrics) (busy : Bool) : Metrics :=
  m.map fun c => { c with busyPulses := c.busyPulses + if busy then 1 else 0 }

/-- The counters, all zero before they are set up. -/
def counters (m : Metrics) : Counters := m.getD ⟨0, 0, 0⟩

/-- One counter in the text format: what it counts, its type, and its value. -/
def counterText (name help : String) (value : Nat) : String :=
  "# HELP diffcalculator_" ++ name ++ " " ++ help ++ "\n# TYPE diffcalculator_" ++ name ++
    " counter\ndiffcalculator_" ++ name ++ " " ++ toString value ++ "\n"

/-- The text for scraping, in alphabetical order of the names. -/
def exportText : Metrics → String
  | none => "# Metrics not initialized. Call init_metrics() first.\n"
  | some c =>
    counterText "busy_pulses" "Seconds during which the calculator was busy" c.busyPulses ++
      counterText "cls_processed" "Number of review-branch groupings whose diffs were calculated"
        c.secondary ++
      counterText "primarybranch_processed"
        "Number of primary-branch groupings whose diffs were calculated" c.primary

end Metrics

end LeaseQueue
