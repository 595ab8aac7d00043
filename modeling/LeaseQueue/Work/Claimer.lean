import LeaseQueue.Work.Unit
/-! A worker that runs one unit of work after another without interruption, with an engine that acts
on the world and takes time. -/
namespace LeaseQueue

/-- How a call of the engine went: how long it took and what it answered. -/
structure DiffAnswer where
  elapsed : Duration
  verdict : Except DiffError Unit

/-- An engine may act on the world while it calculates: others work meanwhile. -/
abbrev Engine := DiffCall → World → DiffAnswer × World

/-- A part of what others do while an engine calculates. -/
inductive SideEffect where
  | upsert (branch : String) (grouping : GroupingId) (digests : List Digest) (updated : Instant)
  | retire (branch : String)
  | advance (delta : Span)

def SideEffect.apply (w : World) : SideEffect → World
  | .upsert branch grouping digests updated =>
    { w with store := w.store.upsertSecondary branch grouping digests updated }
  | .retire branch => { w with store := (w.store.retireBranch branch).2 }
  | .advance delta => { w with clock := w.clock.addOrLatest delta }

/-- An answer that a script gives, and what others do meanwhile. -/
structure ScriptedAnswer where
  effects : List SideEffect
  answer : DiffAnswer

/-- An engine that answers its calls from a script in turn, and with success at once after its
end. -/
def Engine.scripted (script : List ScriptedAnswer) : Engine := fun _ w =>
  match script[w.calls.length - 1]? with
  | some entry => (entry.answer, entry.effects.foldl SideEffect.apply w)
  | none => (⟨⟨0⟩, .ok ()⟩, w)

/-- A worker: how it claims, and the engine it calls. -/
structure Claimer where
  settings : ClaimerSettings
  engine : Engine

namespace Claimer

/-- One step, in which a call of the engine is answered in full. A call that takes longer than the
lease ends the unit. -/
def advance (c : Claimer) (kind : ClaimKind) (choice : Nat) (stage : Stage) (w : World) :
    Stage × World :=
  match stage with
  | .calculating work params =>
    let (answer, w) := c.engine ⟨params, work.digests⟩ w
    if c.settings.lease.nanos < answer.elapsed.nanos then
      (.ended (.error (.deadlineExceeded c.settings.lease)), w)
    else Stage.step c.settings kind choice answer.verdict w (.calculating work params)
  | stage => Stage.step c.settings kind choice (.ok ()) w stage

def advanceTimes (c : Claimer) (kind : ClaimKind) (choice : Nat) : Nat → Stage → World → Stage × World
  | 0, stage, w => (stage, w)
  | steps + 1, stage, w =>
    let (stage, w) := c.advance kind choice stage w
    advanceTimes c kind choice steps stage w

/-- No unit takes more steps: two for the clock, at most two for the claim, at most three for the
resolution, one for the engine and two for the completion. -/
def maxSteps : Nat := 10

/-- Runs a unit of work to its end. -/
def run (c : Claimer) (kind : ClaimKind) (choice : Nat) (w : World) :
    Except ClaimError WorkOutcome × World :=
  match c.advanceTimes kind choice maxSteps .begun w with
  | (.ended result, w) => (result, w)
  | (_, w) => (.ok .noWork, w)

end Claimer

end LeaseQueue
