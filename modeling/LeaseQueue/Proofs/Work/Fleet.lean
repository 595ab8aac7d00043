import LeaseQueue.Proofs.Lists
import LeaseQueue.Proofs.Store.History
import LeaseQueue.Work.Unit
/-! Any number of workers and producers that share a store and a clock which never goes back. The
steps of their units interleave in any order. A unit takes no step after its deadline, and the log
tells what happened before, latest first. -/
namespace LeaseQueue

/-- A row while it exists. A branch that is retired and begun again has other rows than before. -/
inductive HeldRow where
  | primary (key : List UInt8)
  | secondary (branch : String) (key : List UInt8) (generation : Nat)
deriving DecidableEq

def HeldRow.key : HeldRow → RowKey
  | .primary key => .primary key
  | .secondary branch key _ => .secondary branch key

/-- What is told of the past: claims that were won, and what producers did to review-branch work. -/
inductive Deed where
  | claimed (unit : Nat) (row : HeldRow)
  | uploaded (work : SecondaryWork) (updated : Instant)
  | retired (branch : String)
deriving DecidableEq

namespace Deed

def claimer? (row : HeldRow) : Deed → Option Nat
  | .claimed unit won => if won = row then some unit else none
  | _ => none

def retires (branch : String) : Deed → Bool
  | .retired other => other = branch
  | _ => false

end Deed

/-- The unit whose claim of a row is the most recent one. -/
def latestClaim? (log : List Deed) (row : HeldRow) : Option Nat :=
  log.findSome? (Deed.claimer? row)

/-- How often a branch has been retired. -/
def generation (log : List Deed) (branch : String) : Nat := log.countP (Deed.retires branch)

/-- Whether a row has not been removed since it was claimed. -/
def HeldRow.Current (log : List Deed) : HeldRow → Prop
  | .primary _ => True
  | .secondary branch _ claimed => claimed = generation log branch

deriving instance DecidableEq for ClaimedWork

namespace ClaimedWork

def key (work : ClaimedWork) : RowKey :=
  match work.branch with
  | none => .primary work.grouping.bytes
  | some branch => .secondary branch work.grouping.bytes

/-- The row that a work stands for at the present. -/
def rowNow (log : List Deed) (work : ClaimedWork) : HeldRow :=
  match work.branch with
  | none => .primary work.grouping.bytes
  | some branch => .secondary branch work.grouping.bytes (generation log branch)

end ClaimedWork

namespace Stage

/-- The work that a unit holds, from its claim to its end. -/
def work? : Stage → Option ClaimedWork
  | .resolving work _ => some work
  | .calculating work _ => some work
  | .calculated work => some work
  | .completing work _ => some work
  | _ => none

/-- The time that a unit has read and not yet claimed with. -/
def claimTime? : Stage → Option Instant
  | .timed now => some now
  | .picked now _ => some now
  | _ => none

/-- The work that a unit completes next, and the time that it has read for that. -/
def completion? : Stage → Option (ClaimedWork × Instant)
  | .completing work now => some (work, now)
  | _ => none

def claims? (before after : Stage) : Option ClaimedWork :=
  match before.work? with
  | none => after.work?
  | some _ => none

end Stage

/-- A unit of work of one of the workers. -/
structure UnitOfWork where
  settings : ClaimerSettings
  kind : ClaimKind
  started : Instant
  stage : Stage
  /-- The row that was claimed, if one was. -/
  row? : Option HeldRow

/-- A unit is dropped when more time than its lease has passed since it started. -/
def UnitOfWork.overdue (clock : Instant) (u : UnitOfWork) : Bool :=
  (u.settings.lease.nanos : Int) < clock.nanos - u.started.nanos

inductive FleetEvent where
  | pass (time : Duration)
  | start (settings : ClaimerSettings) (kind : ClaimKind)
  /-- A step of a unit, with the cache that its worker has at the moment. -/
  | move (unit choice : Nat) (answer : Except DiffError Unit) (cache : GroupingCache)
  | fail (unit : Nat) (cause : ClaimError)
  | putGrouping (grouping : GroupingId) (params : Params)
  | ensurePrimary (groupings : List GroupingId)
  | upload (work : SecondaryWork) (updated : Instant)
  | retire (branch : String)

structure Fleet where
  world : World
  units : List UnitOfWork
  log : List Deed

namespace Fleet

/-- A world in which a worker knows the parameters of one grouping. -/
def soleWorld : World where
  store := .empty
  cache := GroupingCache.add (.empty 1) Store.soleGrouping .empty
  clock := .epoch
  processed := ⟨0, 0⟩
  calls := []

/-- A fleet that has not begun to work on what it finds. -/
def idle (world : World) : Fleet := ⟨world, [], []⟩

def pass (f : Fleet) (time : Duration) : Fleet :=
  { f with world := { f.world with clock := f.world.clock.addOrLatest ⟨time.nanos⟩ } }

def start (f : Fleet) (settings : ClaimerSettings) (kind : ClaimKind) : Fleet :=
  { f with units := f.units ++ [⟨settings, kind, f.world.clock, .begun, none⟩] }

/-- The fleet after a unit came to a stage, and what that says of its past. -/
def enter (f : Fleet) (i : Nat) (u : UnitOfWork) (stage : Stage) (world : World) : Fleet :=
  match u.stage.claims? stage with
  | some work =>
    let row := work.rowNow f.log
    { world
      units := f.units.set i { u with stage, row? := some row }
      log := .claimed i row :: f.log }
  | none => { f with world, units := f.units.set i { u with stage } }

def move (f : Fleet) (i choice : Nat) (answer : Except DiffError Unit) (cache : GroupingCache) :
    Fleet :=
  match f.units[i]? with
  | none => f
  | some u =>
    if u.overdue f.world.clock then f
    else
      let (stage, world) :=
        Stage.step u.settings u.kind choice answer { f.world with cache } u.stage
      f.enter i u stage world

/-- A unit fails at any step and leaves all as it is. -/
def fail (f : Fleet) (i : Nat) (cause : ClaimError) : Fleet :=
  match f.units[i]? with
  | none => f
  | some u => { f with units := f.units.set i { u with stage := .ended (.error cause) } }

def produce (f : Fleet) (c : StoreCall) : Fleet :=
  { f with world := { f.world with store := (f.world.store.perform c).2 } }

def note (f : Fleet) (deed : Deed) : Fleet := { f with log := deed :: f.log }

def step (f : Fleet) : FleetEvent → Fleet
  | .pass time => f.pass time
  | .start settings kind => f.start settings kind
  | .move i choice answer cache => f.move i choice answer cache
  | .fail i cause => f.fail i cause
  | .putGrouping grouping params => f.produce (.putGrouping grouping params)
  | .ensurePrimary groupings => f.produce (.ensurePrimary groupings)
  | .upload work updated =>
    (f.produce (.upsertSecondary work updated)).note (.uploaded work updated)
  | .retire branch => (f.produce (.retireBranch branch)).note (.retired branch)

def run (f : Fleet) : List FleetEvent → Fleet
  | [] => f
  | event :: events => (f.step event).run events

/-- A unit that has claimed a row, has not ended and may still take steps. -/
def Holds (f : Fleet) (i : Nat) (row : HeldRow) : Prop :=
  ∃ u, f.units[i]? = some u ∧ u.overdue f.world.clock = false ∧ u.stage.work?.isSome = true ∧
    u.row? = some row

/-- What a unit is about to complete, if it may still take steps. -/
def completing? (f : Fleet) (i : Nat) : Option (ClaimedWork × Instant) :=
  match f.units[i]? with
  | none => none
  | some u => if u.overdue f.world.clock then none else u.stage.completion?

/-! The units after an event. -/

theorem units_start {f : Fleet} {settings : ClaimerSettings} {kind : ClaimKind} {j : Nat}
    {v : UnitOfWork} (found : (f.start settings kind).units[j]? = some v) :
    f.units[j]? = some v ∨ v = ⟨settings, kind, f.world.clock, .begun, none⟩ := by
  unfold start at found
  rcases getElem?_append_cases found with old | ⟨_, same⟩
  · exact .inl old
  · exact .inr same

theorem units_fail {f : Fleet} {i j : Nat} {cause : ClaimError} {v : UnitOfWork}
    (found : (f.fail i cause).units[j]? = some v) :
    f.units[j]? = some v ∨
      ∃ u, f.units[j]? = some u ∧ v = { u with stage := .ended (.error cause) } := by
  unfold fail at found
  split at found
  · exact .inl found
  · rename_i u before
    rcases getElem?_set_cases found with ⟨rfl, same⟩ | ⟨_, other⟩
    · exact .inr ⟨u, before, same⟩
    · exact .inl other

theorem units_enter {f : Fleet} {i j : Nat} {u v : UnitOfWork} {stage : Stage} {world : World}
    (found : (f.enter i u stage world).units[j]? = some v) :
    v.stage = stage ∨ f.units[j]? = some v := by
  unfold enter at found
  split at found
  all_goals
    rcases getElem?_set_cases found with ⟨_, rfl⟩ | ⟨_, other⟩
    · exact .inl rfl
    · exact .inr other

theorem world_enter (f : Fleet) (i : Nat) (u : UnitOfWork) (stage : Stage) (world : World) :
    (f.enter i u stage world).world = world := by
  unfold enter
  split <;> rfl

theorem run_append (f : Fleet) (earlier later : List FleetEvent) :
    f.run (earlier ++ later) = (f.run earlier).run later := by
  induction earlier generalizing f with
  | nil => rfl
  | cons event events ih => exact ih (f.step event)

theorem completing?_eq_some {f : Fleet} {i : Nat} {work : ClaimedWork} {now : Instant}
    (next : f.completing? i = some (work, now)) :
    ∃ u, f.units[i]? = some u ∧ u.overdue f.world.clock = false ∧
      u.stage = .completing work now := by
  unfold completing? at next
  split at next
  · cases next
  · rename_i u found
    split at next
    · cases next
    · rename_i running
      refine ⟨u, found, Bool.eq_false_iff.mpr running, ?_⟩
      unfold Stage.completion? at next
      split at next
      · rename_i stage
        cases next
        exact stage
      · cases next

end Fleet

end LeaseQueue
