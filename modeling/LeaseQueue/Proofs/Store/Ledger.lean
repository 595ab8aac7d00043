import LeaseQueue.Store.Call
/-! The work queue with exact times: the same tables, in which no time is rounded. A ledger records
what a run of operations did, and it can also answer the operations itself. -/
namespace LeaseQueue

/-- A row of primary-branch work: the exact time of its last completion and the exact end of its
last lease, the epoch before the first of each. -/
structure ExactPrimary where
  grouping : GroupingId
  calculated : Instant
  leaseEnds : Instant

/-- A row of review-branch work with exact times, and the digests of its last update. -/
structure ExactSecondary where
  branch : String
  grouping : GroupingId
  digests : List Digest
  updated : Instant
  calculated : Instant
  leaseEnds : Instant

/-- Groupings have no times and are kept as the store keeps them. -/
structure Ledger where
  groupings : List GroupingRow
  primary : List ExactPrimary
  secondary : List ExactSecondary

def ExactPrimary.isDue (now stale : Instant) (row : ExactPrimary) : Bool :=
  row.leaseEnds < now && row.calculated < stale

namespace ExactSecondary

def hasKey (branch : String) (grouping : GroupingId) (row : ExactSecondary) : Bool :=
  row.branch = branch && row.grouping = grouping

def isDue (now : Instant) (row : ExactSecondary) : Bool :=
  row.leaseEnds < now && row.calculated < row.updated && !row.digests.isEmpty

def work (row : ExactSecondary) : SecondaryWork := ⟨row.branch, row.grouping, row.digests⟩

end ExactSecondary

namespace Ledger

def empty : Ledger := ⟨[], [], []⟩

def primaryRow? (l : Ledger) (grouping : GroupingId) : Option ExactPrimary :=
  l.primary.find? fun row => row.grouping = grouping

def secondaryRow? (l : Ledger) (branch : String) (grouping : GroupingId) :
    Option ExactSecondary :=
  l.secondary.find? (ExactSecondary.hasKey branch grouping)

/-! What an operation changes. -/

def leasePrimary (l : Ledger) (grouping : GroupingId) (ends : Instant) : Ledger :=
  { l with
    primary := l.primary.map fun row =>
      if row.grouping = grouping then { row with leaseEnds := ends } else row }

def leaseSecondary (l : Ledger) (branch : String) (grouping : GroupingId) (ends : Instant) :
    Ledger :=
  { l with
    secondary := l.secondary.map fun row =>
      if row.hasKey branch grouping then { row with leaseEnds := ends } else row }

def completePrimary (l : Ledger) (grouping : GroupingId) (now : Instant) : Ledger :=
  { l with
    primary := l.primary.map fun row =>
      if row.grouping = grouping then { row with calculated := now } else row }

def completeSecondary (l : Ledger) (branch : String) (grouping : GroupingId) (now : Instant) :
    Ledger :=
  { l with
    secondary := l.secondary.map fun row =>
      if row.hasKey branch grouping then { row with calculated := now } else row }

def ensureOne (l : Ledger) (grouping : GroupingId) : Ledger :=
  if l.primary.any fun row => row.grouping = grouping then l
  else { l with primary := l.primary ++ [⟨grouping, .epoch, .epoch⟩] }

def upsertSecondary (l : Ledger) (work : SecondaryWork) (updated : Instant) : Ledger :=
  if l.secondary.any (ExactSecondary.hasKey work.branch work.grouping) then
    { l with
      secondary := l.secondary.map fun row =>
        if row.hasKey work.branch work.grouping then
          { row with digests := work.digests, updated }
        else row }
  else
    { l with
      secondary := l.secondary ++
        [⟨work.branch, work.grouping, work.digests, updated, .epoch, .epoch⟩] }

def retireBranch (l : Ledger) (branch : String) : Ledger :=
  { l with secondary := l.secondary.filter fun row => row.branch ≠ branch }

def putGrouping (l : Ledger) (grouping : GroupingId) (params : Params) : Ledger :=
  if l.groupings.any fun row => row.key = grouping.bytes then l
  else { l with groupings := l.groupings ++ [⟨grouping.bytes, params.encode⟩] }

/-- Records an operation with the answer that was given to it. A lease that was granted ends exactly
its length after the moment of the claim. -/
def record (l : Ledger) (c : StoreCall) (answer : Except StoreError StoreAnswer) : Ledger :=
  match c, answer with
  | .claimPrimary now _ lease, .ok (.primaryWork (some grouping)) =>
    (now.add? lease).elim l fun ends => l.leasePrimary grouping ends
  | .claimOldest now lease, .ok (.secondaryWork (some work)) =>
    (now.add? lease).elim l fun ends => l.leaseSecondary work.branch work.grouping ends
  | .claimRandom _ now lease, .ok (.secondaryWork (some work)) =>
    (now.add? lease).elim l fun ends => l.leaseSecondary work.branch work.grouping ends
  | .leaseSecondary branch grouping now lease, .ok (.digests (some _)) =>
    (now.add? lease).elim l fun ends => l.leaseSecondary branch grouping ends
  | .completePrimary grouping now, _ => l.completePrimary grouping now
  | .completeSecondary branch grouping now, _ => l.completeSecondary branch grouping now
  | .ensurePrimary groupings, _ => groupings.foldl ensureOne l
  | .upsertSecondary work updated, _ => l.upsertSecondary work updated
  | .retireBranch branch, _ => l.retireBranch branch
  | .putGrouping grouping params, _ => l.putGrouping grouping params
  | _, _ => l

/-- What is recorded of a run of the store, from its calls and the answers that it gave. -/
def follow (l : Ledger) (s : Store) : List StoreCall → Ledger
  | [] => l
  | c :: cs => (l.record c (s.perform c).1).follow (s.perform c).2 cs

/-! What an operation answers where all times are exact. -/

/-- Oldest calculation first, and then in order of insertion. -/
def primaryByAge (l : Ledger) : List ExactPrimary :=
  l.primary.mergeSort fun a b => decide (a.calculated ≤ b.calculated)

def secondaryByAge (l : Ledger) : List ExactSecondary :=
  l.secondary.mergeSort fun a b => decide (a.calculated ≤ b.calculated)

/-- The due rows, oldest calculation first. -/
def due (l : Ledger) (now : Instant) : List ExactSecondary :=
  l.secondaryByAge.filter (ExactSecondary.isDue now)

def claimPrimary (l : Ledger) (now : Instant) (staleness lease : Span) :
    Except StoreError (Option GroupingId) := do
  let stale ← staleCutoff now staleness
  let _ ← leaseEnd now lease
  return (l.primaryByAge.find? (ExactPrimary.isDue now stale)).map (·.grouping)

def claimOldest (l : Ledger) (now : Instant) (lease : Span) :
    Except StoreError (Option SecondaryWork) := do
  let _ ← leaseEnd now lease
  return (l.due now).head?.map ExactSecondary.work

def candidates (l : Ledger) (now : Instant) (limit : Nat) : List SecondaryWork :=
  ((l.due now).take (if limit ≤ Store.maxLimit then limit else l.secondary.length)).map
    ExactSecondary.work

def claimRandom (l : Ledger) (choice : Nat) (now : Instant) (lease : Span) :
    Except StoreError (Option SecondaryWork) :=
  match Store.pick choice (l.candidates now Store.candidateCount) with
  | none => .ok none
  | some work => do
    let _ ← leaseEnd now lease
    return some work

def leasedDigests (l : Ledger) (branch : String) (grouping : GroupingId) (now : Instant)
    (lease : Span) : Except StoreError (Option (List Digest)) := do
  let _ ← leaseEnd now lease
  return ((l.secondaryRow? branch grouping).filter (ExactSecondary.isDue now)).map (·.digests)

def groupingParams (l : Ledger) (grouping : GroupingId) : Except StoreError (Option Params) :=
  match l.groupings.find? fun row => row.key = grouping.bytes with
  | none => .ok none
  | some row => (Store.readParams row.params).map some

def answer (l : Ledger) : StoreCall → Except StoreError StoreAnswer
  | .groupingParams grouping => (l.groupingParams grouping).map .params
  | .retireBranch branch => .ok (.removed (l.secondary.countP fun row => row.branch = branch))
  | .primaryRow grouping =>
    .ok (.primaryRow ((l.primaryRow? grouping).map fun row =>
      ⟨grouping, row.calculated, row.leaseEnds⟩))
  | .secondaryRow branch grouping =>
    .ok (.secondaryRow ((l.secondaryRow? branch grouping).map fun row =>
      ⟨branch, grouping, row.digests, row.updated, row.calculated, row.leaseEnds⟩))
  | .claimPrimary now staleness lease => (l.claimPrimary now staleness lease).map .primaryWork
  | .claimOldest now lease => (l.claimOldest now lease).map .secondaryWork
  | .claimRandom choice now lease => (l.claimRandom choice now lease).map .secondaryWork
  | .candidates now limit => .ok (.candidates (l.candidates now limit))
  | .leaseSecondary branch grouping now lease =>
    (l.leasedDigests branch grouping now lease).map .digests
  | .putGrouping _ _ => .ok .done
  | .ensurePrimary _ => .ok .done
  | .upsertSecondary _ _ => .ok .done
  | .completePrimary _ _ => .ok .done
  | .completeSecondary _ _ _ => .ok .done

/-- The answers of the exact queue to a run of operations. -/
def answers (l : Ledger) : List StoreCall → List (Except StoreError StoreAnswer)
  | [] => []
  | c :: cs => l.answer c :: (l.record c (l.answer c)).answers cs

end Ledger

/-- The answers of the store to a run of operations. -/
def Store.answers (s : Store) : List StoreCall → List (Except StoreError StoreAnswer)
  | [] => []
  | c :: cs => (s.perform c).1 :: (s.perform c).2.answers cs

/-! A ledger as the store keeps it. -/

def ExactPrimary.stored (row : ExactPrimary) : PrimaryRow :=
  ⟨row.grouping.bytes, row.calculated.millis, row.leaseEnds.millis⟩

def ExactSecondary.stored (row : ExactSecondary) : SecondaryRow :=
  ⟨row.branch, row.grouping.bytes, Digest.encodeList row.digests, row.updated.millis,
    row.calculated.millis, row.leaseEnds.millis⟩

/-- Times become whole milliseconds, and digests become JSON text. -/
def Ledger.stored (l : Ledger) : Store :=
  ⟨l.groupings, l.primary.map ExactPrimary.stored, l.secondary.map ExactSecondary.stored⟩

end LeaseQueue
