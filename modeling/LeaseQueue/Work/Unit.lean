import LeaseQueue.Store.Claim
import LeaseQueue.Store.Producer
import LeaseQueue.Work.Error
/-! A unit of work, from the reading of the clock to the recording of its completion, as a machine
of small steps. Each step acts at most once on the store, the cache or the counters, so workers
interleave between steps. A unit that fails leaves its row leased and not completed. -/
namespace LeaseQueue

/-- How review-branch work is claimed: the oldest row in one step, or a random one of the oldest
in two. -/
inductive Contention where
  | low
  | high
deriving DecidableEq

/-- What a unit claims. -/
inductive ClaimKind where
  | primary
  | secondary (mode : Contention)
deriving DecidableEq

structure ClaimerSettings where
  staleness : Duration
  /-- The length of a lease, and the deadline of a unit. -/
  lease : Duration
  mode : Contention

def ClaimerSettings.default : ClaimerSettings :=
  { staleness := .ofSeconds 60, lease := .ofSeconds 600, mode := .low }

/-- The result of a unit that ended well. -/
inductive WorkOutcome where
  | noWork
  | computed
deriving DecidableEq

/-- What a unit holds: a grouping of the primary branch, or of a review branch with its digests. -/
structure ClaimedWork where
  branch : Option String
  grouping : GroupingId
  digests : List Digest

/-- Units completed so far, by queue. -/
structure Processed where
  primary : Nat
  secondary : Nat

/-- What units act on. -/
structure World where
  store : Store
  cache : GroupingCache
  clock : Instant
  processed : Processed
  /-- The calls of the engine, in their order. -/
  calls : List DiffCall

/-- How far a unit has come. -/
inductive Stage where
  | begun
  | timed (now : Instant)
  | picked (now : Instant) (work : SecondaryWork)
  | resolving (work : ClaimedWork) (resolution : Resolution)
  | calculating (work : ClaimedWork) (params : Params)
  | calculated (work : ClaimedWork)
  | completing (work : ClaimedWork) (now : Instant)
  | ended (result : Except ClaimError WorkOutcome)

namespace Stage

/-- The stage after a claim. A claim without digests is left alone. -/
def ofClaim : Except StoreError (Option SecondaryWork) → Stage
  | .error cause => .ended (.error (.store cause))
  | .ok none => .ended (.ok .noWork)
  | .ok (some work) =>
    if work.digests = [] then .ended (.ok .noWork)
    else .resolving ⟨some work.branch, work.grouping, work.digests⟩ .begun

def ofPrimaryClaim : Except StoreError (Option GroupingId) → Stage
  | .error cause => .ended (.error (.store cause))
  | .ok none => .ended (.ok .noWork)
  | .ok (some grouping) => .resolving ⟨none, grouping, []⟩ .begun

/-- The stage after the candidates were read. -/
def ofCandidates (now : Instant) (choice : Nat) : Except StoreError (List SecondaryWork) → Stage
  | .error cause => .ended (.error (.store cause))
  | .ok works =>
    match Store.pick choice works with
    | none => .ended (.ok .noWork)
    | some work => .picked now work

/-- The step that claims, at the time read before. -/
def claim (settings : ClaimerSettings) (kind : ClaimKind) (choice : Nat) (now : Instant)
    (w : World) : Stage × World :=
  match kind with
  | .primary =>
    let (result, store) :=
      w.store.claimPrimary now settings.staleness.toSpan settings.lease.toSpan
    (ofPrimaryClaim result, { w with store })
  | .secondary .low =>
    let (result, store) := w.store.claimOldest now settings.lease.toSpan
    (ofClaim result, { w with store })
  | .secondary .high =>
    (ofCandidates now choice (w.store.candidates now Store.candidateCount), w)

/-- The step that records a completion and counts it. -/
def complete (work : ClaimedWork) (now : Instant) (w : World) : World :=
  match work.branch with
  | none =>
    { w with
      store := w.store.completePrimary work.grouping now
      processed := { w.processed with primary := w.processed.primary + 1 } }
  | some branch =>
    { w with
      store := w.store.completeSecondary branch work.grouping now
      processed := { w.processed with secondary := w.processed.secondary + 1 } }

/-- The stage after a step of the resolution. A resolved grouping goes to the engine. -/
def ofResolution (work : ClaimedWork) (w : World) : Resolution → Stage × World
  | .ended (.ok params) =>
    (.calculating work params, { w with calls := w.calls ++ [⟨params, work.digests⟩] })
  | .ended (.error cause) => (.ended (.error (.resolve cause)), w)
  | resolution => (.resolving work resolution, w)

/-- One step of a unit. The choice picks among candidates; the answer is the engine's and matters
only while it calculates. -/
def step (settings : ClaimerSettings) (kind : ClaimKind) (choice : Nat)
    (answer : Except DiffError Unit) (w : World) : Stage → Stage × World
  | .begun => (.timed w.clock, w)
  | .timed now => claim settings kind choice now w
  | .picked now work =>
    let (result, store) := w.store.leaseCandidate work now settings.lease.toSpan
    (ofClaim result, { w with store })
  | .resolving work resolution =>
    let (resolution, cache) := resolution.step w.store.groupingParams work.grouping w.cache
    ofResolution work { w with cache } resolution
  | .calculating work _ =>
    match answer with
    | .ok () => (.calculated work, w)
    | .error cause => (.ended (.error (.diff work.grouping cause)), w)
  | .calculated work => (.completing work w.clock, w)
  | .completing work now => (.ended (.ok .computed), complete work now w)
  | .ended result => (.ended result, w)

end Stage

end LeaseQueue
