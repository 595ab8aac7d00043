import LeaseQueue.Work.Claimer
/-! A unit of work that runs to its end without interruption. Its ten steps are one claim of the
store, one resolution, one call of the engine and one completion, as far as it comes. -/
namespace LeaseQueue

namespace ClaimedWork

def ofGrouping (grouping : GroupingId) : ClaimedWork := ⟨none, grouping, []⟩

def ofSecondary (work : SecondaryWork) : ClaimedWork := ⟨some work.branch, work.grouping, work.digests⟩

end ClaimedWork

namespace Claimer

variable (c : Claimer) (kind : ClaimKind) (choice : Nat)

/-- The claim of a unit, and the store after it. -/
def claim (w : World) : Except StoreError (Option ClaimedWork) × Store :=
  match kind with
  | .primary =>
    let (result, store) :=
      w.store.claimPrimary w.clock c.settings.staleness.toSpan c.settings.lease.toSpan
    (result.map (Option.map .ofGrouping), store)
  | .secondary .low =>
    let (result, store) := w.store.claimOldest w.clock c.settings.lease.toSpan
    (result.map (Option.map .ofSecondary), store)
  | .secondary .high =>
    let (result, store) := w.store.claimRandom choice w.clock c.settings.lease.toSpan
    (result.map (Option.map .ofSecondary), store)

/-- The world in which the engine is called for work that a unit has claimed. -/
def calling (work : ClaimedWork) (params : Params) (w : World) : World :=
  { w with
    cache := (w.cache.resolve w.store.groupingParams work.grouping).2
    calls := w.calls ++ [⟨params, work.digests⟩] }

/-- The end of a unit, from the call of its engine on. -/
def calculate (work : ClaimedWork) (params : Params) (w : World) :
    Except ClaimError WorkOutcome × World :=
  let (answer, w) := c.engine ⟨params, work.digests⟩ w
  if c.settings.lease.nanos < answer.elapsed.nanos then
    (.error (.deadlineExceeded c.settings.lease), w)
  else
    match answer.verdict with
    | .ok () => (.ok .computed, Stage.complete work w.clock w)
    | .error cause => (.error (.diff work.grouping cause), w)

/-- The end of a unit that has claimed work, from the resolution of its grouping on. -/
def settle (work : ClaimedWork) (w : World) : Except ClaimError WorkOutcome × World :=
  match (w.cache.resolve w.store.groupingParams work.grouping).1 with
  | .error cause =>
    (.error (.resolve cause),
      { w with cache := (w.cache.resolve w.store.groupingParams work.grouping).2 })
  | .ok params => c.calculate work params (calling work params w)

/-- What becomes of what a unit has claimed. Work of a review branch without digests is left alone. -/
def follow (claimed : Except StoreError (Option ClaimedWork)) (w : World) :
    Except ClaimError WorkOutcome × World :=
  match claimed with
  | .error cause => (.error (.store cause), w)
  | .ok none => (.ok .noWork, w)
  | .ok (some work) =>
    if work.branch.isSome ∧ work.digests = [] then (.ok .noWork, w) else c.settle work w

/-! A run of a unit, from its last steps back to its first one. -/

variable {c kind choice}

theorem advanceTimes_succ {stage next : Stage} {w after : World} (steps : Nat)
    (went : c.advance kind choice stage w = (next, after)) :
    c.advanceTimes kind choice (steps + 1) stage w = c.advanceTimes kind choice steps next after := by
  rw [advanceTimes, went]

variable (c kind choice)

theorem advanceTimes_ended (steps : Nat) (result : Except ClaimError WorkOutcome) (w : World) :
    c.advanceTimes kind choice steps (.ended result) w = (.ended result, w) := by
  induction steps with
  | zero => rfl
  | succ steps ih => exact ih

theorem advanceTimes_calculating (steps : Nat) (work : ClaimedWork) (params : Params) (w : World) :
    c.advanceTimes kind choice (steps + 3) (.calculating work params) w =
      (.ended (c.calculate work params w).1, (c.calculate work params w).2) := by
  rw [advanceTimes, advance, calculate]
  rcases c.engine ⟨params, work.digests⟩ w with ⟨⟨elapsed, verdict⟩, after⟩
  dsimp only
  split
  · exact advanceTimes_ended c kind choice _ _ _
  · cases verdict with
    | ok => exact advanceTimes_ended c kind choice _ _ _
    | error cause => exact advanceTimes_ended c kind choice _ _ _

theorem advanceTimes_missed (steps : Nat) (work : ClaimedWork) (w : World) :
    c.advanceTimes kind choice (steps + 5) (.resolving work .missed) w =
      match w.store.groupingParams work.grouping with
      | .error cause => (.ended (.error (.resolve (.store cause))), w)
      | .ok none => (.ended (.error (.resolve (.unknownGrouping work.grouping))), w)
      | .ok (some params) =>
        let called := { w with
          cache := w.cache.insert work.grouping params
          calls := w.calls ++ [⟨params, work.digests⟩] }
        (.ended (c.calculate work params called).1, (c.calculate work params called).2) := by
  rcases found : w.store.groupingParams work.grouping with cause | _ | params
  · have went : c.advance kind choice (.resolving work .missed) w =
        (.ended (.error (.resolve (.store cause))), w) := by
      simp only [advance, Stage.step, Resolution.step, found, Resolution.ofAnswer,
        Stage.ofResolution]
    rw [advanceTimes_succ _ went, advanceTimes_ended]
  · have went : c.advance kind choice (.resolving work .missed) w =
        (.ended (.error (.resolve (.unknownGrouping work.grouping))), w) := by
      simp only [advance, Stage.step, Resolution.step, found, Resolution.ofAnswer,
        Stage.ofResolution]
    rw [advanceTimes_succ _ went, advanceTimes_ended]
  · have went : c.advance kind choice (.resolving work .missed) w =
        (.resolving work (.found params), w) := by
      simp only [advance, Stage.step, Resolution.step, found, Resolution.ofAnswer,
        Stage.ofResolution]
    rw [advanceTimes_succ _ went, advanceTimes_succ _ rfl]
    exact advanceTimes_calculating c kind choice steps work params _

theorem advanceTimes_resolving (steps : Nat) (work : ClaimedWork) (w : World) :
    c.advanceTimes kind choice (steps + 6) (.resolving work .begun) w =
      (.ended (c.settle work w).1, (c.settle work w).2) := by
  rcases read : w.cache.get work.grouping with ⟨_ | params, next⟩
  · have went : c.advance kind choice (.resolving work .begun) w =
        (.resolving work .missed, { w with cache := next }) := by
      simp only [advance, Stage.step, Resolution.step, read, Stage.ofResolution]
    rw [advanceTimes_succ _ went, advanceTimes_missed]
    simp only [settle, calling, GroupingCache.resolve, read]
    rcases w.store.groupingParams work.grouping with cause | _ | params
    · rfl
    · rfl
    · rfl
  · have went : c.advance kind choice (.resolving work .begun) w =
        (.calculating work params,
          { w with cache := next, calls := w.calls ++ [⟨params, work.digests⟩] }) := by
      simp only [advance, Stage.step, Resolution.step, read, Stage.ofResolution]
    rw [advanceTimes_succ _ went, advanceTimes_calculating]
    simp only [settle, calling, GroupingCache.resolve, read]

theorem advanceTimes_ofPrimaryClaim (steps : Nat) (result : Except StoreError (Option GroupingId))
    (w : World) :
    c.advanceTimes kind choice (steps + 6) (Stage.ofPrimaryClaim result) w =
      (.ended (c.follow (result.map (Option.map .ofGrouping)) w).1,
        (c.follow (result.map (Option.map .ofGrouping)) w).2) := by
  rcases result with cause | _ | grouping
  · exact advanceTimes_ended c kind choice _ _ w
  · exact advanceTimes_ended c kind choice _ _ w
  · exact advanceTimes_resolving c kind choice steps (.ofGrouping grouping) w

theorem advanceTimes_ofClaim (steps : Nat) (result : Except StoreError (Option SecondaryWork))
    (w : World) :
    c.advanceTimes kind choice (steps + 6) (Stage.ofClaim result) w =
      (.ended (c.follow (result.map (Option.map .ofSecondary)) w).1,
        (c.follow (result.map (Option.map .ofSecondary)) w).2) := by
  rcases result with cause | _ | work
  · exact advanceTimes_ended c kind choice _ _ w
  · exact advanceTimes_ended c kind choice _ _ w
  · by_cases none : work.digests = []
    · simp only [Stage.ofClaim, none, if_true]
      rw [advanceTimes_ended]
      simp [follow, Except.map, ClaimedWork.ofSecondary, none]
    · simp only [Stage.ofClaim, none, if_false]
      rw [advanceTimes_resolving]
      simp [follow, Except.map, ClaimedWork.ofSecondary, none]

/-- Candidates that are read and leased in two steps are claimed at random. -/
theorem advanceTimes_timed_high (steps : Nat) (w : World) :
    let claimed := w.store.claimRandom choice w.clock c.settings.lease.toSpan
    let outcome := c.follow (claimed.1.map (Option.map .ofSecondary)) { w with store := claimed.2 }
    c.advanceTimes (.secondary .high) choice (steps + 8) (.timed w.clock) w =
      (.ended outcome.1, outcome.2) := by
  intro claimed outcome
  rcases read : w.store.candidates w.clock Store.candidateCount with cause | works
  · have went : c.advance (.secondary .high) choice (.timed w.clock) w =
        (.ended (.error (.store cause)), w) := by
      simp only [advance, Stage.step, Stage.claim, read, Stage.ofCandidates]
    have none : claimed = (.error cause, w.store) := by
      simp only [claimed, Store.claimRandom, read]
    simp only [outcome, none]
    rw [advanceTimes_succ _ went, advanceTimes_ended]
    rfl
  · cases picked : Store.pick choice works with
    | none =>
      have went : c.advance (.secondary .high) choice (.timed w.clock) w =
          (.ended (.ok .noWork), w) := by
        simp only [advance, Stage.step, Stage.claim, read, Stage.ofCandidates, picked]
      have none : claimed = (.ok none, w.store) := by
        simp only [claimed, Store.claimRandom, read, Store.claimAmong, picked]
      simp only [outcome, none]
      rw [advanceTimes_succ _ went, advanceTimes_ended]
      rfl
    | some work =>
      have went : c.advance (.secondary .high) choice (.timed w.clock) w =
          (.picked w.clock work, w) := by
        simp only [advance, Stage.step, Stage.claim, read, Stage.ofCandidates, picked]
      have leased : claimed = w.store.leaseCandidate work w.clock c.settings.lease.toSpan := by
        simp only [claimed, Store.claimRandom, read, Store.claimAmong, picked]
      simp only [outcome, leased]
      rw [advanceTimes_succ _ went, advanceTimes_succ _ rfl]
      exact advanceTimes_ofClaim c (.secondary .high) choice steps _ _

/-- A unit that nobody interrupts makes one claim of the store and goes on with what it has got. -/
theorem run_eq (w : World) :
    c.run kind choice w =
      c.follow (c.claim kind choice w).1 { w with store := (c.claim kind choice w).2 } := by
  have ended : ∀ outcome : Except ClaimError WorkOutcome × World,
      c.advanceTimes kind choice maxSteps .begun w = (.ended outcome.1, outcome.2) →
        c.run kind choice w = outcome := by
    intro outcome times
    rw [run, times]
  apply ended
  have begun : c.advanceTimes kind choice maxSteps .begun w =
      c.advanceTimes kind choice 9 (.timed w.clock) w := rfl
  rw [begun]
  cases kind with
  | primary => exact advanceTimes_ofPrimaryClaim c .primary choice 2 _ _
  | secondary mode =>
    cases mode with
    | low => exact advanceTimes_ofClaim c (.secondary .low) choice 2 _ _
    | high => exact advanceTimes_timed_high c choice 1 w

end Claimer

end LeaseQueue
