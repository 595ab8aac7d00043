import LeaseQueue.Proofs.Grouping.Sharing
import LeaseQueue.Proofs.Store.Candidates
import LeaseQueue.Proofs.Work.Steps
import LeaseQueue.Proofs.Work.Uninterrupted
/-! A unit of work from its claim to its end. It is computed and recorded, or it leaves nothing behind
but the lease of the row that it has claimed. -/
namespace LeaseQueue

namespace GroupingCache

/-- A cache that holds what the store knows never shows in a resolution. -/
theorem Holds.resolve {cache : GroupingCache} {known : GroupingId → Option Params}
    {lookup : Resolution.Lookup} {id : GroupingId} (holds : cache.Holds known)
    (answers : lookup id = .ok (known id)) :
    (cache.resolve lookup id).1 =
      match known id with
      | some params => .ok params
      | none => .error (.unknownGrouping id) := by
  obtain ⟨same, _⟩ := holds.get id
  unfold GroupingCache.resolve
  rcases read : cache.get id with ⟨_ | params, next⟩
  · simp only [answers]
    cases known id <;> rfl
  · rw [read] at same
    rw [same params rfl]

end GroupingCache

/-! What a unit finds: a store that calls have filled, and a cache that has served it. -/

/-- A world whose store was filled by its operations, and whose cache by resolutions over this
store, which may have gone on at the same time. -/
def World.Lived (w : World) : Prop :=
  ∃ events, w.store = (Sharing.after events).store ∧ w.cache ∈ (Sharing.after events).caches

namespace World.Lived

variable {w : World}

theorem reached (lived : w.Lived) : w.store.Reached := by
  obtain ⟨events, store, _⟩ := lived
  exact ⟨_, (Sharing.store_after events).symm.trans store.symm⟩

theorem resolve (lived : w.Lived) {store : Store} (same : store.groupings = w.store.groupings)
    (id : GroupingId) :
    (w.store.groupingParams id = .ok none ∧
      (w.cache.resolve store.groupingParams id).1 = .error (.unknownGrouping id)) ∨
    ∃ params, w.store.groupingParams id = .ok (some params) ∧
      (w.cache.resolve store.groupingParams id).1 = .ok params := by
  obtain ⟨events, filled, served⟩ := lived
  have sound := Sharing.sound_after events
  have answers := sound.answers id
  rw [← filled] at answers
  have looked : store.groupingParams id = .ok (Sharing.firstPut? events id) := by
    rw [← answers]
    unfold Store.groupingParams
    rw [same]
  have resolved := (sound.caches _ served).resolve looked
  cases known : Sharing.firstPut? events id with
  | none =>
    rw [known] at answers resolved
    exact .inl ⟨answers, resolved⟩
  | some params =>
    rw [known] at answers resolved
    exact .inr ⟨params, answers, resolved⟩

end World.Lived

/-- What a unit of a kind may hold: of the primary branch no digests, of a review branch some. -/
def ClaimKind.Fits : ClaimKind → ClaimedWork → Prop
  | .primary, work => work.branch = none ∧ work.digests = []
  | .secondary _, work => work.branch.isSome = true ∧ work.digests ≠ []

/-- The counters after a further unit of a kind. -/
def ClaimKind.count (kind : ClaimKind) (processed : Processed) : Processed :=
  match kind with
  | .primary => { processed with primary := processed.primary + 1 }
  | .secondary _ => { processed with secondary := processed.secondary + 1 }

/-! The claims of the store, by what they leave behind. -/

namespace Store

theorem row?_of_mem_primary {s : Store} {row : PrimaryRow} (member : row ∈ s.primary) :
    ∃ found, s.row? (.primary row.key) = some found := by
  have present : (s.primary.find? fun other => decide (other.key = row.key)).isSome :=
    List.find?_isSome.mpr ⟨row, member, decide_eq_true rfl⟩
  obtain ⟨found, first⟩ := Option.isSome_iff_exists.mp present
  exact ⟨found.columns, by rw [row?, first]; rfl⟩

/-- What a claim of review-branch work comes to. -/
inductive SecondaryClaim (s : Store) (now : Instant) (lease : Span) :
    Except StoreError (Option SecondaryWork) × Store → Prop
  | refused (cause : StoreError) : SecondaryClaim s now lease (.error cause, s)
  | idle : SecondaryClaim s now lease (.ok none, s)
  | leased (row : SecondaryRow) (work : SecondaryWork) (ends : Instant)
    (granted : leaseEnd now lease = .ok ends) (member : row ∈ s.secondary)
    (due : row.isDue now.millis = true) (read : row.work = .ok work) :
    SecondaryClaim s now lease (.ok (some work), s.setSecondaryLease row.branch row.key ends.millis)

variable {s : Store} (reached : s.Reached) (now : Instant) (lease : Span)

include reached

theorem Reached.secondaryClaim_oldest : s.SecondaryClaim now lease (s.claimOldest now lease) := by
  cases granted : leaseEnd now lease with
  | error cause =>
    simp only [claimOldest, granted]
    exact .refused cause
  | ok ends =>
    rcases claimOldest_legible reached.legible granted with
      ⟨_, idle⟩ | ⟨row, member, due, work, read, claimed⟩
    · rw [idle]
      exact .idle
    · rw [claimed]
      exact .leased row work ends granted member due read

theorem Reached.secondaryClaim_random (choice : Nat) :
    s.SecondaryClaim now lease (s.claimRandom choice now lease) := by
  obtain ⟨works, listed, ⟨none, _⟩ | ⟨row, member, due, work, read, picked⟩⟩ :=
    pick_legible reached.legible now choice
  · simp only [claimRandom, listed, claimAmong, none]
    exact .idle
  · simp only [claimRandom, listed, claimAmong, picked]
    cases granted : leaseEnd now lease with
    | error cause =>
      rw [leaseCandidate_refused granted]
      exact .refused cause
    | ok ends =>
      obtain ⟨branch, key⟩ := key_of_work read
      rcases leaseCandidate_legible reached.legible reached.keyed granted member branch key with
        ⟨idle, _⟩ | ⟨_, leased, again, claimed⟩
      · cases idle.symm.trans due
      · rw [claimed]
        exact .leased row leased ends granted member due again

end Store

namespace Claimer

variable (c : Claimer) (kind : ClaimKind) (choice : Nat) (w : World)

/-- A claim that has leased the row of some work until a moment. -/
structure Claims (work : ClaimedWork) (ends : Instant) : Prop where
  result : c.claim kind choice w = (.ok (some work), w.store.setLease work.key ends.millis)
  granted : leaseEnd w.clock c.settings.lease.toSpan = .ok ends
  present : ∃ row, w.store.row? work.key = some row
  fits : kind.Fits work

variable {w}

theorem claim_primary_cases (reached : w.store.Reached) :
    (∃ cause, c.claim .primary choice w = (.error cause, w.store)) ∨
    c.claim .primary choice w = (.ok none, w.store) ∨
    ∃ work ends, c.Claims .primary choice w work ends := by
  cases cutoff : staleCutoff w.clock c.settings.staleness.toSpan with
  | error cause =>
    refine .inl ⟨cause, ?_⟩
    simp only [claim, Store.claimPrimary, cutoff]
    rfl
  | ok stale =>
    cases granted : leaseEnd w.clock c.settings.lease.toSpan with
    | error cause =>
      refine .inl ⟨cause, ?_⟩
      simp only [claim, Store.claimPrimary, cutoff, granted]
      rfl
    | ok ends =>
      rcases Store.claimPrimary_legible reached.legible cutoff granted with
        ⟨_, idle⟩ | ⟨row, member, _, grouping, key, claimed⟩
      · refine .inr (.inl ?_)
        simp only [claim, idle]
        rfl
      · refine .inr (.inr ⟨.ofGrouping grouping, ends, ?_, granted, ?_, rfl, rfl⟩)
        · simp only [claim, claimed, ← key]
          rfl
        · have present := Store.row?_of_mem_primary member
          rwa [← key] at present

theorem claim_secondary_cases (reached : w.store.Reached) (mode : Contention) :
    (∃ cause, c.claim (.secondary mode) choice w = (.error cause, w.store)) ∨
    c.claim (.secondary mode) choice w = (.ok none, w.store) ∨
    ∃ work ends, c.Claims (.secondary mode) choice w work ends := by
  obtain ⟨claimed, same, outcome⟩ : ∃ claimed,
      c.claim (.secondary mode) choice w =
        (claimed.1.map (Option.map ClaimedWork.ofSecondary), claimed.2) ∧
      w.store.SecondaryClaim w.clock c.settings.lease.toSpan claimed := by
    cases mode with
    | low => exact ⟨_, rfl, reached.secondaryClaim_oldest _ _⟩
    | high => exact ⟨_, rfl, reached.secondaryClaim_random _ _ choice⟩
  cases outcome with
  | refused cause => exact .inl ⟨cause, same⟩
  | idle => exact .inr (.inl same)
  | leased row work ends granted member due read =>
    obtain ⟨branch, key⟩ := Store.key_of_work read
    have filled := (reached.legible.secondary row member).digests_ne_nil due read
    refine .inr (.inr ⟨.ofSecondary work, ends, ?_, granted, ?_, rfl, filled⟩)
    · rw [same, ← branch, ← key]
      rfl
    · have present := Store.row?_of_mem reached.keyed member
      rw [← branch, ← key] at present
      exact ⟨_, present⟩

theorem claim_cases (reached : w.store.Reached) :
    (∃ cause, c.claim kind choice w = (.error cause, w.store)) ∨
    c.claim kind choice w = (.ok none, w.store) ∨ ∃ work ends, c.Claims kind choice w work ends := by
  cases kind with
  | primary => exact c.claim_primary_cases choice reached
  | secondary mode => exact c.claim_secondary_cases choice reached mode

theorem fits_of_claimed (reached : w.store.Reached) {work : ClaimedWork}
    (claimed : (c.claim kind choice w).1 = .ok (some work)) : kind.Fits work := by
  rcases c.claim_cases kind choice reached with ⟨cause, none⟩ | none | ⟨own, ends, claims⟩
  · rw [none] at claimed
    cases claimed
  · rw [none] at claimed
    cases claimed
  · rw [claims.result] at claimed
    cases claimed
    exact claims.fits

variable (w)

/-- The call of the engine for work that a unit has claimed. -/
def called (work : ClaimedWork) (params : Params) : DiffAnswer × World :=
  c.engine ⟨params, work.digests⟩
    (calling work params { w with store := (c.claim kind choice w).2 })

/-- The engine has calculated before the lease is over. -/
def Succeeds (work : ClaimedWork) (params : Params) : Prop :=
  (c.called kind choice w work params).1.verdict = .ok () ∧
    (c.called kind choice w work params).1.elapsed.nanos ≤ c.settings.lease.nanos

/-- How a unit ends, and the world after it. -/
inductive Ending (w : World) : Except ClaimError WorkOutcome → World → Prop
  | refused (cause : StoreError) (claim : c.claim kind choice w = (.error cause, w.store)) :
    Ending w (.error (.store cause)) w
  | idle (claim : c.claim kind choice w = (.ok none, w.store)) : Ending w (.ok .noWork) w
  | unknown (work : ClaimedWork) (ends : Instant) (cache : GroupingCache)
    (claims : c.Claims kind choice w work ends)
    (missing : w.store.groupingParams work.grouping = .ok none) :
    Ending w (.error (.resolve (.unknownGrouping work.grouping)))
      { w with store := w.store.setLease work.key ends.millis, cache }
  | failed (work : ClaimedWork) (ends : Instant) (params : Params) (cause : ClaimError)
    (claims : c.Claims kind choice w work ends)
    (stored : w.store.groupingParams work.grouping = .ok (some params))
    (unsuccessful : ¬ c.Succeeds kind choice w work params) :
    Ending w (.error cause) (c.called kind choice w work params).2
  | computed (work : ClaimedWork) (ends : Instant) (params : Params)
    (claims : c.Claims kind choice w work ends)
    (stored : w.store.groupingParams work.grouping = .ok (some params))
    (succeeds : c.Succeeds kind choice w work params) :
    Ending w (.ok .computed) (Stage.complete work (c.called kind choice w work params).2.clock
      (c.called kind choice w work params).2)

variable {w}

theorem follow_of_fits {work : ClaimedWork} (fits : kind.Fits work) (w : World) :
    c.follow (.ok (some work)) w = c.settle work w := by
  refine if_neg ?_
  rintro ⟨branch, none⟩
  cases kind with
  | primary =>
    rw [fits.1] at branch
    cases branch
  | secondary mode => exact fits.2 none

/-- A unit that holds work whose parameters are known. -/
theorem ending_of_called {work : ClaimedWork} {ends : Instant} {params : Params}
    (claims : c.Claims kind choice w work ends)
    (stored : w.store.groupingParams work.grouping = .ok (some params)) :
    let held := calling work params { w with store := w.store.setLease work.key ends.millis }
    c.Ending kind choice w (c.calculate work params held).1 (c.calculate work params held).2 := by
  intro held
  have same : c.engine ⟨params, work.digests⟩ held = c.called kind choice w work params := by
    rw [called, claims.result]
  simp only [calculate, same]
  by_cases late : c.settings.lease.nanos < (c.called kind choice w work params).1.elapsed.nanos
  · rw [if_pos late]
    refine .failed work ends params _ claims stored ?_
    intro succeeds
    exact Nat.not_le.mpr late succeeds.2
  · rw [if_neg late]
    cases verdict : (c.called kind choice w work params).1.verdict with
    | error cause =>
      refine .failed work ends params _ claims stored ?_
      intro succeeds
      cases verdict.symm.trans succeeds.1
    | ok => exact .computed work ends params claims stored ⟨verdict, Nat.not_lt.mp late⟩

theorem run_ending (lived : w.Lived) :
    c.Ending kind choice w (c.run kind choice w).1 (c.run kind choice w).2 := by
  rw [run_eq]
  rcases c.claim_cases kind choice lived.reached with ⟨cause, claim⟩ | claim | ⟨work, ends, claims⟩
  · rw [claim]
    exact .refused cause claim
  · rw [claim]
    exact .idle claim
  · rw [claims.result, follow_of_fits c kind claims.fits, settle]
    have kept : (w.store.setLease work.key ends.millis).groupings = w.store.groupings :=
      Store.groupings_setLease _ _ _
    rcases lived.resolve kept work.grouping with ⟨missing, resolved⟩ | ⟨params, stored, resolved⟩
    · simp only [resolved]
      exact .unknown work ends _ claims missing
    · simp only [resolved]
      exact ending_of_called c kind choice claims stored

/-! What a unit leaves in the rows and in the counters. -/

theorem row?_complete (work : ClaimedWork) (now : Instant) (w : World) (key : RowKey) :
    (Stage.complete work now w).store.row? key = (w.store.row? key).map fun row =>
      if key = work.key then { row with calculated := now.millis } else row := by
  obtain ⟨branch, grouping, digests⟩ := work
  cases branch with
  | none =>
    refine (Store.row?_completePrimary w.store grouping now key).trans ?_
    apply Option.map_congr
    intro row _
    cases key with
    | primary key =>
      by_cases mine : key = grouping.bytes
      · simp [mine, StoreCall.completion?, ClaimedWork.key, WorkRow.written]
      · simp [mine, Ne.symm mine, StoreCall.completion?, ClaimedWork.key, WorkRow.written]
    | secondary branch key => simp [StoreCall.completion?, ClaimedWork.key, WorkRow.written]
  | some own =>
    refine (Store.row?_completeSecondary w.store own grouping now key).trans ?_
    apply Option.map_congr
    intro row _
    cases key with
    | primary key => simp [StoreCall.completion?, ClaimedWork.key, WorkRow.written]
    | secondary branch key =>
      by_cases mine : own = branch ∧ grouping.bytes = key
      · obtain ⟨rfl, rfl⟩ := mine
        simp [StoreCall.completion?, ClaimedWork.key, WorkRow.written]
      · have other : ¬ (branch = own ∧ key = grouping.bytes) :=
          fun same => mine ⟨same.1.symm, same.2.symm⟩
        simp [mine, other, StoreCall.completion?, ClaimedWork.key, WorkRow.written]

theorem calls_complete (work : ClaimedWork) (now : Instant) (w : World) :
    (Stage.complete work now w).calls = w.calls := by
  unfold Stage.complete
  split <;> rfl

theorem processed_complete {work : ClaimedWork} (fits : kind.Fits work) (now : Instant)
    (w : World) : (Stage.complete work now w).processed = kind.count w.processed := by
  obtain ⟨branch, grouping, digests⟩ := work
  cases kind with
  | primary =>
    obtain ⟨rfl, _⟩ : branch = none ∧ digests = [] := fits
    rfl
  | secondary mode =>
    cases branch with
    | none => cases fits.1
    | some branch => rfl

/-- What a unit leaves that has computed its work: one call of the engine, and the completion of the
row that it has claimed. -/
structure Recorded (w : World) (work : ClaimedWork) (params : Params) (after : World) : Prop where
  calls : after.calls = w.calls ++ [⟨params, work.digests⟩]
  clock : after.clock = (c.called kind choice w work params).2.clock
  row : ∃ row ends, w.store.row? work.key = some row ∧
    leaseEnd w.clock c.settings.lease.toSpan = .ok ends ∧
    after.store.row? work.key =
      some { row with leaseEnds := ends.millis, calculated := after.clock.millis }
  others : ∀ key, key ≠ work.key → after.store.row? key = w.store.row? key
  counted : after.processed = kind.count w.processed

/-- What a unit leaves that has failed: no completion, and at most one call of the engine. -/
structure Failed (w after : World) : Prop where
  store : after.store = (c.claim kind choice w).2
  calculated : ∀ key, (after.store.row? key).map (·.calculated) =
    (w.store.row? key).map (·.calculated)
  counted : after.processed = w.processed
  calls : after.calls = w.calls ∨ ∃ work params, (c.claim kind choice w).1 = .ok (some work) ∧
    w.store.groupingParams work.grouping = .ok (some params) ∧
    ¬ c.Succeeds kind choice w work params ∧ after.calls = w.calls ++ [⟨params, work.digests⟩]

/-- Only time passes while the engine calculates. -/
def Alone : Prop := ∀ call w, ∃ clock, (c.engine call w).2 = { w with clock }

/-- The outcome of a unit, and what it tells about the world after it. -/
structure AllOrNothing (w : World) (result : Except ClaimError WorkOutcome) (after : World) :
    Prop where
  computed_iff : result = .ok .computed ↔ ∃ work params,
    (c.claim kind choice w).1 = .ok (some work) ∧
    w.store.groupingParams work.grouping = .ok (some params) ∧ c.Succeeds kind choice w work params
  computed : c.Alone → result = .ok .computed → ∃ work params,
    (c.claim kind choice w).1 = .ok (some work) ∧
    w.store.groupingParams work.grouping = .ok (some params) ∧
    c.Recorded kind choice w work params after
  idle_iff : result = .ok .noWork ↔ (c.claim kind choice w).1 = .ok none
  idle : result = .ok .noWork → after = w
  failed : c.Alone → ∀ cause, result = .error cause → c.Failed kind choice w after
  fits : ∀ work, (c.claim kind choice w).1 = .ok (some work) → kind.Fits work

theorem calculated_setLease (s : Store) (own key : RowKey) (ends : Instant) :
    ((s.setLease own ends.millis).row? key).map (·.calculated) =
      (s.row? key).map (·.calculated) := by
  rw [Store.row?_setLease_eq, Option.map_map]
  apply Option.map_congr
  intro row _
  simp only [Function.comp_apply]
  split <;> rfl

section Outcome

variable {c kind choice} {after : World} {result : Except ClaimError WorkOutcome}
  {work : ClaimedWork} {ends : Instant} {params : Params}

theorem Claims.claimed (claims : c.Claims kind choice w work ends) :
    (c.claim kind choice w).1 = .ok (some work) := by
  rw [claims.result]

theorem Claims.eq (claims : c.Claims kind choice w work ends) {other : ClaimedWork}
    (claimed : (c.claim kind choice w).1 = .ok (some other)) : other = work :=
  (Option.some.inj (Except.ok.inj (claims.claimed.symm.trans claimed))).symm

/-- The world that an engine leaves which is alone. -/
theorem Alone.called (alone : c.Alone) (claims : c.Claims kind choice w work ends)
    (params : Params) :
    let after := (c.called kind choice w work params).2
    after.store = w.store.setLease work.key ends.millis ∧
      after.calls = w.calls ++ [⟨params, work.digests⟩] ∧ after.processed = w.processed := by
  obtain ⟨clock, answered⟩ := alone ⟨params, work.digests⟩
    (calling work params { w with store := w.store.setLease work.key ends.millis })
  simp only [Claimer.called, claims.result, answered]
  exact ⟨rfl, rfl, rfl⟩

theorem recorded_complete (alone : c.Alone) (claims : c.Claims kind choice w work ends)
    (params : Params) :
    let after := (c.called kind choice w work params).2
    c.Recorded kind choice w work params (Stage.complete work after.clock after) := by
  intro after
  obtain ⟨store, calls, processed⟩ := alone.called claims params
  have rows : ∀ key, (Stage.complete work after.clock after).store.row? key =
      (w.store.row? key).map fun row => if key = work.key then
        { row with leaseEnds := ends.millis, calculated := after.clock.millis } else row := by
    intro key
    rw [row?_complete, store, Store.row?_setLease_eq, Option.map_map]
    apply Option.map_congr
    intro row _
    by_cases own : key = work.key
    · simp [own]
    · simp [own]
  constructor
  case calls => rw [calls_complete, calls]
  case clock => rw [Stage.clock_complete]
  case row =>
    obtain ⟨row, present⟩ := claims.present
    refine ⟨row, ends, present, claims.granted, ?_⟩
    rw [rows, present, Stage.clock_complete]
    simp
  case others =>
    intro key other
    rw [rows]
    simp [other]
  case counted => rw [processed_complete kind claims.fits, processed]

theorem Ending.failed_of_error {cause : ClaimError} (alone : c.Alone)
    (ending : c.Ending kind choice w (.error cause) after) : c.Failed kind choice w after := by
  cases ending with
  | refused cause claim => exact ⟨by rw [claim], fun _ => rfl, rfl, .inl rfl⟩
  | unknown work ends cache claims missing =>
    exact ⟨by rw [claims.result], fun key => calculated_setLease w.store work.key key ends, rfl,
      .inl rfl⟩
  | failed work ends params cause claims stored unsuccessful =>
    obtain ⟨store, calls, processed⟩ := alone.called claims params
    refine ⟨by rw [store, claims.result], ?_, processed, ?_⟩
    · intro key
      rw [store]
      exact calculated_setLease w.store work.key key ends
    · exact .inr ⟨work, params, claims.claimed, stored, unsuccessful, calls⟩

theorem Ending.computed_of_succeeds (ending : c.Ending kind choice w result after)
    (claimed : (c.claim kind choice w).1 = .ok (some work))
    (stored : w.store.groupingParams work.grouping = .ok (some params))
    (succeeds : c.Succeeds kind choice w work params) : result = .ok .computed := by
  cases ending with
  | refused cause claim => rw [claim] at claimed; cases claimed
  | idle claim => rw [claim] at claimed; cases claimed
  | unknown own ends cache claims missing =>
    obtain rfl := claims.eq claimed
    cases missing.symm.trans stored
  | failed own ends known cause claims found unsuccessful =>
    obtain rfl := claims.eq claimed
    cases found.symm.trans stored
    exact absurd succeeds unsuccessful
  | computed => rfl

theorem Ending.computed_iff (ending : c.Ending kind choice w result after) :
    result = .ok .computed ↔ ∃ work params, (c.claim kind choice w).1 = .ok (some work) ∧
      w.store.groupingParams work.grouping = .ok (some params) ∧
      c.Succeeds kind choice w work params := by
  constructor
  · rintro rfl
    cases ending with
    | computed work ends params claims stored succeeds =>
      exact ⟨work, params, claims.claimed, stored, succeeds⟩
  · rintro ⟨work, params, claimed, stored, succeeds⟩
    exact ending.computed_of_succeeds claimed stored succeeds

theorem Ending.recorded (alone : c.Alone) (ending : c.Ending kind choice w (.ok .computed) after) :
    ∃ work params, (c.claim kind choice w).1 = .ok (some work) ∧
      w.store.groupingParams work.grouping = .ok (some params) ∧
      c.Recorded kind choice w work params after := by
  cases ending with
  | computed work ends params claims stored succeeds =>
    exact ⟨work, params, claims.claimed, stored, recorded_complete alone claims params⟩

theorem Ending.idle_iff (ending : c.Ending kind choice w result after) :
    result = .ok .noWork ↔ (c.claim kind choice w).1 = .ok none := by
  constructor
  · rintro rfl
    cases ending with
    | idle claim => rw [claim]
  · intro none
    cases ending with
    | idle => rfl
    | refused cause claim => rw [claim] at none; cases none
    | unknown _ _ _ claims => cases claims.claimed.symm.trans none
    | failed _ _ _ _ claims => cases claims.claimed.symm.trans none
    | computed _ _ _ claims => cases claims.claimed.symm.trans none

theorem Ending.unchanged (ending : c.Ending kind choice w (.ok .noWork) after) : after = w := by
  cases ending with
  | idle => rfl

end Outcome

/-- A unit of work is computed and recorded, or it has found nothing and changes nothing, or it fails
and records nothing. -/
theorem run_all_or_nothing (lived : w.Lived) :
    c.AllOrNothing kind choice w (c.run kind choice w).1 (c.run kind choice w).2 := by
  have ending := c.run_ending kind choice lived
  constructor
  case computed_iff => exact ending.computed_iff
  case computed =>
    intro alone computed
    rw [computed] at ending
    exact ending.recorded alone
  case idle_iff => exact ending.idle_iff
  case idle =>
    intro idle
    rw [idle] at ending
    exact ending.unchanged
  case failed =>
    intro alone cause failed
    rw [failed] at ending
    exact ending.failed_of_error alone
  case fits => exact fun work claimed => c.fits_of_claimed kind choice lived.reached claimed

/-- A resolver is set up, and a row of a review branch and the parameters of its grouping are stored. -/
def reviewed : Sharing := Sharing.after
  [.setUp 1, .perform (.putGrouping Store.soleGrouping .empty),
    .perform (.upsertSecondary Store.soleWork (.atMillis 1000))]

def reviewedWorld : World where
  store := reviewed.store
  cache := .empty 1
  clock := .atMillis 2000
  processed := ⟨0, 0⟩
  calls := []

/-- An engine that succeeds, and takes a second for it. -/
def secondClaimer : Claimer where
  settings := .default
  engine := fun _ w => (⟨.ofSeconds 1, .ok ()⟩, { w with clock := .atMillis 3000 })

/-- The completion carries the time after the second that the engine has taken. -/
theorem run_all_or_nothing_reviewed :
    reviewedWorld.Lived ∧ secondClaimer.Alone ∧
    (secondClaimer.run (.secondary .low) 0 reviewedWorld).1 = .ok .computed ∧
    secondClaimer.Recorded (.secondary .low) 0 reviewedWorld (.ofSecondary Store.soleWork) .empty
      (secondClaimer.run (.secondary .low) 0 reviewedWorld).2 := by
  have lived : reviewedWorld.Lived := ⟨_, rfl, List.mem_singleton_self _⟩
  have alone : secondClaimer.Alone := fun _ _ => ⟨_, rfl⟩
  have whole := run_all_or_nothing secondClaimer (.secondary .low) 0 lived
  have claimed : (secondClaimer.claim (.secondary .low) 0 reviewedWorld).1 =
      .ok (some (.ofSecondary Store.soleWork)) := by decide +kernel
  have stored : reviewedWorld.store.groupingParams Store.soleGrouping = .ok (some .empty) := by
    decide +kernel
  have succeeds : secondClaimer.Succeeds (.secondary .low) 0 reviewedWorld
      (.ofSecondary Store.soleWork) .empty := ⟨rfl, by decide⟩
  have computed := whole.computed_iff.mpr ⟨_, _, claimed, stored, succeeds⟩
  obtain ⟨work, params, own, known, recorded⟩ := whole.computed alone computed
  obtain rfl := Option.some.inj (Except.ok.inj (own.symm.trans claimed))
  obtain rfl := Option.some.inj (Except.ok.inj (known.symm.trans stored))
  exact ⟨lived, alone, computed, recorded⟩

end Claimer

end LeaseQueue
