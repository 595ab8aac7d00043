import LeaseQueue.Proofs.Store.Leases
import LeaseQueue.Proofs.Work.Fleet
/-! What one step of a unit can do. It makes at most one call of the store, and it holds work only
from a claim on that was granted a lease at the time read before. -/
namespace LeaseQueue

theorem Duration.toSpan_nonneg (d : Duration) : 0 ≤ d.toSpan.nanos := by
  unfold Duration.toSpan Span.ofMillis
  simp only
  omega

theorem Duration.toSpan_pos {d : Duration} (long : 1000000 ≤ d.nanos) : 0 < d.toSpan.nanos := by
  unfold Duration.toSpan Duration.maxSpanMillis Span.ofMillis
  simp only
  omega

namespace Stage

/-- The stages that a unit goes through, with what the store and the clock have to do with it. -/
inductive Follows (settings : ClaimerSettings) (w next : World) : Stage → Stage → Prop
  | ends (stage : Stage) (result : Except ClaimError WorkOutcome) :
    Follows settings w next stage (.ended result)
  | reads : Follows settings w next .begun (.timed w.clock)
  | picks (now : Instant) (work : SecondaryWork) :
    Follows settings w next (.timed now) (.picked now work)
  | claims (stage : Stage) (work : ClaimedWork) (now ends : Instant)
    (free : stage.work? = none) (read : stage.claimTime? = some now)
    (granted : leaseEnd now settings.lease.toSpan = .ok ends)
    (grant : Store.Grant w.store work.key now ends next.store) :
    Follows settings w next stage (.resolving work .begun)
  | resolves (work : ClaimedWork) (before after : Resolution) :
    Follows settings w next (.resolving work before) (.resolving work after)
  | calls (work : ClaimedWork) (resolution : Resolution) (params : Params) :
    Follows settings w next (.resolving work resolution) (.calculating work params)
  | calculates (work : ClaimedWork) (params : Params) :
    Follows settings w next (.calculating work params) (.calculated work)
  | finishes (work : ClaimedWork) :
    Follows settings w next (.calculated work) (.completing work w.clock)

theorem ofPrimaryClaim_cases (result : Except StoreError (Option GroupingId)) :
    (∃ ended, ofPrimaryClaim result = .ended ended) ∨
    ∃ grouping, result = .ok (some grouping) ∧
      ofPrimaryClaim result = .resolving ⟨none, grouping, []⟩ .begun := by
  unfold ofPrimaryClaim
  split
  · exact .inl ⟨_, rfl⟩
  · exact .inl ⟨_, rfl⟩
  · exact .inr ⟨_, rfl, rfl⟩

theorem ofClaim_cases (result : Except StoreError (Option SecondaryWork)) :
    (∃ ended, ofClaim result = .ended ended) ∨
    ∃ work, result = .ok (some work) ∧
      ofClaim result = .resolving ⟨some work.branch, work.grouping, work.digests⟩ .begun := by
  unfold ofClaim
  split
  · exact .inl ⟨_, rfl⟩
  · exact .inl ⟨_, rfl⟩
  · split
    · exact .inl ⟨_, rfl⟩
    · exact .inr ⟨_, rfl, rfl⟩

theorem ofCandidates_cases (now : Instant) (choice : Nat)
    (result : Except StoreError (List SecondaryWork)) :
    (∃ ended, ofCandidates now choice result = .ended ended) ∨
    ∃ work, ofCandidates now choice result = .picked now work := by
  unfold ofCandidates
  split
  · exact .inl ⟨_, rfl⟩
  · split
    · exact .inl ⟨_, rfl⟩
    · exact .inr ⟨_, rfl⟩

section Step

variable (settings : ClaimerSettings) (kind : ClaimKind) (choice : Nat)
  (answer : Except DiffError Unit) (w : World)

theorem claim_follows (now : Instant) :
    Follows settings w (claim settings kind choice now w).2 (.timed now)
      (claim settings kind choice now w).1 := by
  cases kind with
  | primary =>
    simp only [claim]
    rcases ofPrimaryClaim_cases
        (w.store.claimPrimary now settings.staleness.toSpan settings.lease.toSpan).1 with
      ⟨ended, stage⟩ | ⟨grouping, won, stage⟩
    · rw [stage]; exact .ends _ _
    · obtain ⟨ends, granted, grant⟩ := Store.claimPrimary_won won
      rw [stage]; exact .claims _ _ now ends rfl rfl granted grant
  | secondary mode =>
    cases mode with
    | low =>
      simp only [claim]
      rcases ofClaim_cases (w.store.claimOldest now settings.lease.toSpan).1 with
        ⟨ended, stage⟩ | ⟨work, won, stage⟩
      · rw [stage]; exact .ends _ _
      · obtain ⟨ends, granted, grant⟩ := Store.claimOldest_won won
        rw [stage]; exact .claims _ _ now ends rfl rfl granted grant
    | high =>
      simp only [claim]
      rcases ofCandidates_cases now choice (w.store.candidates now Store.candidateCount) with
        ⟨ended, stage⟩ | ⟨work, stage⟩
      · rw [stage]; exact .ends _ _
      · rw [stage]; exact .picks now work

theorem ofResolution_follows (next later : World) (work : ClaimedWork)
    (before after : Resolution) :
    Follows settings w next (.resolving work before) (ofResolution work later after).1 := by
  unfold ofResolution
  split
  · exact .calls work before _
  · exact .ends _ _
  · exact .resolves work before after

theorem step_follows (stage : Stage) :
    Follows settings w (step settings kind choice answer w stage).2 stage
      (step settings kind choice answer w stage).1 := by
  cases stage with
  | begun => exact .reads
  | timed now => exact claim_follows settings kind choice w now
  | picked now candidate =>
    simp only [step]
    rcases ofClaim_cases (w.store.leaseCandidate candidate now settings.lease.toSpan).1 with
      ⟨ended, stage⟩ | ⟨work, won, stage⟩
    · rw [stage]; exact .ends _ _
    · obtain ⟨ends, granted, grant⟩ := Store.leaseCandidate_won won
      rw [stage]; exact .claims _ _ now ends rfl rfl granted grant
  | resolving work resolution => exact ofResolution_follows settings w _ _ work resolution _
  | calculating work params =>
    cases answer with
    | ok => exact .calculates work params
    | error cause => exact .ends _ _
  | calculated work => exact .finishes work
  | completing work now => exact .ends _ _
  | ended result => exact .ends _ _

end Step

namespace Follows

variable {settings : ClaimerSettings} {w next : World} {before after : Stage}

/-- Work that is held after a step and was not before is leased by that step. -/
theorem granted {work : ClaimedWork} (follows : Follows settings w next before after)
    (free : before.work? = none) (held : after.work? = some work) :
    ∃ now ends, before.claimTime? = some now ∧ leaseEnd now settings.lease.toSpan = .ok ends ∧
      Store.Grant w.store work.key now ends next.store := by
  cases follows with
  | claims _ own now ends _ read granted grant =>
    cases held
    exact ⟨now, ends, read, granted, grant⟩
  | ends | reads | picks => cases held
  | resolves | calls | calculates | finishes => cases free

/-- Work that is held is held on, or it is given up. -/
theorem holding {work later : ClaimedWork} (follows : Follows settings w next before after)
    (held : before.work? = some work) (still : after.work? = some later) : later = work := by
  cases follows with
  | ends => cases still
  | reads | picks => cases held
  | claims _ own now ends free => cases free.symm.trans held
  | resolves | calls | calculates | finishes => cases held; cases still; rfl

/-- A unit claims with the time that it read first. -/
theorem claimTime {now : Instant} (follows : Follows settings w next before after)
    (later : after.claimTime? = some now) :
    (before = .begun ∧ now = w.clock) ∨ before.claimTime? = some now := by
  cases follows with
  | reads => cases later; exact .inl ⟨rfl, rfl⟩
  | picks => cases later; exact .inr rfl
  | ends | claims | resolves | calls | calculates | finishes => cases later

/-- A unit completes its work with the time at which the calculation had ended. -/
theorem completion {work : ClaimedWork} {now : Instant}
    (follows : Follows settings w next before after)
    (later : after.completion? = some (work, now)) : now = w.clock := by
  cases follows with
  | finishes => cases later; rfl
  | ends | reads | picks | claims | resolves | calls | calculates => cases later

end Follows

section Step

variable (settings : ClaimerSettings) (kind : ClaimKind) (choice : Nat)
  (answer : Except DiffError Unit) (w : World)

theorem clock_ofResolution (work : ClaimedWork) (resolution : Resolution) :
    (ofResolution work w resolution).2.clock = w.clock := by
  unfold ofResolution
  split <;> rfl

theorem store_ofResolution (work : ClaimedWork) (resolution : Resolution) :
    (ofResolution work w resolution).2.store = w.store := by
  unfold ofResolution
  split <;> rfl

theorem clock_complete (work : ClaimedWork) (now : Instant) :
    (complete work now w).clock = w.clock := by
  unfold complete
  split <;> rfl

theorem clock_step (stage : Stage) :
    (step settings kind choice answer w stage).2.clock = w.clock := by
  cases stage with
  | timed now =>
    cases kind with
    | primary => rfl
    | secondary mode => cases mode <;> rfl
  | resolving work resolution => exact clock_ofResolution _ work _
  | calculating work params => cases answer <;> rfl
  | completing work now => exact clock_complete w work now
  | begun | picked | calculated | ended => rfl

/-- What the store is after a step of a unit: at most one call further. -/
theorem store_step (stage : Stage) :
    (step settings kind choice answer w stage).2.store = w.store ∨
    ∃ c : StoreCall, c.byUnit = true ∧ c.LeasesForward ∧
      (step settings kind choice answer w stage).2.store = (w.store.perform c).2 := by
  have forward : ∀ {now read : Instant} {length : Span},
      some (now, settings.lease.toSpan) = some (read, length) → 0 ≤ length.nanos := by
    rintro _ _ _ ⟨⟩
    exact settings.lease.toSpan_nonneg
  cases stage with
  | timed now =>
    cases kind with
    | primary =>
      exact .inr ⟨.claimPrimary now settings.staleness.toSpan settings.lease.toSpan, rfl,
        fun _ _ => forward, rfl⟩
    | secondary mode =>
      cases mode with
      | low =>
        exact .inr ⟨.claimOldest now settings.lease.toSpan, rfl, fun _ _ => forward, rfl⟩
      | high => exact .inl rfl
  | picked now work =>
    refine .inr ⟨.leaseSecondary work.branch work.grouping now settings.lease.toSpan, rfl,
      fun _ _ => forward, ?_⟩
    exact congrArg Prod.snd (w.store.leaseCandidate_eq work now settings.lease.toSpan)
  | resolving work resolution => exact .inl (store_ofResolution _ work _)
  | calculating work params => left; cases answer <;> rfl
  | completing work now =>
    right
    obtain ⟨branch, grouping, digests⟩ := work
    cases branch with
    | none => exact ⟨.completePrimary grouping now, rfl, StoreCall.leasesForward_of_none rfl, rfl⟩
    | some branch =>
      exact ⟨.completeSecondary branch grouping now, rfl, StoreCall.leasesForward_of_none rfl, rfl⟩
  | begun | calculated | ended => exact .inl rfl

theorem leasedTo_step {stage : Stage} {key : RowKey} {bound : Int}
    (held : w.store.LeasedTo key bound) :
    (step settings kind choice answer w stage).2.store.LeasedTo key bound := by
  rcases store_step settings kind choice answer w stage with same | ⟨c, own, forward, call⟩
  · rw [same]; exact held
  · rw [call]; exact Store.leasedTo_perform held (StoreCall.retires_byUnit own key) forward

end Step

/-! How many steps a unit takes at most, and what a unit that holds work can come to. -/

/-- No unit has more steps before it. -/
def stepsLeft : Stage → Nat
  | .begun => 9
  | .timed _ => 8
  | .picked _ _ => 7
  | .resolving _ .begun => 6
  | .resolving _ .missed => 5
  | .resolving _ _ => 4
  | .calculating _ _ => 3
  | .calculated _ => 2
  | .completing _ _ => 1
  | .ended _ => 0

theorem ended_of_stepsLeft {stage : Stage} (finished : stage.stepsLeft = 0) :
    ∃ result, stage = .ended result := by
  cases stage with
  | ended result => exact ⟨result, rfl⟩
  | resolving work resolution => cases resolution <;> cases finished
  | _ => cases finished

theorem Follows.stepsLeft {settings : ClaimerSettings} {w next : World} {before after : Stage}
    (follows : Follows settings w next before after)
    (other : ∀ work resolution, before ≠ .resolving work resolution) :
    after.stepsLeft ≤ before.stepsLeft - 1 := by
  cases follows with
  | ends => exact Nat.zero_le _
  | claims _ work now ends free read =>
    cases before with
    | timed => exact Nat.le_succ 6
    | picked => exact Nat.le_refl 6
    | begun | ended => cases read
    | resolving | calculating | calculated | completing => cases free
  | resolves work resolution => exact absurd rfl (other work resolution)
  | calls work resolution => exact absurd rfl (other work resolution)
  | reads | picks | calculates | finishes => exact Nat.le_refl _

theorem stepsLeft_ofResolution (work : ClaimedWork) (w : World) (result : Except ResolveError Params) :
    (ofResolution work w (.ended result)).1.stepsLeft ≤ 3 := by
  cases result with
  | ok params => exact Nat.le_refl 3
  | error cause => exact Nat.zero_le 3

section Step

variable (settings : ClaimerSettings) (kind : ClaimKind) (choice : Nat)
  (answer : Except DiffError Unit) (w : World)

theorem stepsLeft_step (stage : Stage) :
    (step settings kind choice answer w stage).1.stepsLeft ≤ stage.stepsLeft - 1 := by
  have follows := step_follows settings kind choice answer w stage
  cases stage with
  | resolving work resolution =>
    cases resolution with
    | begun =>
      simp only [step, Resolution.step]
      split
      · exact Nat.le_succ_of_le (Nat.le_succ_of_le (stepsLeft_ofResolution work _ _))
      · exact Nat.le_refl 5
    | missed =>
      simp only [step, Resolution.step, Resolution.ofAnswer]
      split
      · exact Nat.zero_le 4
      · exact Nat.zero_le 4
      · exact Nat.le_refl 4
    | found params => exact stepsLeft_ofResolution work _ _
    | ended result => exact stepsLeft_ofResolution work _ _
  | _ =>
    apply follows.stepsLeft
    intro work resolution same
    cases same

/-- A unit that holds work fails, goes on with it, or completes it. -/
theorem step_held {stage : Stage} {work : ClaimedWork} (held : stage.work? = some work) :
    let next := step settings kind choice answer w stage
    (∃ cause, next.1 = .ended (.error cause) ∧ next.2.store = w.store) ∨
    (next.1.work? = some work ∧ next.2.store = w.store) ∨
    ∃ now, next = (.ended (.ok .computed), complete work now w) := by
  cases stage with
  | resolving own resolution =>
    cases held
    simp only [step, ofResolution]
    split
    · exact .inr (.inl ⟨rfl, rfl⟩)
    · exact .inl ⟨_, rfl, rfl⟩
    · exact .inr (.inl ⟨rfl, rfl⟩)
  | calculating own params =>
    cases held
    cases answer with
    | ok => exact .inr (.inl ⟨rfl, rfl⟩)
    | error cause => exact .inl ⟨_, rfl, rfl⟩
  | calculated own =>
    cases held
    exact .inr (.inl ⟨rfl, rfl⟩)
  | completing own now =>
    cases held
    exact .inr (.inr ⟨now, rfl⟩)
  | begun | timed | picked | ended => cases held

end Step

end Stage

end LeaseQueue
