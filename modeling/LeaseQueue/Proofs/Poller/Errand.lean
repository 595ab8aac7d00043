import LeaseQueue.Poller.Worker
import LeaseQueue.Proofs.Poller.Due
/-! One attempt of a polling loop at a clock that stands still. Whatever fails in it, it takes one
row off those that are due, or it finds that there is none. -/
namespace LeaseQueue

/-- What an attempt meets that neither the store nor the clock decides. -/
structure Fate where
  /-- The pick among candidates. -/
  choice : Nat
  answer : DiffAnswer
  /-- Why a unit that holds work fails at a stage, if it does so. -/
  failure : Stage → Option ClaimError
  /-- How long the attempt takes in virtual time. -/
  took : Nat

def Fate.claimer (fate : Fate) (settings : ClaimerSettings) : Claimer :=
  { settings, engine := fun _ w => (fate.answer, w) }

/-- A unit of work, with the rows that it has claimed. -/
structure Errand where
  stage : Stage
  world : World
  claims : List RowKey

namespace Errand

def begin (w : World) : Errand := ⟨.begun, w, []⟩

/-- One step, unless the unit fails before it. -/
def step (settings : ClaimerSettings) (kind : ClaimKind) (fate : Fate) (e : Errand) : Errand :=
  match e.stage.work?.bind fun _ => fate.failure e.stage with
  | some cause => { e with stage := .ended (.error cause) }
  | none =>
    let next := (fate.claimer settings).advance kind fate.choice e.stage e.world
    { stage := next.1
      world := next.2
      claims := e.claims ++ ((e.stage.claims? next.1).map ClaimedWork.key).toList }

def run (settings : ClaimerSettings) (kind : ClaimKind) (fate : Fate) : Nat → Errand → Errand
  | 0, e => e
  | steps + 1, e => run settings kind fate steps (e.step settings kind fate)

def attempt (e : Errand) : Attempt :=
  match e.stage with
  | .ended result => .ofResult result
  | _ => .noWork

/-- Runs a unit of work from a queue to its end. -/
def whole (settings : ClaimerSettings) (source : Source) (fate : Fate) (w : World) : Errand :=
  (begin w).run settings (settings.kind source) fate Claimer.maxSteps

variable (settings : ClaimerSettings) (kind : ClaimKind) (fate : Fate)

theorem run_eq_advanceTimes (unfailing : ∀ stage, fate.failure stage = none) (steps : Nat)
    (e : Errand) :
    ((e.run settings kind fate steps).stage, (e.run settings kind fate steps).world) =
      (fate.claimer settings).advanceTimes kind fate.choice steps e.stage e.world := by
  induction steps generalizing e with
  | zero => rfl
  | succ steps ih =>
    have unstruck : (e.stage.work?.bind fun _ => fate.failure e.stage) = none := by
      cases e.stage.work? with
      | none => rfl
      | some work => exact unfailing e.stage
    rw [run, ih, step, unstruck, Claimer.advanceTimes]

/-- Where nothing fails but the engine, an attempt is a run of the claimer. -/
theorem whole_eq_run (unfailing : ∀ stage, fate.failure stage = none) (source : Source)
    (w : World) :
    let errand := whole settings source fate w
    let run := (fate.claimer settings).run (settings.kind source) fate.choice w
    errand.attempt = .ofResult run.1 ∧ errand.world = run.2 := by
  have times := run_eq_advanceTimes settings (settings.kind source) fate unfailing
    Claimer.maxSteps (begin w)
  have stages : (fate.claimer settings).advanceTimes (settings.kind source) fate.choice
      Claimer.maxSteps .begun w =
      ((whole settings source fate w).stage, (whole settings source fate w).world) := times.symm
  simp only [Claimer.run, stages, attempt]
  cases (whole settings source fate w).stage with
  | ended result => exact ⟨rfl, rfl⟩
  | _ => exact ⟨rfl, rfl⟩

theorem advance_cases (stage : Stage) (w : World) :
    (∃ work, stage.work? = some work ∧
      (fate.claimer settings).advance kind fate.choice stage w =
        (.ended (.error (.deadlineExceeded settings.lease)), w)) ∨
    ∃ answer, (fate.claimer settings).advance kind fate.choice stage w =
      Stage.step settings kind fate.choice answer w stage := by
  cases stage with
  | calculating work params =>
    by_cases late : settings.lease.nanos < fate.answer.elapsed.nanos
    · exact .inl ⟨work, rfl, if_pos late⟩
    · exact .inr ⟨fate.answer.verdict, if_neg late⟩
  | _ => exact .inr ⟨.ok (), rfl⟩

theorem stepsLeft_step (e : Errand) :
    (e.step settings kind fate).stage.stepsLeft ≤ e.stage.stepsLeft - 1 := by
  unfold step
  split
  · exact Nat.zero_le _
  · rcases advance_cases settings kind fate e.stage e.world with ⟨_, _, late⟩ | ⟨answer, went⟩
    · rw [late]
      exact Nat.zero_le _
    · rw [went]
      exact Stage.stepsLeft_step settings kind fate.choice answer e.world e.stage

theorem stepsLeft_run (steps : Nat) (e : Errand) :
    (e.run settings kind fate steps).stage.stepsLeft ≤ e.stage.stepsLeft - steps := by
  induction steps generalizing e with
  | zero => exact Nat.le_refl _
  | succ steps ih =>
    have rest := ih (e.step settings kind fate)
    have first := stepsLeft_step settings kind fate e
    rw [run]
    omega

/-- Every attempt comes to its end. -/
theorem whole_ended (source : Source) (w : World) :
    ∃ result, (whole settings source fate w).stage = .ended result := by
  have left := stepsLeft_run settings (settings.kind source) fate Claimer.maxSteps (begin w)
  exact Stage.ended_of_stepsLeft (Nat.le_zero.mp left)

/-- The step of a unit that holds nothing. What it holds after it is its claim. -/
theorem step_free {stage : Stage} {w : World} {next : Stage × World} (free : stage.work? = none)
    (went : (fate.claimer settings).advance kind fate.choice stage w = next) :
    step settings kind fate ⟨stage, w, []⟩ =
      ⟨next.1, next.2, (next.1.work?.map ClaimedWork.key).toList⟩ := by
  simp only [step, free, Option.bind_none, went, Stage.claims?, List.nil_append]

end Errand

/-- A clock that stands at `now` over a store that calls have filled. -/
structure World.Frozen (now : Instant) (w : World) : Prop where
  clock : w.clock = now
  reached : w.store.Reached

theorem World.Frozen.step {now : Instant} {w : World} (frozen : w.Frozen now)
    (settings : ClaimerSettings) (kind : ClaimKind) (choice : Nat)
    (answer : Except DiffError Unit) (stage : Stage) :
    (Stage.step settings kind choice answer w stage).2.Frozen now := by
  constructor
  · rw [Stage.clock_step]
    exact frozen.clock
  · rcases Stage.store_step settings kind choice answer w stage with same | ⟨call, _, _, made⟩
    · rw [same]
      exact frozen.reached
    · rw [made]
      exact frozen.reached.perform call

/-- One row that was due is no longer, and every other row is as before. -/
structure Store.Taken (before after : Store) (now stale : Instant) (source : Source)
    (key : RowKey) : Prop where
  due : key ∈ before.dueKeys now.millis stale.millis source
  left : ∀ other, after.dueKeys now.millis stale.millis other =
    (before.dueKeys now.millis stale.millis other).filter fun k => k ≠ key

/-- How far an attempt on a queue has come that began at `now` on a store. -/
inductive Errand.Course (before : Store) (now stale : Instant) (source : Source) : Errand → Prop
  | begun (w : World) (same : w.store = before) : Course before now stale source ⟨.begun, w, []⟩
  | timed (w : World) (same : w.store = before) :
    Course before now stale source ⟨.timed now, w, []⟩
  | picked (w : World) (same : w.store = before) (row : SecondaryRow) (work : SecondaryWork)
    (second : source = .secondary) (member : row ∈ before.secondary)
    (due : row.isDue now.millis = true) (read : row.work = .ok work) :
    Course before now stale source ⟨.picked now work, w, []⟩
  | idle (w : World) (same : w.store = before)
    (nothing : before.dueKeys now.millis stale.millis source = []) :
    Course before now stale source ⟨.ended (.ok .noWork), w, []⟩
  | holding (stage : Stage) (w : World) (work : ClaimedWork) (held : stage.work? = some work)
    (leased : w.store.LeasedTo work.key now.millis)
    (taken : before.Taken w.store now stale source work.key) :
    Course before now stale source ⟨stage, w, [work.key]⟩
  | settled (result : Except ClaimError WorkOutcome) (w : World) (key : RowKey)
    (tried : Attempt.ofResult result ≠ .noWork)
    (taken : before.Taken w.store now stale source key) :
    Course before now stale source ⟨.ended result, w, [key]⟩

namespace Errand.Course

variable {settings : ClaimerSettings} {before : Store} {now ends stale : Instant}
  {source : Source}

theorem lease (granted : leaseEnd now settings.lease.toSpan = .ok ends) (w : World)
    {work : ClaimedWork} {key : RowKey} (own : work.key = key)
    (due : key ∈ before.dueKeys now.millis stale.millis source) :
    Course before now stale source
      ⟨.resolving work .begun, { w with store := before.setLease key ends.millis }, [work.key]⟩ := by
  subst own
  have later := millis_le_of_leaseEnd settings.lease.toSpan_nonneg granted
  have held := (Store.grant_of_due due ends).leasedTo
  refine .holding _ _ work rfl ?_ ?_
  · exact ⟨held.1, fun e member => Int.le_trans later (held.2 e member)⟩
  · exact ⟨due, fun other => before.dueKeys_setLease later work.key other⟩

/-- Review-branch work that was leased has digests, so the unit goes on with it. -/
theorem leaseSecondary (legible : before.Legible)
    (granted : leaseEnd now settings.lease.toSpan = .ok ends) (w : World) {row : SecondaryRow}
    {work : SecondaryWork} (member : row ∈ before.secondary)
    (due : row.isDue now.millis = true) (read : row.work = .ok work) :
    let stage := Stage.ofClaim (.ok (some work))
    Course before now stale .secondary
      ⟨stage, { w with store := before.setSecondaryLease row.branch row.key ends.millis },
        (stage.work?.map ClaimedWork.key).toList⟩ := by
  have filled := (legible.secondary row member).digests_ne_nil due read
  obtain ⟨branch, key⟩ := Store.key_of_work read
  have own : ClaimedWork.key ⟨some work.branch, work.grouping, work.digests⟩ =
      .secondary row.branch row.key := congrArg₂ RowKey.secondary branch key
  simp only [Stage.ofClaim, if_neg filled]
  exact lease granted w own (Store.mem_dueKeys_secondary member due)

theorem claim (legible : before.Legible) (granted : leaseEnd now settings.lease.toSpan = .ok ends)
    (cutoff : staleCutoff now settings.staleness.toSpan = .ok stale) (fate : Fate) (w : World)
    (same : w.store = before) :
    Course before now stale source
      (step settings (settings.kind source) fate ⟨.timed now, w, []⟩) := by
  rw [step_free settings _ fate rfl rfl]
  subst same
  cases source with
  | primary =>
    simp only [ClaimerSettings.kind, Claimer.advance, Fate.claimer, Stage.step, Stage.claim]
    rcases Store.claimPrimary_legible legible cutoff granted with
      ⟨nothing, claim⟩ | ⟨row, member, due, grouping, key, claim⟩
    · rw [claim]
      exact .idle w rfl (Store.dueKeys_primary_eq_nil nothing)
    · have own : ClaimedWork.key ⟨none, grouping, []⟩ = .primary row.key :=
        congrArg RowKey.primary key
      rw [claim]
      exact lease granted w own (Store.mem_dueKeys_primary member due)
  | secondary =>
    cases mode : settings.mode with
    | low =>
      simp only [ClaimerSettings.kind, mode, Claimer.advance, Fate.claimer, Stage.step, Stage.claim]
      rcases Store.claimOldest_legible legible granted with
        ⟨nothing, claim⟩ | ⟨row, member, due, work, read, claim⟩
      · rw [claim]
        exact .idle w rfl (Store.dueKeys_secondary_eq_nil nothing)
      · rw [claim]
        exact leaseSecondary legible granted w member due read
    | high =>
      simp only [ClaimerSettings.kind, mode, Claimer.advance, Stage.step, Stage.claim]
      obtain ⟨works, seen, picked⟩ := Store.pick_legible legible now fate.choice
      rw [seen]
      rcases picked with ⟨none, nothing⟩ | ⟨row, member, due, work, read, picked⟩
      · simp only [Stage.ofCandidates, none]
        exact .idle w rfl (Store.dueKeys_secondary_eq_nil nothing)
      · simp only [Stage.ofCandidates, picked]
        exact .picked w rfl row work rfl member due read

/-- A row that was picked is still due, since nothing else runs meanwhile. -/
theorem leasePicked (legible : before.Legible) (keyed : before.Keyed)
    (granted : leaseEnd now settings.lease.toSpan = .ok ends) (kind : ClaimKind) (fate : Fate)
    {w : World} (same : w.store = before) {row : SecondaryRow} {work : SecondaryWork}
    (member : row ∈ before.secondary) (due : row.isDue now.millis = true)
    (read : row.work = .ok work) :
    Course before now stale .secondary (step settings kind fate ⟨.picked now work, w, []⟩) := by
  rw [step_free settings _ fate rfl rfl]
  subst same
  obtain ⟨branch, key⟩ := Store.key_of_work read
  simp only [Claimer.advance, Fate.claimer, Stage.step]
  rcases Store.leaseCandidate_legible legible keyed granted member branch key with
    ⟨gone, _⟩ | ⟨_, leased, own, claim⟩
  · -- Another worker cannot have leased it: the store is the one that the row was picked from.
    rw [due] at gone
    cases gone
  · rw [claim]
    exact leaseSecondary legible granted w member due own

/-- Work that is held is given up, kept or completed, and its row stays taken. -/
theorem hold (kind : ClaimKind) (fate : Fate) {stage : Stage} {w : World} {work : ClaimedWork}
    (held : stage.work? = some work) (leased : w.store.LeasedTo work.key now.millis)
    (taken : before.Taken w.store now stale source work.key) :
    Course before now stale source (step settings kind fate ⟨stage, w, [work.key]⟩) := by
  unfold Errand.step
  split
  · exact .settled _ w work.key nofun taken
  · have unclaimed : ∀ after : Stage, stage.claims? after = none := by
      intro after
      simp only [Stage.claims?, held]
    simp only [unclaimed, Option.map_none, Option.toList_none, List.append_nil]
    rcases advance_cases settings kind fate stage w with ⟨_, _, late⟩ | ⟨answer, went⟩
    · rw [late]
      exact .settled _ w work.key nofun taken
    · rw [went]
      rcases Stage.step_held settings kind fate.choice answer w held with
        ⟨cause, ended, store⟩ | ⟨on, store⟩ | ⟨time, done⟩
      · rw [ended]
        exact .settled _ _ work.key nofun (store ▸ taken)
      · exact .holding _ _ work on (store ▸ leased) (store ▸ taken)
      · rw [done]
        refine .settled _ _ work.key nofun ⟨taken.due, fun other => ?_⟩
        rw [Store.dueKeys_complete leased, taken.left]

theorem step (legible : before.Legible) (keyed : before.Keyed)
    (granted : leaseEnd now settings.lease.toSpan = .ok ends)
    (cutoff : staleCutoff now settings.staleness.toSpan = .ok stale) (fate : Fate) {e : Errand}
    (clock : e.world.clock = now) (course : Course before now stale source e) :
    Course before now stale source (e.step settings (settings.kind source) fate) := by
  cases course with
  | begun w same =>
    rw [step_free settings _ fate rfl rfl]
    exact clock ▸ .timed w same
  | timed w same => exact claim legible granted cutoff fate w same
  | picked w same row work second member due read =>
    subst second
    exact leasePicked legible keyed granted _ fate same member due read
  | idle w same nothing =>
    rw [step_free settings _ fate rfl rfl]
    exact .idle w same nothing
  | holding stage w work held leased taken => exact hold _ fate held leased taken
  | settled result w key tried taken => exact .settled result w key tried taken

/-- An attempt that has ended had nothing to do, or it has taken one row. -/
theorem ended {e : Errand} {result : Except ClaimError WorkOutcome}
    (course : Course before now stale source e) (finished : e.stage = .ended result) :
    (e.attempt = .noWork ∧ e.claims = [] ∧ e.world.store = before ∧
      before.dueKeys now.millis stale.millis source = []) ∨
    ∃ key, e.attempt ≠ .noWork ∧ e.claims = [key] ∧
      before.Taken e.world.store now stale source key := by
  cases course with
  | begun | timed | picked => cases finished
  | idle w same nothing => exact .inl ⟨rfl, rfl, same, nothing⟩
  | holding stage w work held =>
    cases finished
    cases held
  | settled result w key tried taken => exact .inr ⟨key, tried, rfl, taken⟩

end Errand.Course

namespace Errand

variable {settings : ClaimerSettings} {now ends stale : Instant}

theorem frozen_step (kind : ClaimKind) (fate : Fate) {e : Errand} (frozen : e.world.Frozen now) :
    (e.step settings kind fate).world.Frozen now := by
  unfold step
  split
  · exact frozen
  · rcases advance_cases settings kind fate e.stage e.world with ⟨_, _, late⟩ | ⟨answer, went⟩
    · rw [late]
      exact frozen
    · rw [went]
      exact frozen.step settings kind fate.choice answer e.stage

section Outcome

variable (granted : leaseEnd now settings.lease.toSpan = .ok ends)
  (cutoff : staleCutoff now settings.staleness.toSpan = .ok stale)

include granted cutoff

theorem course_run {before : Store} (reached : before.Reached) (source : Source) (fate : Fate)
    (steps : Nat) {e : Errand} (frozen : e.world.Frozen now)
    (course : Course before now stale source e) :
    let last := e.run settings (settings.kind source) fate steps
    last.world.Frozen now ∧ Course before now stale source last := by
  induction steps generalizing e with
  | zero => exact ⟨frozen, course⟩
  | succ steps ih =>
    apply ih
    · exact frozen_step _ fate frozen
    · exact course.step reached.legible reached.keyed granted cutoff fate frozen.clock

/-- An attempt on a queue finds nothing due and changes nothing, or it takes one row that was due,
whether it then succeeds or fails. -/
theorem whole_cases (source : Source) (fate : Fate) {w : World} (frozen : w.Frozen now) :
    let e := whole settings source fate w
    e.world.Frozen now ∧
      ((e.attempt = .noWork ∧ e.claims = [] ∧ e.world.store = w.store ∧
        w.store.dueKeys now.millis stale.millis source = []) ∨
      ∃ key, e.attempt ≠ .noWork ∧ e.claims = [key] ∧
        w.store.Taken e.world.store now stale source key) := by
  have start : Course w.store now stale source (begin w) := .begun w rfl
  obtain ⟨kept, course⟩ :=
    course_run granted cutoff frozen.reached source fate Claimer.maxSteps frozen start
  obtain ⟨result, finished⟩ := whole_ended settings fate source w
  exact ⟨kept, course.ended finished⟩

end Outcome

end Errand

end LeaseQueue
