import LeaseQueue.Config.Load
import LeaseQueue.Proofs.Config.Reading
import LeaseQueue.Proofs.Poller.Draws
import LeaseQueue.Proofs.Store.Candidates
import LeaseQueue.Proofs.Work.Steps
/-! A configuration that was loaded is its file with the overrides of the environment, and within
bounds. A worker that follows it stays inside the calendar and rounds none of its lengths, except in
the first thirty days and on the last day. -/
namespace LeaseQueue

theorem Duration.toSpan_ofSeconds {seconds : Nat} (fits : seconds ≤ 2592000) :
    (Duration.ofSeconds seconds).toSpan = .ofSeconds seconds := by
  unfold toSpan ofSeconds maxSpanMillis Span.ofSeconds Span.ofMillis
  simp only [Span.mk.injEq]
  omega

namespace Stage

/-- The store has not failed the unit. -/
def Answered (stage : Stage) : Prop := ∀ cause, stage ≠ .ended (.error (.store cause))

theorem answered_ofClaim (work? : Option SecondaryWork) : (ofClaim (.ok work?)).Answered := by
  intro cause same
  cases work? with
  | none => cases same
  | some work =>
    rw [ofClaim] at same
    split at same <;> cases same

variable {settings : ClaimerSettings} {w : World} {now stale ends : Instant}

theorem answered_timed (reached : w.store.Reached)
    (cutoff : staleCutoff now settings.staleness.toSpan = .ok stale)
    (granted : leaseEnd now settings.lease.toSpan = .ok ends) (kind : ClaimKind) (choice : Nat)
    (answer : Except DiffError Unit) :
    (Stage.step settings kind choice answer w (.timed now)).1.Answered := by
  cases kind with
  | primary =>
    rcases Store.claimPrimary_legible reached.legible cutoff granted with
      ⟨_, claimed⟩ | ⟨_, _, _, grouping, _, claimed⟩
    · simp only [step, claim, claimed]
      intro cause same
      cases same
    · simp only [step, claim, claimed]
      intro cause same
      cases same
  | secondary mode =>
    cases mode with
    | low =>
      rcases Store.claimOldest_legible reached.legible granted with
        ⟨_, claimed⟩ | ⟨_, _, _, work, _, claimed⟩
      · simp only [step, claim, claimed]
        exact answered_ofClaim none
      · simp only [step, claim, claimed]
        exact answered_ofClaim (some work)
    | high =>
      obtain ⟨works, read, _⟩ := Store.pick_legible reached.legible now choice
      simp only [step, claim, read, ofCandidates]
      intro cause same
      split at same <;> cases same

theorem answered_picked (reached : w.store.Reached)
    (granted : leaseEnd now settings.lease.toSpan = .ok ends) (kind : ClaimKind) (choice : Nat)
    (answer : Except DiffError Unit) (work : SecondaryWork) :
    (Stage.step settings kind choice answer w (.picked now work)).1.Answered := by
  rcases reached.leaseCandidate_cases granted work with
    ⟨_, _, _, _, _, won, _, leased⟩ | ⟨_, leased⟩
  · simp only [step, leased]
    exact answered_ofClaim (some won)
  · simp only [step, leased]
    exact answered_ofClaim none

end Stage

namespace Config

/-- A configuration after the variables of an environment have replaced fields of the parsed one. -/
structure Overrides (env : Environment) (parsed c : Config) : Prop where
  databaseUrl : c.databaseUrl = (env.text? "DATABASE_URL").getD parsed.databaseUrl
  highContention : match env.text? "DIFFCALC_HIGH_CONTENTION_MODE" with
    | some value => readSwitch "DIFFCALC_HIGH_CONTENTION_MODE" value = .ok c.highContention
    | none => c.highContention = parsed.highContention
  diffServiceUrl :
    c.diffServiceUrl = (env.text? "DIFFCALC_DIFF_SERVICE_URL").getD parsed.diffServiceUrl
  metricsAddress : c.metricsAddress = (env.text? "DIFFCALC_PROM_PORT").getD parsed.metricsAddress
  others : c = { parsed with
    databaseUrl := c.databaseUrl
    highContention := c.highContention
    diffServiceUrl := c.diffServiceUrl
    metricsAddress := c.metricsAddress }

structure Valid (c : Config) : Prop where
  databaseUrl : c.databaseUrl ≠ ""
  connections : 0 < c.maxSqlConnections
  diffServiceUrl : c.diffServiceUrl ≠ ""
  attempts : 0 < c.maxAttempts
  lease : 0 < c.scheduler.leaseSecs ∧ c.scheduler.leaseSecs ≤ 86400
  staleness : c.scheduler.stalenessSecs ≤ 2592000
  sleep : 0 < c.scheduler.sleepSecs ∧ c.scheduler.sleepSecs ≤ 3600
  proportion : let p := Binary64.ofBits c.scheduler.secondaryProportion.toBits
    p.AtLeast 0 ∧ p.AtMost 1

theorem validate_eq_ok_iff {c : Config} : c.validate = .ok () ↔ c.Valid := by
  have passes : c.validate = .ok () ↔ ∀ rule ∈ c.rules, rule.1 = true := by
    unfold validate
    cases broken : c.rules.find? fun rule => !rule.1 with
    | none => simpa using broken
    | some rule =>
      have member := List.mem_of_find?_eq_some broken
      have fails := List.find?_some broken
      simp only [reduceCtorEq, false_iff]
      intro holds
      rw [holds rule member] at fails
      cases fails
  rw [passes]
  simp only [rules, List.forall_mem_cons, decide_eq_true_eq, Binary64.isProportion_iff]
  constructor
  · rintro ⟨url, connections, service, attempts, lease, day, month, sleep, hour, proportion, _⟩
    exact ⟨url, Nat.pos_of_ne_zero connections, service, Nat.pos_of_ne_zero attempts,
      ⟨Nat.pos_of_ne_zero lease, day⟩, month, ⟨Nat.pos_of_ne_zero sleep, hour⟩, proportion⟩
  · intro valid
    exact ⟨valid.databaseUrl, valid.connections.ne', valid.diffServiceUrl, valid.attempts.ne',
      valid.lease.1.ne', valid.lease.2, valid.staleness, valid.sleep.1.ne', valid.sleep.2,
      valid.proportion, List.forall_mem_nil _⟩

/-- The parsed configuration with the texts of an environment and a truth value put in. -/
def overridden (parsed : Config) (env : Environment) (switch : Bool) : Config :=
  { parsed with
    databaseUrl := (env.text? databaseUrlVariable).getD parsed.databaseUrl
    highContention := switch
    diffServiceUrl := (env.text? diffServiceUrlVariable).getD parsed.diffServiceUrl
    metricsAddress := (env.text? metricsAddressVariable).getD parsed.metricsAddress }

section Override

variable {env : Environment} {parsed c : Config}

theorem override_unset (found : env.text? highContentionVariable = none) :
    parsed.override env = (parsed.overridden env parsed.highContention, .ok ()) := by
  simp only [override, found]
  rfl

theorem override_set {value : String} {switch : Bool}
    (found : env.text? highContentionVariable = some value)
    (read : readSwitch highContentionVariable value = .ok switch) :
    parsed.override env = (parsed.overridden env switch, .ok ()) := by
  simp only [override, found, read]
  rfl

theorem override_malformed {value : String} {e : ConfigError}
    (found : env.text? highContentionVariable = some value)
    (read : readSwitch highContentionVariable value = .error e) :
    (parsed.override env).2 = .error e := by
  simp only [override, found, read]

theorem Overrides.eq (overrides : Overrides env parsed c) :
    c = parsed.overridden env c.highContention := by
  have others := overrides.others
  rw [overrides.databaseUrl, overrides.diffServiceUrl, overrides.metricsAddress] at others
  exact others

theorem overrides_unset (found : env.text? highContentionVariable = none) :
    Overrides env parsed c ↔ c = parsed.overridden env parsed.highContention := by
  constructor
  · intro overrides
    have switch := overrides.highContention
    rw [show env.text? "DIFFCALC_HIGH_CONTENTION_MODE" = none from found] at switch
    rw [overrides.eq, switch]
  · rintro rfl
    refine ⟨rfl, ?_, rfl, rfl, rfl⟩
    rw [show env.text? "DIFFCALC_HIGH_CONTENTION_MODE" = none from found]
    rfl

theorem overrides_set {value : String} (found : env.text? highContentionVariable = some value) :
    Overrides env parsed c ↔ readSwitch highContentionVariable value = .ok c.highContention ∧
      c = parsed.overridden env c.highContention := by
  constructor
  · intro overrides
    have switch := overrides.highContention
    rw [show env.text? "DIFFCALC_HIGH_CONTENTION_MODE" = some value from found] at switch
    exact ⟨switch, overrides.eq⟩
  · rintro ⟨read, same⟩
    generalize c.highContention = switch at read same
    subst same
    refine ⟨rfl, ?_, rfl, rfl, rfl⟩
    rw [show env.text? "DIFFCALC_HIGH_CONTENTION_MODE" = some value from found]
    exact read

theorem override_eq_ok_iff : parsed.override env = (c, .ok ()) ↔ Overrides env parsed c := by
  cases found : env.text? highContentionVariable with
  | none =>
    rw [override_unset found, overrides_unset found]
    simp [eq_comm]
  | some value =>
    rw [overrides_set found]
    cases read : readSwitch highContentionVariable value with
    -- A text that is no truth value leaves nothing that either side could hold of.
    | error e =>
      have failed : (parsed.override env).2 = .error e := override_malformed found read
      simp [Prod.ext_iff, failed]
    | ok switch =>
      rw [override_set found read]
      constructor
      · intro same
        obtain rfl := (Prod.mk.inj same).1
        exact ⟨rfl, rfl⟩
      · rintro ⟨own, same⟩
        rw [same, Except.ok.inj own]

end Override

theorem load_eq_ok_iff {file : FileContents} {env : Environment} {c : Config} :
    load file env = .ok c ↔ ∃ text parsed, fileText file = .ok text ∧ ofJson text = .ok parsed ∧
      Overrides env parsed c ∧ c.Valid := by
  constructor
  · intro loaded
    obtain ⟨text, readable, loaded⟩ := exists_of_bind_eq_ok loaded
    obtain ⟨parsed, parses, loaded⟩ := exists_of_bind_eq_ok loaded
    obtain ⟨⟨⟩, overridden, loaded⟩ := exists_of_bind_eq_ok loaded
    obtain ⟨⟨⟩, valid, loaded⟩ := exists_of_bind_eq_ok loaded
    cases loaded
    exact ⟨text, parsed, readable, parses,
      override_eq_ok_iff.mp (Prod.ext rfl overridden), validate_eq_ok_iff.mp valid⟩
  · rintro ⟨text, parsed, readable, parses, overrides, valid⟩
    have overridden := override_eq_ok_iff.mpr overrides
    simp only [load, readable, parses, overridden, bind, Except.bind, validate_eq_ok_iff.mpr valid]
    rfl

/-- What a worker of a configuration relies on when the clock shows a certain time. -/
structure SafeAt (c : Config) (now : Instant) : Prop where
  staleness : c.claimer.staleness.toSpan.nanos = c.claimer.staleness.nanos
  lease : c.claimer.lease.toSpan.nanos = c.claimer.lease.nanos
  sleep : c.poller.sleep.toSpan.nanos = c.poller.sleep.nanos
  cutoff : ∃ cutoff, staleCutoff now c.claimer.staleness.toSpan = .ok cutoff ∧
    cutoff.nanos = now.nanos - c.scheduler.stalenessSecs * 1000000000
  ends : ∃ ends, leaseEnd now c.claimer.lease.toSpan = .ok ends ∧
    ends.nanos = now.nanos + c.scheduler.leaseSecs * 1000000000 ∧
    now.nanos < ends.millis * 1000000
  answered : ∀ w : World, w.store.Reached → ∀ kind choice answer,
    (Stage.step c.claimer kind choice answer w (.timed now)).1.Answered ∧
    ∀ work, (Stage.step c.claimer kind choice answer w (.picked now work)).1.Answered
  deadline : 0 < c.claimer.lease.toSpan.nanos ∧
    ∀ u : UnitOfWork, u.settings = c.claimer → ∀ clock : Instant,
      u.overdue clock = true ↔ u.started.nanos + c.claimer.lease.toSpan.nanos < clock.nanos
  backOff : ∀ p : Poller, p.settings = c.poller →
    (p.backOff now).nanos = now.nanos + c.scheduler.sleepSecs * 1000000000 ∧ now < p.backOff now

theorem Valid.safeAt {c : Config} (valid : c.Valid) {now : Instant}
    (after : earliestNanos + 30 * 86400 * 1000000000 ≤ now.nanos)
    (before : now.nanos ≤ latestNanos - 86400 * 1000000000) : c.SafeAt now := by
  obtain ⟨_, day⟩ := valid.lease
  obtain ⟨_, hour⟩ := valid.sleep
  have month := valid.staleness
  -- All three lengths are far shorter than the longest span, so their conversions change nothing.
  have staleness : c.claimer.staleness.toSpan = .ofSeconds c.scheduler.stalenessSecs :=
    Duration.toSpan_ofSeconds month
  have lease : c.claimer.lease.toSpan = .ofSeconds c.scheduler.leaseSecs :=
    Duration.toSpan_ofSeconds (by omega)
  have sleep : c.poller.sleep.toSpan = .ofSeconds c.scheduler.sleepSecs :=
    Duration.toSpan_ofSeconds (by omega)
  obtain ⟨cutoff, difference⟩ : ∃ cutoff : Instant,
      cutoff.nanos = now.nanos - c.scheduler.stalenessSecs * 1000000000 :=
    ⟨⟨_, by omega, by have := now.le_latest; omega⟩, rfl⟩
  obtain ⟨ends, sum⟩ : ∃ ends : Instant,
      ends.nanos = now.nanos + c.scheduler.leaseSecs * 1000000000 :=
    ⟨⟨_, by have := now.earliest_le; omega, by omega⟩, rfl⟩
  obtain ⟨later, rest⟩ : ∃ later : Instant,
      later.nanos = now.nanos + c.scheduler.sleepSecs * 1000000000 :=
    ⟨⟨_, by have := now.earliest_le; omega, by omega⟩, rfl⟩
  have found : staleCutoff now c.claimer.staleness.toSpan = .ok cutoff :=
    staleCutoff_eq_ok_iff.mpr (staleness ▸ difference)
  have granted : leaseEnd now c.claimer.lease.toSpan = .ok ends :=
    leaseEnd_eq_ok_iff.mpr (lease ▸ sum)
  constructor
  case staleness => rw [staleness]; rfl
  case lease => rw [lease]; rfl
  case sleep => rw [sleep]; rfl
  case cutoff => exact ⟨cutoff, found, difference⟩
  case ends =>
    -- The stored end is cut to the millisecond, by less than the second that a lease has at least.
    refine ⟨ends, granted, sum, ?_⟩
    unfold Instant.millis
    omega
  case answered =>
    intro w reached kind choice answer
    exact ⟨Stage.answered_timed reached found granted kind choice answer,
      Stage.answered_picked reached granted kind choice answer⟩
  case deadline =>
    refine ⟨?_, ?_⟩
    · rw [lease, Span.ofSeconds]
      simp only
      omega
    · intro u settings clock
      have exact : c.claimer.lease.toSpan.nanos = c.claimer.lease.nanos := by
        rw [lease]
        rfl
      rw [UnitOfWork.overdue, settings, decide_eq_true_eq, exact]
      omega
  case backOff =>
    intro p settings
    have sum : now.add? (.ofSeconds c.scheduler.sleepSecs) = some later :=
      Instant.add?_eq_some_iff.mpr rest
    have added : p.backOff now = later := by
      unfold Poller.backOff Instant.addOrLatest
      rw [settings, sleep, sum, Option.getD_some]
    rw [added, Instant.lt_iff_nanos, rest]
    omega

/-- The longest lease, in a file that sets nothing else of importance. -/
def dayLeaseFile : FileContents := .ok (Utf8.encode
  "\x7b\"scheduler\": \x7b\"lease_duration_secs\": 86400\x7d, \"prom_port\": \":1\"\x7d")

def urlEnvironment : Environment :=
  [("DATABASE_URL", Utf8.encode "sqlite://queue"), ("DIFFCALC_PROM_PORT", [0xff]),
    ("DIFFCALC_HIGH_CONTENTION_MODE", Utf8.encode "Yes")]

end Config

end LeaseQueue
