import LeaseQueue.Json.Reader
import LeaseQueue.Poller.Basic
import LeaseQueue.Work.Unit
/-! The configuration of a worker, its defaults and what it means for the parts of the worker. -/
namespace LeaseQueue

/-- Timing of the loop that claims and computes. -/
structure SchedulerConfig where
  /-- Primary-branch groupings calculated more recently than this are left alone. -/
  stalenessSecs : Nat
  /-- How long a claimed row stays leased, and the deadline of a unit of work. -/
  leaseSecs : Nat
  /-- How long a queue is left alone after it had no work. -/
  sleepSecs : Nat
  /-- The chance of review-branch work when both queues are ready. -/
  secondaryProportion : Float

structure Config where
  databaseUrl : String
  maxSqlConnections : Nat
  highContention : Bool
  diffServiceUrl : String
  groupingCacheSize : Nat
  /-- The address that metrics are served on. -/
  metricsAddress : String
  /-- How far in the past candidates of random claims are read. -/
  staleReadOffsetMs : Option Nat
  /-- How often a transaction may be run. -/
  maxAttempts : Nat
  scheduler : SchedulerConfig

/-- Why there is no configuration. -/
inductive ConfigError where
  | invalidValue (name reason : String)
  | validationFailed (reason : String)
  | unreadableText (cause : Json.Problem)
  | fileUnreadable (reason : String)

def ConfigError.message : ConfigError → String
  | .invalidValue name reason => "Invalid value for " ++ name ++ ": " ++ reason
  | .validationFailed reason => "Configuration validation failed: " ++ reason
  | .unreadableText cause => "Failed to parse configuration: " ++ cause.message
  | .fileUnreadable reason => "IO error: " ++ reason

def SchedulerConfig.default : SchedulerConfig :=
  { stalenessSecs := 60, leaseSecs := 600, sleepSecs := 10, secondaryProportion := 0.8 }

namespace Config

def default : Config :=
  { databaseUrl := ""
    maxSqlConnections := 20
    highContention := false
    diffServiceUrl := "http://localhost:8000"
    groupingCacheSize := GroupingCache.defaultCapacity
    metricsAddress := ":20000"
    staleReadOffsetMs := none
    maxAttempts := 10
    scheduler := .default }

def staleReadOffset (c : Config) : Option Duration := c.staleReadOffsetMs.map Duration.ofMillis

/-- Timing and strategy of the units of work. -/
def claimer (c : Config) : ClaimerSettings :=
  { staleness := .ofSeconds c.scheduler.stalenessSecs
    lease := .ofSeconds c.scheduler.leaseSecs
    mode := if c.highContention then .high else .low }

/-- Back-off and choice of the polling loop. -/
def poller (c : Config) : PollerSettings :=
  { sleep := .ofSeconds c.scheduler.sleepSecs
    secondaryProportion := .ofBits c.scheduler.secondaryProportion.toBits }

end Config

end LeaseQueue
