import LeaseQueue.Config.Basic
/-! Reading a configuration from JSON text. Missing fields take their defaults; unknown ones are
passed over. -/
namespace LeaseQueue

/-- The fields of a scheduler's configuration that a text sets. -/
structure SchedulerDraft where
  stalenessSecs : Option Nat
  leaseSecs : Option Nat
  sleepSecs : Option Nat
  secondaryProportion : Option Float

/-- The fields of a configuration that a text sets. -/
structure ConfigDraft where
  databaseUrl : Option String
  maxSqlConnections : Option Nat
  highContention : Option Bool
  diffServiceUrl : Option String
  groupingCacheSize : Option Nat
  metricsAddress : Option String
  staleReadOffsetMs : Option (Option Nat)
  maxAttempts : Option Nat
  scheduler : Option SchedulerConfig

/-- A field that is read by `reader` and stored by `put`. -/
def fieldOf {σ α : Type} (name : String) (reader : Json.Reader α) (get : σ → Option α)
    (put : σ → α → σ) : Json.Field σ :=
  { name
    isSet := fun draft => (get draft).isSome
    read := fun draft text => (reader text).map fun (value, rest) => (put draft value, rest) }

def readWord32 : Json.Reader Nat := Json.readNat "u32" 4294967295

def readWord64 : Json.Reader Nat := Json.readNat "u64" Json.maxWord

def readSize : Json.Reader Nat := Json.readNat "usize" Json.maxWord

namespace SchedulerDraft

def unset : SchedulerDraft := ⟨none, none, none, none⟩

def fields : List (Json.Field SchedulerDraft) :=
  [fieldOf "staleness_threshold_secs" readWord64 (·.stalenessSecs)
      fun d value => { d with stalenessSecs := some value },
    fieldOf "lease_duration_secs" readWord64 (·.leaseSecs)
      fun d value => { d with leaseSecs := some value },
    fieldOf "sleep_interval_secs" readWord64 (·.sleepSecs)
      fun d value => { d with sleepSecs := some value },
    fieldOf "secondary_proportion" Json.readReal (·.secondaryProportion)
      fun d value => { d with secondaryProportion := some value }]

/-- The configuration with defaults for what is unset. -/
def complete (d : SchedulerDraft) : SchedulerConfig :=
  let defaults := SchedulerConfig.default
  { stalenessSecs := d.stalenessSecs.getD defaults.stalenessSecs
    leaseSecs := d.leaseSecs.getD defaults.leaseSecs
    sleepSecs := d.sleepSecs.getD defaults.sleepSecs
    secondaryProportion := d.secondaryProportion.getD defaults.secondaryProportion }

end SchedulerDraft

def readScheduler : Json.Reader SchedulerConfig := fun text =>
  (Json.readRecord "SchedulerConfig" SchedulerDraft.fields SchedulerDraft.unset text).map
    fun (draft, rest) => (draft.complete, rest)

namespace ConfigDraft

def unset : ConfigDraft := ⟨none, none, none, none, none, none, none, none, none⟩

def fields : List (Json.Field ConfigDraft) :=
  [fieldOf "database_url" Json.readString (·.databaseUrl)
      fun d value => { d with databaseUrl := some value },
    fieldOf "max_sql_connections" readWord32 (·.maxSqlConnections)
      fun d value => { d with maxSqlConnections := some value },
    fieldOf "high_contention_mode" Json.readBool (·.highContention)
      fun d value => { d with highContention := some value },
    fieldOf "diff_service_url" Json.readString (·.diffServiceUrl)
      fun d value => { d with diffServiceUrl := some value },
    fieldOf "grouping_cache_size" readSize (·.groupingCacheSize)
      fun d value => { d with groupingCacheSize := some value },
    fieldOf "prom_port" Json.readString (·.metricsAddress)
      fun d value => { d with metricsAddress := some value },
    fieldOf "stale_read_offset_ms" (Json.readOption readWord64) (·.staleReadOffsetMs)
      fun d value => { d with staleReadOffsetMs := some value },
    fieldOf "tx_max_attempts" readWord32 (·.maxAttempts)
      fun d value => { d with maxAttempts := some value },
    fieldOf "scheduler" readScheduler (·.scheduler)
      fun d value => { d with scheduler := some value }]

/-- The configuration with defaults for what is unset. -/
def complete (d : ConfigDraft) : Config :=
  let defaults := Config.default
  { databaseUrl := d.databaseUrl.getD defaults.databaseUrl
    maxSqlConnections := d.maxSqlConnections.getD defaults.maxSqlConnections
    highContention := d.highContention.getD defaults.highContention
    diffServiceUrl := d.diffServiceUrl.getD defaults.diffServiceUrl
    groupingCacheSize := d.groupingCacheSize.getD defaults.groupingCacheSize
    metricsAddress := d.metricsAddress.getD defaults.metricsAddress
    staleReadOffsetMs := d.staleReadOffsetMs.getD defaults.staleReadOffsetMs
    maxAttempts := d.maxAttempts.getD defaults.maxAttempts
    scheduler := d.scheduler.getD defaults.scheduler }

end ConfigDraft

def readConfig : Json.Reader Config := fun text =>
  (Json.readRecord "DiffCalculatorConfig" ConfigDraft.fields ConfigDraft.unset text).map
    fun (draft, rest) => (draft.complete, rest)

/-- The configuration that a whole text describes. -/
def Config.ofJson (text : String) : Except ConfigError Config :=
  (Json.readAll readConfig text).mapError .unreadableText

end LeaseQueue
