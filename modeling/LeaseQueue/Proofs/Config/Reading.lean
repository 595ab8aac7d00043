import LeaseQueue.Config.Reading
import LeaseQueue.Proofs.Json.Members
/-! What the text of a configuration says. Each field has the value of its member, and the default
where the text has no such member; other members say nothing. -/
namespace LeaseQueue

open Json (Column Independent)

section Fields

variable {σ α : Type} {name : String} {reader : Json.Reader α} {get : σ → Option α}
  {put : σ → α → σ}

@[simp]
theorem fieldOf_name : (fieldOf name reader get put).name = name := rfl

@[simp]
theorem fieldOf_isSet : (fieldOf name reader get put).isSet = fun record => (get record).isSome := rfl

theorem fieldOf_read {record next : σ} {text rest : List Char}
    (read : (fieldOf name reader get put).read record text = .ok (next, rest)) :
    ∃ value, reader text = .ok (value, rest) ∧ next = put record value := by
  simp only [fieldOf] at read
  cases found : reader text with
  | error e => rw [found] at read; cases read
  | ok taken =>
    rw [found] at read
    cases read
    exact ⟨taken.1, rfl, rfl⟩

@[simp]
theorem fieldOf_keeps {β : Type} {view : σ → β}
    (untouched : ∀ record value, view (put record value) = view record) :
    (fieldOf name reader get put).Keeps view := by
  intro record text next rest read
  obtain ⟨value, _, rfl⟩ := fieldOf_read read
  exact untouched record value

@[simp]
theorem fieldOf_sets {column : σ → Option α}
    (held : ∀ record value, column (put record value) = some value) :
    (fieldOf name reader get put).Sets reader column := by
  intro record text next rest read
  obtain ⟨value, taken, rfl⟩ := fieldOf_read read
  exact ⟨value, taken, held record value⟩

end Fields

/-- A value is the one that a member of the name is read as, or the default where there is none. -/
def Settles {α : Type} (members : List (String × List Char)) (name : String)
    (reader : Json.Reader α) (default value : α) : Prop :=
  match members.lookup name with
  | some text => ∃ rest, reader text = .ok (value, rest)
  | none => value = default

theorem settles_getD {α : Type} {members : List (String × List Char)} {name : String}
    {reader : Json.Reader α} {value? : Option α} (holds : Json.Holds members name reader value?)
    (default : α) : Settles members name reader default (value?.getD default) := by
  unfold Json.Holds at holds
  unfold Settles
  cases found : members.lookup name with
  | none =>
    simp only [found] at holds
    simp [holds]
  | some text =>
    simp only [found] at holds
    obtain ⟨value, rest, reads, rfl⟩ := holds
    exact ⟨rest, reads⟩

namespace SchedulerDraft

theorem independent : Independent fields := by
  constructor
  · decide
  · simp [fields]

theorem columns :
    Column fields "staleness_threshold_secs" readWord64 (·.stalenessSecs) ∧
    Column fields "lease_duration_secs" readWord64 (·.leaseSecs) ∧
    Column fields "sleep_interval_secs" readWord64 (·.sleepSecs) ∧
    Column fields "secondary_proportion" Json.readReal (·.secondaryProportion) := by
  refine ⟨?_, ?_, ?_, ?_⟩ <;> constructor <;> simp [fields]

end SchedulerDraft

namespace ConfigDraft

theorem independent : Independent fields := by
  constructor
  · decide
  · simp [fields]

theorem columns :
    Column fields "database_url" Json.readString (·.databaseUrl) ∧
    Column fields "max_sql_connections" readWord32 (·.maxSqlConnections) ∧
    Column fields "high_contention_mode" Json.readBool (·.highContention) ∧
    Column fields "diff_service_url" Json.readString (·.diffServiceUrl) ∧
    Column fields "grouping_cache_size" readSize (·.groupingCacheSize) ∧
    Column fields "prom_port" Json.readString (·.metricsAddress) ∧
    Column fields "stale_read_offset_ms" (Json.readOption readWord64) (·.staleReadOffsetMs) ∧
    Column fields "tx_max_attempts" readWord32 (·.maxAttempts) ∧
    Column fields "scheduler" readScheduler (·.scheduler) := by
  refine ⟨?_, ?_, ?_, ?_, ?_, ?_, ?_, ?_, ?_⟩ <;> constructor <;> simp [fields]

end ConfigDraft

structure SchedulerConfig.DescribedBy (c : SchedulerConfig) (members : List (String × List Char)) :
    Prop where
  staleness : Settles members "staleness_threshold_secs" readWord64 60 c.stalenessSecs
  lease : Settles members "lease_duration_secs" readWord64 600 c.leaseSecs
  sleep : Settles members "sleep_interval_secs" readWord64 10 c.sleepSecs
  proportion : Settles members "secondary_proportion" Json.readReal 0.8 c.secondaryProportion

/-- The member of the scheduler is a record in turn. -/
structure Config.DescribedBy (c : Config) (members : List (String × List Char)) : Prop where
  databaseUrl : Settles members "database_url" Json.readString "" c.databaseUrl
  connections : Settles members "max_sql_connections" readWord32 20 c.maxSqlConnections
  highContention : Settles members "high_contention_mode" Json.readBool false c.highContention
  diffServiceUrl :
    Settles members "diff_service_url" Json.readString "http://localhost:8000" c.diffServiceUrl
  cacheSize : Settles members "grouping_cache_size" readSize 100000 c.groupingCacheSize
  metricsAddress : Settles members "prom_port" Json.readString ":20000" c.metricsAddress
  staleReadOffset :
    Settles members "stale_read_offset_ms" (Json.readOption readWord64) none c.staleReadOffsetMs
  attempts : Settles members "tx_max_attempts" readWord32 10 c.maxAttempts
  scheduler : match members.lookup "scheduler" with
    | some text => ∃ inner rest, Json.RecordText SchedulerDraft.fields text inner rest ∧
        c.scheduler.DescribedBy inner
    | none => c.scheduler.DescribedBy []

/-- A text is a record, with nothing but space around it, that describes the configuration. -/
def Config.WrittenIn (c : Config) (text : String) : Prop :=
  ∃ members rest, Json.RecordText ConfigDraft.fields text.toList members rest ∧
    Json.dropSpace rest = [] ∧ c.DescribedBy members

theorem readScheduler_described {c : SchedulerConfig} {text rest : List Char}
    (read : readScheduler text = .ok (c, rest)) :
    ∃ members, Json.RecordText SchedulerDraft.fields text members rest ∧ c.DescribedBy members := by
  obtain ⟨⟨draft, after⟩, taken, same⟩ := exists_of_map_eq_ok read
  cases same
  obtain ⟨members, record, filled⟩ := Json.record_of_readRecord SchedulerDraft.independent
    (by simp [SchedulerDraft.fields, SchedulerDraft.unset]) taken
  obtain ⟨staleness, lease, sleep, proportion⟩ := SchedulerDraft.columns
  refine ⟨members, record, ?_, ?_, ?_, ?_⟩
  · exact settles_getD (filled.holds staleness rfl) 60
  · exact settles_getD (filled.holds lease rfl) 600
  · exact settles_getD (filled.holds sleep rfl) 10
  · exact settles_getD (filled.holds proportion rfl) 0.8

theorem readConfig_described {c : Config} {text rest : List Char}
    (read : readConfig text = .ok (c, rest)) :
    ∃ members, Json.RecordText ConfigDraft.fields text members rest ∧ c.DescribedBy members := by
  obtain ⟨⟨draft, after⟩, taken, same⟩ := exists_of_map_eq_ok read
  cases same
  obtain ⟨members, record, filled⟩ := Json.record_of_readRecord ConfigDraft.independent
    (by simp [ConfigDraft.fields, ConfigDraft.unset]) taken
  obtain ⟨databaseUrl, connections, highContention, diffServiceUrl, cacheSize, metricsAddress,
    staleReadOffset, attempts, scheduler⟩ := ConfigDraft.columns
  refine ⟨members, record, ?_⟩
  constructor
  case databaseUrl => exact settles_getD (filled.holds databaseUrl rfl) _
  case connections => exact settles_getD (filled.holds connections rfl) _
  case highContention => exact settles_getD (filled.holds highContention rfl) _
  case diffServiceUrl => exact settles_getD (filled.holds diffServiceUrl rfl) _
  case cacheSize => exact settles_getD (filled.holds cacheSize rfl) _
  case metricsAddress => exact settles_getD (filled.holds metricsAddress rfl) _
  case staleReadOffset => exact settles_getD (filled.holds staleReadOffset rfl) _
  case attempts => exact settles_getD (filled.holds attempts rfl) _
  case scheduler =>
    have holds := filled.holds scheduler rfl
    unfold Json.Holds at holds
    cases found : members.lookup "scheduler" with
    | none =>
      simp only [found] at holds
      simp only [ConfigDraft.complete, holds]
      exact ⟨rfl, rfl, rfl, rfl⟩
    | some text =>
      simp only [found] at holds
      obtain ⟨value, rest, reads, held⟩ := holds
      obtain ⟨inner, record, described⟩ := readScheduler_described reads
      refine ⟨inner, rest, record, ?_⟩
      simp only [ConfigDraft.complete, held]
      exact described

theorem Config.writtenIn_of_ofJson {c : Config} {text : String}
    (parsed : Config.ofJson text = .ok c) : c.WrittenIn text := by
  unfold Config.ofJson at parsed
  cases whole : Json.readAll readConfig text with
  | error e => rw [whole] at parsed; cases parsed
  | ok read =>
    rw [whole] at parsed
    cases parsed
    obtain ⟨⟨value, rest⟩, reads, whole⟩ := exists_of_bind_eq_ok whole
    cases left : Json.dropSpace rest with
    | nil =>
      simp only [left] at whole
      cases whole
      obtain ⟨members, record, described⟩ := readConfig_described reads
      exact ⟨members, rest, record, left, described⟩
    | cons c more =>
      simp only [left] at whole
      cases whole

end LeaseQueue
