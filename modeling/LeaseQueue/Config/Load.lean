import LeaseQueue.Config.Reading
import LeaseQueue.Text.Utf8
/-! From a file to a configuration: the text is read, four fields may be overridden by environment
variables, and the result is checked. -/
namespace LeaseQueue

/-- The variables of an environment with their values as bytes. -/
abbrev Environment := List (String × List UInt8)

/-- The value of a variable. One that is not well-formed text counts as unset. -/
def Environment.text? (env : Environment) (name : String) : Option String :=
  (env.lookup name).bind Utf8.decode?

namespace Config

/-- Reads a truth value in any case of its letters. -/
def readSwitch (name value : String) : Except ConfigError Bool :=
  let word := String.ofList (value.toList.map Char.toLower)
  if ["true", "1", "yes", "on"].contains word then .ok true
  else if ["false", "0", "no", "off"].contains word then .ok false
  else .error (.invalidValue name ("expected boolean value, got '" ++ value ++ "'"))

def databaseUrlVariable : String := "DATABASE_URL"

def highContentionVariable : String := "DIFFCALC_HIGH_CONTENTION_MODE"

def diffServiceUrlVariable : String := "DIFFCALC_DIFF_SERVICE_URL"

def metricsAddressVariable : String := "DIFFCALC_PROM_PORT"

/-- Overrides fields by the variables that are set, one after the other. A malformed one stops the
rest; what was overridden before it stays. -/
def override (c : Config) (env : Environment) : Config × Except ConfigError Unit :=
  let c := { c with databaseUrl := (env.text? databaseUrlVariable).getD c.databaseUrl }
  let rest := fun (c : Config) =>
    ({ c with
        diffServiceUrl := (env.text? diffServiceUrlVariable).getD c.diffServiceUrl
        metricsAddress := (env.text? metricsAddressVariable).getD c.metricsAddress },
      Except.ok ())
  match env.text? highContentionVariable with
  | none => rest c
  | some value =>
    match readSwitch highContentionVariable value with
    | .error e => (c, .error e)
    | .ok highContention => rest { c with highContention }

/-- The longest lease in seconds: a day. -/
def maxLeaseSecs : Nat := 86400

/-- The largest staleness in seconds: thirty days. -/
def maxStalenessSecs : Nat := 2592000

/-- The longest back-off in seconds: an hour. -/
def maxSleepSecs : Nat := 3600

/-- What must hold of a configuration, in the order in which it is checked, with the words for what
does not. -/
def rules (c : Config) : List (Bool × String) :=
  let atMost := fun (name : String) (limit : Nat) =>
    name ++ " must be at most " ++ toString limit
  [(c.databaseUrl ≠ "", "database_url must be set"),
    (c.maxSqlConnections ≠ 0, "max_sql_connections must be greater than 0"),
    (c.diffServiceUrl ≠ "", "diff_service_url must be set"),
    (c.maxAttempts ≠ 0, "tx_max_attempts must be greater than 0"),
    (c.scheduler.leaseSecs ≠ 0, "lease_duration_secs must be greater than 0"),
    (c.scheduler.leaseSecs ≤ maxLeaseSecs, atMost "lease_duration_secs" maxLeaseSecs),
    (c.scheduler.stalenessSecs ≤ maxStalenessSecs,
      atMost "staleness_threshold_secs" maxStalenessSecs),
    (c.scheduler.sleepSecs ≠ 0, "sleep_interval_secs must be greater than 0"),
    (c.scheduler.sleepSecs ≤ maxSleepSecs, atMost "sleep_interval_secs" maxSleepSecs),
    ((Binary64.ofBits c.scheduler.secondaryProportion.toBits).isProportion,
      "secondary_proportion must be between 0.0 and 1.0")]

/-- The first rule that is broken. -/
def validate (c : Config) : Except ConfigError Unit :=
  match c.rules.find? fun (holds, _) => !holds with
  | none => .ok ()
  | some (_, reason) => .error (.validationFailed reason)

/-- The text of a file that was read, or why it could not be. -/
abbrev FileContents := Except String (List UInt8)

def fileText (file : FileContents) : Except ConfigError String :=
  match file with
  | .error reason => .error (.fileUnreadable reason)
  | .ok bytes =>
    match Utf8.decode? bytes with
    | none => .error (.fileUnreadable "stream did not contain valid UTF-8")
    | some text => .ok text

/-- The configuration of a file under an environment. -/
def load (file : FileContents) (env : Environment) : Except ConfigError Config := do
  let text ← fileText file
  let c ← ofJson text
  let (c, overridden) := c.override env
  overridden
  c.validate
  return c

def withDatabaseUrl (c : Config) (databaseUrl : String) : Config := { c with databaseUrl }

def withHighContention (c : Config) (highContention : Bool) : Config := { c with highContention }

end Config

end LeaseQueue
