import LeaseQueue.Time.Written
/-! What can go wrong between this program and its database, from one statement up to a whole
operation of the work store. -/
namespace LeaseQueue

/-- The failure of a single statement or connection. -/
inductive DatabaseError where
  /-- The database refused the statement, mostly with a code. -/
  | rejected (code : Option String) (reason : String)
  | rowNotFound
  | poolTimedOut
  | poolClosed
  | workerCrashed
  | unexpectedData (reason : String)
  | columnNotFound (name : String)
  | columnUnreadable (column : String) (reason : String)
  | misconfigured (reason : String)
  | unreachable (reason : String)
deriving DecidableEq

namespace DatabaseError

def message : DatabaseError → String
  | .rejected _ reason => "error returned from database: " ++ reason
  | .rowNotFound => "no rows returned by a query that expected to return at least one row"
  | .poolTimedOut => "pool timed out while waiting for an open connection"
  | .poolClosed => "attempted to acquire a connection on a closed pool"
  | .workerCrashed => "attempted to communicate with a crashed background worker"
  | .unexpectedData reason => "encountered unexpected or invalid data: " ++ reason
  | .columnNotFound name => "no column found for name: " ++ name
  | .columnUnreadable column reason =>
    "error occurred while decoding column " ++ column ++ ": " ++ reason
  | .misconfigured reason => "error with configuration: " ++ reason
  | .unreachable reason => "error communicating with database: " ++ reason

/-- Codes of a conflict with another worker: serialization failures, deadlocks, and a busy or
locked database file. -/
def conflictCodes : List String := ["40001", "40P01", "5", "517", "6"]

/-- Whether the transaction may succeed when it is run again. -/
def isConflict : DatabaseError → Bool
  | .rejected (some code) _ => conflictCodes.contains code
  | _ => false

end DatabaseError

/-- The failure of a schema migration. -/
inductive MigrationError where
  | database (cause : DatabaseError)
  | statementFailed (name : String) (cause : DatabaseError)
  | checksumMismatch (name recorded expected : String)
deriving DecidableEq

def MigrationError.message : MigrationError → String
  | .database cause => "Database error: " ++ cause.message
  | .statementFailed name cause => "Migration failed: " ++ name ++ ": " ++ cause.message
  | .checksumMismatch name recorded expected =>
    "Migration " ++ name ++ " was applied with checksum " ++ recorded ++ ", expected " ++ expected

/-- The failure of an operation of the work store. -/
inductive StoreError where
  | connectionFailed (reason : String)
  | queryFailed (cause : DatabaseError)
  | retriesExhausted (operation : String) (attempts : Nat) (cause : DatabaseError)
  | invalidRow (reason : String)
  | migration (cause : MigrationError)
  | unsupportedUrl (url : String)
  | timestampOutOfRange (sum : String)
deriving DecidableEq

namespace StoreError

def message : StoreError → String
  | .connectionFailed reason => "Connection failed: " ++ reason
  | .queryFailed cause => "Query failed: " ++ cause.message
  | .retriesExhausted operation attempts cause =>
    operation ++ " gave up after " ++ toString attempts ++ " attempts: " ++ cause.message
  | .invalidRow reason => "Invalid row: " ++ reason
  | .migration cause => "Migration error: " ++ cause.message
  | .unsupportedUrl url => "Unsupported database URL: " ++ url
  | .timestampOutOfRange sum => "Timestamp out of range: " ++ sum

end StoreError

/-- The end of a lease that begins at `now`. -/
def leaseEnd (now : Instant) (lease : Span) : Except StoreError Instant :=
  match now.add? lease with
  | some ends => .ok ends
  | none => .error (.timestampOutOfRange (now.written ++ " + lease of " ++ lease.written))

/-- The moment before which a calculation counts as stale at `now`. -/
def staleCutoff (now : Instant) (staleness : Span) : Except StoreError Instant :=
  match now.sub? staleness with
  | some cutoff => .ok cutoff
  | none =>
    .error (.timestampOutOfRange (now.written ++ " - staleness of " ++ staleness.written))

end LeaseQueue
