import LeaseQueue.CommandLine.Parser
import LeaseQueue.Postgres.Migrate
import LeaseQueue.Store.Opening
/-! What the commands do up to the point where they poll for work, and the chain of causes that is
reported when they fail. -/
namespace LeaseQueue

/-- What lies behind a failure of a database, the outermost cause first. -/
def DatabaseError.causes : DatabaseError → List String
  | .rejected _ reason => [reason]
  | .columnUnreadable _ reason => [reason]
  | .misconfigured reason => [reason]
  | .unreachable reason => [reason]
  | _ => []

def MigrationError.causes : MigrationError → List String
  | .database cause => cause.message :: cause.causes
  | _ => []

def StoreError.causes : StoreError → List String
  | .queryFailed cause => cause.message :: cause.causes
  | .retriesExhausted _ _ cause => cause.message :: cause.causes
  | .migration cause => cause.message :: cause.causes
  | _ => []

/-- A failure and what lies behind it, the outermost first. -/
def StoreError.chain (e : StoreError) : List String := e.message :: e.causes

def ConfigError.chain (e : ConfigError) : List String :=
  e.message ::
    match e with
    | .unreadableText cause => [cause.message]
    | .fileUnreadable reason => [reason]
    | _ => []

namespace CommandLine

/-- How a command goes on or ends. -/
inductive Ending where
  | done
  /-- Waits for a shutdown and does nothing else. -/
  | hanging
  /-- Polls for work until a shutdown. -/
  | polling (config : Config) (store : OpenedStore)
  | failed (chain : List String)

variable {m : Type → Type} [Monad m]

def loadConfig (host : Host m) (env : Environment) (path : String) :
    m (Except (List String) Config) := do
  let file ← host.read path
  return (Config.load file env).mapError fun e => ("Failed to load config from " ++ path) :: e.chain

/-- Opens the store and polls. -/
def startPolling (host : Host m) (c : Config) : m Ending := do
  match ← openStore host c with
  | .ok store => return .polling c store
  | .error e => return .failed ("Failed to open work store" :: e.chain)

/-- Applies the schema: to an embedded database by opening it, to a server by its migrations. -/
def applySchema (host : Host m) (c : Config) : m Ending := do
  match Backend.ofUrl c.databaseUrl with
  | .error e => return .failed e.chain
  | .ok .sqlite =>
    match ← openEmbedded host c with
    | .ok _ => return .done
    | .error e => return .failed e.chain
  | .ok .postgres =>
    match openServer host c with
    | .error e => return .failed ("Failed to connect to database" :: e.chain)
    | .ok _ =>
      let migrating : Postgres.Session (Except StoreError Nat) :=
        (Postgres.Migrating.applyPending Schema.migrations).run.bind fun applied =>
          .ended (applied.mapError .migration)
      match ← host.converse c.databaseUrl migrating with
      | .ok _ => return .done
      | .error e => return .failed e.chain

def perform (host : Host m) (env : Environment) (command : Command) : m Ending := do
  match command with
  | .run _ true => return .hanging
  | .run path false =>
    match ← loadConfig host env path with
    | .error chain => return .failed chain
    | .ok c => startPolling host c
  | .migrate path =>
    match ← loadConfig host env path with
    | .error chain => return .failed chain
    | .ok c => applySchema host c

end CommandLine

end LeaseQueue
