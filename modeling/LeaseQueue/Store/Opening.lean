import LeaseQueue.Config.Basic
import LeaseQueue.Files.Folder
import LeaseQueue.Net.Network
import LeaseQueue.Postgres.Location
import LeaseQueue.Postgres.Store
import LeaseQueue.Store.Backend
import LeaseQueue.Store.Location
/-! Opening the store that a configuration names. An embedded database gets its schema at once; a
server is only connected to. -/
namespace LeaseQueue

/-- What a worker finds around itself. -/
structure Host (m : Type → Type) where
  network : Network
  /-- Reads a file. -/
  read : String → m (Except String (List UInt8))
  /-- Opens an embedded database, creating its file if it may. -/
  openDatabase : DatabaseLocation → m (Except DatabaseError Unit)
  /-- Holds a session with the server of a URL. -/
  converse : String → Postgres.Session (Except StoreError Nat) → m (Except StoreError Nat)

/-- A store that was opened. -/
inductive OpenedStore where
  | embedded (location : DatabaseLocation) (retry : RetryPolicy)
  | server (url : String) (settings : Postgres.StoreSettings)

variable {m : Type → Type} [Monad m]

def connectionFailed (cause : DatabaseError) : StoreError := .connectionFailed cause.message

/-- A database that never changes does not take its schema. -/
def schemaRefused : DatabaseError :=
  .rejected (some "8") "(code: 8) attempt to write a readonly database"

def openEmbedded (host : Host m) (c : Config) : m (Except StoreError OpenedStore) := do
  match DatabaseLocation.ofUrl c.databaseUrl with
  | .error cause => return .error (connectionFailed cause)
  | .ok location =>
    match ← host.openDatabase location with
    | .error cause => return .error (connectionFailed cause)
    | .ok _ =>
      if location.immutable ∧ location.file?.isSome then return .error (.queryFailed schemaRefused)
      else return .ok (.embedded location (.ofMax c.maxAttempts))

def openServer (host : Host m) (c : Config) : Except StoreError OpenedStore :=
  (Postgres.connect host.network c.databaseUrl).map fun _ =>
    .server c.databaseUrl ⟨.ofMax c.maxAttempts, c.staleReadOffset⟩

def openStore (host : Host m) (c : Config) : m (Except StoreError OpenedStore) := do
  match Backend.ofUrl c.databaseUrl with
  | .error e => return .error e
  | .ok .postgres => return openServer host c
  | .ok .sqlite => openEmbedded host c

/-- A folder and a network as the surroundings of a worker. No server answers there. -/
def Folder.host (network : Network) : Host (StateM Folder) where
  network
  read path := do return (← get).read path
  openDatabase location := do
    match (← get).openDatabase location with
    | .ok folder => set folder; return .ok ()
    | .error cause => return .error cause
  converse _ session := do return (session.run .scripted []).1

end LeaseQueue
