import LeaseQueue.CommandLine.Run
import LeaseQueue.Engine.Http
import LeaseQueue.Poller.Worker
/-! The program: reads its command line, its environment and its configuration file, and polls until
it is stopped. It opens no connections, and keeps the tables of an embedded database in memory. -/
namespace LeaseQueue

/-- The words for a failure to read a file. -/
def fileFailure : IO.Error → String
  | .noFileOrDirectory .. => "No such file or directory (os error 2)"
  | e => toString e

def readBytes (path : String) : IO (Except String (List UInt8)) := do
  try return .ok (← IO.FS.readBinFile path).toList
  catch e => return .error (fileFailure e)

/-- Creates the file of a database if it is missing and may be written. -/
def touchDatabase (location : DatabaseLocation) : IO (Except DatabaseError Unit) := do
  match location.problem?, location.file? with
  | some problem, _ => return .error problem
  | none, none => return .ok ()
  | none, some path =>
    try
      let _ ← IO.FS.Handle.mk path (if location.readOnly then .read else .append)
      return .ok ()
    catch _ => return .error Folder.cannotOpen

def systemHost : Host IO where
  network := .unreachable
  read := readBytes
  openDatabase := touchDatabase
  converse _ session := return (session.run .scripted []).1

/-- The variables that the program looks at. -/
def readEnvironment : IO Environment := do
  let names := [CommandLine.configVariable, Config.databaseUrlVariable,
    Config.highContentionVariable, Config.diffServiceUrlVariable, Config.metricsAddressVariable]
  let found ← names.mapM fun name => return (name, ← IO.getEnv name)
  return found.filterMap fun (name, value) => value.map fun text => (name, Utf8.encode text)

/-- The engine of a configuration, which asks its service. -/
def serviceEngine (c : Config) : Engine := fun call w =>
  let (verdict, _) :=
    Http.calculate systemHost.network (fun _ => .silence) c.diffServiceUrl call
  (⟨⟨0⟩, verdict⟩, w)

partial def pollForever (c : Claimer) (p : Poller) (w : World) : IO Unit := do
  let now := (Instant.ofMillis? (← IO.monoMsNow)).getD .latest
  let w := { w with clock := now }
  match p.next now with
  | (some source, p) =>
    let (p, w) := p.work c source (← IO.rand 0 (Store.candidateCount - 1)) w
    pollForever c p w
  | (none, p) =>
    IO.sleep (UInt32.ofNat (p.settings.sleep.ticks Duration.timerTick))
    pollForever c p w

def startWorker (c : Config) : IO Unit := do
  let seed ← IO.rand 0 (Nat.pow 2 30)
  let poller := Poller.start c.poller (.ofSeed (UInt64.ofNat seed))
  let world : World := ⟨.empty, .empty c.groupingCacheSize, .epoch, ⟨0, 0⟩, []⟩
  pollForever ⟨c.claimer, serviceEngine c⟩ poller world

partial def waitForever : IO Unit := do
  IO.sleep 3600000
  waitForever

/-- The words for a command line without a command to run. -/
def CommandLine.UsageError.message : CommandLine.UsageError → String
  | .help | .helpForNothing => "Usage: diffcalculator [OPTIONS] <COMMAND>"
  | .version => "diffcalculator 0.1.0"
  | .missingCommand => "error: a command is needed"
  | .unknownCommand => "error: unknown command"
  | .unknownArgument => "error: unexpected argument"
  | .missingArgument => "error: the option --config is needed"
  | .invalidValue => "error: an option needs a value"
  | .needlessValue => "error: a flag takes no value"
  | .repeatedArgument => "error: an option was given twice"

end LeaseQueue

open LeaseQueue in
def main (words : List String) : IO UInt32 := do
  let env ← readEnvironment
  match CommandLine.parse words env with
  | .error e =>
    IO.eprintln e.message
    return UInt32.ofNat e.exitCode
  | .ok invocation =>
    match ← CommandLine.perform systemHost env invocation.command with
    | .done => return 0
    | .hanging => waitForever; return 0
    | .polling c _ => startWorker c; return 0
    | .failed chain =>
      IO.eprintln ("Error: " ++ String.intercalate ": " chain)
      return 1
