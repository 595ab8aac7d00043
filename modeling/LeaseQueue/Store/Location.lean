import LeaseQueue.Net.Percent
import LeaseQueue.Store.Error
import LeaseQueue.Text.Quoted
/-! Where an embedded database is kept: the path and the options of its URL. -/
namespace LeaseQueue

structure DatabaseLocation where
  path : String
  inMemory : Bool
  readOnly : Bool
  /-- Whether the file is taken never to change, so that nothing can be written to it. -/
  immutable : Bool
  /-- The named way of reaching files, if one is asked for. -/
  fileSystem : Option String

namespace DatabaseLocation

/-- The file of the database. A database without a path is temporary. -/
def file? (l : DatabaseLocation) : Option String :=
  if l.inMemory || l.path = "" || l.fileSystem = some "memdb" then none else some l.path

/-- The ways of reaching files that have a name. -/
def fileSystems : List String := ["unix", "unix-none", "unix-dotfile", "unix-excl", "memdb"]

/-- What keeps a location from being opened, whatever lies there. -/
def problem? (l : DatabaseLocation) : Option DatabaseError :=
  if l.path.toList.contains (Char.ofNat 0) then
    some (.unreachable "filename passed to SQLite must not contain nul bytes")
  else
    match l.fileSystem with
    | none => none
    | some name =>
      if fileSystems.contains name then none
      else some (.rejected (some "1") ("(code: 1) no such vfs: " ++ name))

/-- Drops a text from the front of another as often as it stands there. -/
def dropRepeated (start : List Char) (text : List Char) : List Char :=
  if start ≠ [] ∧ start.isPrefixOf text then dropRepeated start (text.drop start.length)
  else text
termination_by text.length
decreasing_by
  rename_i again
  have positive := List.length_pos_iff.2 again.1
  have fits := (List.isPrefixOf_iff_prefix.1 again.2).length_le
  simp only [List.length_drop]
  omega

def unknownValue (name value : String) : DatabaseError :=
  .misconfigured ("unknown value " ++ Quoted.encode value ++ " for `" ++ name ++ "`")

/-- Applies one option. A file that may be written is created if it is missing, whatever the mode
says of that. -/
def applyOption (l : DatabaseLocation) (name value : String) :
    Except DatabaseError DatabaseLocation :=
  match name with
  | "mode" =>
    match value with
    | "ro" => .ok { l with readOnly := true }
    | "rw" => .ok l
    | "rwc" => .ok l
    | "memory" => .ok { l with inMemory := true }
    | _ => .error (unknownValue name value)
  | "cache" =>
    if ["private", "shared"].contains value then .ok l else .error (unknownValue name value)
  | "immutable" =>
    if ["true", "1"].contains value then .ok { l with immutable := true }
    else if ["false", "0"].contains value then .ok { l with immutable := false }
    else .error (unknownValue name value)
  | "vfs" => .ok { l with fileSystem := some value }
  | _ =>
    .error (.misconfigured
      ("unknown query parameter `" ++ name ++ "` while parsing connection URL"))

/-- The path of a URL, percent-decoded. -/
def ofPath (path : String) : Except DatabaseError DatabaseLocation :=
  if path = ":memory:" then .ok ⟨path, true, false, false, none⟩
  else
    let bytes := Percent.decode path
    match Utf8.problem? 0 bytes with
    | some reason => .error (.misconfigured reason)
    | none => .ok ⟨Utf8.decodeLossy bytes, false, false, false, none⟩

/-- Reads a URL, whose scheme may be repeated. -/
def ofUrl (url : String) : Except DatabaseError DatabaseLocation := do
  let text := dropRepeated "sqlite:".toList (dropRepeated "sqlite://".toList url.toList)
  let (path, query) := Percent.cut '?' text
  let location ← ofPath (String.ofList path)
  (Percent.queryPairs (String.ofList query)).foldlM (fun l p => l.applyOption p.1 p.2) location

end DatabaseLocation

end LeaseQueue
