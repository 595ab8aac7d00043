import LeaseQueue.Store.Error
import LeaseQueue.Store.Location
/-! A folder with files and no folders below it, as the only place that paths lead to. -/
namespace LeaseQueue

structure Folder where
  /-- The names on the way from the root to the folder. -/
  path : List String
  /-- The files by name, with their contents. -/
  files : List (String × List UInt8)

/-- What a path leads to. -/
inductive Place where
  | folder
  | file (contents : List UInt8)
  /-- A name in the folder that no file has. -/
  | vacant (name : String)
  | nowhere
  /-- The path takes a file for a folder. -/
  | throughFile

namespace Folder

/-- Follows the names of a path from the folder that the first list leads to. -/
def follow (f : Folder) : List String → List String → Place
  | _, [] => .folder
  | before, name :: rest =>
    if name = "" ∨ name = "." then f.follow before rest
    else if name = ".." then f.follow before.dropLast rest
    else if (before ++ [name]).isPrefixOf f.path then f.follow (before ++ [name]) rest
    else if before ≠ f.path then .nowhere
    else
      match f.files.lookup name with
      | some contents => if rest = [] then .file contents else .throughFile
      | none => if rest = [] then .vacant name else .nowhere

/-- The names of a path that begins at the root. -/
def absolute? (path : String) : Option (List String) :=
  match path.toList.splitOn '/' with
  | [] :: names => some (names.map String.ofList)
  | _ => none

def locate (f : Folder) (path : String) : Place :=
  match absolute? path with
  | some names => f.follow [] names
  | none => .nowhere

/-- Reads a file, or tells why that cannot be done. -/
def read (f : Folder) (path : String) : Except String (List UInt8) :=
  match f.locate path with
  | .file contents => .ok contents
  | .folder => .error "Is a directory (os error 21)"
  | .throughFile => .error "Not a directory (os error 20)"
  | _ => .error "No such file or directory (os error 2)"

/-- Takes two dots in a path as a step back, whether what precedes them exists or not. -/
def simplify : List String → List String → List String
  | before, [] => before.reverse
  | before, name :: rest =>
    if name = "" ∨ name = "." then simplify before rest
    else if name = ".." then simplify (before.drop 1) rest
    else simplify (name :: before) rest

def cannotOpen : DatabaseError := .rejected (some "14") "(code: 14) unable to open database file"

/-- Opens a database of the folder and creates its file if need be. -/
def openDatabase (f : Folder) (location : DatabaseLocation) : Except DatabaseError Folder :=
  match location.problem?, location.file? with
  | some problem, _ => .error problem
  | none, none => .ok f
  | none, some path =>
    match absolute? path with
    | none => .error cannotOpen
    | some names =>
      match f.follow [] (simplify [] names) with
      | .vacant name =>
        if location.readOnly then .error cannotOpen
        else .ok { f with files := f.files ++ [(name, [])] }
      | .file contents =>
        if contents = [] then .ok f
        else .error (.rejected (some "26") "(code: 26) file is not a database")
      | _ => .error cannotOpen

/-- The names of the files in ascending order. -/
def names (f : Folder) : List String :=
  (f.files.map (·.1)).mergeSort fun a b => !decide (b < a)

end Folder

end LeaseQueue
