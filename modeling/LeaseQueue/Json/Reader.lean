import LeaseQueue.Json.Number
import LeaseQueue.Json.Text
/-! Reading JSON text as a value of a known type, from left to right in one pass. The first problem
met wins, so a value of the wrong type is reported before a breach of the grammar behind it. -/
namespace LeaseQueue.Json

/-- Reads a value from the front of a text and leaves the rest. -/
abbrev Reader (α : Type) := List Char → Except Problem (α × List Char)

def isSpace (c : Char) : Bool := c = ' ' || c = '\n' || c = '\t' || c = '\r'

def dropSpace (text : List Char) : List Char := text.dropWhile isSpace

def openBrace : Char := Char.ofNat 123

def closeBrace : Char := Char.ofNat 125

/-- Reads the given letters. -/
def readLetters : List Char → List Char → Except Problem (List Char)
  | [], text => .ok text
  | _ :: _, [] => .error .endInValue
  | expected :: more, c :: rest =>
    if c = expected then readLetters more rest else .error .expectedLiteral

/-- The problem of a value that begins with `c` where another type is expected. Scalars are read
whole first. -/
def wrongType (expected : String) (c : Char) (rest : List Char) : Problem :=
  let mismatch := fun (found : Found) => Problem.invalidType found expected
  let letters := fun (word : String) (found : Found) =>
    match readLetters word.toList rest with
    | .error problem => problem
    | .ok _ => mismatch found
  let number := fun (negative : Bool) (text : List Char) =>
    match readNumber negative text with
    | .error problem => problem
    | .ok (.whole value, _) => mismatch (.whole value)
    | .ok (.real value, _) => mismatch (.real value)
  if c = 'n' then letters "ull" .null
  else if c = 't' then letters "rue" (.boolean true)
  else if c = 'f' then letters "alse" (.boolean false)
  else if c = '-' then number true rest
  else if isDigit c then number false (c :: rest)
  else if c = '"' then
    match readChars rest with
    | .error problem => problem
    | .ok (chars, _) => mismatch (.text (String.ofList chars))
  else if c = '[' then mismatch .sequence
  else if c = openBrace then mismatch .map
  else .expectedValue

def readString : Reader String := fun text =>
  match dropSpace text with
  | [] => .error .endInValue
  | c :: rest =>
    if c = '"' then (readChars rest).map fun (chars, after) => (String.ofList chars, after)
    else .error (wrongType "a string" c rest)

def readBool : Reader Bool := fun text =>
  match dropSpace text with
  | [] => .error .endInValue
  | c :: rest =>
    if c = 't' then (readLetters "rue".toList rest).map fun after => (true, after)
    else if c = 'f' then (readLetters "alse".toList rest).map fun after => (false, after)
    else .error (wrongType "a boolean" c rest)

/-- Reads a number and checks it. -/
def readNumberAs {α : Type} (expected : String) (accept : Number → Except Problem α) : Reader α :=
  fun text =>
    match dropSpace text with
    | [] => .error .endInValue
    | c :: rest =>
      if c = '-' ∨ isDigit c then do
        let (number, after) ←
          if c = '-' then readNumber true rest else readNumber false (c :: rest)
        let value ← accept number
        return (value, after)
      else .error (wrongType expected c rest)

/-- Reads a natural number up to `limit`. -/
def readNat (expected : String) (limit : Nat) : Reader Nat :=
  readNumberAs expected fun
    | .whole value =>
      if 0 ≤ value ∧ value ≤ limit then .ok value.toNat
      else .error (.invalidValue (.whole value) expected)
    | .real value => .error (.invalidType (.real value) expected)

def readReal : Reader Float :=
  readNumberAs "f64" fun
    | .whole value =>
      .ok (if value < 0 then -(UInt64.ofNat value.natAbs).toFloat
        else (UInt64.ofNat value.toNat).toFloat)
    | .real value => .ok value

/-- Reads a value that may be null. -/
def readOption {α : Type} (reader : Reader α) : Reader (Option α) := fun text =>
  match dropSpace text with
  | 'n' :: rest => (readLetters "ull".toList rest).map fun after => (none, after)
  | text => (reader text).map fun (value, after) => (some value, after)

/-- What a container in JSON text looks like. -/
inductive Shape where
  | list
  | object

def Shape.close : Shape → Char
  | .list => ']'
  | .object => closeBrace

def Shape.ended : Shape → Problem
  | .list => .endInList
  | .object => .endInObject

def Shape.expectedCommaOrEnd : Shape → Problem
  | .list => .expectedListCommaOrEnd
  | .object => .expectedObjectCommaOrEnd

/-- Where the value that is passed over stands: before a value, before a key, after a value. -/
inductive SkipPlace where
  | value
  | key
  | after

/-- Passes over a value inside the given containers, innermost first. Nothing but the grammar is
checked. Each step reads at least one character or leaves a container, so twice the length of the
text is enough steps. -/
def skipWithin : Nat → SkipPlace → List Shape → List Char → Except Problem (List Char)
  | 0, _, _, _ => .error .endInValue
  | steps + 1, .value, shapes, text =>
    match dropSpace text with
    | [] => .error .endInValue
    | c :: rest =>
      if c = 'n' then (readLetters "ull".toList rest).bind (skipWithin steps .after shapes)
      else if c = 't' then (readLetters "rue".toList rest).bind (skipWithin steps .after shapes)
      else if c = 'f' then (readLetters "alse".toList rest).bind (skipWithin steps .after shapes)
      else if c = '-' then (skipNumber rest).bind (skipWithin steps .after shapes)
      else if isDigit c then (skipNumber (c :: rest)).bind (skipWithin steps .after shapes)
      else if c = '"' then (skipChars rest).bind (skipWithin steps .after shapes)
      else if c = '[' then
        match dropSpace rest with
        | [] => .error .endInList
        | d :: after =>
          if d = ']' then skipWithin steps .after shapes after
          else skipWithin steps .value (.list :: shapes) (d :: after)
      else if c = openBrace then
        match dropSpace rest with
        | [] => .error .endInObject
        | d :: after =>
          if d = closeBrace then skipWithin steps .after shapes after
          else skipWithin steps .key (.object :: shapes) (d :: after)
      else .error .expectedValue
  | steps + 1, .key, shapes, text =>
    match dropSpace text with
    | [] => .error .endInObject
    | c :: rest =>
      if c ≠ '"' then .error .keyMustBeString
      else do
        let rest ← skipChars rest
        match dropSpace rest with
        | [] => .error .endInObject
        | d :: rest =>
          if d = ':' then skipWithin steps .value shapes rest else .error .expectedColon
  | _ + 1, .after, [], text => .ok text
  | steps + 1, .after, shape :: shapes, text =>
    match dropSpace text with
    | [] => .error shape.ended
    | c :: rest =>
      if c = ',' then
        match shape with
        | .list => skipWithin steps .value (shape :: shapes) rest
        | .object => skipWithin steps .key (shape :: shapes) rest
      else if c = shape.close then skipWithin steps .after shapes rest
      else .error shape.expectedCommaOrEnd

/-- Passes over a value of any type. -/
def skipValue (text : List Char) : Except Problem (List Char) :=
  skipWithin (2 * text.length + 2) .value [] text

/-- Whether a list has a further element, with the comma before it read. -/
def hasElement (first : Bool) : Reader Bool := fun text =>
  match dropSpace text with
  | [] => .error .endInList
  | c :: rest =>
    if c = ']' then .ok (false, c :: rest)
    else if first then .ok (true, c :: rest)
    else if c = ',' then
      match dropSpace rest with
      | [] => .error .endInValue
      | d :: after => if d = ']' then .error .trailingComma else .ok (true, d :: after)
    else .error .expectedListCommaOrEnd

/-- Reads the end of a list. -/
def readListEnd (text : List Char) : Except Problem (List Char) :=
  match dropSpace text with
  | [] => .error .endInList
  | c :: rest =>
    if c = ']' then .ok rest
    else if c = ',' then
      match dropSpace rest with
      | ']' :: _ => .error .trailingComma
      | _ => .error .trailingCharacters
    else .error .trailingCharacters

/-- Reads the remaining elements of a list, as many as the text has characters at most. -/
def readElements {α : Type} (element : Reader α) : Nat → Bool → Reader (List α)
  | 0, _, _ => .error .endInList
  | limit + 1, first, text => do
    let (more, text) ← hasElement first text
    if more then
      let (value, text) ← element text
      let (values, text) ← readElements element limit false text
      return (value :: values, text)
    else return ([], text)

def readList {α : Type} (element : Reader α) : Reader (List α) := fun text =>
  match dropSpace text with
  | [] => .error .endInValue
  | c :: rest =>
    if c = '[' then do
      let (values, rest) ← readElements element (rest.length + 1) true rest
      let rest ← readListEnd rest
      return (values, rest)
    else .error (wrongType "a sequence" c rest)

/-- The next key of an object, if it has one, with the comma before it read. -/
def readKey (first : Bool) : Reader (Option String) := fun text =>
  let key := fun (text : List Char) =>
    (readChars text).map fun (chars, after) => (some (String.ofList chars), after)
  match dropSpace text with
  | [] => .error .endInObject
  | c :: rest =>
    if c = closeBrace then .ok (none, rest)
    else if first then
      if c = '"' then key rest else .error .keyMustBeString
    else if c = ',' then
      match dropSpace rest with
      | [] => .error .endInValue
      | d :: after =>
        if d = '"' then key after
        else if d = closeBrace then .error .trailingComma
        else .error .keyMustBeString
    else .error .expectedObjectCommaOrEnd

def readColon (text : List Char) : Except Problem (List Char) :=
  match dropSpace text with
  | [] => .error .endInObject
  | c :: rest => if c = ':' then .ok rest else .error .expectedColon

/-- Reads the remaining members of an object of strings. -/
def readPairs : Nat → Bool → Reader (List (String × String))
  | 0, _, _ => .error .endInObject
  | limit + 1, first, text => do
    let (key, text) ← readKey first text
    match key with
    | none => return ([], text)
    | some key =>
      let text ← readColon text
      let (value, text) ← readString text
      let (pairs, text) ← readPairs limit false text
      return ((key, value) :: pairs, text)

/-- Reads an object of strings as its members in the order of the text. -/
def readStringMap : Reader (List (String × String)) := fun text =>
  match dropSpace text with
  | [] => .error .endInValue
  | c :: rest =>
    if c = openBrace then readPairs (rest.length + 1) true rest
    else .error (wrongType "a map" c rest)

/-- A field of a record that is filled step by step. -/
structure Field (σ : Type) where
  name : String
  isSet : σ → Bool
  read : σ → Reader σ

/-- Reads the fields of a record written as a list, in their order. Missing ones stay unset. -/
def readPositional {σ : Type} : List (Field σ) → Bool → σ → Reader σ
  | [], _, record, text => .ok (record, text)
  | field :: fields, first, record, text => do
    let (more, text) ← hasElement first text
    if more then
      let (record, text) ← field.read record text
      readPositional fields false record text
    else return (record, text)

/-- Reads the fields of a record written as an object. Unknown members are passed over, and a field
may be set only once. -/
def readMembers {σ : Type} (fields : List (Field σ)) : Nat → Bool → σ → Reader σ
  | 0, _, _, _ => .error .endInObject
  | limit + 1, first, record, text => do
    let (key, text) ← readKey first text
    match key with
    | none => return (record, text)
    | some key =>
      match fields.find? fun field => field.name = key with
      | none =>
        let text ← readColon text
        let text ← skipValue text
        readMembers fields limit false record text
      | some field =>
        if field.isSet record then throw (.duplicateField field.name)
        else
          let text ← readColon text
          let (record, text) ← field.read record text
          readMembers fields limit false record text

/-- Reads a record that is written as an object or as a list. -/
def readRecord {σ : Type} (typeName : String) (fields : List (Field σ)) (unset : σ) : Reader σ :=
  fun text =>
    match dropSpace text with
    | [] => .error .endInValue
    | c :: rest =>
      if c = '[' then do
        let (record, rest) ← readPositional fields true unset rest
        let rest ← readListEnd rest
        return (record, rest)
      else if c = openBrace then readMembers fields (rest.length + 1) true unset rest
      else .error (wrongType ("struct " ++ typeName) c rest)

/-- Reads a whole text as one value. -/
def readAll {α : Type} (reader : Reader α) (text : String) : Except Problem α := do
  let (value, rest) ← reader text.toList
  match dropSpace rest with
  | [] => return value
  | _ => throw .trailingCharacters

end LeaseQueue.Json
