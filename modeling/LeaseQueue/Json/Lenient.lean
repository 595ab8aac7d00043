import LeaseQueue.Json.Reader
/-! The lenient JSON that a database's own functions accept in a text column, and the length of an
array in it. Beyond the strict grammar there are comments, further white space, single quotes,
bare keys, a comma before the end of a container, and more spellings of numbers. -/
namespace LeaseQueue.Json.Lenient

/-- What a value was, as far as its length depends on it. -/
inductive Kind where
  | array (length : Nat)
  | text
  | other

def isSpaceChar (c : Char) : Bool :=
  let n := c.toNat
  (9 ≤ n && n ≤ 13) || n = 0x20 || n = 0xA0 || n = 0x1680 || (0x2000 ≤ n && n ≤ 0x200A) ||
    n = 0x2028 || n = 0x2029 || n = 0x202F || n = 0x205F || n = 0x3000 || n = 0xFEFF

/-- The text after the end of a block comment. -/
def afterBlock? : List Char → Option (List Char)
  | [] => none
  | '*' :: '/' :: rest => some rest
  | _ :: rest => afterBlock? rest

def endsLine (c : Char) : Bool :=
  c = '\n' || c = '\r' || c.toNat = 0x2028 || c.toNat = 0x2029

/-- Drops white space and comments, each of them one step. -/
def dropSpaceWithin : Nat → List Char → List Char
  | 0, text => text
  | steps + 1, text =>
    match text with
    | '/' :: '*' :: rest =>
      match afterBlock? rest with
      | some rest => dropSpaceWithin steps rest
      | none => text
    | '/' :: '/' :: rest =>
      dropSpaceWithin steps ((rest.dropWhile fun c => !endsLine c).drop 1)
    | c :: rest => if isSpaceChar c then dropSpaceWithin steps rest else text
    | [] => []

def dropSpace (text : List Char) : List Char := dropSpaceWithin text.length text

def isHex (c : Char) : Bool := (Hex.digit? c).isSome

def isAlphanumeric (c : Char) : Bool := c.isAlphanum

/-- The text after a word in any case of its letters. -/
def afterWord? (word : String) (text : List Char) : Option (List Char) :=
  let size := word.length
  if (text.take size).map Char.toLower = word.toList then some (text.drop size) else none

/-- The text after a word that ends there. -/
def afterWholeWord? (word : String) (text : List Char) : Option (List Char) := do
  let rest ← afterWord? word text
  match rest with
  | c :: _ => if isAlphanumeric c then none else some rest
  | [] => some rest

/-- The text after an exponent, if there is one. -/
def afterExponent? (text : List Char) : Option (List Char) :=
  let digits := fun (text : List Char) =>
    match text with
    | c :: rest => if isDigit c then some (dropDigits rest) else none
    | [] => none
  match text with
  | c :: rest =>
    if c = 'e' ∨ c = 'E' then
      match rest with
      | '+' :: rest => digits rest
      | '-' :: rest => digits rest
      | rest => digits rest
    else some text
  | [] => some []

/-- The text after a number without its sign. A point needs a digit on one of its sides. -/
def afterUnsigned? (text : List Char) : Option (List Char) :=
  let decimal := fun (text : List Char) =>
    match text with
    | '.' :: c :: rest => if isDigit c then afterExponent? (dropDigits rest) else none
    | c :: rest =>
      if isDigit c then
        match dropDigits rest with
        | '.' :: rest => afterExponent? (dropDigits rest)
        | rest => afterExponent? rest
      else none
    | [] => none
  match text with
  | '0' :: x :: c :: rest =>
    if (x = 'x' ∨ x = 'X') ∧ isHex c then some (rest.dropWhile isHex)
    else if isDigit x then none
    else decimal text
  | '0' :: c :: _ => if isDigit c then none else decimal text
  | text => decimal text

/-- The text after a number that begins with a sign. -/
def afterSigned? (text : List Char) : Option (List Char) :=
  (afterWord? "infinity" text).orElse fun _ =>
    (afterWord? "inf" text).orElse fun _ => afterUnsigned? text

def areHex (count : Nat) (text : List Char) : Bool :=
  (text.take count).length = count && (text.take count).all isHex

/-- The text after a string, which ends at the given quotation mark. -/
def afterString? (quote : Char) : Nat → List Char → Option (List Char)
  | 0, _ => none
  | _ + 1, [] => none
  | steps + 1, c :: rest =>
    if c = quote then some rest
    else if c = '\\' then
      match rest with
      | [] => none
      | d :: rest =>
        if "\"\\/bfnrt'0v\n\u2028\u2029".toList.contains d then afterString? quote steps rest
        else if d = 'u' ∧ areHex 4 rest then afterString? quote steps rest
        else if d = 'x' ∧ areHex 2 rest then afterString? quote steps rest
        else if d = '\r' then
          match rest with
          | '\n' :: rest => afterString? quote steps rest
          | rest => afterString? quote steps rest
        else none
    else if c.toNat < 32 then none
    else afterString? quote steps rest

def startsKey (c : Char) : Bool := c.isAlpha || c = '_' || c = '$' || 128 ≤ c.toNat

/-- The text after the characters of a bare key. -/
def afterKeyChars : Nat → List Char → List Char
  | 0, text => text
  | steps + 1, text =>
    match text with
    | '\\' :: 'u' :: rest => if areHex 4 rest then afterKeyChars steps (rest.drop 4) else text
    | c :: rest =>
      if (startsKey c || isDigit c) && !isSpaceChar c then afterKeyChars steps rest else text
    | [] => []

/-- The text after a bare key, which begins with a letter or an escape. -/
def afterBareKey? (text : List Char) : Option (List Char) :=
  match text with
  | '\\' :: 'u' :: rest => if areHex 4 rest then some (afterKeyChars text.length text) else none
  | c :: rest => if startsKey c then some (afterKeyChars text.length rest) else none
  | [] => none

/-- A scalar value at the front of a text that begins with `c`. -/
def scalar? (c : Char) (rest : List Char) : Option (Kind × List Char) :=
  let other := fun (after : Option (List Char)) => after.map fun rest => (Kind.other, rest)
  let text := c :: rest
  if c = '"' ∨ c = '\'' then (afterString? c text.length rest).map fun rest => (Kind.text, rest)
  else if c = '+' ∨ c = '-' then other (afterSigned? rest)
  else if isDigit c ∨ c = '.' then other (afterUnsigned? text)
  else if text.take 4 = "true".toList then other (afterWholeWord? "true" text)
  else if text.take 5 = "false".toList then other (afterWholeWord? "false" text)
  else if c = 't' ∨ c = 'f' then none
  else
    ["inf", "infinity", "null", "nan", "qnan", "snan"].findSome? fun word =>
      if word = "null" ∧ text.take 4 ≠ "null".toList then none
      else other (afterWholeWord? word text)

/-- The deepest nesting of containers. -/
def maxDepth : Nat := 1000

mutual

/-- The value at the front of a text and the text after it. Every step reads a character, and
`depth` more containers may be entered. -/
def value? : Nat → Nat → List Char → Option (Kind × List Char)
  | 0, _, _ => none
  | steps + 1, depth, text =>
    match dropSpace text with
    | [] => none
    | c :: rest =>
      if c = '[' then
        if depth = 0 then none
        else (elements? steps (depth - 1) 0 rest).map fun (length, rest) => (.array length, rest)
      else if c = openBrace then
        if depth = 0 then none
        else (members? steps (depth - 1) rest).map fun rest => (.other, rest)
      else scalar? c rest

/-- The number of elements up to the end of an array, of which `count` are read. -/
def elements? : Nat → Nat → Nat → List Char → Option (Nat × List Char)
  | 0, _, _, _ => none
  | steps + 1, depth, count, text =>
    match dropSpace text with
    | ']' :: rest => some (count, rest)
    | text => do
      let (_, rest) ← value? steps depth text
      match dropSpace rest with
      | ',' :: rest => elements? steps depth (count + 1) rest
      | ']' :: rest => some (count + 1, rest)
      | _ => none

/-- The text after the members of an object. A key is a string or bare. -/
def members? : Nat → Nat → List Char → Option (List Char)
  | 0, _, _ => none
  | steps + 1, depth, text =>
    match dropSpace text with
    | [] => none
    | c :: rest =>
      if c = closeBrace then some rest
      else do
        let rest ←
          match value? steps depth (c :: rest) with
          | some (.text, rest) => some rest
          | some _ => none
          | none => afterBareKey? (c :: rest)
        match dropSpace rest with
        | ':' :: rest =>
          let (_, rest) ← value? steps depth rest
          match dropSpace rest with
          | ',' :: rest => members? steps depth rest
          | d :: rest => if d = closeBrace then some rest else none
          | [] => none
        | _ => none

end

/-- The length of a text's array, zero for any other value, none where the text is no value. -/
def arrayLength? (text : String) : Option Nat :=
  let chars := text.toList
  match value? (2 * chars.length + 2) maxDepth chars with
  | some (kind, rest) =>
    if dropSpace rest ≠ [] then none
    else
      match kind with
      | .array length => some length
      | _ => some 0
  | none => none

end LeaseQueue.Json.Lenient
