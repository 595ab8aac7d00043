import LeaseQueue.Text.Hex
/-! Compact JSON text of strings, of lists of strings and of maps from strings to strings. -/
namespace LeaseQueue.Json

/-- Quotation mark, backslash and control characters are escaped, nothing else is. -/
def escapeChar (c : Char) : List Char :=
  if c = '"' then ['\\', '"']
  else if c = '\\' then ['\\', '\\']
  else if c = '\n' then ['\\', 'n']
  else if c = '\r' then ['\\', 'r']
  else if c = '\t' then ['\\', 't']
  else if c.toNat = 8 then ['\\', 'b']
  else if c.toNat = 12 then ['\\', 'f']
  else if c.toNat < 32 then
    ['\\', 'u', '0', '0', Hex.digit (c.toNat / 16), Hex.digit (c.toNat % 16)]
  else [c]

def stringChars (text : List Char) : List Char := '"' :: (text.flatMap escapeChar ++ ['"'])

/-- The parts with a comma between each two. -/
def joinComma : List (List Char) → List Char
  | [] => []
  | [part] => part
  | part :: rest => part ++ ',' :: joinComma rest

def listChars (items : List String) : List Char :=
  '[' :: (joinComma (items.map fun item => stringChars item.toList) ++ [']'])

def pairChars (pair : String × String) : List Char :=
  stringChars pair.1.toList ++ ':' :: stringChars pair.2.toList

/-- An object with its members in the given order. -/
def objectChars (pairs : List (String × String)) : List Char :=
  Char.ofNat 123 :: (joinComma (pairs.map pairChars) ++ [Char.ofNat 125])

def writeString (text : String) : String := String.ofList (stringChars text.toList)

def writeList (items : List String) : String := String.ofList (listChars items)

def writeObject (pairs : List (String × String)) : String := String.ofList (objectChars pairs)

end LeaseQueue.Json
