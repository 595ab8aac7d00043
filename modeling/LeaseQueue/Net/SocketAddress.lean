import LeaseQueue.Text.Hex
/-! Addresses to listen on: an IPv4 or IPv6 address with a port. They are read strictly and written
in their canonical form. -/
namespace LeaseQueue

/-- An internet address and a port. The four parts of an IPv4 address are bytes, the eight groups
of an IPv6 address have sixteen bits. -/
inductive SocketAddress where
  | v4 (octets : List Nat) (port : Nat)
  | v6 (groups : List Nat) (scope port : Nat)
deriving DecidableEq

namespace SocketAddress

/-- Reads a part from the front of a text and leaves the rest. -/
abbrev Part (α : Type) := List Char → Option (α × List Char)

def hexValue? (radix : Nat) (c : Char) : Option Nat :=
  (Hex.digit? c).filter fun value => value < radix

/-- The value of the digits at the front of a text, how many they are, and the rest. -/
def digitRun (radix value count : Nat) : List Char → Nat × Nat × List Char
  | [] => (value, count, [])
  | c :: rest =>
    match hexValue? radix c with
    | some digit => digitRun radix (value * radix + digit) (count + 1) rest
    | none => (value, count, c :: rest)

/-- A number up to `limit`. -/
def readNumber (radix limit : Nat) : Part Nat := fun text =>
  let (value, count, rest) := digitRun radix 0 0 text
  if count = 0 ∨ limit < value then none else some (value, rest)

/-- A part of an IPv4 address: up to three digits without a leading zero. -/
def readOctet : Part Nat := fun text =>
  let (value, count, rest) := digitRun 10 0 0 text
  if count = 0 ∨ 3 < count ∨ 255 < value ∨ (1 < count ∧ text.head? = some '0') then none
  else some (value, rest)

/-- A group of an IPv6 address: up to four digits. -/
def readGroup : Part Nat := fun text =>
  let (value, count, rest) := digitRun 16 0 0 text
  if count = 0 ∨ 4 < count then none else some (value, rest)

def readChar (c : Char) : List Char → Option (List Char)
  | [] => none
  | d :: rest => if c = d then some rest else none

/-- Reads the separator first, except in front of the first part. -/
def separated {α : Type} (separator : Char) (first : Bool) (part : Part α) : Part α := fun text =>
  if first then part text else (readChar separator text).bind part

def readV4 : Part (List Nat) := fun text => do
  let (a, text) ← readOctet text
  let (b, text) ← separated '.' false readOctet text
  let (c, text) ← separated '.' false readOctet text
  let (d, text) ← separated '.' false readOctet text
  return ([a, b, c, d], text)

/-- The two groups that four octets make. -/
def groupsOf (octets : List Nat) : List Nat :=
  match octets with
  | [a, b, c, d] => [a * 256 + b, c * 256 + d]
  | _ => []

/-- Reads up to `limit` groups separated by colons, of which the last two may be written as an IPv4
address. The flag tells whether they were. -/
def readGroups : Nat → Bool → List Char → List Nat × Bool × List Char
  | 0, _, text => ([], false, text)
  | limit + 1, first, text =>
    let embedded := if limit = 0 then none else separated ':' first readV4 text
    match embedded with
    | some (octets, rest) => (groupsOf octets, true, rest)
    | none =>
      match separated ':' first readGroup text with
      | none => ([], false, text)
      | some (group, rest) =>
        let (groups, dotted, rest) := readGroups limit false rest
        (group :: groups, dotted, rest)

/-- Eight groups, or fewer with a pair of colons in the place of the zeros that are left out. -/
def readV6 : Part (List Nat) := fun text =>
  let (head, dotted, rest) := readGroups 8 true text
  if head.length = 8 then some (head, rest)
  else if dotted then none
  else do
    let rest ← readChar ':' rest
    let rest ← readChar ':' rest
    let (tail, _, rest) := readGroups (7 - head.length) true rest
    return (head ++ List.replicate (8 - head.length - tail.length) 0 ++ tail, rest)

def readPort : Part Nat := fun text => (readChar ':' text).bind (readNumber 10 65535)

/-- The number of a network interface, zero if none is named. -/
def readScope (text : List Char) : Nat × List Char :=
  ((readChar '%' text).bind (readNumber 10 4294967295)).getD (0, text)

def readWithV4 : Part SocketAddress := fun text => do
  let (octets, text) ← readV4 text
  let (port, text) ← readPort text
  return (.v4 octets port, text)

def readWithV6 : Part SocketAddress := fun text => do
  let text ← readChar '[' text
  let (groups, text) ← readV6 text
  let (scope, text) := readScope text
  let text ← readChar ']' text
  let (port, text) ← readPort text
  return (.v6 groups scope port, text)

/-- The address that a whole text denotes. -/
def ofText? (text : String) : Option SocketAddress :=
  match (readWithV4 text.toList).orElse fun _ => readWithV6 text.toList with
  | some (address, []) => some address
  | _ => none

def port : SocketAddress → Nat
  | .v4 _ port => port
  | .v6 _ _ port => port

def isV6 : SocketAddress → Bool
  | .v4 _ _ => false
  | .v6 _ _ _ => true

def writtenV4 (octets : List Nat) : String := String.intercalate "." (octets.map toString)

def hexText (n : Nat) : String := String.ofList (Nat.toDigits 16 n)

/-- How many zeros a list begins with. -/
def leadingZeros (groups : List Nat) : Nat := (groups.takeWhile (· = 0)).length

/-- The start and the length of the first longest run of zeros. -/
def longestZeros (groups : List Nat) : Nat × Nat :=
  (List.range groups.length).foldl
    (fun best start =>
      let run := leadingZeros (groups.drop start)
      if best.2 < run then (start, run) else best)
    (0, 0)

def joinGroups (groups : List Nat) : String := String.intercalate ":" (groups.map hexText)

/-- The longest run of at least two zero groups is left out. -/
def writtenGroups (groups : List Nat) : String :=
  let (start, run) := longestZeros groups
  if 1 < run then joinGroups (groups.take start) ++ "::" ++ joinGroups (groups.drop (start + run))
  else joinGroups groups

/-- An IPv4 address that is mapped into IPv6 is written with dots. -/
def writtenV6 (groups : List Nat) : String :=
  if groups.take 6 = [0, 0, 0, 0, 0, 0xFFFF] then
    let octets := (groups.drop 6).flatMap fun group => [group / 256, group % 256]
    "::ffff:" ++ writtenV4 octets
  else writtenGroups groups

/-- The address without its port. -/
def writtenIp : SocketAddress → String
  | .v4 octets _ => writtenV4 octets
  | .v6 groups _ _ => writtenV6 groups

def written : SocketAddress → String
  | .v4 octets port => writtenV4 octets ++ ":" ++ toString port
  | .v6 groups scope port =>
    let zone := if scope = 0 then "" else "%" ++ toString scope
    "[" ++ writtenV6 groups ++ zone ++ "]:" ++ toString port

end SocketAddress

end LeaseQueue
