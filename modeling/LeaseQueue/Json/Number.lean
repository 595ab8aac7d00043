import LeaseQueue.Json.Problem
/-! Numbers in JSON text. Whole numbers that fit into 64 bits are exact. All others are read by
collecting digits while they fit into 64 bits and scaling once by a power of ten, so the last bit
may differ from the nearest floating-point number. -/
namespace LeaseQueue.Json

inductive Number where
  | whole (value : Int)
  | real (value : Float)

def isDigit (c : Char) : Bool := '0' ≤ c && c ≤ '9'

def digitValue (c : Char) : Nat := c.toNat - 48

def maxWord : Nat := 18446744073709551615

/-- Appends the digits at the front of the text to a number as long as it fits into 64 bits. The
results are the number, how many digits it took, and the rest of the text. -/
def collectDigits (number : Nat) : List Char → Nat × Nat × List Char
  | [] => (number, 0, [])
  | c :: rest =>
    if isDigit c ∧ number * 10 + digitValue c ≤ maxWord then
      let (result, count, rest) := collectDigits (number * 10 + digitValue c) rest
      (result, count + 1, rest)
    else (number, 0, c :: rest)

def dropDigits (text : List Char) : List Char := text.dropWhile isDigit

def powerOfTen (n : Nat) : Float := Float.ofScientific 1 false n

/-- Divides by `10 ^ 308` until at most that power is left, which a fourth time has no effect. -/
def scaleDown (value : Float) (power : Nat) : Float :=
  let steps := (power - 1) / 308
  let divided := (List.range (min steps 4)).foldl (fun v _ => v / powerOfTen 308) value
  divided / powerOfTen (power - 308 * steps)

/-- The number `significand * 10 ^ power` with a sign. Too large a number is refused, too small a
one is zero. -/
def scaled (negative : Bool) (significand : Nat) (power : Int) : Except Problem Float :=
  let value := (UInt64.ofNat significand).toFloat
  let signed := fun (v : Float) => if negative then -v else v
  if 0 ≤ power then
    if 308 < power then
      if significand = 0 then .ok (signed value) else .error .numberOutOfRange
    else
      let v := value * powerOfTen power.toNat
      if v.isInf then .error .numberOutOfRange else .ok (signed v)
  else .ok (signed (scaleDown value (-power).toNat))

/-- The largest exponent that is read as such. -/
def maxExponent : Nat := 2147483647

/-- The value of a run of digits. -/
def digitsValue (digits : List Char) : Nat :=
  digits.foldl (fun n c => n * 10 + digitValue c) 0

/-- Reads the exponent after its letter. -/
def readExponent (negative : Bool) (significand : Nat) (power : Int) (text : List Char) :
    Except Problem (Float × List Char) :=
  let (below, text) : Bool × List Char :=
    match text with
    | '+' :: rest => (false, rest)
    | '-' :: rest => (true, rest)
    | text => (false, text)
  match text with
  | [] => .error .endInValue
  | c :: _ =>
    if isDigit c then
      let exponent := digitsValue (text.takeWhile isDigit)
      let rest := dropDigits text
      if maxExponent < exponent then
        if significand ≠ 0 ∧ below = false then .error .numberOutOfRange
        else .ok (if negative then -0.0 else 0.0, rest)
      else do
        let value ← scaled negative significand (if below then power - exponent else power + exponent)
        return (value, rest)
    else .error .invalidNumber

/-- Reads an exponent if one follows, and scales. -/
def finishReal (negative : Bool) (significand : Nat) (power : Int) (text : List Char) :
    Except Problem (Float × List Char) :=
  match text with
  | 'e' :: rest | 'E' :: rest => readExponent negative significand power rest
  | text => do
    let value ← scaled negative significand power
    return (value, text)

/-- Reads the digits after the point. -/
def readFraction (negative : Bool) (significand : Nat) (power : Int) (text : List Char) :
    Except Problem (Float × List Char) :=
  match text with
  | [] => .error .endInValue
  | c :: _ =>
    if isDigit c then
      let (significand, count, rest) := collectDigits significand text
      finishReal negative significand (power - count) (dropDigits rest)
    else .error .invalidNumber

/-- Reads what follows the whole part of a number. -/
def readAfterWhole (negative : Bool) (significand overflow : Nat) (text : List Char) :
    Except Problem (Number × List Char) :=
  let real := fun (result : Float × List Char) => (Number.real result.1, result.2)
  match text with
  | '.' :: rest => (readFraction negative significand overflow rest).map real
  | 'e' :: _ | 'E' :: _ => (finishReal negative significand overflow text).map real
  | text =>
    if overflow ≠ 0 then (finishReal negative significand overflow text).map real
    else if negative = false then .ok (.whole significand, text)
    else if significand = 0 ∨ Nat.pow 2 63 < significand then
      .ok (.real (-(UInt64.ofNat significand).toFloat), text)
    else .ok (.whole (-significand), text)

/-- Reads a number after its sign. A leading zero stands alone. -/
def readNumber (negative : Bool) (text : List Char) : Except Problem (Number × List Char) :=
  match text with
  | [] => .error .endInValue
  | '0' :: rest =>
    match rest with
    | [] => readAfterWhole negative 0 0 []
    | c :: _ =>
      if isDigit c then .error .invalidNumber else readAfterWhole negative 0 0 rest
  | c :: _ =>
    if isDigit c then
      let (significand, _, rest) := collectDigits 0 text
      readAfterWhole negative significand (rest.takeWhile isDigit).length (dropDigits rest)
    else .error .invalidNumber

/-- Passes over the digits of an exponent, its letter being read. -/
def skipExponent (text : List Char) : Except Problem (List Char) :=
  let text : List Char :=
    match text with
    | '+' :: rest => rest
    | '-' :: rest => rest
    | text => text
  match text with
  | c :: rest => if isDigit c then .ok (dropDigits rest) else .error .invalidNumber
  | [] => .error .invalidNumber

/-- Passes over the rest of a number after its whole part. -/
def skipAfterWhole (text : List Char) : Except Problem (List Char) :=
  match text with
  | '.' :: c :: rest =>
    if isDigit c then
      match dropDigits rest with
      | 'e' :: rest | 'E' :: rest => skipExponent rest
      | rest => .ok rest
    else .error .invalidNumber
  | ['.'] => .error .invalidNumber
  | 'e' :: rest | 'E' :: rest => skipExponent rest
  | text => .ok text

/-- Passes over a number after its sign without taking its value. -/
def skipNumber (text : List Char) : Except Problem (List Char) :=
  match text with
  | '0' :: c :: rest =>
    if isDigit c then .error .invalidNumber else skipAfterWhole (c :: rest)
  | ['0'] => .ok []
  | c :: rest => if isDigit c then skipAfterWhole (dropDigits rest) else .error .invalidNumber
  | [] => .error .invalidNumber

end LeaseQueue.Json
