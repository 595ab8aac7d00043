import LeaseQueue.Text.Hex
import LeaseQueue.Text.Utf8
/-! Percent encoding of text, and the key and value pairs of a query. -/
namespace LeaseQueue.Percent

/-- Two hexadecimal digits in capitals after a percent sign. -/
def encodeByte (b : UInt8) : List Char := '%' :: (Hex.encodeByte b).map Char.toUpper

/-- Writes a character as it is if `keep` holds of it, else the bytes that encode it. -/
def encodeChar (keep : Char → Bool) (c : Char) : List Char :=
  if keep c then [c] else (Utf8.encode (String.ofList [c])).flatMap encodeByte

def encode (keep : Char → Bool) (text : List Char) : String :=
  String.ofList (text.flatMap (encodeChar keep))

/-- The value of a hexadecimal digit, given as a byte. -/
def digit? (b : UInt8) : Option Nat := Hex.digit? (Char.ofNat b.toNat)

/-- Replaces each percent sign that two digits follow by the byte they denote. -/
def decodeBytes : List UInt8 → List UInt8
  | 0x25 :: high :: low :: rest =>
    match digit? high, digit? low with
    | some h, some l => UInt8.ofNat (16 * h + l) :: decodeBytes rest
    | _, _ => 0x25 :: decodeBytes (high :: low :: rest)
  | b :: rest => b :: decodeBytes rest
  | [] => []

/-- The decoded bytes of a text, which need not be well-formed. -/
def decode (text : String) : List UInt8 := decodeBytes (Utf8.encode text)

/-- A plus sign stands for a space in a query. -/
def decodeField (text : List Char) : String :=
  Utf8.decodeLossy (decode (String.ofList (text.map fun c => if c = '+' then ' ' else c)))

/-- Splits a text at the first occurrence of a separator. -/
def cut (separator : Char) (text : List Char) : List Char × List Char :=
  (text.takeWhile (· ≠ separator), (text.dropWhile (· ≠ separator)).drop 1)

/-- The pairs of a query in their order. Empty parts are passed over. -/
def queryPairs (query : String) : List (String × String) :=
  ((query.toList.splitOn '&').filter (· ≠ [])).map fun part =>
    let (key, value) := cut '=' part
    (decodeField key, decodeField value)

end LeaseQueue.Percent
