import LeaseQueue.Text.Printable
import LeaseQueue.Text.Hex
/-! Text in quotation marks, with every character that does not show on its own escaped. -/
namespace LeaseQueue.Quoted

/-- The hexadecimal digits of a number without leading zeros. -/
def hexDigits (n : Nat) : List Char := (Nat.toDigits 16 n)

def encodeChar (c : Char) : List Char :=
  if c = '"' then ['\\', '"']
  else if c = '\\' then ['\\', '\\']
  else if c = '\n' then ['\\', 'n']
  else if c = '\r' then ['\\', 'r']
  else if c = '\t' then ['\\', 't']
  else if c.toNat = 0 then ['\\', '0']
  else if Printable.isPrintable c then [c]
  else "\\u\x7b".toList ++ hexDigits c.toNat ++ "\x7d".toList

def encode (text : String) : String :=
  "\"" ++ String.ofList (text.toList.flatMap encodeChar) ++ "\""

end LeaseQueue.Quoted
