import LeaseQueue.Text.Quoted
import LeaseQueue.Decimal.Shortest
/-! What can be wrong with a JSON text: a breach of the grammar, or a value of another type than
the one that was asked for. -/
namespace LeaseQueue.Json

/-- A value of another type than expected, as far as it was looked at. -/
inductive Found where
  | null
  | boolean (value : Bool)
  | whole (value : Int)
  | real (value : Float)
  | text (value : String)
  | sequence
  | map

def Found.described : Found → String
  | .null => "null"
  | .boolean value => "boolean `" ++ toString value ++ "`"
  | .whole value => "integer `" ++ toString value ++ "`"
  | .real value =>
    "floating point `" ++ Decimal.shortestText (Binary64.ofBits value.toBits) ++ "`"
  | .text value => "string " ++ Quoted.encode value
  | .sequence => "sequence"
  | .map => "map"

/-- Why a text was refused. -/
inductive Problem where
  | endInValue
  | endInList
  | endInObject
  | endInString
  | expectedColon
  | expectedListCommaOrEnd
  | expectedObjectCommaOrEnd
  | expectedLiteral
  | expectedValue
  | invalidEscape
  | invalidNumber
  | numberOutOfRange
  | controlCharacter
  | keyMustBeString
  | loneSurrogate
  | trailingComma
  | trailingCharacters
  | unexpectedEndOfEscape
  | invalidType (found : Found) (expected : String)
  | invalidValue (found : Found) (expected : String)
  | duplicateField (name : String)

def Problem.message : Problem → String
  | .endInValue => "EOF while parsing a value"
  | .endInList => "EOF while parsing a list"
  | .endInObject => "EOF while parsing an object"
  | .endInString => "EOF while parsing a string"
  | .expectedColon => "expected `:`"
  | .expectedListCommaOrEnd => "expected `,` or `]`"
  | .expectedObjectCommaOrEnd => "expected `,` or `\x7d`"
  | .expectedLiteral => "expected ident"
  | .expectedValue => "expected value"
  | .invalidEscape => "invalid escape"
  | .invalidNumber => "invalid number"
  | .numberOutOfRange => "number out of range"
  | .controlCharacter =>
    "control character (\\u0000-\\u001F) found while parsing a string"
  | .keyMustBeString => "key must be a string"
  | .loneSurrogate => "lone leading surrogate in hex escape"
  | .trailingComma => "trailing comma"
  | .trailingCharacters => "trailing characters"
  | .unexpectedEndOfEscape => "unexpected end of hex escape"
  | .invalidType found expected =>
    "invalid type: " ++ found.described ++ ", expected " ++ expected
  | .invalidValue found expected =>
    "invalid value: " ++ found.described ++ ", expected " ++ expected
  | .duplicateField name => "duplicate field `" ++ name ++ "`"

end LeaseQueue.Json
