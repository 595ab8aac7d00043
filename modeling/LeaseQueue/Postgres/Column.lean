import LeaseQueue.Grouping.Digest
import LeaseQueue.Grouping.Params
import LeaseQueue.Postgres.Session
import LeaseQueue.Text.Quoted
import LeaseQueue.Time.Instant
/-! Values as they travel: times as microseconds, parameters as JSON, and the reading of columns by
name or by their place in the row. -/
namespace LeaseQueue.Postgres

/-- The first of January 2000, from which the server counts its microseconds. -/
def serverEpochNanos : Int := 946684800000000000

namespace Value

/-- A time in whole microseconds. What is left over is dropped towards the server's epoch. -/
def ofInstant (t : Instant) : Value :=
  .micros ((t.nanos - serverEpochNanos).tdiv 1000 + serverEpochNanos / 1000)

/-- A number of rows as a signed word of 64 bits. -/
def ofLimit (limit : Nat) : Value :=
  .integer (if limit < Nat.pow 2 63 then limit else (limit : Int) - Nat.pow 2 64)

def ofDigests (digests : List Digest) : Value := .texts (digests.map (·.text))

end Value

/-- Reads a value that is there, or tells why it cannot be read. -/
abbrev Decoder (α : Type) := Value → Except String α

def mismatched : String := "mismatched types"

def asBytes : Decoder (List UInt8)
  | .bytes bytes => .ok bytes
  | _ => .error mismatched

def asText : Decoder String
  | .text text => .ok text
  | _ => .error mismatched

def asDigests : Decoder (List Digest)
  | .texts texts => .ok (texts.map Digest.mk)
  | _ => .error mismatched

def asInstant : Decoder Instant
  | .micros n =>
    match Instant.ofNanos? (n * 1000) with
    | some t => .ok t
    | none => .error "timestamp out of range"
  | _ => .error mismatched

def asParams : Decoder Params
  | .json text => (Params.decode text).mapError (·.message)
  | _ => .error mismatched

/-- Reads a column. Failures call it by its label. -/
def column {α : Type} (decode : Decoder α) (label name : String) (row : Row) :
    Except DatabaseError α :=
  match row.lookup name with
  | none => .error (.columnNotFound name)
  | some .null =>
    .error (.columnUnreadable label "unexpected null; try decoding as an `Option`")
  | some value => (decode value).mapError (.columnUnreadable label)

/-- Reads a column of a row that is read from left to right: failures tell its place. -/
def columnAt {α : Type} (decode : Decoder α) (place : Nat) (name : String) (row : Row) :
    Except DatabaseError α :=
  column decode (toString place) name row

/-- Reads a column that failures call by its quoted name. -/
def columnNamed {α : Type} (decode : Decoder α) (name : String) (row : Row) :
    Except DatabaseError α :=
  column decode (Quoted.encode name) name row

end LeaseQueue.Postgres
