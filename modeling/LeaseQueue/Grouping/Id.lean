import LeaseQueue.Grouping.Params
import LeaseQueue.Hash.Sha256
import LeaseQueue.Text.Utf8
/-! Identifiers of groupings: sixteen bytes, derived from the hash of the parameters. -/
namespace LeaseQueue

/-- The number of bytes of an identifier. -/
def groupingIdSize : Nat := 16

structure GroupingId where
  bytes : List UInt8
  size_eq : bytes.length = groupingIdSize
deriving DecidableEq

/-- Bytes of another length than that of an identifier. -/
structure WrongIdSize where
  size : Nat

def WrongIdSize.message (e : WrongIdSize) : String :=
  "grouping id must be " ++ toString groupingIdSize ++ " bytes, got " ++ toString e.size

namespace GroupingId

def ofBytes (bytes : List UInt8) : Except WrongIdSize GroupingId :=
  if h : bytes.length = groupingIdSize then .ok ⟨bytes, h⟩ else .error ⟨bytes.length⟩

/-- The leading bytes of the hash of the encoded parameters. -/
def ofParams (params : Params) : GroupingId where
  bytes := (Sha256.hash (Utf8.encode params.encode)).take groupingIdSize
  size_eq := by rw [List.length_take, Sha256.length_hash]; rfl

def written (id : GroupingId) : String := Hex.encode id.bytes

/-- The identifier with the name of its type, for diagnostics. -/
def described (id : GroupingId) : String := "GroupingId(" ++ id.written ++ ")"

/-- Whether one identifier comes before another byte by byte. -/
def before (a b : GroupingId) : Bool := (a.bytes.map UInt8.toNat) < (b.bytes.map UInt8.toNat)

theorem ofBytes_bytes (id : GroupingId) : ofBytes id.bytes = .ok id := by
  simp [ofBytes, id.size_eq]

end GroupingId

end LeaseQueue
