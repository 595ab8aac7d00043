import LeaseQueue.Grouping.Digest
import LeaseQueue.Grouping.Id
import LeaseQueue.Json.Lenient
import LeaseQueue.Store.Error
/-! The tables of the work store as they are kept: rows in the order of their insertion, one per
key, times in whole milliseconds since the epoch, parameters and digests as JSON text. A row may
hold bytes and texts that no operation of this library writes; they are checked when they are
read. -/
namespace LeaseQueue

structure GroupingRow where
  key : List UInt8
  params : String
deriving DecidableEq

/-- Work of the primary branch: when the grouping was last calculated and until when it is leased. -/
structure PrimaryRow where
  key : List UInt8
  calculated : Int
  leaseEnds : Int
deriving DecidableEq

/-- Work of a review branch, for one grouping. -/
structure SecondaryRow where
  branch : String
  key : List UInt8
  digests : String
  updated : Int
  calculated : Int
  leaseEnds : Int
deriving DecidableEq

structure Store where
  groupings : List GroupingRow
  primary : List PrimaryRow
  secondary : List SecondaryRow

def Store.empty : Store := ⟨[], [], []⟩

/-- A unit of review-branch work that was claimed or may be. -/
structure SecondaryWork where
  branch : String
  grouping : GroupingId
  digests : List Digest
deriving DecidableEq

/-- A row of primary-branch work as it is read. -/
structure PrimarySnapshot where
  grouping : GroupingId
  calculated : Instant
  leaseEnds : Instant
deriving DecidableEq

/-- A row of review-branch work as it is read. -/
structure SecondarySnapshot where
  branch : String
  grouping : GroupingId
  digests : List Digest
  updated : Instant
  calculated : Instant
  leaseEnds : Instant
deriving DecidableEq

namespace Store

/-- The stored time of rows that were never calculated or leased. -/
def beginning : Int := Instant.epoch.millis

/-- A stored time outside the calendar cannot be read. -/
def readTime (ms : Int) : Except StoreError Instant :=
  match Instant.ofMillis? ms with
  | some t => .ok t
  | none => .error (.invalidRow ("timestamp out of range: " ++ toString ms))

def readId (key : List UInt8) : Except StoreError GroupingId :=
  (GroupingId.ofBytes key).mapError fun e => .invalidRow e.message

def readDigests (text : String) : Except StoreError (List Digest) :=
  (Digest.decodeList text).mapError fun e => .invalidRow e.message

def readParams (text : String) : Except StoreError Params :=
  (Params.decode text).mapError fun e => .invalidRow e.message

/-- The failure of a statement that asks for the length of a text that is no JSON. -/
def malformedText : StoreError :=
  .queryFailed (.rejected (some "1") "(code: 1) malformed JSON")

end Store

namespace PrimaryRow

/-- Whether the lease has ended and the last calculation lies before `stale`. -/
def isDue (now stale : Int) (row : PrimaryRow) : Bool :=
  row.leaseEnds < now && row.calculated < stale

end PrimaryRow

namespace SecondaryRow

/-- Whether the row has this key. -/
def hasKey (branch : String) (key : List UInt8) (row : SecondaryRow) : Bool :=
  row.branch = branch && row.key = key

/-- Whether the lease has ended, the digests are newer than the last calculation, and there are
any. It is unknown where the text of the digests is looked at and is no JSON. -/
def isDue? (now : Int) (row : SecondaryRow) : Option Bool :=
  if row.leaseEnds < now ∧ row.calculated < row.updated then
    (Json.Lenient.arrayLength? row.digests).map fun length => decide (0 < length)
  else some false

/-- Reads the row as a unit of work: first its identifier, then its digests. -/
def work (row : SecondaryRow) : Except StoreError SecondaryWork := do
  let grouping ← Store.readId row.key
  let digests ← Store.readDigests row.digests
  return { branch := row.branch, grouping, digests }

end SecondaryRow

end LeaseQueue
