import LeaseQueue.Decimal.Shortest
import LeaseQueue.Grouping.Id
import LeaseQueue.Postgres.Column
/-! The statements of the work store and the reading of the rows that they return. -/
namespace LeaseQueue.Postgres

/-- How long `offset` is in seconds, with three places. -/
def secondsText (offset : Duration) : String :=
  let (seconds, nanos) := offset.parts
  let length :=
    (UInt64.ofNat seconds).toFloat + (UInt64.ofNat nanos).toFloat / 1000000000.0
  Decimal.fixedText 3 (.ofBits length.toBits)

namespace Statement

def selectPrimary (now stale : Instant) : Statement where
  sql :=
    "SELECT grouping_id FROM PrimaryBranchDiffCalculationWork " ++
    "WHERE calculation_lease_ends < $1 AND last_calculated_ts < $2 " ++
    "ORDER BY last_calculated_ts ASC LIMIT 1"
  arguments := [.ofInstant now, .ofInstant stale]

def leasePrimary (key : List UInt8) (ends : Instant) : Statement where
  sql :=
    "UPDATE PrimaryBranchDiffCalculationWork SET calculation_lease_ends = $2 " ++
    "WHERE grouping_id = $1"
  arguments := [.bytes key, .ofInstant ends]

def completePrimary (grouping : GroupingId) (now : Instant) : Statement where
  sql :=
    "UPDATE PrimaryBranchDiffCalculationWork SET last_calculated_ts = $2 WHERE grouping_id = $1"
  arguments := [.bytes grouping.bytes, .ofInstant now]

/-- What makes a row of review-branch work due. -/
def dueCondition : String :=
  "last_calculated_ts < last_updated_ts AND array_length(digests, 1) > 0"

def selectOldest (now : Instant) : Statement where
  sql :=
    "SELECT branch_name, grouping_id, digests FROM SecondaryBranchDiffCalculationWork " ++
    "WHERE calculation_lease_ends < $1 AND " ++ dueCondition ++
    " ORDER BY last_calculated_ts ASC LIMIT 1"
  arguments := [.ofInstant now]

def leaseOldest (branch : String) (key : List UInt8) (ends : Instant) : Statement where
  sql :=
    "UPDATE SecondaryBranchDiffCalculationWork SET calculation_lease_ends = $3 " ++
    "WHERE branch_name = $1 AND grouping_id = $2"
  arguments := [.text branch, .bytes key, .ofInstant ends]

/-- Reads candidates, in the past if an offset is given. -/
def selectCandidates (staleRead : Option Duration) (now : Instant) (limit : Nat) : Statement where
  sql :=
    let asOf :=
      match staleRead with
      | some offset => "AS OF SYSTEM TIME '-" ++ secondsText offset ++ "s' "
      | none => ""
    "SELECT branch_name, grouping_id, digests FROM SecondaryBranchDiffCalculationWork " ++ asOf ++
    "WHERE calculation_lease_ends < $1 AND " ++ dueCondition ++
    " ORDER BY last_calculated_ts ASC LIMIT $2"
  arguments := [.ofInstant now, .ofLimit limit]

def leaseDue (branch : String) (grouping : GroupingId) (ends now : Instant) : Statement where
  sql :=
    "UPDATE SecondaryBranchDiffCalculationWork SET calculation_lease_ends = $3 " ++
    "WHERE branch_name = $1 AND grouping_id = $2 AND calculation_lease_ends < $4 AND " ++
    dueCondition ++ " RETURNING digests"
  arguments := [.text branch, .bytes grouping.bytes, .ofInstant ends, .ofInstant now]

def completeSecondary (branch : String) (grouping : GroupingId) (now : Instant) : Statement where
  sql :=
    "UPDATE SecondaryBranchDiffCalculationWork SET last_calculated_ts = $3 " ++
    "WHERE branch_name = $1 AND grouping_id = $2"
  arguments := [.text branch, .bytes grouping.bytes, .ofInstant now]

def selectParams (grouping : GroupingId) : Statement where
  sql := "SELECT keys FROM Groupings WHERE grouping_id = $1"
  arguments := [.bytes grouping.bytes]

def insertGrouping (grouping : GroupingId) (params : Params) : Statement where
  sql :=
    "INSERT INTO Groupings (grouping_id, keys) VALUES ($1, $2) " ++
    "ON CONFLICT (grouping_id) DO NOTHING"
  arguments := [.bytes grouping.bytes, .json params.encode]

def insertPrimary (grouping : GroupingId) : Statement where
  sql :=
    "INSERT INTO PrimaryBranchDiffCalculationWork " ++
    "(grouping_id, last_calculated_ts, calculation_lease_ends) VALUES ($1, $2, $2) " ++
    "ON CONFLICT (grouping_id) DO NOTHING"
  arguments := [.bytes grouping.bytes, .ofInstant .epoch]

def upsertSecondary (branch : String) (grouping : GroupingId) (digests : List Digest)
    (updated : Instant) : Statement where
  sql :=
    "INSERT INTO SecondaryBranchDiffCalculationWork " ++
    "(branch_name, grouping_id, last_updated_ts, digests, " ++
    "last_calculated_ts, calculation_lease_ends) VALUES ($1, $2, $3, $4, $5, $5) " ++
    "ON CONFLICT (branch_name, grouping_id) DO UPDATE SET " ++
    "digests = EXCLUDED.digests, last_updated_ts = EXCLUDED.last_updated_ts"
  arguments :=
    [.text branch, .bytes grouping.bytes, .ofInstant updated, .ofDigests digests, .ofInstant .epoch]

def deleteBranch (branch : String) : Statement where
  sql := "DELETE FROM SecondaryBranchDiffCalculationWork WHERE branch_name = $1"
  arguments := [.text branch]

def selectPrimaryRow (grouping : GroupingId) : Statement where
  sql :=
    "SELECT last_calculated_ts, calculation_lease_ends FROM PrimaryBranchDiffCalculationWork " ++
    "WHERE grouping_id = $1"
  arguments := [.bytes grouping.bytes]

def selectSecondaryRow (branch : String) (grouping : GroupingId) : Statement where
  sql :=
    "SELECT digests, last_updated_ts, last_calculated_ts, calculation_lease_ends " ++
    "FROM SecondaryBranchDiffCalculationWork WHERE branch_name = $1 AND grouping_id = $2"
  arguments := [.text branch, .bytes grouping.bytes]

end Statement

end LeaseQueue.Postgres
