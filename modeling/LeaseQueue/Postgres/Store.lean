import LeaseQueue.Postgres.Queue
import LeaseQueue.Postgres.Transaction
import LeaseQueue.Store.Call
import LeaseQueue.Store.Retry
/-! The work store on a server. Claims, completions and most of the producer's operations run as
serializable transactions, which are run again after a conflict; single statements are sent on
their own. -/
namespace LeaseQueue.Postgres

structure StoreSettings where
  retry : RetryPolicy
  /-- How far in the past candidates are read. -/
  staleRead : Option Duration

/-- An operation of the store: a session that can fail. -/
abbrev Operation := Attempt StoreError

namespace Operation

variable {α : Type}

/-- Goes on with a result, or ends with its error. -/
def ofResult (result : Except StoreError α) : Operation α := Session.ended result

/-- Sends one statement outside of a transaction. -/
def send (statement : Statement) : Operation Reply := Attempt.send .queryFailed statement

/-- Goes on with what was read, or fails like the statement it was read from. -/
def ofRead (read : Except DatabaseError α) : Operation α := Attempt.ofRead .queryFailed read

/-- Runs a body as a serializable transaction, again after each conflict. -/
def retried (settings : StoreSettings) (operation : String) (body : Attempt DatabaseError α) :
    Operation α := ExceptT.mk (settings.retry.run operation (serializable body))

/-- Sends statements as a serializable transaction and passes over their replies. -/
def execute (settings : StoreSettings) (operation : String) (statements : List Statement) :
    Operation Unit := retried settings operation (Attempt.sendAll id statements)

end Operation

open Operation (ofResult send ofRead retried execute)

/-- Reads the first row, if there is one. -/
def firstRow {α : Type} (read : Row → Except DatabaseError α) (reply : Reply) :
    Except DatabaseError (Option α) :=
  match reply.rows with
  | [] => .ok none
  | row :: _ => (read row).map some

/-- Reads the first row within a transaction. -/
def fetchFirst {α : Type} (read : Row → Except DatabaseError α) (statement : Statement) :
    Attempt DatabaseError (Option α) := do
  let reply ← Attempt.send id statement
  Attempt.ofRead id (firstRow read reply)

/-- A row of review-branch work as it is read. Its key may be no identifier. -/
structure RawWork where
  branch : String
  key : List UInt8
  digests : List Digest

def readKey (row : Row) : Except DatabaseError (List UInt8) := columnAt asBytes 0 "grouping_id" row

def readRawWork (row : Row) : Except DatabaseError RawWork := do
  let branch ← columnAt asText 0 "branch_name" row
  let key ← columnAt asBytes 1 "grouping_id" row
  let digests ← columnAt asDigests 2 "digests" row
  return { branch, key, digests }

def RawWork.toWork (raw : RawWork) : Except StoreError SecondaryWork :=
  (Store.readId raw.key).map fun grouping => ⟨raw.branch, grouping, raw.digests⟩

/-- Reads a candidate. Its key is checked before its digests are read. -/
def readCandidate (row : Row) : Except StoreError SecondaryWork := do
  let branch ← (columnNamed asText "branch_name" row).mapError .queryFailed
  let key ← (columnNamed asBytes "grouping_id" row).mapError .queryFailed
  let grouping ← Store.readId key
  let digests ← (columnNamed asDigests "digests" row).mapError .queryFailed
  return { branch, grouping, digests }

/-- One attempt at leasing the oldest stale grouping of the primary branch. -/
def claimPrimaryOnce (now stale ends : Instant) : Attempt DatabaseError (Option (List UInt8)) := do
  match ← fetchFirst readKey (.selectPrimary now stale) with
  | none => return none
  | some key =>
    let _ ← Attempt.send id (.leasePrimary key ends)
    return some key

def claimPrimary (settings : StoreSettings) (now : Instant) (staleness lease : Span) :
    Operation (Option GroupingId) := do
  let stale ← ofResult (staleCutoff now staleness)
  let ends ← ofResult (leaseEnd now lease)
  match ← retried settings "claim_primary_work" (claimPrimaryOnce now stale ends) with
  | none => return none
  | some key => ofResult ((Store.readId key).map some)

def completePrimary (settings : StoreSettings) (grouping : GroupingId) (now : Instant) :
    Operation Unit :=
  execute settings "complete_primary_work" [.completePrimary grouping now]

/-- One attempt at leasing the oldest due row of review-branch work. -/
def claimOldestOnce (now ends : Instant) : Attempt DatabaseError (Option RawWork) := do
  match ← fetchFirst readRawWork (.selectOldest now) with
  | none => return none
  | some raw =>
    let _ ← Attempt.send id (.leaseOldest raw.branch raw.key ends)
    return some raw

def claimOldest (settings : StoreSettings) (now : Instant) (lease : Span) :
    Operation (Option SecondaryWork) := do
  let ends ← ofResult (leaseEnd now lease)
  match ← retried settings "claim_secondary_work_low_contention" (claimOldestOnce now ends) with
  | none => return none
  | some raw => ofResult (raw.toWork.map some)

def candidates (settings : StoreSettings) (now : Instant) (limit : Nat) :
    Operation (List SecondaryWork) := do
  let reply ← send (.selectCandidates settings.staleRead now limit)
  ofResult (reply.rows.mapM readCandidate)

def leaseSecondary (settings : StoreSettings) (branch : String) (grouping : GroupingId)
    (now : Instant) (lease : Span) : Operation (Option (List Digest)) := do
  let ends ← ofResult (leaseEnd now lease)
  retried settings "lease_secondary_work"
    (fetchFirst (columnAt asDigests 0 "digests") (.leaseDue branch grouping ends now))

/-- Reads candidates and leases one of them, which may be lost to another worker meanwhile. -/
def claimRandom (settings : StoreSettings) (choice : Nat) (now : Instant) (lease : Span) :
    Operation (Option SecondaryWork) := do
  let works ← candidates settings now Store.candidateCount
  match Store.pick choice works with
  | none => return none
  | some work =>
    let digests? ← leaseSecondary settings work.branch work.grouping now lease
    return digests?.map fun digests => { work with digests }

def completeSecondary (settings : StoreSettings) (branch : String) (grouping : GroupingId)
    (now : Instant) : Operation Unit :=
  execute settings "complete_secondary_work" [.completeSecondary branch grouping now]

def groupingParams (grouping : GroupingId) : Operation (Option Params) := do
  let reply ← send (.selectParams grouping)
  ofRead (firstRow (columnAt asParams 0 "keys") reply)

def putGrouping (grouping : GroupingId) (params : Params) : Operation Unit := do
  let _ ← send (.insertGrouping grouping params)

def ensurePrimary (settings : StoreSettings) (groupings : List GroupingId) : Operation Unit :=
  execute settings "ensure_primary_work" (groupings.map .insertPrimary)

def upsertSecondary (settings : StoreSettings) (branch : String) (grouping : GroupingId)
    (digests : List Digest) (updated : Instant) : Operation Unit :=
  execute settings "upsert_secondary_work" [.upsertSecondary branch grouping digests updated]

def retireBranch (branch : String) : Operation Nat := do
  let reply ← send (.deleteBranch branch)
  return reply.affected

def primaryRow (grouping : GroupingId) : Operation (Option PrimarySnapshot) := do
  let reply ← send (.selectPrimaryRow grouping)
  ofRead <| reply |> firstRow fun row => do
    let calculated ← columnAt asInstant 0 "last_calculated_ts" row
    let leaseEnds ← columnAt asInstant 1 "calculation_lease_ends" row
    return { grouping, calculated, leaseEnds }

def secondaryRow (branch : String) (grouping : GroupingId) :
    Operation (Option SecondarySnapshot) := do
  let reply ← send (.selectSecondaryRow branch grouping)
  ofRead <| reply |> firstRow fun row => do
    let digests ← columnAt asDigests 0 "digests" row
    let updated ← columnAt asInstant 1 "last_updated_ts" row
    let calculated ← columnAt asInstant 2 "last_calculated_ts" row
    let leaseEnds ← columnAt asInstant 3 "calculation_lease_ends" row
    return { branch, grouping, digests, updated, calculated, leaseEnds }

/-- The result of an operation as an answer of a certain kind. -/
def answering {α : Type} (kind : α → StoreAnswer) (operation : Operation α) :
    Operation StoreAnswer := do
  return kind (← operation)

def perform (settings : StoreSettings) : StoreCall → Operation StoreAnswer
  | .putGrouping grouping params => answering (fun _ => .done) (putGrouping grouping params)
  | .groupingParams grouping => answering .params (groupingParams grouping)
  | .ensurePrimary groupings => answering (fun _ => .done) (ensurePrimary settings groupings)
  | .upsertSecondary work updated =>
    answering (fun _ => .done)
      (upsertSecondary settings work.branch work.grouping work.digests updated)
  | .retireBranch branch => answering .removed (retireBranch branch)
  | .primaryRow grouping => answering .primaryRow (primaryRow grouping)
  | .secondaryRow branch grouping => answering .secondaryRow (secondaryRow branch grouping)
  | .claimPrimary now staleness lease =>
    answering .primaryWork (claimPrimary settings now staleness lease)
  | .completePrimary grouping now =>
    answering (fun _ => .done) (completePrimary settings grouping now)
  | .claimOldest now lease => answering .secondaryWork (claimOldest settings now lease)
  | .claimRandom choice now lease =>
    answering .secondaryWork (claimRandom settings choice now lease)
  | .candidates now limit => answering .candidates (candidates settings now limit)
  | .leaseSecondary branch grouping now lease =>
    answering .digests (leaseSecondary settings branch grouping now lease)
  | .completeSecondary branch grouping now =>
    answering (fun _ => .done) (completeSecondary settings branch grouping now)

end LeaseQueue.Postgres
