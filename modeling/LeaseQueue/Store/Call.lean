import LeaseQueue.Store.Claim
import LeaseQueue.Store.Producer
/-! The operations of a work store and their answers as data, and their meaning on the tables that
are kept here. -/
namespace LeaseQueue

/-- An operation of a work store. The choice of a random claim picks among candidates. -/
inductive StoreCall where
  | putGrouping (grouping : GroupingId) (params : Params)
  | groupingParams (grouping : GroupingId)
  | ensurePrimary (groupings : List GroupingId)
  | upsertSecondary (work : SecondaryWork) (updated : Instant)
  | retireBranch (branch : String)
  | primaryRow (grouping : GroupingId)
  | secondaryRow (branch : String) (grouping : GroupingId)
  | claimPrimary (now : Instant) (staleness lease : Span)
  | completePrimary (grouping : GroupingId) (now : Instant)
  | claimOldest (now : Instant) (lease : Span)
  | claimRandom (choice : Nat) (now : Instant) (lease : Span)
  | candidates (now : Instant) (limit : Nat)
  | leaseSecondary (branch : String) (grouping : GroupingId) (now : Instant) (lease : Span)
  | completeSecondary (branch : String) (grouping : GroupingId) (now : Instant)

/-- What an operation of a work store answers. -/
inductive StoreAnswer where
  | done
  | removed (rows : Nat)
  | params (params : Option Params)
  | primaryRow (row : Option PrimarySnapshot)
  | secondaryRow (row : Option SecondarySnapshot)
  | primaryWork (grouping : Option GroupingId)
  | secondaryWork (work : Option SecondaryWork)
  | candidates (works : List SecondaryWork)
  | digests (digests : Option (List Digest))
deriving DecidableEq

namespace Store

/-- A result with the store after it, as an answer of a certain kind. -/
def answering {α : Type} (kind : α → StoreAnswer) (outcome : Except StoreError α × Store) :
    Except StoreError StoreAnswer × Store :=
  (outcome.1.map kind, outcome.2)

def perform (s : Store) : StoreCall → Except StoreError StoreAnswer × Store
  | .putGrouping grouping params => (.ok .done, s.putGrouping grouping params)
  | .groupingParams grouping => answering .params (s.groupingParams grouping, s)
  | .ensurePrimary groupings => (.ok .done, s.ensurePrimary groupings)
  | .upsertSecondary work updated =>
    (.ok .done, s.upsertSecondary work.branch work.grouping work.digests updated)
  | .retireBranch branch => (.ok (.removed (s.retireBranch branch).1), (s.retireBranch branch).2)
  | .primaryRow grouping => answering .primaryRow (s.primaryRow grouping, s)
  | .secondaryRow branch grouping => answering .secondaryRow (s.secondaryRow branch grouping, s)
  | .claimPrimary now staleness lease => answering .primaryWork (s.claimPrimary now staleness lease)
  | .completePrimary grouping now => (.ok .done, s.completePrimary grouping now)
  | .claimOldest now lease => answering .secondaryWork (s.claimOldest now lease)
  | .claimRandom choice now lease => answering .secondaryWork (s.claimRandom choice now lease)
  | .candidates now limit => answering .candidates (s.candidates now limit, s)
  | .leaseSecondary branch grouping now lease =>
    answering .digests (s.leaseSecondary branch grouping now lease)
  | .completeSecondary branch grouping now => (.ok .done, s.completeSecondary branch grouping now)

end Store

end LeaseQueue
