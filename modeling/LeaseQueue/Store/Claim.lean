import LeaseQueue.Store.Table
/-! Claims, leases and completions. A claim takes the row calculated longest ago among those whose
lease has ended and writes the end of a new lease in the same step, so a row has one holder at a
time. Every operation returns its result and the store after it. -/
namespace LeaseQueue.Store

/-- Rows of primary-branch work, oldest calculation first and then in order of insertion. -/
def primaryByAge (s : Store) : List PrimaryRow :=
  s.primary.mergeSort fun a b => decide (a.calculated ≤ b.calculated)

/-- Rows of review-branch work, oldest calculation first and then in order of insertion. -/
def secondaryByAge (s : Store) : List SecondaryRow :=
  s.secondary.mergeSort fun a b => decide (a.calculated ≤ b.calculated)

def setPrimaryLease (s : Store) (key : List UInt8) (ends : Int) : Store :=
  { s with
    primary := s.primary.map fun row => if row.key = key then { row with leaseEnds := ends } else row }

def setSecondaryLease (s : Store) (branch : String) (key : List UInt8) (ends : Int) : Store :=
  { s with
    secondary := s.secondary.map fun row =>
      if row.hasKey branch key then { row with leaseEnds := ends } else row }

/-- Leases the primary-branch grouping calculated longest ago whose lease has ended and whose last
calculation lies before `now - staleness`. Times are compared as they are stored. -/
def claimPrimary (s : Store) (now : Instant) (staleness lease : Span) :
    Except StoreError (Option GroupingId) × Store :=
  match staleCutoff now staleness with
  | .error e => (.error e, s)
  | .ok stale =>
    match leaseEnd now lease with
    | .error e => (.error e, s)
    | .ok ends =>
      match s.primaryByAge.find? (PrimaryRow.isDue now.millis stale.millis) with
      | none => (.ok none, s)
      | some row => ((readId row.key).map some, s.setPrimaryLease row.key ends.millis)

/-- Records a calculation of a primary-branch grouping. Its lease is left alone. -/
def completePrimary (s : Store) (grouping : GroupingId) (now : Instant) : Store :=
  { s with
    primary := s.primary.map fun row =>
      if row.key = grouping.bytes then { row with calculated := now.millis } else row }

/-- The first `limit` rows that are due. No row is looked at after them. -/
def firstDue (now : Int) : Nat → List SecondaryRow → Except StoreError (List SecondaryRow)
  | 0, _ => .ok []
  | _, [] => .ok []
  | limit + 1, row :: rest =>
    match row.isDue? now with
    | none => .error malformedText
    | some true => (firstDue now limit rest).map (row :: ·)
    | some false => firstDue now (limit + 1) rest

/-- Leases the oldest due row of review-branch work in one step. -/
def claimOldest (s : Store) (now : Instant) (lease : Span) :
    Except StoreError (Option SecondaryWork) × Store :=
  match leaseEnd now lease with
  | .error e => (.error e, s)
  | .ok ends =>
    match firstDue now.millis 1 s.secondaryByAge with
    | .error e => (.error e, s)
    | .ok [] => (.ok none, s)
    | .ok (row :: _) => (row.work.map some, s.setSecondaryLease row.branch row.key ends.millis)

/-- The largest limit that the database takes for one; a larger one is no limit. -/
def maxLimit : Nat := 9223372036854775807

/-- Reads up to `limit` of the oldest due rows without leasing them. -/
def candidates (s : Store) (now : Instant) (limit : Nat) : Except StoreError (List SecondaryWork) :=
  let count := if limit ≤ maxLimit then limit else s.secondary.length
  (firstDue now.millis count s.secondaryByAge).bind fun rows => rows.mapM SecondaryRow.work

/-- Leases one row of review-branch work if it is still due, and returns its digests as they are
now, which may be newer than the ones a candidate was read with. -/
def leaseSecondary (s : Store) (branch : String) (grouping : GroupingId) (now : Instant)
    (lease : Span) : Except StoreError (Option (List Digest)) × Store :=
  match leaseEnd now lease with
  | .error e => (.error e, s)
  | .ok ends =>
    match s.secondary.find? (SecondaryRow.hasKey branch grouping.bytes) with
    | none => (.ok none, s)
    | some row =>
      match row.isDue? now.millis with
      | none => (.error malformedText, s)
      | some false => (.ok none, s)
      | some true =>
        ((readDigests row.digests).map some,
          s.setSecondaryLease branch grouping.bytes ends.millis)

/-- How many of the oldest due rows a random claim picks from: enough that two workers rarely pick
the same. -/
def candidateCount : Nat := 50

/-- The candidate at the place that a choice denotes, counted round the list. -/
def pick (choice : Nat) (works : List SecondaryWork) : Option SecondaryWork :=
  works[choice % works.length]?

/-- Leases a candidate that was read before. Losing it to another worker meanwhile gives nothing. -/
def leaseCandidate (s : Store) (work : SecondaryWork) (now : Instant) (lease : Span) :
    Except StoreError (Option SecondaryWork) × Store :=
  match s.leaseSecondary work.branch work.grouping now lease with
  | (.error e, s) => (.error e, s)
  | (.ok none, s) => (.ok none, s)
  | (.ok (some digests), s) => (.ok (some { work with digests }), s)

/-- Leases one of the given candidates, which may be out of date. -/
def claimAmong (s : Store) (works : List SecondaryWork) (choice : Nat) (now : Instant)
    (lease : Span) : Except StoreError (Option SecondaryWork) × Store :=
  match pick choice works with
  | none => (.ok none, s)
  | some work => s.leaseCandidate work now lease

/-- Reads candidates and leases one of them. -/
def claimRandom (s : Store) (choice : Nat) (now : Instant) (lease : Span) :
    Except StoreError (Option SecondaryWork) × Store :=
  match s.candidates now candidateCount with
  | .error e => (.error e, s)
  | .ok works => s.claimAmong works choice now lease

/-- Claims at random until nothing is due or a claim fails, at most `limit` times. -/
def claimAll (s : Store) (now : Instant) (lease : Span) :
    Nat → Except StoreError (List SecondaryWork) × Store
  | 0 => (.ok [], s)
  | limit + 1 =>
    match s.claimRandom 0 now lease with
    | (.error e, s) => (.error e, s)
    | (.ok none, s) => (.ok [], s)
    | (.ok (some work), s) =>
      let (rest, s) := claimAll s now lease limit
      (rest.map (work :: ·), s)

/-- What so many workers win who claim one after the other. -/
def winnings {α : Type} (claim : Store → Except StoreError (Option α) × Store) :
    Nat → Store → List α × Store
  | 0, s => ([], s)
  | workers + 1, s =>
    match claim s with
    | (.ok (some won), s) =>
      let (rest, s) := winnings claim workers s
      (won :: rest, s)
    | (_, s) => winnings claim workers s

/-- Records a calculation of review-branch work. -/
def completeSecondary (s : Store) (branch : String) (grouping : GroupingId) (now : Instant) : Store :=
  { s with
    secondary := s.secondary.map fun row =>
      if row.hasKey branch grouping.bytes then { row with calculated := now.millis } else row }

end LeaseQueue.Store
