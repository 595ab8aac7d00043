import LeaseQueue.Store.Table
/-! The operations through which work enters and leaves the store, and the reading of single
rows. -/
namespace LeaseQueue.Store

/-- Stores the parameters of a grouping, unless it has some. -/
def putGrouping (s : Store) (grouping : GroupingId) (params : Params) : Store :=
  if s.groupings.any fun row => row.key = grouping.bytes then s
  else { s with groupings := s.groupings ++ [⟨grouping.bytes, params.encode⟩] }

/-- The parameters of a grouping, if it was stored. -/
def groupingParams (s : Store) (grouping : GroupingId) : Except StoreError (Option Params) :=
  match s.groupings.find? fun row => row.key = grouping.bytes with
  | none => .ok none
  | some row => (readParams row.params).map some

/-- Adds a row that was never calculated or leased, unless the grouping has one. -/
def ensureOne (s : Store) (grouping : GroupingId) : Store :=
  if s.primary.any fun row => row.key = grouping.bytes then s
  else { s with primary := s.primary ++ [⟨grouping.bytes, beginning, beginning⟩] }

/-- Makes sure that each of the groupings has a row of primary-branch work. -/
def ensurePrimary (s : Store) (groupings : List GroupingId) : Store := groupings.foldl ensureOne s

/-- Records new digests for a branch and a grouping. An existing row keeps its place, its last
calculation and its lease. -/
def upsertSecondary (s : Store) (branch : String) (grouping : GroupingId) (digests : List Digest)
    (updated : Instant) : Store :=
  let text := Digest.encodeList digests
  if s.secondary.any (SecondaryRow.hasKey branch grouping.bytes) then
    { s with
      secondary := s.secondary.map fun row =>
        if row.hasKey branch grouping.bytes then
          { row with digests := text, updated := updated.millis }
        else row }
  else
    { s with
      secondary := s.secondary ++
        [⟨branch, grouping.bytes, text, updated.millis, beginning, beginning⟩] }

/-- Removes all rows of a branch and counts them. -/
def retireBranch (s : Store) (branch : String) : Nat × Store :=
  (s.secondary.countP fun row => row.branch = branch,
    { s with secondary := s.secondary.filter fun row => row.branch ≠ branch })

def primaryRow (s : Store) (grouping : GroupingId) : Except StoreError (Option PrimarySnapshot) :=
  match s.primary.find? fun row => row.key = grouping.bytes with
  | none => .ok none
  | some row => do
    let calculated ← readTime row.calculated
    let leaseEnds ← readTime row.leaseEnds
    return some { grouping, calculated, leaseEnds }

def secondaryRow (s : Store) (branch : String) (grouping : GroupingId) :
    Except StoreError (Option SecondarySnapshot) :=
  match s.secondary.find? (SecondaryRow.hasKey branch grouping.bytes) with
  | none => .ok none
  | some row => do
    let digests ← readDigests row.digests
    let updated ← readTime row.updated
    let calculated ← readTime row.calculated
    let leaseEnds ← readTime row.leaseEnds
    return some { branch, grouping, digests, updated, calculated, leaseEnds }

end LeaseQueue.Store
