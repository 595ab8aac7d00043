import LeaseQueue.Grouping.Cache
import LeaseQueue.Store.Error
/-! Resolving a grouping to its parameters in three separate steps: a look into the cache, a look-up
in the store if that misses, and the insertion of what the store answered. Other work may go on
between the steps. -/
namespace LeaseQueue

/-- Why a grouping has no parameters. -/
inductive ResolveError where
  | unknownGrouping (id : GroupingId)
  | store (cause : StoreError)
deriving DecidableEq

def ResolveError.message : ResolveError → String
  | .unknownGrouping id => "Grouping " ++ id.written ++ " not found"
  | .store cause => "Grouping lookup failed: " ++ cause.message

/-- How far a resolution has come. -/
inductive Resolution where
  | begun
  | missed
  | found (params : Params)
  | ended (result : Except ResolveError Params)

namespace Resolution

/-- What the store knows about each grouping. -/
abbrev Lookup := GroupingId → Except StoreError (Option Params)

/-- What an answer of the store means for a resolution that missed the cache. -/
def ofAnswer (id : GroupingId) : Except StoreError (Option Params) → Resolution
  | .error cause => .ended (.error (.store cause))
  | .ok none => .ended (.error (.unknownGrouping id))
  | .ok (some params) => .found params

/-- One step. Only the step after a miss looks into the store. -/
def step (lookup : Lookup) (id : GroupingId) (cache : GroupingCache) :
    Resolution → Resolution × GroupingCache
  | .begun =>
    match cache.get id with
    | (some params, cache) => (.ended (.ok params), cache)
    | (none, cache) => (.missed, cache)
  | .missed => (ofAnswer id (lookup id), cache)
  | .found params => (.ended (.ok params), cache.insert id params)
  | .ended result => (.ended result, cache)

end Resolution

/-- Resolves a grouping without interruption. -/
def GroupingCache.resolve (cache : GroupingCache) (lookup : Resolution.Lookup) (id : GroupingId) :
    Except ResolveError Params × GroupingCache :=
  match cache.get id with
  | (some params, cache) => (.ok params, cache)
  | (none, cache) =>
    match Resolution.ofAnswer id (lookup id) with
    | .found params => (.ok params, cache.insert id params)
    | .ended result => (result, cache)
    | _ => (.error (.unknownGrouping id), cache)

end LeaseQueue
