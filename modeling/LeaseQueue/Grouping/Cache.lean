import LeaseQueue.Grouping.Id
/-! A bounded cache of the parameters of groupings that makes room by dropping the entry that was
not used for longest. Every use of an entry gives it a new tick, and an index from ticks to
identifiers, oldest first, tells which entry goes next. -/
namespace LeaseQueue

/-- Parameters in the cache, with the tick of their last use. -/
structure CacheEntry where
  params : Params
  tick : Nat

structure CacheStats where
  hits : Nat
  misses : Nat
  added : Nat
  evicted : Nat
deriving DecidableEq

/-- The share of the look-ups that found an entry, zero before the first. -/
def CacheStats.hitRate (s : CacheStats) : Float :=
  if s.hits + s.misses = 0 then 0.0
  else (UInt64.ofNat s.hits).toFloat / (UInt64.ofNat (s.hits + s.misses)).toFloat

/-- A cache that holds at most `capacity` entries; none at all if that is zero. -/
structure GroupingCache where
  capacity : Nat
  /-- One entry per identifier. -/
  entries : List (GroupingId × CacheEntry)
  /-- The tick of every entry with its identifier, oldest first. -/
  recency : List (Nat × GroupingId)
  nextTick : Nat
  stats : CacheStats

namespace GroupingCache

def defaultCapacity : Nat := 100000

def empty (capacity : Nat) : GroupingCache :=
  { capacity, entries := [], recency := [], nextTick := 0, stats := ⟨0, 0, 0, 0⟩ }

def size (c : GroupingCache) : Nat := c.entries.length

def isEmpty (c : GroupingCache) : Bool := c.size = 0

def entry? (c : GroupingCache) (id : GroupingId) : Option CacheEntry := c.entries.lookup id

/-- Gives a present entry the next tick and returns its parameters. -/
def touch (c : GroupingCache) (id : GroupingId) : Option (Params × GroupingCache) :=
  (c.entry? id).map fun entry =>
    (entry.params,
      { c with
        entries := c.entries.map fun (key, e) =>
          if key = id then (key, { e with tick := c.nextTick }) else (key, e)
        recency := (c.recency.filter fun (tick, _) => tick ≠ entry.tick) ++ [(c.nextTick, id)]
        nextTick := c.nextTick + 1 })

/-- Looks parameters up and counts a hit or a miss. -/
def get (c : GroupingCache) (id : GroupingId) : Option Params × GroupingCache :=
  match c.touch id with
  | some (params, c) => (some params, { c with stats := { c.stats with hits := c.stats.hits + 1 } })
  | none => (none, { c with stats := { c.stats with misses := c.stats.misses + 1 } })

/-- Drops entries in the order of the index, which the list repeats, until there is room for one
more. -/
def makeRoom (c : GroupingCache) : List (Nat × GroupingId) → GroupingCache
  | [] => c
  | (_, oldest) :: rest =>
    if c.size < c.capacity then c
    else
      makeRoom
        { c with
          entries := c.entries.filter fun (key, _) => key ≠ oldest
          recency := rest
          stats := { c.stats with evicted := c.stats.evicted + 1 } } rest

/-- Adds parameters under a new tick. -/
def add (c : GroupingCache) (id : GroupingId) (params : Params) : GroupingCache :=
  { c with
    entries := (id, { params, tick := c.nextTick }) :: c.entries
    recency := c.recency ++ [(c.nextTick, id)]
    nextTick := c.nextTick + 1
    stats := { c.stats with added := c.stats.added + 1 } }

/-- Inserts parameters. An entry that is present keeps its own and only counts as used. -/
def insert (c : GroupingCache) (id : GroupingId) (params : Params) : GroupingCache :=
  if c.capacity = 0 then c
  else
    match c.touch id with
    | some (_, c) => c
    | none => (c.makeRoom c.recency).add id params

end GroupingCache

end LeaseQueue
