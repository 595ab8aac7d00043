import LeaseQueue.Proofs.Grouping.Uses
/-! The cache of groupings behind its index and its ticks: one list in the order of last use. What a
caller sees of the two is the same after every call. -/
namespace LeaseQueue

/-- What a caller asks of a cache. -/
inductive CacheCall where
  | get (id : GroupingId)
  | insert (id : GroupingId) (params : Params)

def CacheCall.isGet : CacheCall → Bool
  | .get _ => true
  | .insert _ _ => false

/-- What a caller sees of a cache after a call. Only a look-up finds anything. -/
structure CacheReport where
  found : Option Params
  size : Nat
  isEmpty : Bool
  stats : CacheStats

/-- A cache that keeps its items in the order of their last use, the latest first. -/
structure RecencyList where
  capacity : Nat
  items : List (GroupingId × Params)
  stats : CacheStats

namespace RecencyList

def empty (capacity : Nat) : RecencyList := ⟨capacity, [], ⟨0, 0, 0, 0⟩⟩

/-- Puts an item at the front, from wherever it was. -/
def toFront (l : RecencyList) (id : GroupingId) (params : Params) : RecencyList :=
  { l with items := (id, params) :: l.items.filter fun item => item.1 ≠ id }

def get (l : RecencyList) (id : GroupingId) : Option Params × RecencyList :=
  match l.items.lookup id with
  | some params =>
    (some params, { l.toFront id params with stats := { l.stats with hits := l.stats.hits + 1 } })
  | none => (none, { l with stats := { l.stats with misses := l.stats.misses + 1 } })

/-- A present item keeps its parameters. For an absent one the last items are dropped until fewer
are left than the list may hold. -/
def insert (l : RecencyList) (id : GroupingId) (params : Params) : RecencyList :=
  if l.capacity = 0 then l
  else
    match l.items.lookup id with
    | some kept => l.toFront id kept
    | none =>
      let left := l.items.take (l.capacity - 1)
      { l with
        items := (id, params) :: left
        stats :=
          { l.stats with
            added := l.stats.added + 1
            evicted := l.stats.evicted + (l.items.length - left.length) } }

def perform (l : RecencyList) : CacheCall → Option Params × RecencyList
  | .get id => l.get id
  | .insert id params => (none, l.insert id params)

def report (l : RecencyList) (found : Option Params) : CacheReport :=
  ⟨found, l.items.length, l.items.isEmpty, l.stats⟩

/-- What a caller sees, call by call. -/
def reports (l : RecencyList) : List CacheCall → List CacheReport
  | [] => []
  | call :: calls =>
    (l.perform call).2.report (l.perform call).1 :: (l.perform call).2.reports calls

end RecencyList

namespace GroupingCache

def perform (c : GroupingCache) : CacheCall → Option Params × GroupingCache
  | .get id => c.get id
  | .insert id params => (none, c.insert id params)

def report (c : GroupingCache) (found : Option Params) : CacheReport :=
  ⟨found, c.size, c.isEmpty, c.stats⟩

/-- What a caller sees, call by call. -/
def reports (c : GroupingCache) : List CacheCall → List CacheReport
  | [] => []
  | call :: calls =>
    (c.perform call).2.report (c.perform call).1 :: (c.perform call).2.reports calls

def after (c : GroupingCache) : List CacheCall → GroupingCache
  | [] => c
  | call :: calls => (c.perform call).2.after calls

variable {c : GroupingCache} {uses : List CacheUse} {id : GroupingId}

/-- The cache with its items in the order of their last use. -/
def ordered (c : GroupingCache) (uses : List CacheUse) : RecencyList :=
  ⟨c.capacity, latestFirst CacheUse.item uses, c.stats⟩

namespace Tracks

theorem lookup_present (tracks : c.Tracks uses) {u : CacheUse} (member : u ∈ uses) :
    (latestFirst CacheUse.item uses).lookup u.id = some u.params := by
  have keys : (latestFirst CacheUse.item uses).map Prod.fst = (uses.map CacheUse.id).reverse := by
    rw [latestFirst, List.map_reverse, List.map_map]
    rfl
  apply lookup_eq_some_of_mem
  · rw [keys, List.nodup_reverse]
    exact tracks.ids
  · exact (mem_latestFirst CacheUse.item uses).mpr ⟨u, member, rfl⟩

theorem lookup_absent (absent : id ∉ uses.map CacheUse.id) :
    (latestFirst CacheUse.item uses).lookup id = none := by
  apply List.lookup_eq_none_iff.mpr
  intro item member
  obtain ⟨u, other, rfl⟩ := (mem_latestFirst CacheUse.item uses).mp member
  rw [bne_iff_ne]
  intro same
  exact absent (List.mem_map.mpr ⟨u, other, same.symm⟩)

theorem items_others (id : GroupingId) (uses : List CacheUse) :
    latestFirst CacheUse.item (others id uses) =
      (latestFirst CacheUse.item uses).filter fun item => item.1 ≠ id :=
  latestFirst_others CacheUse.item uses id _ fun _ => rfl

/-- A look-up finds the same in the list, and leaves it as the uses then tell. -/
theorem get_ordered (tracks : c.Tracks uses) (id : GroupingId) :
    ∃ later, (c.get id).2.Tracks later ∧
      (c.ordered uses).get id = ((c.get id).1, (c.get id).2.ordered later) := by
  by_cases present : id ∈ uses.map CacheUse.id
  · obtain ⟨u, member, rfl⟩ := List.mem_map.mp present
    obtain ⟨next, found, tracked, capacity, _, stats⟩ := tracks.get_present member
    rw [found]
    refine ⟨_, tracked, ?_⟩
    simp only [RecencyList.get, ordered, tracks.lookup_present member, RecencyList.toFront,
      latestFirst_append, items_others, CacheUse.item, capacity, stats]
  · obtain ⟨next, found, tracked, capacity, _, stats⟩ := tracks.get_absent present
    rw [found]
    refine ⟨_, tracked, ?_⟩
    simp only [RecencyList.get, ordered, lookup_absent present, capacity, stats]

theorem insert_ordered (tracks : c.Tracks uses) (id : GroupingId) (params : Params) :
    ∃ later, (c.insert id params).Tracks later ∧
      (c.ordered uses).insert id params = (c.insert id params).ordered later := by
  by_cases none : c.capacity = 0
  · rw [insert_without_capacity none]
    exact ⟨uses, tracks, by rw [RecencyList.insert, ordered, if_pos none]⟩
  have positive : 0 < c.capacity := Nat.pos_of_ne_zero none
  by_cases present : id ∈ uses.map CacheUse.id
  · obtain ⟨u, member, rfl⟩ := List.mem_map.mp present
    obtain ⟨tracked, capacity, _, stats⟩ := tracks.insert_present positive member params
    refine ⟨_, tracked, ?_⟩
    simp only [RecencyList.insert, ordered, none, if_false, tracks.lookup_present member,
      RecencyList.toFront, latestFirst_append, items_others, CacheUse.item, capacity, stats]
  · obtain ⟨tracked, capacity, _, stats⟩ := tracks.insert_absent positive present params
    refine ⟨_, tracked, ?_⟩
    -- As many uses are dropped as items are too many.
    have dropped : uses.length - ((latestFirst CacheUse.item uses).take (c.capacity - 1)).length =
        uses.length + 1 - c.capacity := by
      rw [List.length_take, length_latestFirst]
      omega
    simp only [RecencyList.insert, ordered, none, if_false, lookup_absent present,
      latestFirst_append, latestFirst_drop _ _ positive, length_latestFirst, capacity, stats,
      dropped]
    rfl

theorem perform_ordered (tracks : c.Tracks uses) (call : CacheCall) :
    ∃ later, (c.perform call).2.Tracks later ∧
      (c.ordered uses).perform call = ((c.perform call).1, (c.perform call).2.ordered later) := by
  cases call with
  | get id => exact tracks.get_ordered id
  | insert id params =>
    obtain ⟨later, tracked, same⟩ := tracks.insert_ordered id params
    exact ⟨later, tracked, congrArg (Prod.mk _) same⟩

theorem report_ordered (tracks : c.Tracks uses) (found : Option Params) :
    (c.ordered uses).report found = c.report found := by
  have size : c.size = (latestFirst CacheUse.item uses).length :=
    tracks.size.trans (length_latestFirst CacheUse.item uses).symm
  have isEmpty : c.isEmpty = (latestFirst CacheUse.item uses).isEmpty := by
    rw [GroupingCache.isEmpty, size]
    cases latestFirst CacheUse.item uses <;> rfl
  rw [GroupingCache.report, size, isEmpty]
  rfl

theorem reports_ordered (tracks : c.Tracks uses) (calls : List CacheCall) :
    c.reports calls = (c.ordered uses).reports calls := by
  induction calls generalizing c uses with
  | nil => rfl
  | cons call calls ih =>
    obtain ⟨later, tracked, same⟩ := tracks.perform_ordered call
    rw [GroupingCache.reports, RecencyList.reports, same, tracked.report_ordered, ih tracked]

end Tracks

/-! What the counters of a cache tell of the calls that were made. -/

/-- A cache of a capacity after so many look-ups among so many calls. -/
structure Accounted (capacity : Nat) (c : GroupingCache) (gets calls : Nat) : Prop where
  kept : c.capacity = capacity
  bounded : c.size ≤ capacity
  balanced : c.stats.added = c.stats.evicted + c.size
  counted : c.stats.hits + c.stats.misses = gets
  ticked : c.nextTick ≤ calls
  filled : c.stats.added ≤ calls

namespace Accounted

variable {most gets calls : Nat}

theorem get (accounted : Accounted most c gets calls) (tracks : c.Tracks uses) (id : GroupingId) :
    Accounted most (c.get id).2 (gets + 1) (calls + 1) := by
  obtain ⟨kept, bounded, balanced, counted, ticked, filled⟩ := accounted
  have size := tracks.size
  by_cases present : id ∈ uses.map CacheUse.id
  · obtain ⟨u, member, rfl⟩ := List.mem_map.mp present
    obtain ⟨next, found, tracked, capacity, tick, stats⟩ := tracks.get_present member
    -- One use is moved, so there are as many as before.
    have moved := tracks.length_others member
    have same := tracked.size
    rw [List.length_append, List.length_singleton] at same
    simp only [found]
    refine ⟨capacity.trans kept, by omega, ?_, ?_, by omega, ?_⟩ <;> rw [stats] <;> simp only <;>
      omega
  · obtain ⟨next, found, tracked, capacity, tick, stats⟩ := tracks.get_absent present
    have same := tracked.size
    simp only [found]
    refine ⟨capacity.trans kept, by omega, ?_, ?_, by omega, ?_⟩ <;> rw [stats] <;> simp only <;>
      omega

theorem insert (accounted : Accounted most c gets calls) (tracks : c.Tracks uses) (id : GroupingId)
    (params : Params) : Accounted most (c.insert id params) gets (calls + 1) := by
  obtain ⟨kept, bounded, balanced, counted, ticked, filled⟩ := accounted
  have size := tracks.size
  by_cases none : c.capacity = 0
  · rw [insert_without_capacity none]
    exact ⟨kept, bounded, balanced, counted, Nat.le_succ_of_le ticked, Nat.le_succ_of_le filled⟩
  have positive : 0 < c.capacity := Nat.pos_of_ne_zero none
  by_cases present : id ∈ uses.map CacheUse.id
  · obtain ⟨u, member, rfl⟩ := List.mem_map.mp present
    obtain ⟨tracked, capacity, tick, stats⟩ := tracks.insert_present positive member params
    have moved := tracks.length_others member
    have same := tracked.size
    rw [List.length_append, List.length_singleton] at same
    refine ⟨capacity.trans kept, by omega, ?_, ?_, by omega, ?_⟩ <;> rw [stats] <;> omega
  · obtain ⟨tracked, capacity, tick, stats⟩ := tracks.insert_absent positive present params
    have same := tracked.size
    rw [List.length_append, List.length_singleton, List.length_drop] at same
    refine ⟨capacity.trans kept, by omega, ?_, ?_, by omega, ?_⟩ <;> rw [stats] <;> simp only <;>
      omega

theorem perform (accounted : Accounted most c gets calls) (tracks : c.Tracks uses)
    (call : CacheCall) :
    Accounted most (c.perform call).2 (gets + if call.isGet then 1 else 0) (calls + 1) := by
  cases call with
  | get id => exact accounted.get tracks id
  | insert id params => exact accounted.insert tracks id params

end Accounted

theorem Tracks.after (tracks : c.Tracks uses) {most gets made : Nat}
    (accounted : Accounted most c gets made) (calls : List CacheCall) :
    Accounted most (c.after calls) (gets + calls.countP CacheCall.isGet) (made + calls.length) := by
  induction calls generalizing c uses gets made with
  | nil => exact accounted
  | cons call calls ih =>
    obtain ⟨later, tracked, _⟩ := tracks.perform_ordered call
    have rest := ih tracked (accounted.perform tracks call)
    rw [List.countP_cons, List.length_cons, Nat.add_comm (calls.countP _), ← Nat.add_assoc,
      Nat.add_comm calls.length, ← Nat.add_assoc]
    exact rest

/-- Through any calls, a cache shows what the list in the order of last use shows. It never holds
more than it may, what was added and not evicted is there, and each look-up is counted once. Neither
the ticks nor the counters run ahead of the calls. -/
theorem shows_recency_list (capacity : Nat) (calls : List CacheCall) :
    let cache := (empty capacity).after calls
    (empty capacity).reports calls = (RecencyList.empty capacity).reports calls ∧
      cache.size ≤ capacity ∧
      cache.stats.added = cache.stats.evicted + cache.size ∧
      cache.stats.hits + cache.stats.misses = calls.countP CacheCall.isGet ∧
      cache.nextTick ≤ calls.length ∧ cache.stats.added ≤ calls.length := by
  have tracks := tracks_empty capacity
  have fresh : Accounted capacity (empty capacity) 0 0 :=
    ⟨rfl, Nat.zero_le _, rfl, rfl, Nat.le_refl 0, Nat.le_refl 0⟩
  obtain ⟨_, bounded, balanced, counted, ticked, filled⟩ := tracks.after fresh calls
  rw [Nat.zero_add] at counted ticked filled
  exact ⟨tracks.reports_ordered calls, bounded, balanced, counted, ticked, filled⟩

end GroupingCache

end LeaseQueue
