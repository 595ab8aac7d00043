import LeaseQueue.Grouping.Cache
import LeaseQueue.Proofs.Lists
/-! The entries of a cache and its index tell the same: both can be read off one list of uses, the
oldest first. Each operation on the cache is an operation on that list. -/
namespace LeaseQueue

/-- The last use of an entry that is in the cache. -/
structure CacheUse where
  tick : Nat
  id : GroupingId
  params : Params

namespace CacheUse

def entry (u : CacheUse) : GroupingId × CacheEntry := (u.id, ⟨u.params, u.tick⟩)

def mark (u : CacheUse) : Nat × GroupingId := (u.tick, u.id)

def item (u : CacheUse) : GroupingId × Params := (u.id, u.params)

end CacheUse

namespace GroupingCache

variable {c : GroupingCache} {uses : List CacheUse} {id : GroupingId}

/-- A cache holds one entry and one mark of its index for each of these uses and nothing else. -/
structure Tracks (c : GroupingCache) (uses : List CacheUse) : Prop where
  recency : c.recency = uses.map CacheUse.mark
  entries : c.entries.Perm (uses.map CacheUse.entry)
  ids : (uses.map CacheUse.id).Nodup
  ticks : uses.Pairwise fun u v => u.tick < v.tick
  past : ∀ u ∈ uses, u.tick < c.nextTick

/-- The uses without that of one identifier. -/
def others (id : GroupingId) (uses : List CacheUse) : List CacheUse :=
  uses.filter fun u => u.id ≠ id

/-- What the uses tell, the latest first. -/
def latestFirst {α : Type} (read : CacheUse → α) (uses : List CacheUse) : List α :=
  (uses.map read).reverse

section LatestFirst

variable {α : Type} (read : CacheUse → α) (uses : List CacheUse)

theorem length_latestFirst : (latestFirst read uses).length = uses.length := by
  rw [latestFirst, List.length_reverse, List.length_map]

theorem mem_latestFirst {x : α} : x ∈ latestFirst read uses ↔ ∃ u ∈ uses, read u = x :=
  List.mem_reverse.trans List.mem_map

theorem latestFirst_append (u : CacheUse) :
    latestFirst read (uses ++ [u]) = read u :: latestFirst read uses := by
  rw [latestFirst, List.map_append, List.reverse_append]
  rfl

theorem latestFirst_others (id : GroupingId) (keep : α → Bool)
    (same : ∀ u, keep (read u) = decide (u.id ≠ id)) :
    latestFirst read (others id uses) = (latestFirst read uses).filter keep := by
  have kept : keep ∘ read = fun u => decide (u.id ≠ id) := funext same
  rw [latestFirst, latestFirst, others, List.filter_reverse, List.filter_map, kept]

/-- Dropping the oldest uses until there is room keeps those that are the latest. -/
theorem latestFirst_drop {capacity : Nat} (positive : 0 < capacity) :
    latestFirst read (uses.drop (uses.length + 1 - capacity)) =
      (latestFirst read uses).take (capacity - 1) := by
  rw [latestFirst, latestFirst, List.map_drop, List.reverse_drop, List.take_eq_take_iff,
    List.length_reverse, List.length_map]
  omega

end LatestFirst

/-- The cache after an entry was touched. -/
def touched (c : GroupingCache) (id : GroupingId) (entry : CacheEntry) : GroupingCache :=
  { c with
    entries := c.entries.map fun (key, e) =>
      if key = id then (key, { e with tick := c.nextTick }) else (key, e)
    recency := (c.recency.filter fun (tick, _) => tick ≠ entry.tick) ++ [(c.nextTick, id)]
    nextTick := c.nextTick + 1 }

theorem touch_eq (c : GroupingCache) (id : GroupingId) :
    c.touch id = (c.entry? id).map fun entry => (entry.params, c.touched id entry) := rfl

/-- The cache without an entry, for which the rest of the index has no mark. -/
def without (c : GroupingCache) (id : GroupingId) (rest : List (Nat × GroupingId)) :
    GroupingCache :=
  { c with
    entries := c.entries.filter fun (key, _) => key ≠ id
    recency := rest
    stats := { c.stats with evicted := c.stats.evicted + 1 } }

theorem makeRoom_cons (c : GroupingCache) (mark : Nat × GroupingId)
    (rest : List (Nat × GroupingId)) :
    c.makeRoom (mark :: rest) =
      if c.size < c.capacity then c else (c.without mark.2 rest).makeRoom rest := rfl

theorem tracks_empty (capacity : Nat) : (empty capacity).Tracks [] where
  recency := rfl
  entries := List.Perm.refl []
  ids := List.nodup_nil
  ticks := List.Pairwise.nil
  past := nofun

namespace Tracks

theorem size (tracks : c.Tracks uses) : c.size = uses.length :=
  tracks.entries.length_eq.trans (List.length_map _)

theorem id_inj (tracks : c.Tracks uses) {u v : CacheUse} (first : u ∈ uses) (second : v ∈ uses)
    (same : u.id = v.id) : u = v :=
  List.inj_on_of_nodup_map tracks.ids first second same

theorem tick_inj (tracks : c.Tracks uses) {u v : CacheUse} (first : u ∈ uses) (second : v ∈ uses)
    (same : u.tick = v.tick) : u = v := by
  have apart : (uses.map CacheUse.tick).Nodup :=
    List.pairwise_map.mpr (tracks.ticks.imp Nat.ne_of_lt)
  exact List.inj_on_of_nodup_map apart first second same

theorem mem_entries (tracks : c.Tracks uses) {entry : GroupingId × CacheEntry} :
    entry ∈ c.entries ↔ ∃ u ∈ uses, u.entry = entry :=
  tracks.entries.mem_iff.trans List.mem_map

theorem keys (tracks : c.Tracks uses) : (c.entries.map Prod.fst).Nodup := by
  have same : (uses.map CacheUse.entry).map Prod.fst = uses.map CacheUse.id := List.map_map
  exact (tracks.entries.map Prod.fst).nodup_iff.mpr (same ▸ tracks.ids)

theorem entry?_eq_some (tracks : c.Tracks uses) {u : CacheUse} (member : u ∈ uses) :
    c.entry? u.id = some ⟨u.params, u.tick⟩ :=
  lookup_eq_some_of_mem tracks.keys (tracks.mem_entries.mpr ⟨u, member, rfl⟩)

theorem entry?_eq_none (tracks : c.Tracks uses) (absent : id ∉ uses.map CacheUse.id) :
    c.entry? id = none := by
  apply List.lookup_eq_none_iff.mpr
  intro entry member
  obtain ⟨u, mine, rfl⟩ := tracks.mem_entries.mp member
  have other : id ≠ u.id := fun same => absent (List.mem_map.mpr ⟨u, mine, same.symm⟩)
  simpa [CacheUse.entry] using other

/-- The entry that is touched stands first, and all others follow. -/
theorem perm_others (tracks : c.Tracks uses) {u : CacheUse} (member : u ∈ uses) :
    uses.Perm (u :: others u.id uses) := by
  obtain ⟨before, after, rfl⟩ := List.append_of_mem member
  have ids := tracks.ids
  rw [List.map_append, List.map_cons, List.nodup_middle, List.nodup_cons, ← List.map_append] at ids
  have all : others u.id (before ++ u :: after) = before ++ after := by
    rw [others, List.filter_append, List.filter_cons_of_neg (by simp), ← List.filter_append]
    apply List.filter_eq_self.mpr
    intro v other
    simpa using fun same : v.id = u.id => ids.1 (List.mem_map.mpr ⟨v, other, same⟩)
  rw [all]
  exact List.perm_middle

theorem length_others (tracks : c.Tracks uses) {u : CacheUse} (member : u ∈ uses) :
    (others u.id uses).length + 1 = uses.length :=
  (tracks.perm_others member).length_eq.symm

/-- What is left of the uses and one under the next tick. -/
theorem append (tracks : c.Tracks uses) {rest : List CacheUse} (left : rest.Sublist uses)
    (absent : id ∉ rest.map CacheUse.id) (params : Params) {next : GroupingCache}
    (recency : next.recency = rest.map CacheUse.mark ++ [(c.nextTick, id)])
    (entries : next.entries.Perm ((id, ⟨params, c.nextTick⟩) :: rest.map CacheUse.entry))
    (tick : next.nextTick = c.nextTick + 1) :
    next.Tracks (rest ++ [⟨c.nextTick, id, params⟩]) := by
  have earlier : ∀ u ∈ rest, u.tick < c.nextTick := fun u member =>
    tracks.past u (left.subset member)
  constructor
  · rw [recency, List.map_append]
    rfl
  · rw [List.map_append]
    exact entries.trans (List.perm_append_singleton _ _).symm
  · rw [List.map_append]
    exact nodup_append_new (tracks.ids.sublist (left.map _)) absent
  · refine List.pairwise_append.mpr ⟨tracks.ticks.sublist left, List.pairwise_singleton _ _, ?_⟩
    intro u member v last
    cases List.mem_singleton.mp last
    exact earlier u member
  · intro u member
    rw [tick]
    rcases List.mem_append.mp member with old | last
    · exact Nat.lt_succ_of_lt (earlier u old)
    · cases List.mem_singleton.mp last
      exact Nat.lt_succ_self _

/-- A touched entry keeps its parameters and is the latest one used. -/
theorem touch_present (tracks : c.Tracks uses) {u : CacheUse} (member : u ∈ uses) :
    ∃ next, c.touch u.id = some (u.params, next) ∧
      next.Tracks (others u.id uses ++ [⟨c.nextTick, u.id, u.params⟩]) ∧
      next.capacity = c.capacity ∧ next.nextTick = c.nextTick + 1 ∧ next.stats = c.stats := by
  refine ⟨c.touched u.id ⟨u.params, u.tick⟩, ?_, ?_, rfl, rfl, rfl⟩
  · rw [touch_eq, tracks.entry?_eq_some member]
    rfl
  have apart : ∀ v ∈ others u.id uses, v.id ≠ u.id := fun v other => by
    simpa using (List.mem_filter.mp other).2
  apply tracks.append List.filter_sublist
  · intro present
    obtain ⟨v, other, same⟩ := List.mem_map.mp present
    exact apart v other same
  · -- No other mark has the tick of the entry.
    have marks : ∀ v ∈ uses, decide (v.id ≠ u.id) = decide (v.tick ≠ u.tick) := by
      intro v other
      have both : v.id = u.id ↔ v.tick = u.tick :=
        ⟨fun same => congrArg CacheUse.tick (tracks.id_inj other member same),
          fun same => congrArg CacheUse.id (tracks.tick_inj other member same)⟩
      simp only [ne_eq, both]
    rw [touched, tracks.recency, List.filter_map, List.filter_congr marks]
    rfl
  · have moved := (tracks.entries.trans ((tracks.perm_others member).map CacheUse.entry)).map
      fun (key, e) => if key = u.id then (key, { e with tick := c.nextTick }) else (key, e)
    refine moved.trans (List.Perm.of_eq ?_)
    rw [List.map_cons, List.map_cons, List.map_map]
    refine congrArg₂ List.cons ?_ (List.map_congr_left ?_)
    · simp [CacheUse.entry]
    · intro v other
      simp [CacheUse.entry, apart v other]
  · rfl

theorem touch_absent (tracks : c.Tracks uses) (absent : id ∉ uses.map CacheUse.id) :
    c.touch id = none := by
  rw [touch, tracks.entry?_eq_none absent]
  rfl

theorem add (tracks : c.Tracks uses) (absent : id ∉ uses.map CacheUse.id) (params : Params) :
    (c.add id params).Tracks (uses ++ [⟨c.nextTick, id, params⟩]) := by
  apply tracks.append (List.Sublist.refl uses) absent
  · rw [GroupingCache.add, tracks.recency]
  · exact tracks.entries.cons _
  · rfl

/-- The entry that was not used for longest goes with its mark. -/
theorem without {u : CacheUse} (tracks : c.Tracks (u :: uses)) :
    (c.without u.id (uses.map CacheUse.mark)).Tracks uses := by
  have ids := List.nodup_cons.mp tracks.ids
  refine ⟨rfl, ?_, ids.2, (List.pairwise_cons.mp tracks.ticks).2, ?_⟩
  · refine (tracks.entries.filter _).trans (List.Perm.of_eq ?_)
    rw [List.map_cons, List.filter_cons_of_neg (by simp [CacheUse.entry])]
    apply List.filter_eq_self.mpr
    intro entry member
    obtain ⟨v, other, rfl⟩ := List.mem_map.mp member
    exact decide_eq_true fun same => ids.1 (List.mem_map.mpr ⟨v, other, same⟩)
  · exact fun v other => tracks.past v (List.mem_cons_of_mem _ other)

/-- Room is made by dropping the oldest uses until there is place for one more. -/
theorem makeRoom (tracks : c.Tracks uses) (positive : 0 < c.capacity) :
    let surplus := uses.length + 1 - c.capacity
    let room := c.makeRoom c.recency
    room.Tracks (uses.drop surplus) ∧ room.capacity = c.capacity ∧ room.nextTick = c.nextTick ∧
      room.stats = { c.stats with evicted := c.stats.evicted + surplus } := by
  intro surplus room
  -- The index that is walked lists the uses, the oldest first.
  induction uses generalizing c with
  | nil =>
    have fits : surplus = 0 := Nat.sub_eq_zero_of_le positive
    have same : room = c := congrArg c.makeRoom tracks.recency
    rw [fits, same]
    exact ⟨tracks, rfl, rfl, rfl⟩
  | cons u uses ih =>
    have size : c.size = uses.length + 1 := tracks.size
    have unfolded : room = if c.size < c.capacity then c
        else (c.without u.id (uses.map CacheUse.mark)).makeRoom (uses.map CacheUse.mark) :=
      congrArg c.makeRoom tracks.recency
    by_cases fits : c.size < c.capacity
    · have none : surplus = 0 := Nat.sub_eq_zero_of_le (by rwa [size] at fits)
      rw [if_pos fits] at unfolded
      rw [none, unfolded]
      exact ⟨tracks, rfl, rfl, rfl⟩
    · have one : surplus = (uses.length + 1 - c.capacity) + 1 := by
        simp only [surplus, List.length_cons]
        omega
      obtain ⟨tracked, capacity, tick, stats⟩ := ih tracks.without positive
      rw [if_neg fits] at unfolded
      rw [one, unfolded]
      refine ⟨tracked, capacity, tick, stats.trans ?_⟩
      simp only [GroupingCache.without, CacheStats.mk.injEq, true_and]
      omega

/-! What a look-up and an insertion do to the uses. -/

theorem get_present (tracks : c.Tracks uses) {u : CacheUse} (member : u ∈ uses) :
    ∃ next, c.get u.id = (some u.params, next) ∧
      next.Tracks (others u.id uses ++ [⟨c.nextTick, u.id, u.params⟩]) ∧
      next.capacity = c.capacity ∧ next.nextTick = c.nextTick + 1 ∧
      next.stats = { c.stats with hits := c.stats.hits + 1 } := by
  obtain ⟨next, touched, tracked, capacity, tick, stats⟩ := tracks.touch_present member
  refine ⟨{ next with stats := { next.stats with hits := next.stats.hits + 1 } }, ?_, ?_,
    capacity, tick, ?_⟩
  · rw [get, touched]
  · exact ⟨tracked.recency, tracked.entries, tracked.ids, tracked.ticks, tracked.past⟩
  · rw [stats]

theorem get_absent (tracks : c.Tracks uses) (absent : id ∉ uses.map CacheUse.id) :
    ∃ next, c.get id = (none, next) ∧ next.Tracks uses ∧ next.capacity = c.capacity ∧
      next.nextTick = c.nextTick ∧ next.stats = { c.stats with misses := c.stats.misses + 1 } := by
  refine ⟨{ c with stats := { c.stats with misses := c.stats.misses + 1 } }, ?_, ?_, rfl, rfl, rfl⟩
  · rw [get, tracks.touch_absent absent]
  · exact ⟨tracks.recency, tracks.entries, tracks.ids, tracks.ticks, tracks.past⟩

theorem insert_present (tracks : c.Tracks uses) (positive : 0 < c.capacity) {u : CacheUse}
    (member : u ∈ uses) (params : Params) :
    (c.insert u.id params).Tracks (others u.id uses ++ [⟨c.nextTick, u.id, u.params⟩]) ∧
      (c.insert u.id params).capacity = c.capacity ∧
      (c.insert u.id params).nextTick = c.nextTick + 1 ∧
      (c.insert u.id params).stats = c.stats := by
  obtain ⟨next, touched, kept⟩ := tracks.touch_present member
  rw [insert, if_neg (Nat.ne_of_gt positive), touched]
  exact kept

theorem insert_absent (tracks : c.Tracks uses) (positive : 0 < c.capacity)
    (absent : id ∉ uses.map CacheUse.id) (params : Params) :
    let surplus := uses.length + 1 - c.capacity
    (c.insert id params).Tracks (uses.drop surplus ++ [⟨c.nextTick, id, params⟩]) ∧
      (c.insert id params).capacity = c.capacity ∧
      (c.insert id params).nextTick = c.nextTick + 1 ∧
      (c.insert id params).stats =
        { c.stats with added := c.stats.added + 1, evicted := c.stats.evicted + surplus } := by
  intro surplus
  obtain ⟨tracked, capacity, tick, stats⟩ := tracks.makeRoom positive
  have left : id ∉ (uses.drop surplus).map CacheUse.id := fun present =>
    absent ((List.Sublist.map _ (List.drop_sublist _ _)).subset present)
  have added := tracked.add left params
  rw [tick] at added
  rw [insert, if_neg (Nat.ne_of_gt positive), tracks.touch_absent absent]
  refine ⟨added, capacity, congrArg Nat.succ tick, ?_⟩
  simp only [GroupingCache.add, stats, surplus]

end Tracks

theorem insert_without_capacity (none : c.capacity = 0) (params : Params) :
    c.insert id params = c := by
  rw [insert, if_pos none]

end GroupingCache

end LeaseQueue
