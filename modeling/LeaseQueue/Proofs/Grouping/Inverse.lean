import LeaseQueue.Proofs.Grouping.Recency
import Mathlib.Algebra.Ring.Nat
/-! The entries of a cache and its index as two maps. The index takes a tick to an identifier exactly
where the entries take the identifier to the tick. Every call keeps that, so an insertion into a full
cache drops one entry, the oldest, and takes its mark with it. -/
namespace LeaseQueue

namespace GroupingCache

variable {c : GroupingCache} {uses : List CacheUse} {id : GroupingId} {tick : Nat}

/-- The tick of the last use of an identifier that has an entry. -/
def tick? (c : GroupingCache) (id : GroupingId) : Option Nat := (c.entry? id).map CacheEntry.tick

/-- The identifier that the index has at a tick. -/
def marked? (c : GroupingCache) (tick : Nat) : Option GroupingId := c.recency.lookup tick

/-- The use that a mark of the index stands for. -/
def useOf (c : GroupingCache) (mark : Nat × GroupingId) : CacheUse :=
  ⟨mark.1, mark.2, (c.entry? mark.2).elim .empty CacheEntry.params⟩

/-- Entries and index are maps and each other's inverse, all ticks were given out before the next
one, and there are no more entries than there may be. -/
structure Coherent (c : GroupingCache) : Prop where
  keys : (c.entries.map Prod.fst).Nodup
  ascending : (c.recency.map Prod.fst).Pairwise (· < ·)
  inverse : ∀ tick id, c.marked? tick = some id ↔ c.tick? id = some tick
  ticks : (c.entries.map fun entry => entry.2.tick).Nodup
  past : ∀ entry ∈ c.entries, entry.2.tick < c.nextTick
  bounded : c.size ≤ c.capacity

theorem marked?_eq_some_iff (ascending : (c.recency.map Prod.fst).Pairwise (· < ·)) :
    c.marked? tick = some id ↔ (tick, id) ∈ c.recency :=
  lookup_eq_some_iff_mem (ascending.imp Nat.ne_of_lt)

theorem entry?_eq_some_iff (keys : (c.entries.map Prod.fst).Nodup) {entry : CacheEntry} :
    c.entry? id = some entry ↔ (id, entry) ∈ c.entries :=
  lookup_eq_some_iff_mem keys

/-- What a list of uses tells of both containers makes them inverse to each other. -/
theorem Tracks.coherent (tracks : c.Tracks uses) (bounded : uses.length ≤ c.capacity) :
    c.Coherent := by
  have order : uses.map CacheUse.tick = c.recency.map Prod.fst := by
    rw [tracks.recency, List.map_map]
    rfl
  have ascending : (c.recency.map Prod.fst).Pairwise (· < ·) :=
    order ▸ List.pairwise_map.mpr tracks.ticks
  constructor
  case keys => exact tracks.keys
  case ascending => exact ascending
  case inverse =>
    intro tick id
    rw [marked?_eq_some_iff ascending, tracks.recency, List.mem_map, tick?,
      Option.map_eq_some_iff]
    constructor
    · rintro ⟨u, member, same⟩
      cases same
      exact ⟨_, tracks.entry?_eq_some member, rfl⟩
    · rintro ⟨entry, found, rfl⟩
      obtain ⟨u, member, same⟩ := tracks.mem_entries.mp ((entry?_eq_some_iff tracks.keys).mp found)
      cases same
      exact ⟨u, member, rfl⟩
  case ticks =>
    have same : (uses.map CacheUse.entry).map (fun entry => entry.2.tick) =
        uses.map CacheUse.tick := List.map_map
    have apart : (uses.map CacheUse.tick).Nodup := order ▸ ascending.imp Nat.ne_of_lt
    exact (tracks.entries.map _).nodup_iff.mpr (same ▸ apart)
  case past =>
    intro entry member
    obtain ⟨u, mine, rfl⟩ := tracks.mem_entries.mp member
    exact tracks.past u mine
  case bounded => exact tracks.size ▸ bounded

namespace Coherent

theorem mem_recency_iff (coherent : c.Coherent) :
    (tick, id) ∈ c.recency ↔ ∃ entry, (id, entry) ∈ c.entries ∧ entry.tick = tick := by
  rw [← marked?_eq_some_iff coherent.ascending, coherent.inverse, tick?, Option.map_eq_some_iff]
  simp only [entry?_eq_some_iff coherent.keys]

theorem entry_useOf (coherent : c.Coherent) {entry : CacheEntry} (member : (id, entry) ∈ c.entries) :
    (c.useOf (entry.tick, id)).entry = (id, entry) := by
  rw [CacheUse.entry, useOf, (entry?_eq_some_iff coherent.keys).mpr member]
  rfl

/-- Containers that are inverse to each other tell of one list of uses, in the order of the index. -/
theorem tracks (coherent : c.Coherent) : c.Tracks (c.recency.map c.useOf) := by
  have ids : ((c.recency.map c.useOf).map CacheUse.id).Nodup := by
    rw [List.map_map]
    refine List.pairwise_map.mpr ((List.pairwise_map.mp coherent.ascending).imp_of_mem ?_)
    intro earlier later first second before same
    -- An identifier with two marks would have two ticks.
    have one := (coherent.inverse earlier.1 earlier.2).mp
      ((marked?_eq_some_iff coherent.ascending).mpr first)
    have two := (coherent.inverse later.1 later.2).mp
      ((marked?_eq_some_iff coherent.ascending).mpr second)
    have own : earlier.2 = later.2 := same
    rw [own, two] at one
    exact Nat.ne_of_gt before (Option.some.inj one)
  constructor
  case recency =>
    rw [List.map_map]
    exact (List.map_id c.recency).symm
  case entries =>
    have once : c.entries.Nodup := List.Nodup.of_map Prod.fst coherent.keys
    have marks : ((c.recency.map c.useOf).map CacheUse.entry).Nodup :=
      List.Nodup.of_map Prod.fst (by rw [List.map_map]; exact ids)
    refine (List.perm_ext_iff_of_nodup once marks).mpr ?_
    rintro ⟨id, entry⟩
    rw [List.map_map, List.mem_map]
    constructor
    · intro member
      exact ⟨(entry.tick, id), coherent.mem_recency_iff.mpr ⟨entry, member, rfl⟩,
        coherent.entry_useOf member⟩
    · rintro ⟨⟨tick, other⟩, member, same⟩
      obtain ⟨own, mine, rfl⟩ := coherent.mem_recency_iff.mp member
      rw [← same, Function.comp_apply, coherent.entry_useOf mine]
      exact mine
  case ids => exact ids
  case ticks => exact List.pairwise_map.mpr (List.pairwise_map.mp coherent.ascending)
  case past =>
    intro u member
    obtain ⟨⟨tick, id⟩, marked, rfl⟩ := List.mem_map.mp member
    obtain ⟨entry, mine, rfl⟩ := coherent.mem_recency_iff.mp marked
    exact coherent.past _ mine

/-! Calls keep a cache coherent. An entry that is used moves to the end of the uses, so only an
insertion changes how many there are. -/

theorem of_renewed (tracks : c.Tracks uses) (bounded : uses.length ≤ c.capacity) {u : CacheUse}
    (member : u ∈ uses) {next : GroupingCache} {latest : CacheUse}
    (tracked : next.Tracks (others u.id uses ++ [latest])) (capacity : next.capacity = c.capacity) :
    next.Coherent := by
  apply tracked.coherent
  -- One use was moved, so there are as many as before.
  rw [List.length_append, List.length_singleton, tracks.length_others member, capacity]
  exact bounded

theorem get (coherent : c.Coherent) (id : GroupingId) :
    (c.get id).2.Coherent ∧ (c.get id).2.capacity = c.capacity ∧
      (c.get id).2.nextTick ≤ c.nextTick + 1 := by
  have tracks := coherent.tracks
  have bounded := tracks.size ▸ coherent.bounded
  by_cases present : id ∈ (c.recency.map c.useOf).map CacheUse.id
  · obtain ⟨u, member, rfl⟩ := List.mem_map.mp present
    obtain ⟨next, found, tracked, capacity, tick, _⟩ := tracks.get_present member
    rw [found]
    exact ⟨of_renewed tracks bounded member tracked capacity, capacity, Nat.le_of_eq tick⟩
  · obtain ⟨next, found, tracked, capacity, tick, _⟩ := tracks.get_absent present
    rw [found]
    exact ⟨tracked.coherent (capacity ▸ bounded), capacity, Nat.le_succ_of_le (Nat.le_of_eq tick)⟩

theorem insert (coherent : c.Coherent) (id : GroupingId) (params : Params) :
    (c.insert id params).Coherent ∧ (c.insert id params).capacity = c.capacity ∧
      (c.insert id params).nextTick ≤ c.nextTick + 1 := by
  by_cases none : c.capacity = 0
  · rw [insert_without_capacity none]
    exact ⟨coherent, rfl, Nat.le_succ _⟩
  have positive : 0 < c.capacity := Nat.pos_of_ne_zero none
  have tracks := coherent.tracks
  have bounded := tracks.size ▸ coherent.bounded
  by_cases present : id ∈ (c.recency.map c.useOf).map CacheUse.id
  · obtain ⟨u, member, rfl⟩ := List.mem_map.mp present
    obtain ⟨tracked, capacity, tick, _⟩ := tracks.insert_present positive member params
    exact ⟨of_renewed tracks bounded member tracked capacity, capacity, Nat.le_of_eq tick⟩
  · obtain ⟨tracked, capacity, tick, _⟩ := tracks.insert_absent positive present params
    refine ⟨tracked.coherent ?_, capacity, Nat.le_of_eq tick⟩
    rw [List.length_append, List.length_singleton, List.length_drop, capacity]
    omega

theorem perform (coherent : c.Coherent) (call : CacheCall) :
    (c.perform call).2.Coherent ∧ (c.perform call).2.capacity = c.capacity ∧
      (c.perform call).2.nextTick ≤ c.nextTick + 1 := by
  cases call with
  | get id => exact coherent.get id
  | insert id params => exact coherent.insert id params

theorem after (coherent : c.Coherent) (calls : List CacheCall) :
    (c.after calls).Coherent ∧ (c.after calls).capacity = c.capacity ∧
      (c.after calls).nextTick ≤ c.nextTick + calls.length := by
  induction calls generalizing c with
  | nil => exact ⟨coherent, rfl, Nat.le_refl _⟩
  | cons call calls ih =>
    obtain ⟨kept, capacity, tick⟩ := coherent.perform call
    obtain ⟨coherent, same, ticks⟩ := ih kept
    refine ⟨coherent, same.trans capacity, Nat.le_trans ticks ?_⟩
    rw [List.length_cons]
    omega

end Coherent

theorem coherent_empty (capacity : Nat) : (empty capacity).Coherent :=
  (tracks_empty capacity).coherent (Nat.zero_le capacity)

/-- One pass of the loop that makes room for an insertion. -/
inductive Pass where
  /-- There is no room, and the index is empty. -/
  | stuck
  /-- A mark is taken off the index, and what stands under its identifier is dropped. -/
  | dropped (mark : Nat × GroupingId) (entry : Option CacheEntry)

/-- The passes of the loop, by the marks that are left in the index. -/
def passes (c : GroupingCache) : List (Nat × GroupingId) → List Pass
  | [] => if c.size < c.capacity then [] else [.stuck]
  | mark :: rest =>
    if c.size < c.capacity then []
    else .dropped mark (c.entry? mark.2) :: (c.without mark.2 rest).passes rest

def afterPass (c : GroupingCache) : Pass → GroupingCache
  | .stuck => c
  | .dropped mark _ => c.without mark.2 c.recency.tail

/-- Room is made by one pass after the other. -/
theorem foldl_passes {marks : List (Nat × GroupingId)} (index : c.recency = marks) :
    (c.passes marks).foldl afterPass c = c.makeRoom marks := by
  induction marks generalizing c with
  | nil =>
    rw [passes]
    split <;> rfl
  | cons mark rest ih =>
    rw [passes, makeRoom_cons]
    split
    · rfl
    · have next : c.afterPass (.dropped mark (c.entry? mark.2)) = c.without mark.2 rest := by
        rw [afterPass, index, List.tail_cons]
      rw [List.foldl_cons, next]
      exact ih rfl

theorem passes_of_room (room : c.size < c.capacity) (marks : List (Nat × GroupingId)) :
    c.passes marks = [] := by
  cases marks <;> rw [passes, if_pos room]

theorem insert_of_absent (positive : 0 < c.capacity) (absent : c.entry? id = none)
    (params : Params) :
    c.insert id params = ((c.passes c.recency).foldl afterPass c).add id params := by
  rw [insert, if_neg (Nat.ne_of_gt positive), touch, absent, foldl_passes rfl]
  rfl

/-- A coherent cache makes room in one pass, if it has none, which drops the entry of the first
mark. -/
theorem Coherent.passes_cases (coherent : c.Coherent) (positive : 0 < c.capacity) :
    c.passes c.recency = [] ∨ ∃ mark rest entry, c.recency = mark :: rest ∧
      c.passes c.recency = [.dropped mark (some entry)] ∧ c.entry? mark.2 = some entry ∧
      entry.tick = mark.1 := by
  obtain ⟨uses, tracks⟩ : ∃ uses, c.Tracks uses := ⟨_, coherent.tracks⟩
  have size := tracks.size
  have bounded := coherent.bounded
  by_cases room : c.size < c.capacity
  · exact .inl (passes_of_room room _)
  cases uses with
  | nil =>
    rw [size, List.length_nil] at room
    exact absurd positive room
  | cons u uses =>
    have entry := tracks.entry?_eq_some List.mem_cons_self
    -- A cache never holds more than it may, so without one entry it has room.
    have fits : (c.without u.id (uses.map CacheUse.mark)).size < c.capacity := by
      rw [tracks.without.size]
      rw [List.length_cons] at size
      omega
    refine .inr ⟨u.mark, uses.map CacheUse.mark, _, tracks.recency, ?_, entry, rfl⟩
    rw [tracks.recency, List.map_cons, passes, if_neg room]
    exact congrArg₂ List.cons (congrArg _ entry) (passes_of_room fits _)

theorem Coherent.first_le (coherent : c.Coherent) {mark : Nat × GroupingId}
    {rest : List (Nat × GroupingId)} (index : c.recency = mark :: rest) :
    ∀ other ∈ c.recency, mark.1 ≤ other.1 := by
  have ascending := coherent.ascending
  rw [index, List.map_cons, List.pairwise_cons] at ascending
  intro other member
  rw [index] at member
  rcases List.mem_cons.mp member with rfl | later
  · exact Nat.le_refl _
  · exact Nat.le_of_lt (ascending.1 _ (List.mem_map_of_mem later))

/-- Through any calls, too few to run out of 64-bit ticks, entries and index stay each other's
inverse. So an insertion that has to make room does it in at most one pass. That pass finds a mark, the
oldest, and under its identifier the entry that was last used at its tick. -/
theorem stays_coherent (capacity : Nat) (calls : List CacheCall) (few : calls.length < 2 ^ 64) :
    let c := (empty capacity).after calls
    c.Coherent ∧ c.capacity = capacity ∧ c.nextTick < 2 ^ 64 ∧
      (0 < capacity →
        (∀ id params, c.entry? id = none →
          c.insert id params = ((c.passes c.recency).foldl afterPass c).add id params) ∧
        (c.passes c.recency).length ≤ 1 ∧ Pass.stuck ∉ c.passes c.recency ∧
        ∀ mark entry?, Pass.dropped mark entry? ∈ c.passes c.recency →
          c.entry? mark.2 = entry? ∧ entry?.map CacheEntry.tick = some mark.1 ∧
          ∀ other ∈ c.recency, mark.1 ≤ other.1) := by
  intro c
  obtain ⟨coherent, same, ticked⟩ := (coherent_empty capacity).after calls
  have tick : c.nextTick < 2 ^ 64 :=
    Nat.lt_of_le_of_lt ticked (by rwa [show (empty capacity).nextTick = 0 from rfl, Nat.zero_add])
  refine ⟨coherent, same, tick, ?_⟩
  intro positive
  have positive : 0 < c.capacity := Nat.lt_of_lt_of_eq positive same.symm
  refine ⟨fun _ params absent => insert_of_absent positive absent params, ?_⟩
  rcases coherent.passes_cases positive with none | ⟨mark, rest, entry, index, one, own, last⟩
  · rw [none]
    exact ⟨Nat.zero_le 1, List.not_mem_nil, fun _ _ member => absurd member List.not_mem_nil⟩
  · rw [one]
    refine ⟨Nat.le_refl 1, by simp, ?_⟩
    intro popped entry? member
    cases List.mem_singleton.mp member
    exact ⟨own, congrArg some last, coherent.first_le index⟩

/-- An identifier of sixteen equal bytes. -/
def uniform (byte : UInt8) : GroupingId := ⟨List.replicate groupingIdSize byte, List.length_replicate⟩

/-- A hit before the cache is full again makes the second entry the oldest. -/
def fullCalls : List CacheCall :=
  [.insert (uniform 1) .empty, .insert (uniform 2) .empty, .get (uniform 1)]

theorem stays_coherent_full :
    let c := (empty 2).after fullCalls
    fullCalls.length < 2 ^ 64 ∧ c.entry? (uniform 3) = none ∧ c.Coherent ∧
      c.passes c.recency = [.dropped (1, uniform 2) (some ⟨.empty, 1⟩)] ∧
      c.insert (uniform 3) .empty =
        (c.without (uniform 2) c.recency.tail).add (uniform 3) .empty ∧
      ∀ other ∈ c.recency, 1 ≤ other.1 := by
  intro c
  obtain ⟨coherent, _, _, makes⟩ := stays_coherent 2 fullCalls (by decide)
  obtain ⟨inserted, _, _, popped⟩ := makes (by decide)
  have absent : c.entry? (uniform 3) = none := by decide
  have one : c.passes c.recency = [.dropped (1, uniform 2) (some ⟨.empty, 1⟩)] := rfl
  obtain ⟨_, _, oldest⟩ := popped (1, uniform 2) (some ⟨.empty, 1⟩) (one ▸ List.mem_singleton_self _)
  exact ⟨by decide, absent, coherent, one, inserted (uniform 3) .empty absent, oldest⟩

end GroupingCache

end LeaseQueue
