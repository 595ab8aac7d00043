import LeaseQueue.Grouping.Resolver
import LeaseQueue.Proofs.Grouping.Uses
import Mathlib.Data.Finset.Card
/-! A store that is asked while groupings are resolved one after another. Which resolutions the
cache serves depends on nothing but how many other groupings were resolved since the same one was. -/
namespace LeaseQueue

namespace Resolution

/-- What a look-up in the store alone makes of a grouping. -/
def uncached (lookup : Lookup) (id : GroupingId) : Except ResolveError Params :=
  match lookup id with
  | .error cause => .error (.store cause)
  | .ok none => .error (.unknownGrouping id)
  | .ok (some params) => .ok params

/-- Whether the store has parameters for a grouping. -/
def known (lookup : Lookup) (id : GroupingId) : Bool :=
  match lookup id with
  | .ok (some _) => true
  | _ => false

variable {lookup : Lookup} {id : GroupingId}

theorem known_iff : known lookup id = true ↔ ∃ params, lookup id = .ok (some params) := by
  unfold known
  split
  · rename_i params answer
    exact iff_of_true rfl ⟨params, answer⟩
  · rename_i other
    exact iff_of_false (by simp) fun ⟨params, answer⟩ => other params answer

end Resolution

/-- Resolves a grouping with a store that has a state, which a look-up may change. -/
def GroupingCache.resolveAsking {σ : Type} (cache : GroupingCache)
    (ask : GroupingId → σ → Except StoreError (Option Params) × σ) (id : GroupingId) (s : σ) :
    (Except ResolveError Params × GroupingCache) × σ :=
  match cache.get id with
  | (some params, cache) => ((.ok params, cache), s)
  | (none, cache) =>
    let (answer, s) := ask id s
    match Resolution.ofAnswer id answer with
    | .found params => ((.ok params, cache.insert id params), s)
    | .ended result => ((result, cache), s)
    | _ => ((.error (.unknownGrouping id), cache), s)

/-- A resolver over a store that notes what it is asked for, in order. -/
structure Resolver where
  cache : GroupingCache
  asked : List GroupingId

namespace Resolver

open Resolution (known uncached)

def fresh (capacity : Nat) : Resolver := ⟨.empty capacity, []⟩

def resolve (lookup : Resolution.Lookup) (r : Resolver) (id : GroupingId) :
    Except ResolveError Params × Resolver :=
  let ((result, cache), asked) :=
    r.cache.resolveAsking (fun id asked => (lookup id, asked ++ [id])) id r.asked
  (result, ⟨cache, asked⟩)

def after (lookup : Resolution.Lookup) (r : Resolver) : List GroupingId → Resolver
  | [] => r
  | id :: ids => (r.resolve lookup id).2.after lookup ids

variable {lookup : Resolution.Lookup} {r : Resolver} {id : GroupingId}

/-- That the store notes what it is asked for changes neither the result nor the cache. -/
theorem resolve_eq (lookup : Resolution.Lookup) (r : Resolver) (id : GroupingId) :
    ((r.resolve lookup id).1, (r.resolve lookup id).2.cache) = r.cache.resolve lookup id := by
  simp only [resolve, GroupingCache.resolveAsking, GroupingCache.resolve]
  rcases r.cache.get id with ⟨_ | params, next⟩
  · rcases lookup id with cause | _ | params <;> rfl
  · rfl

theorem resolve_hit {params : Params} {next : GroupingCache}
    (found : r.cache.get id = (some params, next)) :
    r.resolve lookup id = (.ok params, ⟨next, r.asked⟩) := by
  simp only [resolve, GroupingCache.resolveAsking, found]

theorem resolve_miss {next : GroupingCache} (missed : r.cache.get id = (none, next)) :
    (r.resolve lookup id).1 = uncached lookup id ∧
      (r.resolve lookup id).2.asked = r.asked ++ [id] ∧
      (r.resolve lookup id).2.cache =
        match lookup id with
        | .ok (some params) => next.insert id params
        | _ => next := by
  simp only [resolve, GroupingCache.resolveAsking, missed, uncached]
  rcases lookup id with cause | _ | params <;> exact ⟨rfl, rfl, rfl⟩

/-! Which groupings the cache holds: of those with parameters, the ones that were resolved last. -/

/-- The groupings with parameters, each once and the one resolved last first, by what was resolved,
the latest first. -/
def recent (lookup : Resolution.Lookup) : List GroupingId → List GroupingId
  | [] => []
  | id :: log =>
    if known lookup id then id :: (recent lookup log).filter (· ≠ id) else recent lookup log

/-- How many other groupings with parameters were resolved since a grouping was. -/
def distance (lookup : Resolution.Lookup) (ids : List GroupingId) (id : GroupingId) : Nat :=
  ((ids.reverse.takeWhile (· ≠ id)).filter (known lookup)).toFinset.card

theorem nodup_recent (lookup : Resolution.Lookup) (log : List GroupingId) :
    (recent lookup log).Nodup := by
  induction log with
  | nil => exact List.nodup_nil
  | cons id log ih =>
    rw [recent]
    split
    · refine List.nodup_cons.mpr ⟨?_, ih.filter _⟩
      intro member
      simpa using (List.mem_filter.mp member).2
    · exact ih

theorem mem_recent {log : List GroupingId} :
    id ∈ recent lookup log ↔ id ∈ log ∧ known lookup id = true := by
  induction log with
  | nil => simp [recent]
  | cons other log ih =>
    rw [recent]
    split
    · rename_i has
      by_cases same : id = other
      · simp [same, has]
      · simp [same, ih]
    · rename_i lacks
      rw [ih, List.mem_cons]
      refine ⟨fun ⟨member, has⟩ => ⟨.inr member, has⟩, fun ⟨member, has⟩ => ⟨?_, has⟩⟩
      rcases member with rfl | member
      · exact absurd has lacks
      · exact member

/-- What stands before a grouping was resolved after it. -/
theorem mem_takeWhile_recent (has : known lookup id = true) {log : List GroupingId}
    {other : GroupingId} :
    other ∈ (recent lookup log).takeWhile (· ≠ id) ↔
      other ∈ (log.takeWhile (· ≠ id)).filter (known lookup) := by
  induction log with
  | nil => rfl
  | cons first log ih =>
    rw [recent]
    split
    · rename_i shown
      by_cases same : first = id
      · simp [same]
      · have passed : (fun a => !decide (a ≠ first) || decide (a ≠ id)) =
            fun a => decide (a ≠ id) := by
          funext a
          by_cases own : a = first
          · simp [own, same]
          · simp [own]
        rw [List.takeWhile_cons_of_pos (by simpa using same), List.takeWhile_filter, passed,
          List.takeWhile_cons_of_pos (by simpa using same), List.filter_cons_of_pos shown,
          List.mem_cons, List.mem_cons, List.mem_filter, ih]
        by_cases own : other = first
        · simp [own]
        · simp [own]
    · rename_i hidden
      have other : first ≠ id := fun same => hidden (same ▸ has)
      rw [ih, List.takeWhile_cons_of_pos (by simpa using other), List.filter_cons_of_neg hidden]

theorem idxOf_eq_length_takeWhile (id : GroupingId) (ids : List GroupingId) (member : id ∈ ids) :
    ids.idxOf id = (ids.takeWhile (· ≠ id)).length := by
  induction ids with
  | nil => cases member
  | cons first ids ih =>
    by_cases same : first = id
    · simp [same]
    · have later : id ∈ ids := (List.mem_cons.mp member).resolve_left (Ne.symm same)
      rw [List.idxOf_cons_ne _ same, ih later, List.takeWhile_cons_of_pos (by simpa using same)]
      rfl

/-- The place of a grouping is its distance. -/
theorem mem_take_recent {ids : List GroupingId} {n : Nat} :
    id ∈ (recent lookup ids.reverse).take n ↔
      known lookup id = true ∧ id ∈ ids ∧ distance lookup ids id < n := by
  by_cases present : id ∈ recent lookup ids.reverse
  · obtain ⟨member, has⟩ := mem_recent.mp present
    have before : ((ids.reverse.takeWhile (· ≠ id)).filter (known lookup)).toFinset =
        ((recent lookup ids.reverse).takeWhile (· ≠ id)).toFinset := by
      ext other
      rw [List.mem_toFinset, List.mem_toFinset, mem_takeWhile_recent has]
    have unique : ((recent lookup ids.reverse).takeWhile (· ≠ id)).Nodup :=
      (nodup_recent lookup _).sublist (List.takeWhile_sublist _)
    rw [List.mem_take_iff_idxOf_lt present, idxOf_eq_length_takeWhile id _ present, distance,
      before, List.toFinset_card_of_nodup unique, and_iff_right has,
      and_iff_right (List.mem_reverse.mp member)]
  · constructor
    · exact fun member => absurd (List.mem_of_mem_take member) present
    · rintro ⟨has, member, _⟩
      exact absurd (mem_recent.mpr ⟨List.mem_reverse.mpr member, has⟩) present

theorem filter_take_of_notMem {ids : List GroupingId} {n : Nat} (absent : id ∉ ids.take n) :
    (ids.filter (· ≠ id)).take n = ids.take n := by
  induction ids generalizing n with
  | nil => rfl
  | cons first ids ih =>
    cases n with
    | zero => rfl
    | succ n =>
      rw [List.take_succ_cons, List.mem_cons, not_or] at absent
      rw [List.filter_cons_of_pos (by simpa using Ne.symm absent.1), List.take_succ_cons,
        List.take_succ_cons, ih absent.2]

theorem filter_take_of_mem {ids : List GroupingId} (unique : ids.Nodup) {n : Nat}
    (member : id ∈ ids.take (n + 1)) :
    (ids.take (n + 1)).filter (· ≠ id) = (ids.filter (· ≠ id)).take n := by
  induction ids generalizing n with
  | nil => cases member
  | cons first ids ih =>
    rw [List.nodup_cons] at unique
    by_cases same : first = id
    · subst same
      have others : ∀ other ∈ ids, decide (other ≠ first) = true := fun other present =>
        decide_eq_true fun same => unique.1 (same ▸ present)
      rw [List.take_succ_cons, List.filter_cons_of_neg (by simp), List.filter_cons_of_neg (by simp),
        List.filter_eq_self.mpr others]
      exact List.filter_eq_self.mpr fun other early => others other (List.mem_of_mem_take early)
    · have later : id ∈ ids.take n := (List.mem_cons.mp member).resolve_left (Ne.symm same)
      cases n with
      | zero => cases later
      | succ n =>
        rw [List.take_succ_cons, List.filter_cons_of_pos (by simpa using same),
          List.filter_cons_of_pos (by simpa using same), List.take_succ_cons, ih unique.2 later]

/-- A cache after such resolutions, the latest first. -/
structure Remembers (lookup : Resolution.Lookup) (log : List GroupingId) (c : GroupingCache)
    (uses : List CacheUse) : Prop where
  tracks : c.Tracks uses
  latest : GroupingCache.latestFirst CacheUse.id uses = (recent lookup log).take c.capacity
  answers : ∀ u ∈ uses, lookup u.id = .ok (some u.params)

namespace Remembers

open GroupingCache (latestFirst)

variable {log : List GroupingId} {uses : List CacheUse}

theorem mem_iff (remembers : Remembers lookup log r.cache uses) :
    id ∈ uses.map CacheUse.id ↔ id ∈ (recent lookup log).take r.cache.capacity := by
  rw [← remembers.latest, latestFirst, List.mem_reverse]

/-- A resolution that the cache serves asks the store nothing. -/
theorem resolve_present (remembers : Remembers lookup log r.cache uses)
    (present : id ∈ uses.map CacheUse.id) :
    (∃ later, Remembers lookup (id :: log) (r.resolve lookup id).2.cache later) ∧
      (r.resolve lookup id).2.cache.capacity = r.cache.capacity ∧
      (r.resolve lookup id).1 = uncached lookup id ∧
      (r.resolve lookup id).2.asked = r.asked := by
  obtain ⟨u, member, rfl⟩ := List.mem_map.mp present
  have answer := remembers.answers u member
  have shown : known lookup u.id = true := Resolution.known_iff.mpr ⟨u.params, answer⟩
  obtain ⟨next, found, tracked, capacity, _⟩ := remembers.tracks.get_present member
  rw [resolve_hit found]
  refine ⟨⟨_, tracked, ?_, ?_⟩, capacity, ?_, rfl⟩
  · -- A cache that serves anything has room for an entry.
    have place := remembers.mem_iff.mp present
    cases size : r.cache.capacity with
    | zero =>
      rw [size] at place
      cases place
    | succ n =>
      rw [size] at place
      rw [GroupingCache.latestFirst_append,
        GroupingCache.latestFirst_others _ _ _ (· ≠ u.id) fun _ => rfl, remembers.latest, capacity,
        size, recent, if_pos shown, List.take_succ_cons,
        filter_take_of_mem (nodup_recent lookup log) place]
  · intro v old
    rcases List.mem_append.mp old with other | last
    · exact remembers.answers v (List.mem_of_mem_filter other)
    · cases List.mem_singleton.mp last
      exact answer
  · rw [uncached, answer]

/-- A grouping without parameters changes nothing. -/
theorem skip {c : GroupingCache} (remembers : Remembers lookup log c uses)
    (hidden : ¬ known lookup id = true) : Remembers lookup (id :: log) c uses := by
  refine ⟨remembers.tracks, ?_, remembers.answers⟩
  rw [recent, if_neg hidden]
  exact remembers.latest

/-- A grouping that was not in the cache comes to its front, and the one resolved longest ago makes
room for it. -/
theorem insert {c : GroupingCache} (remembers : Remembers lookup log c uses)
    (absent : id ∉ uses.map CacheUse.id) {params : Params}
    (answer : lookup id = .ok (some params)) :
    (∃ later, Remembers lookup (id :: log) (c.insert id params) later) ∧
      (c.insert id params).capacity = c.capacity := by
  have shown : known lookup id = true := Resolution.known_iff.mpr ⟨params, answer⟩
  have place : id ∉ (recent lookup log).take c.capacity := by
    rw [← remembers.latest, latestFirst, List.mem_reverse]
    exact absent
  cases size : c.capacity with
  | zero =>
    rw [GroupingCache.insert_without_capacity size]
    refine ⟨⟨uses, remembers.tracks, ?_, remembers.answers⟩, size⟩
    rw [remembers.latest, size]
    rfl
  | succ n =>
    have positive : 0 < c.capacity := size ▸ Nat.succ_pos n
    obtain ⟨tracked, capacity, _⟩ := remembers.tracks.insert_absent positive absent params
    refine ⟨⟨_, tracked, ?_, ?_⟩, capacity.trans size⟩
    · have outside : id ∉ (recent lookup log).take n := fun early =>
        place (List.take_subset_take_left _ (size ▸ Nat.le_succ n) early)
      rw [GroupingCache.latestFirst_append, GroupingCache.latestFirst_drop _ _ positive,
        remembers.latest, capacity, List.take_take, size, recent, if_pos shown,
        List.take_succ_cons, filter_take_of_notMem outside, Nat.add_sub_cancel,
        Nat.min_eq_left (Nat.le_succ n)]
    · intro u old
      rcases List.mem_append.mp old with kept | last
      · exact remembers.answers u (List.mem_of_mem_drop kept)
      · cases List.mem_singleton.mp last
        exact answer

/-- Any other resolution asks the store once. -/
theorem resolve_absent (remembers : Remembers lookup log r.cache uses)
    (absent : id ∉ uses.map CacheUse.id) :
    (∃ later, Remembers lookup (id :: log) (r.resolve lookup id).2.cache later) ∧
      (r.resolve lookup id).2.cache.capacity = r.cache.capacity ∧
      (r.resolve lookup id).1 = uncached lookup id ∧
      (r.resolve lookup id).2.asked = r.asked ++ [id] := by
  obtain ⟨next, missed, tracked, capacity, _⟩ := remembers.tracks.get_absent absent
  obtain ⟨result, asked, cache⟩ := @resolve_miss lookup _ _ _ missed
  have same : Remembers lookup log next uses :=
    ⟨tracked, capacity ▸ remembers.latest, remembers.answers⟩
  rw [result, asked, cache]
  rcases answer : lookup id with cause | _ | params
  · have hidden : ¬ known lookup id = true := by simp [known, answer]
    exact ⟨⟨uses, same.skip hidden⟩, capacity, rfl, rfl⟩
  · have hidden : ¬ known lookup id = true := by simp [known, answer]
    exact ⟨⟨uses, same.skip hidden⟩, capacity, rfl, rfl⟩
  · obtain ⟨remembered, kept⟩ := same.insert absent answer
    exact ⟨remembered, kept.trans capacity, rfl, rfl⟩

theorem resolve (remembers : Remembers lookup log r.cache uses) (id : GroupingId) :
    (∃ later, Remembers lookup (id :: log) (r.resolve lookup id).2.cache later) ∧
      (r.resolve lookup id).2.cache.capacity = r.cache.capacity ∧
      (r.resolve lookup id).1 = uncached lookup id := by
  by_cases present : id ∈ uses.map CacheUse.id
  · obtain ⟨remembered, capacity, result, _⟩ := remembers.resolve_present present
    exact ⟨remembered, capacity, result⟩
  · obtain ⟨remembered, capacity, result, _⟩ := remembers.resolve_absent present
    exact ⟨remembered, capacity, result⟩

theorem after (remembers : Remembers lookup log r.cache uses) (ids : List GroupingId) :
    (∃ later, Remembers lookup (ids.reverse ++ log) (r.after lookup ids).cache later) ∧
      (r.after lookup ids).cache.capacity = r.cache.capacity := by
  induction ids generalizing r log uses with
  | nil => exact ⟨⟨uses, remembers⟩, rfl⟩
  | cons id ids ih =>
    obtain ⟨⟨later, remembered⟩, capacity, _⟩ := remembers.resolve id
    obtain ⟨rest, kept⟩ := ih remembered
    rw [List.reverse_cons, List.append_assoc]
    exact ⟨rest, kept.trans capacity⟩

end Remembers

theorem remembers_fresh (lookup : Resolution.Lookup) (capacity : Nat) :
    Remembers lookup [] (fresh capacity).cache [] where
  tracks := GroupingCache.tracks_empty capacity
  latest := List.take_nil.symm
  answers := nofun

/-- Whether a resolution, after some others, is served without asking the store. -/
def Hits (lookup : Resolution.Lookup) (capacity : Nat) (ids : List GroupingId) (id : GroupingId) :
    Prop :=
  let r := (fresh capacity).after lookup ids
  (r.resolve lookup id).2.asked = r.asked

/-- A resolution is a hit at the right distance, and otherwise it asks the store once. -/
theorem hits_iff (lookup : Resolution.Lookup) (capacity : Nat) (ids : List GroupingId)
    (id : GroupingId) :
    let r := (fresh capacity).after lookup ids
    (Hits lookup capacity ids id ↔
      known lookup id = true ∧ id ∈ ids ∧ distance lookup ids id < capacity) ∧
    (¬ Hits lookup capacity ids id → (r.resolve lookup id).2.asked = r.asked ++ [id]) ∧
    (r.resolve lookup id).1 = uncached lookup id := by
  intro r
  obtain ⟨⟨uses, remembers⟩, capacity_eq⟩ := (remembers_fresh lookup capacity).after ids
  rw [List.append_nil] at remembers
  have place : id ∈ uses.map CacheUse.id ↔
      known lookup id = true ∧ id ∈ ids ∧ distance lookup ids id < capacity := by
    rw [remembers.mem_iff, capacity_eq]
    exact mem_take_recent
  rw [← place]
  by_cases present : id ∈ uses.map CacheUse.id
  · obtain ⟨_, _, result, asked⟩ := remembers.resolve_present present
    exact ⟨iff_of_true asked present, fun missed => absurd asked missed, result⟩
  · obtain ⟨_, _, result, asked⟩ := remembers.resolve_absent present
    refine ⟨iff_of_false ?_ present, fun _ => asked, result⟩
    intro hit
    simpa using hit.symm.trans asked

theorem distance_filter_known (lookup : Resolution.Lookup) (ids : List GroupingId)
    (has : known lookup id = true) :
    distance lookup (ids.filter (known lookup)) id = distance lookup ids id := by
  have passed : (fun a => !known lookup a || decide (a ≠ id)) = fun a => decide (a ≠ id) := by
    funext a
    by_cases same : a = id
    · simp [same, has]
    · simp [same]
  rw [distance, distance, ← List.filter_reverse, List.takeWhile_filter, passed, List.filter_filter]
  simp only [Bool.and_self]

/-- What the cache serves is decided by distances alone. A resolution of a grouping with parameters
asks the store nothing exactly if the grouping was resolved before and fewer others with parameters
were resolved since than the cache may hold. Any other resolution asks the store once, and either
gives what the store alone would. Groupings without parameters never count, and a larger cache
serves all that a smaller one does. -/
theorem hit_iff_distance_lt (lookup : Resolution.Lookup) (capacity : Nat) (ids : List GroupingId)
    (id : GroupingId) :
    let r := (fresh capacity).after lookup ids
    (Hits lookup capacity ids id ↔
      (∃ params, lookup id = .ok (some params)) ∧ id ∈ ids ∧
        distance lookup ids id < capacity) ∧
    (¬ Hits lookup capacity ids id → (r.resolve lookup id).2.asked = r.asked ++ [id]) ∧
    (r.resolve lookup id).1 = uncached lookup id ∧
    r.cache.resolve lookup id = ((r.resolve lookup id).1, (r.resolve lookup id).2.cache) ∧
    (Hits lookup capacity (ids.filter (known lookup)) id ↔ Hits lookup capacity ids id) ∧
    ∀ larger, capacity ≤ larger → Hits lookup capacity ids id → Hits lookup larger ids id := by
  intro r
  obtain ⟨hits, misses, result⟩ := hits_iff lookup capacity ids id
  refine ⟨?_, misses, result, (resolve_eq lookup r id).symm, ?_, ?_⟩
  · rw [hits, Resolution.known_iff]
  · rw [hits, (hits_iff lookup capacity (ids.filter (known lookup)) id).1]
    refine and_congr_right fun has => ?_
    rw [List.mem_filter, and_iff_left has, distance_filter_known lookup ids has]
  · intro larger more hit
    obtain ⟨has, member, near⟩ := hits.mp hit
    exact (hits_iff lookup larger ids id).1.mpr ⟨has, member, Nat.lt_of_lt_of_le near more⟩

end Resolver

end LeaseQueue
