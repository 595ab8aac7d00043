import LeaseQueue.Proofs.Grouping.Resolving
import LeaseQueue.Proofs.Store.Groupings
/-! Resolvers that share one store while it is filled. Their calls go on step by step between the
operations of the store and the steps of each other, and what a call gives never tells that there
are caches. -/
namespace LeaseQueue

namespace GroupingCache

/-- All parameters in the cache are those that are known. -/
def Holds (c : GroupingCache) (known : GroupingId → Option Params) : Prop :=
  ∀ entry ∈ c.entries, known entry.1 = some entry.2.params

namespace Holds

variable {c : GroupingCache} {known : GroupingId → Option Params} {id : GroupingId}

theorem empty (known : GroupingId → Option Params) (capacity : Nat) :
    (empty capacity).Holds known :=
  nofun

theorem mono {later : GroupingId → Option Params} (holds : c.Holds known)
    (kept : ∀ id params, known id = some params → later id = some params) : c.Holds later :=
  fun entry member => kept _ _ (holds entry member)

theorem touch (holds : c.Holds known) {params : Params} {next : GroupingCache}
    (touched : c.touch id = some (params, next)) : known id = some params ∧ next.Holds known := by
  rw [touch_eq] at touched
  obtain ⟨entry, found, same⟩ := Option.map_eq_some_iff.mp touched
  cases same
  constructor
  · obtain ⟨before, after, split, _⟩ := List.lookup_eq_some_iff.mp found
    exact holds (id, entry) (split ▸ List.mem_append_right _ List.mem_cons_self)
  · intro changed member
    obtain ⟨⟨key, entry⟩, old, rfl⟩ := List.mem_map.mp member
    have same : known key = some entry.params := holds (key, entry) old
    simp only
    split
    · exact same
    · exact same

theorem get (holds : c.Holds known) (id : GroupingId) :
    (∀ params, (c.get id).1 = some params → known id = some params) ∧ (c.get id).2.Holds known := by
  unfold GroupingCache.get
  split
  · rename_i params next touched
    obtain ⟨same, held⟩ := holds.touch touched
    refine ⟨?_, held⟩
    intro other found
    cases found
    exact same
  · exact ⟨nofun, holds⟩

theorem makeRoom (holds : c.Holds known) (marks : List (Nat × GroupingId)) :
    (c.makeRoom marks).Holds known := by
  induction marks generalizing c with
  | nil => exact holds
  | cons mark marks ih =>
    rw [makeRoom_cons]
    split
    · exact holds
    · exact ih fun entry member => holds entry (List.mem_of_mem_filter member)

theorem insert (holds : c.Holds known) {params : Params} (same : known id = some params) :
    (c.insert id params).Holds known := by
  unfold GroupingCache.insert
  split
  · exact holds
  · split
    · rename_i touched
      exact (holds.touch touched).2
    · intro entry member
      rcases List.mem_cons.mp member with rfl | old
      · exact same
      · exact holds.makeRoom c.recency entry old

end Holds

end GroupingCache

/-- A step keeps to what is known, and a resolution ends as it would without a cache. -/
theorem Resolution.step_known {lookup : Lookup} {known : GroupingId → Option Params}
    {id : GroupingId} {cache : GroupingCache} {stage : Resolution}
    (answers : lookup id = .ok (known id)) (holds : cache.Holds known)
    (found : ∀ params, stage = .found params → known id = some params) :
    let after := step lookup id cache stage
    after.2.Holds known ∧ (∀ params, after.1 = .found params → known id = some params) ∧
      ∀ result, after.1 = .ended result →
        stage = .ended result ∨ (∀ other, stage ≠ .ended other) ∧ uncached lookup id = result := by
  have uncached_known : ∀ params, known id = some params → uncached lookup id = .ok params :=
    fun params same => by rw [uncached, answers, same]
  cases stage with
  | begun =>
    obtain ⟨same, held⟩ := holds.get id
    rcases read : cache.get id with ⟨_ | params, next⟩
    · rw [read] at held
      simp only [step, read]
      exact ⟨held, by simp, by simp⟩
    · rw [read] at same held
      simp only [step, read]
      refine ⟨held, by simp, ?_⟩
      intro result ended
      cases ended
      exact .inr ⟨by simp, uncached_known params (same params rfl)⟩
  | missed =>
    simp only [step, uncached, answers]
    cases known id with
    | none =>
      refine ⟨holds, by simp [ofAnswer], ?_⟩
      intro result ended
      cases ended
      exact .inr ⟨by simp, rfl⟩
    | some params =>
      refine ⟨holds, ?_, by simp [ofAnswer]⟩
      intro other same
      cases same
      rfl
  | found params =>
    have same := found params rfl
    refine ⟨holds.insert same, by simp [step], ?_⟩
    intro result ended
    cases ended
    exact .inr ⟨by simp, uncached_known params same⟩
  | ended result =>
    exact ⟨holds, by simp [step], fun _ same => .inl same⟩

/-- A call of one of the resolvers, as far as it has come. -/
structure ResolveCall where
  resolver : Nat
  id : GroupingId
  stage : Resolution

inductive SharingEvent where
  /-- A further resolver, with an empty cache. -/
  | setUp (capacity : Nat)
  | perform (operation : StoreCall)
  | resolve (resolver : Nat) (id : GroupingId)
  /-- The next step of a call. -/
  | move (call : Nat)
  /-- The look-up of a call that missed its cache fails. -/
  | refuse (call : Nat) (cause : StoreError)

structure Sharing where
  store : Store
  caches : List GroupingCache
  calls : List ResolveCall

namespace Sharing

def move (s : Sharing) (i : Nat) : Sharing :=
  match s.calls[i]? with
  | none => s
  | some call =>
    match s.caches[call.resolver]? with
    | none => s
    | some cache =>
      let (stage, cache) := Resolution.step s.store.groupingParams call.id cache call.stage
      { s with
        caches := s.caches.set call.resolver cache
        calls := s.calls.set i { call with stage } }

def refuse (s : Sharing) (i : Nat) (cause : StoreError) : Sharing :=
  match s.calls[i]? with
  | some ⟨resolver, id, .missed⟩ =>
    { s with calls := s.calls.set i ⟨resolver, id, Resolution.ofAnswer id (.error cause)⟩ }
  | _ => s

def step (s : Sharing) : SharingEvent → Sharing
  | .setUp capacity => { s with caches := s.caches ++ [.empty capacity] }
  | .perform operation => { s with store := (s.store.perform operation).2 }
  | .resolve resolver id => { s with calls := s.calls ++ [⟨resolver, id, .begun⟩] }
  | .move i => s.move i
  | .refuse i cause => s.refuse i cause

def after (events : List SharingEvent) : Sharing := events.foldl step ⟨.empty, [], []⟩

/-- The operations of the store among some events. -/
def performed (events : List SharingEvent) : List StoreCall :=
  events.filterMap fun
    | .perform operation => some operation
    | _ => none

/-- The parameters that were first stored for a grouping. -/
def firstPut? (events : List SharingEvent) (id : GroupingId) : Option Params :=
  Store.firstPut? id (performed events)

/-- A call has begun and not ended. -/
def UnderWay (s : Sharing) (i : Nat) (call : ResolveCall) : Prop :=
  ∃ stage, s.calls[i]? = some { call with stage } ∧ ∀ result, stage ≠ .ended result

/-- What a look-up without a cache gives at an event, which may be that the look-up fails. -/
def Uncached (s : Sharing) (event : SharingEvent) (i : Nat) (id : GroupingId)
    (result : Except ResolveError Params) : Prop :=
  Resolution.uncached s.store.groupingParams id = result ∨
    ∃ cause, event = .refuse i cause ∧ result = .error (.store cause)

/-- How a call came to be as it is after an event. -/
inductive CallStep (s : Sharing) (i : Nat) (call : ResolveCall) : SharingEvent → Prop where
  | kept {event : SharingEvent} (same : s.calls[i]? = some call) : CallStep s i call event
  | began (new : s.calls.length = i) (first : call.stage = .begun) :
    CallStep s i call (.resolve call.resolver call.id)
  | moved {stage : Resolution} {cache : GroupingCache}
    (earlier : s.calls[i]? = some { call with stage })
    (own : s.caches[call.resolver]? = some cache)
    (next : call.stage =
      (Resolution.step s.store.groupingParams call.id cache stage).1) :
    CallStep s i call (.move i)
  | refused {cause : StoreError} (earlier : s.calls[i]? = some { call with stage := .missed })
    (next : call.stage = .ended (.error (.store cause))) : CallStep s i call (.refuse i cause)

variable {s : Sharing} {i : Nat} {call : ResolveCall} {event : SharingEvent}

theorem move_cases (s : Sharing) (i : Nat) :
    s.move i = s ∨ ∃ call cache, s.calls[i]? = some call ∧
      s.caches[call.resolver]? = some cache ∧
      let after := Resolution.step s.store.groupingParams call.id cache call.stage
      s.move i =
        { s with
          caches := s.caches.set call.resolver after.2
          calls := s.calls.set i { call with stage := after.1 } } := by
  unfold move
  split
  · exact .inl rfl
  · rename_i call found
    split
    · exact .inl rfl
    · rename_i cache own
      exact .inr ⟨call, cache, found, own, rfl⟩

theorem refuse_cases (s : Sharing) (i : Nat) (cause : StoreError) :
    s.refuse i cause = s ∨ ∃ resolver id, s.calls[i]? = some ⟨resolver, id, .missed⟩ ∧
      s.refuse i cause =
        { s with calls := s.calls.set i ⟨resolver, id, .ended (.error (.store cause))⟩ } := by
  unfold refuse
  split
  · rename_i resolver id found
    exact .inr ⟨resolver, id, found, rfl⟩
  · exact .inl rfl

theorem callStep_of_step (found : (s.step event).calls[i]? = some call) :
    s.CallStep i call event := by
  cases event with
  | setUp capacity => exact .kept found
  | perform operation => exact .kept found
  | resolve resolver id =>
    rcases getElem?_append_cases found with old | ⟨new, rfl⟩
    · exact .kept old
    · exact .began new rfl
  | move j =>
    rw [step] at found
    rcases s.move_cases j with same | ⟨other, cache, earlier, own, same⟩
    · rw [same] at found
      exact .kept found
    · rw [same] at found
      rcases getElem?_set_cases found with ⟨rfl, rfl⟩ | ⟨_, old⟩
      · exact .moved earlier own rfl
      · exact .kept old
  | refuse j cause =>
    rw [step] at found
    rcases s.refuse_cases j cause with same | ⟨resolver, id, earlier, same⟩
    · rw [same] at found
      exact .kept found
    · rw [same] at found
      rcases getElem?_set_cases found with ⟨rfl, rfl⟩ | ⟨_, old⟩
      · exact .refused earlier rfl
      · exact .kept old

theorem cache_of_step {cache : GroupingCache} (member : cache ∈ (s.step event).caches) :
    cache ∈ s.caches ∨ (∃ capacity, cache = .empty capacity) ∨
      ∃ call earlier, call ∈ s.calls ∧ earlier ∈ s.caches ∧
        cache = (Resolution.step s.store.groupingParams call.id earlier call.stage).2 := by
  cases event with
  | setUp capacity =>
    rcases List.mem_append.mp member with old | new
    · exact .inl old
    · exact .inr (.inl ⟨capacity, List.mem_singleton.mp new⟩)
  | perform operation => exact .inl member
  | resolve resolver id => exact .inl member
  | move i =>
    rw [step] at member
    rcases s.move_cases i with same | ⟨call, earlier, found, own, same⟩
    · rw [same] at member
      exact .inl member
    · rw [same] at member
      rcases List.mem_or_eq_of_mem_set member with old | new
      · exact .inl old
      · exact .inr (.inr ⟨call, earlier, List.mem_of_getElem? found, List.mem_of_getElem? own, new⟩)
  | refuse i cause =>
    rw [step] at member
    rcases s.refuse_cases i cause with same | ⟨_, _, _, same⟩
    · rw [same] at member
      exact .inl member
    · rw [same] at member
      exact .inl member

theorem store_step (s : Sharing) (event : SharingEvent) :
    (s.step event).store = s.store.after (performed [event]) := by
  cases event with
  | move i =>
    rcases s.move_cases i with same | ⟨_, _, _, _, same⟩
    all_goals
      rw [step, same]
      rfl
  | refuse i cause =>
    rcases s.refuse_cases i cause with same | ⟨_, _, _, same⟩
    all_goals
      rw [step, same]
      rfl
  | _ => rfl

theorem after_append (events : List SharingEvent) (event : SharingEvent) :
    after (events ++ [event]) = (after events).step event := by
  rw [after, List.foldl_append]
  rfl

theorem performed_append (events more : List SharingEvent) :
    performed (events ++ more) = performed events ++ performed more :=
  List.filterMap_append

theorem store_after (events : List SharingEvent) :
    (after events).store = Store.empty.after (performed events) := by
  induction events using List.reverseRecOn with
  | nil => rfl
  | append_singleton events event ih =>
    rw [after_append, store_step, ih, performed_append, Store.after_append]

theorem firstPut?_append {events : List SharingEvent} {id : GroupingId} {params : Params}
    (first : firstPut? events id = some params) (more : List SharingEvent) :
    firstPut? (events ++ more) id = some params := by
  unfold firstPut? at first ⊢
  rw [performed_append, Store.firstPut?_append, first]
  rfl

/-- All that caches and calls carry is what is known. -/
structure Sound (s : Sharing) (known : GroupingId → Option Params) : Prop where
  answers : ∀ id, s.store.groupingParams id = .ok (known id)
  caches : ∀ cache ∈ s.caches, cache.Holds known
  found : ∀ call ∈ s.calls, ∀ params, call.stage = .found params → known call.id = some params

variable {known : GroupingId → Option Params}

theorem Sound.moved (sound : s.Sound known) {cache : GroupingCache} (present : call ∈ s.calls)
    (own : cache ∈ s.caches) :
    let after := Resolution.step s.store.groupingParams call.id cache call.stage
    after.2.Holds known ∧ (∀ params, after.1 = .found params → known call.id = some params) ∧
      ∀ result, after.1 = .ended result →
        call.stage = .ended result ∨ (∀ other, call.stage ≠ .ended other) ∧
          Resolution.uncached s.store.groupingParams call.id = result :=
  Resolution.step_known (sound.answers call.id) (sound.caches cache own) (sound.found call present)

theorem Sound.step {later : GroupingId → Option Params} (sound : s.Sound known)
    (answers : ∀ id, (s.step event).store.groupingParams id = .ok (later id))
    (kept : ∀ id params, known id = some params → later id = some params) :
    (s.step event).Sound later := by
  refine ⟨answers, ?_, ?_⟩
  · intro cache member
    rcases cache_of_step member with old | ⟨capacity, rfl⟩ | ⟨call, earlier, present, own, rfl⟩
    · exact (sound.caches cache old).mono kept
    · exact .empty later capacity
    · exact (sound.moved present own).1.mono kept
  · intro call member params stage
    obtain ⟨i, found⟩ := List.mem_iff_getElem?.mp member
    apply kept
    cases callStep_of_step found with
    | kept same => exact sound.found call (List.mem_of_getElem? same) params stage
    | began _ first => rw [first] at stage; cases stage
    | moved earlier own next =>
      obtain ⟨_, same, _⟩ := sound.moved (List.mem_of_getElem? earlier) (List.mem_of_getElem? own)
      exact same params (next.symm.trans stage)
    | refused _ next => rw [next] at stage; cases stage

theorem sound_after (events : List SharingEvent) : (after events).Sound (firstPut? events) := by
  have answers : ∀ events id,
      (after events).store.groupingParams id = .ok (firstPut? events id) := by
    intro events id
    rw [store_after, Store.groupingParams_after, firstPut?]
  -- By the last event: a step keeps to what is known, and what is known only grows.
  induction events using List.reverseRecOn with
  | nil => exact ⟨answers [], nofun, nofun⟩
  | append_singleton events event ih =>
    have next := answers (events ++ [event])
    rw [after_append] at next ⊢
    exact ih.step next fun _ _ first => firstPut?_append first [event]

theorem CallStep.earlier (step : s.CallStep i call event) :
    (∃ stage, s.calls[i]? = some { call with stage }) ∨
      event = .resolve call.resolver call.id ∧ s.calls.length = i := by
  cases step with
  | kept same => exact .inl ⟨call.stage, same⟩
  | began new _ => exact .inr ⟨rfl, new⟩
  | moved earlier _ _ => exact .inl ⟨_, earlier⟩
  | refused earlier _ => exact .inl ⟨_, earlier⟩

theorem began_of_after {events : List SharingEvent} (found : (after events).calls[i]? = some call) :
    ∃ before later, events = before ++ .resolve call.resolver call.id :: later ∧
      (after before).calls.length = i := by
  induction events using List.reverseRecOn generalizing call with
  | nil => cases found
  | append_singleton events event ih =>
    rw [after_append] at found
    rcases (callStep_of_step found).earlier with ⟨stage, earlier⟩ | ⟨rfl, new⟩
    · obtain ⟨before, later, rfl, new⟩ := ih earlier
      exact ⟨before, later ++ [event], List.append_assoc _ _ _, new⟩
    · exact ⟨events, [], rfl, new⟩

/-- The step in which a call ends gives what a look-up without a cache would. -/
theorem Sound.ends {result : Except ResolveError Params} (sound : s.Sound known)
    (found : (s.step event).calls[i]? = some call) (ended : call.stage = .ended result) :
    s.calls[i]? = some call ∨ s.UnderWay i call ∧ s.Uncached event i call.id result := by
  cases callStep_of_step found with
  | kept same => exact .inl same
  | began _ first => rw [first] at ended; cases ended
  | refused earlier next =>
    rw [next] at ended
    cases ended
    exact .inr ⟨⟨.missed, earlier, nofun⟩, .inr ⟨_, rfl, rfl⟩⟩
  | @moved stage cache earlier own next =>
    obtain ⟨_, _, same⟩ := sound.moved (List.mem_of_getElem? earlier) (List.mem_of_getElem? own)
    -- A call that had ended before stays as it was; one that ends now looks up what is known.
    rcases same result (next.symm.trans ended) with before | ⟨running, uncached⟩
    · have unchanged : stage = call.stage := before.trans ended.symm
      subst unchanged
      exact .inl earlier
    · exact .inr ⟨⟨stage, earlier, running⟩, .inl uncached⟩

theorem ended_of_after {events : List SharingEvent} {result : Except ResolveError Params}
    (found : (after events).calls[i]? = some call) (ended : call.stage = .ended result) :
    ∃ earlier event later, events = earlier ++ event :: later ∧
      (after earlier).UnderWay i call ∧ (after earlier).Uncached event i call.id result := by
  induction events using List.reverseRecOn with
  | nil => cases found
  | append_singleton events event ih =>
    rw [after_append] at found
    rcases (sound_after events).ends found ended with same | now
    · obtain ⟨earlier, moment, later, rfl, at_moment⟩ := ih same
      exact ⟨earlier, moment, later ++ [event], List.append_assoc _ _ _, at_moment⟩
    · exact ⟨events, event, [], rfl, now⟩

theorem Sound.of_uncached {id : GroupingId} {result : Except ResolveError Params}
    (sound : s.Sound known) (uncached : s.Uncached event i id result) :
    (∀ params, result = .ok params → known id = some params) ∧
      ∀ other, result = .error (.unknownGrouping other) → other = id ∧ known id = none := by
  rcases uncached with rfl | ⟨cause, _, rfl⟩
  · rw [Resolution.uncached, sound.answers]
    cases known id with
    | none =>
      refine ⟨by simp, ?_⟩
      intro other same
      cases same
      exact ⟨rfl, rfl⟩
    | some params =>
      refine ⟨?_, by simp⟩
      intro other same
      cases same
      rfl
  · exact ⟨by simp, by simp⟩

/-- Caches never show. A call that has ended began at some event and ended at a later one. There it
gives what a look-up without a cache would, so parameters are those that were stored first, and a
grouping is unknown only if nothing had been stored for it when the call began. -/
theorem resolves_as_uncached {events : List SharingEvent} {result : Except ResolveError Params}
    (found : (after events).calls[i]? = some call) (ended : call.stage = .ended result) :
    ∃ before during event later,
      events = before ++ .resolve call.resolver call.id :: during ++ event :: later ∧
      (after before).calls.length = i ∧
      let moment := after (before ++ .resolve call.resolver call.id :: during)
      moment.UnderWay i call ∧ moment.Uncached event i call.id result ∧
      (∀ params, result = .ok params → firstPut? events call.id = some params) ∧
      ∀ id, result = .error (.unknownGrouping id) →
        id = call.id ∧ firstPut? before call.id = none := by
  obtain ⟨earlier, event, later, rfl, underWay, uncached⟩ := ended_of_after found ended
  obtain ⟨stage, present, _⟩ := id underWay
  obtain ⟨before, during, rfl, new⟩ := began_of_after present
  obtain ⟨given, unknown⟩ := (sound_after _).of_uncached uncached
  refine ⟨before, during, event, later, rfl, new, underWay, uncached, ?_, ?_⟩
  · intro params same
    exact firstPut?_append (given params same) (event :: later)
  · intro id same
    obtain ⟨own, absent⟩ := unknown id same
    refine ⟨own, Option.eq_none_iff_forall_ne_some.mpr ?_⟩
    intro params first
    -- What was stored before the call began is still known at the moment of its end.
    cases absent.symm.trans (firstPut?_append first _)

/-- A call misses its cache before parameters are stored twice, and looks them up after that. -/
def overtaken : List SharingEvent :=
  [.setUp 1, .resolve 0 Store.soleGrouping, .move 0,
    .perform (.putGrouping Store.soleGrouping .empty),
    .perform (.putGrouping Store.soleGrouping (.ofPairs [("name", "b")])), .move 0, .move 0]

theorem resolves_as_uncached_overtaken :
    (after overtaken).calls[0]? = some ⟨0, Store.soleGrouping, .ended (.ok .empty)⟩ ∧
      firstPut? overtaken Store.soleGrouping = some .empty := by
  have found :
      (after overtaken).calls[0]? = some ⟨0, Store.soleGrouping, .ended (.ok .empty)⟩ := rfl
  obtain ⟨_, _, _, _, _, _, _, _, given, _⟩ := resolves_as_uncached found rfl
  exact ⟨found, given .empty rfl⟩

end Sharing

end LeaseQueue
