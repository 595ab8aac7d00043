import LeaseQueue.Grouping.Id
import LeaseQueue.Proofs.Lists
import LeaseQueue.Proofs.Store.Groupings
/-! The encoding of parameters is canonical and lossless. Parameters are known by the value that each
key has, equal parameters have one text, and a text stands for one map only; identifiers can agree
for different maps only where the hashes of different texts begin alike. -/
namespace LeaseQueue

namespace Utf8

theorem toList_loop (bytes : ByteArray) (i : Nat) (before : List UInt8) :
    ByteArray.toList.loop bytes i before = before.reverse ++ bytes.data.toList.drop i := by
  fun_induction ByteArray.toList.loop bytes i before with
  | case1 i before more ih =>
    have inside : i < bytes.data.toList.length := more
    rw [ih, List.drop_eq_getElem_cons inside]
    simp [ByteArray.get!, getElem!_pos bytes.data i more]
  | case2 i before done =>
    have beyond : bytes.data.toList.length ≤ i := Nat.le_of_not_lt done
    rw [List.drop_eq_nil_of_le beyond, List.append_nil]

theorem encode_eq_data (text : String) : encode text = text.toUTF8.data.toList :=
  toList_loop text.toUTF8 0 []

theorem encode_inj {a b : String} : encode a = encode b ↔ a = b := by
  rw [encode_eq_data, encode_eq_data, Array.toList_inj, ← ByteArray.ext_iff,
    String.toUTF8_eq_toByteArray, String.toUTF8_eq_toByteArray, String.toByteArray_inj]

end Utf8

namespace Params

def value? (params : Params) (key : String) : Option String := params.pairs.lookup key

/-- The value that some pairs leave a key with, where the later of two pairs with one key counts. -/
def lastValue? (pairs : List (String × String)) (key : String) : Option String :=
  pairs.reverse.lookup key

variable {a b params : Params} {pairs : List (String × String)} {key : String}

theorem keys_nodup (params : Params) : (params.pairs.map Prod.fst).Nodup := by
  rw [List.Nodup, List.pairwise_map]
  exact params.ascending.imp fun before => String.ne_of_lt before

theorem mem_pairs_iff {value : String} :
    (key, value) ∈ params.pairs ↔ params.value? key = some value := by
  constructor
  · exact lookup_eq_some_of_mem params.keys_nodup
  · intro found
    obtain ⟨before, after, split, _⟩ := List.lookup_eq_some_iff.mp found
    rw [split]
    exact List.mem_append_right _ List.mem_cons_self

theorem eq_of_value? (same : ∀ key, a.value? key = b.value? key) : a = b := by
  have alike : a.pairs.Perm b.pairs := by
    rw [List.perm_ext_iff_of_nodup (List.Nodup.of_map _ a.keys_nodup)
      (List.Nodup.of_map _ b.keys_nodup)]
    intro pair
    exact mem_pairs_iff.trans ((same pair.1).symm ▸ mem_pairs_iff.symm)
  apply eq_of_pairs
  -- The keys ascend on both sides, so the same pairs cannot stand in another order.
  apply alike.eq_of_pairwise _ a.ascending b.ascending
  intro p q _ _ before after
  exact absurd after (String.lt_asymm before)

theorem lookup_cons_if (p : String × String) (pairs : List (String × String)) (key : String) :
    (p :: pairs).lookup key = if key = p.1 then some p.2 else pairs.lookup key := by
  rw [List.lookup_cons]
  split
  · rename_i same
    rw [if_pos (eq_of_beq same)]
  · rename_i other
    rw [if_neg (ne_of_beq_false other)]

theorem lookup_put (name value : String) (pairs : List (String × String)) (key : String) :
    (put name value pairs).lookup key = if key = name then some value else pairs.lookup key := by
  induction pairs with
  | nil => exact lookup_cons_if (name, value) [] key
  | cons p rest ih =>
    rw [put]
    split
    · exact lookup_cons_if (name, value) (p :: rest) key
    · split
      · rename_i same
        rw [lookup_cons_if, lookup_cons_if, ← same]
        split <;> rfl
      · rename_i other
        rw [lookup_cons_if, lookup_cons_if, ih]
        split
        · rename_i held
          rw [if_neg fun own => other (own.symm.trans held)]
        · rfl

theorem value?_insert (params : Params) (name value key : String) :
    (params.insert name value).value? key = if key = name then some value else params.value? key :=
  lookup_put name value params.pairs key

theorem value?_foldl_insert (params : Params) (pairs : List (String × String)) (key : String) :
    (pairs.foldl (fun params p => params.insert p.1 p.2) params).value? key =
      (lastValue? pairs key).or (params.value? key) := by
  induction pairs generalizing params with
  | nil => rfl
  | cons p pairs ih =>
    -- The first pair counts only where no later pair has its key.
    have last : lastValue? (p :: pairs) key =
        (lastValue? pairs key).or (if key = p.1 then some p.2 else none) := by
      rw [lastValue?, List.reverse_cons, List.lookup_append, lookup_cons_if]
      rfl
    rw [List.foldl_cons, ih, value?_insert, last, Option.or_assoc]
    split <;> rfl

theorem value?_ofPairs (pairs : List (String × String)) (key : String) :
    (ofPairs pairs).value? key = lastValue? pairs key :=
  (value?_foldl_insert empty pairs key).trans Option.or_none

theorem encode_inj : a.encode = b.encode ↔ a = b := by
  constructor
  · intro same
    have decoded := a.decode_encode
    rw [same, b.decode_encode] at decoded
    exact (Except.ok.inj decoded).symm
  · rintro rfl
    rfl

theorem ofPairs_eq_iff {xs ys : List (String × String)} :
    ofPairs xs = ofPairs ys ↔ ∀ key, lastValue? xs key = lastValue? ys key := by
  constructor
  · intro same key
    rw [← value?_ofPairs, same, value?_ofPairs]
  · intro same
    apply eq_of_value?
    intro key
    rw [value?_ofPairs, same, value?_ofPairs]

/-- Reading an encoding gives the map back, so a store returns what it was given first for a grouping,
and different maps have different encodings. Pairs that leave all keys with equal values, and only
those, have one encoding, and their identifiers agree. Other maps share an identifier only if the
hashes of two different texts begin with the same bytes. -/
theorem encoding_canonical (params other : Params) (pairs others : List (String × String))
    (id : GroupingId) (earlier later : List StoreCall) :
    decode params.encode = .ok params ∧
    (Store.firstPut? id earlier = none →
      (Store.empty.after (earlier ++ .putGrouping id params :: later)).groupingParams id =
        .ok (some params)) ∧
    (params ≠ other → params.encode ≠ other.encode) ∧
    ((∀ key, lastValue? pairs key = lastValue? others key) ↔
      (ofPairs pairs).encode = (ofPairs others).encode) ∧
    ((∀ key, lastValue? pairs key = lastValue? others key) →
      GroupingId.ofParams (ofPairs pairs) = GroupingId.ofParams (ofPairs others)) ∧
    (params ≠ other → GroupingId.ofParams params = GroupingId.ofParams other →
      Utf8.encode params.encode ≠ Utf8.encode other.encode ∧
      (Sha256.hash (Utf8.encode params.encode)).take groupingIdSize =
        (Sha256.hash (Utf8.encode other.encode)).take groupingIdSize) := by
  refine ⟨params.decode_encode, ?_, ?_, ?_, ?_, ?_⟩
  · intro absent
    have first : Store.firstPut? id (earlier ++ .putGrouping id params :: later) = some params := by
      rw [Store.firstPut?_append, absent, Option.none_or, Store.firstPut?_cons, StoreCall.put?,
        if_pos rfl, Option.some_or]
    rw [Store.groupingParams_after, first]
  · intro differ same
    exact differ (encode_inj.mp same)
  · rw [encode_inj, ofPairs_eq_iff]
  · intro same
    rw [ofPairs_eq_iff.mpr same]
  · intro differ collide
    constructor
    · intro same
      exact differ (encode_inj.mp (Utf8.encode_inj.mp same))
    · exact congrArg GroupingId.bytes collide

/-- Pairs in another order, of which others are overwritten, name one grouping. -/
theorem encoding_canonical_overwritten :
    GroupingId.ofParams (ofPairs [("b", "\"2"), ("a", "\\"), ("b", "𝄞")]) =
      GroupingId.ofParams (ofPairs [("a", ""), ("b", "𝄞"), ("a", "\\")]) := by
  apply (encoding_canonical empty empty [("b", "\"2"), ("a", "\\"), ("b", "𝄞")]
    [("a", ""), ("b", "𝄞"), ("a", "\\")] (GroupingId.ofParams empty) [] []).2.2.2.2.1
  intro key
  have distinct : "a" ≠ "b" := by decide
  simp only [lastValue?, List.reverse_cons, List.reverse_nil, List.nil_append, List.cons_append,
    lookup_cons_if]
  grind

end Params

end LeaseQueue
