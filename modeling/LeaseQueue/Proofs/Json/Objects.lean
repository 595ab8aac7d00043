import LeaseQueue.Grouping.Params
import LeaseQueue.Proofs.Json.Lists
/-! Maps from strings to strings survive being written as objects: the reader follows the text from
member to member, and members in ascending order give the map back. -/
namespace LeaseQueue.Json

/-- What follows the first member of an object. -/
def laterPairs (pairs : List (String × String)) : List Char :=
  pairs.flatMap fun pair => ',' :: pairChars pair

theorem joinComma_pairs (pair : String × String) (pairs : List (String × String)) :
    joinComma ((pair :: pairs).map pairChars) = pairChars pair ++ laterPairs pairs := by
  rw [List.map_cons, joinComma_parts, List.flatMap_map]
  rfl

theorem pairChars_append (pair : String × String) (rest : List Char) :
    pairChars pair ++ rest =
      '"' :: (pair.1.toList.flatMap escapeChar ++
        '"' :: ':' :: (stringChars pair.2.toList ++ rest)) := by
  simp [pairChars, stringChars]

theorem readKey_first (pair : String × String) (rest : List Char) :
    readKey true (pairChars pair ++ rest) =
      .ok (some pair.1, ':' :: (stringChars pair.2.toList ++ rest)) := by
  have spaced : ∀ text, dropSpace ('"' :: text) = '"' :: text := fun _ => rfl
  have begins : '"' ≠ closeBrace := by decide
  simp only [readKey, pairChars_append, spaced, if_neg begins, if_true, readChars_written,
    Except.map, String.ofList_toList]

theorem readKey_later (pair : String × String) (rest : List Char) :
    readKey false (',' :: (pairChars pair ++ rest)) =
      .ok (some pair.1, ':' :: (stringChars pair.2.toList ++ rest)) := by
  have comma : ∀ text, dropSpace (',' :: text) = ',' :: text := fun _ => rfl
  have spaced : ∀ text, dropSpace ('"' :: text) = '"' :: text := fun _ => rfl
  have separates : ',' ≠ closeBrace := by decide
  simp only [readKey, comma, pairChars_append, spaced, if_neg separates, Bool.false_eq_true,
    if_false, if_true, readChars_written, Except.map, String.ofList_toList]

theorem readKey_end (first : Bool) (rest : List Char) :
    readKey first (closeBrace :: rest) = .ok (none, rest) := by
  have spaced : dropSpace (closeBrace :: rest) = closeBrace :: rest := rfl
  simp only [readKey, spaced, if_true]

theorem readColon_written (text : List Char) : readColon (':' :: text) = .ok text := rfl

/-- The members after the first, each with its comma. -/
theorem readPairs_later (pairs : List (String × String)) (rest : List Char) (limit : Nat)
    (enough : pairs.length < limit) :
    readPairs limit false (laterPairs pairs ++ closeBrace :: rest) = .ok (pairs, rest) := by
  induction pairs generalizing limit with
  | nil =>
    obtain ⟨limit, rfl⟩ := Nat.exists_eq_add_one_of_ne_zero (Nat.ne_of_gt enough)
    simp only [laterPairs, List.flatMap_nil, List.nil_append, readPairs, readKey_end]
    rfl
  | cons pair pairs ih =>
    obtain ⟨limit, rfl⟩ := Nat.exists_eq_add_one_of_ne_zero (Nat.ne_zero_of_lt enough)
    have tail := ih limit (Nat.lt_of_succ_lt_succ enough)
    have front : laterPairs (pair :: pairs) ++ closeBrace :: rest =
        ',' :: (pairChars pair ++ (laterPairs pairs ++ closeBrace :: rest)) := by
      simp [laterPairs]
    simp only [front, readPairs, readKey_later, bind, Except.bind, readColon_written,
      readString_written, tail]
    rfl

theorem readPairs_written (pairs : List (String × String)) (rest : List Char) (limit : Nat)
    (enough : pairs.length < limit) :
    readPairs limit true (joinComma (pairs.map pairChars) ++ closeBrace :: rest) =
      .ok (pairs, rest) := by
  obtain ⟨limit, rfl⟩ := Nat.exists_eq_add_one_of_ne_zero (Nat.ne_zero_of_lt enough)
  cases pairs with
  | nil =>
    simp only [List.map_nil, joinComma, List.nil_append, readPairs, readKey_end]
    rfl
  | cons pair pairs =>
    have tail := readPairs_later pairs rest limit (Nat.lt_of_succ_lt_succ enough)
    simp only [joinComma_pairs, List.append_assoc, readPairs, readKey_first, bind, Except.bind,
      readColon_written, readString_written, tail]
    rfl

theorem length_laterPairs (pairs : List (String × String)) :
    pairs.length ≤ (laterPairs pairs).length := by
  induction pairs with
  | nil => exact Nat.zero_le _
  | cons pair pairs ih =>
    simp only [laterPairs, List.flatMap_cons, List.length_append, List.length_cons] at ih ⊢
    omega

/-- Every member of a written object takes at least one character. -/
theorem length_joinComma_pairs (pairs : List (String × String)) :
    pairs.length ≤ (joinComma (pairs.map pairChars)).length := by
  cases pairs with
  | nil => exact Nat.zero_le _
  | cons pair pairs =>
    have later := length_laterPairs pairs
    rw [joinComma_pairs, List.length_append]
    simp only [pairChars, stringChars, List.length_cons, List.length_append]
    omega

theorem readStringMap_written (pairs : List (String × String)) (rest : List Char) :
    readStringMap (objectChars pairs ++ rest) = .ok (pairs, rest) := by
  have enough := length_joinComma_pairs pairs
  have front : dropSpace (objectChars pairs ++ rest) =
      openBrace :: (joinComma (pairs.map pairChars) ++ closeBrace :: rest) := by
    rw [objectChars, List.cons_append, List.append_assoc]
    rfl
  simp only [readStringMap, front, if_true]
  apply readPairs_written
  rw [List.length_append]
  omega

theorem readAll_writeObject (pairs : List (String × String)) :
    readAll readStringMap (writeObject pairs) = .ok pairs := by
  have read := readStringMap_written pairs []
  rw [List.append_nil] at read
  simp only [readAll, writeObject, String.toList_ofList, read, bind, Except.bind]
  rfl

end LeaseQueue.Json

namespace LeaseQueue.Params

/-- A key that comes after all others is put at the end. -/
theorem put_last {key value : String} {pairs : List (String × String)}
    (after : ∀ p ∈ pairs, p.1 < key) : put key value pairs = pairs ++ [(key, value)] := by
  induction pairs with
  | nil => rfl
  | cons p pairs ih =>
    have later := after p List.mem_cons_self
    have notBefore : ¬ key < p.1 := String.lt_asymm later
    have other : key ≠ p.1 := fun same => String.lt_irrefl _ (same ▸ later)
    have rest := ih fun q member => after q (List.mem_cons_of_mem _ member)
    rw [put, if_neg notBefore, if_neg other, rest]
    rfl

theorem pairs_foldl_insert {pairs : List (String × String)} (params : Params)
    (ascending : (params.pairs ++ pairs).Pairwise fun p q => p.1 < q.1) :
    (pairs.foldl (fun params p => params.insert p.1 p.2) params).pairs = params.pairs ++ pairs := by
  induction pairs generalizing params with
  | nil => exact (List.append_nil _).symm
  | cons p pairs ih =>
    have after : ∀ q ∈ params.pairs, q.1 < p.1 := fun q member =>
      (List.pairwise_append.mp ascending).2.2 q member p List.mem_cons_self
    have inserted : (params.insert p.1 p.2).pairs = params.pairs ++ [p] := put_last after
    rw [List.foldl_cons, ih, inserted, List.append_assoc]
    · rfl
    · rw [inserted, List.append_assoc]
      exact ascending

theorem eq_of_pairs {a b : Params} (same : a.pairs = b.pairs) : a = b := by
  cases a
  cases b
  cases same
  rfl

theorem ofPairs_pairs (params : Params) : ofPairs params.pairs = params :=
  eq_of_pairs (pairs_foldl_insert empty params.ascending)

theorem decode_encode (params : Params) : decode params.encode = .ok params := by
  rw [decode, encode, Json.readAll_writeObject]
  exact congrArg Except.ok params.ofPairs_pairs

end LeaseQueue.Params
