import LeaseQueue.Json.Reader
import LeaseQueue.Json.Writer
/-! The parameters that describe a grouping: a map from strings to strings, kept in ascending order
of its keys, so equal maps are equal lists and have one encoding. -/
namespace LeaseQueue

/-- Pairs in strictly ascending order of their keys. -/
structure Params where
  pairs : List (String × String)
  ascending : pairs.Pairwise fun p q => p.1 < q.1
deriving DecidableEq

namespace Params

/-- Sets a key in an ascending list, in place of an earlier value of the key. -/
def put (key value : String) : List (String × String) → List (String × String)
  | [] => [(key, value)]
  | p :: rest =>
    if key < p.1 then (key, value) :: p :: rest
    else if key = p.1 then (key, value) :: rest
    else p :: put key value rest

theorem mem_put {key value : String} {pairs : List (String × String)} {p : String × String}
    (h : p ∈ put key value pairs) : p = (key, value) ∨ p ∈ pairs := by
  induction pairs with
  | nil => simp only [put, List.mem_singleton] at h; exact .inl h
  | cons q rest ih =>
    simp only [put] at h
    split at h
    · simpa using h
    · split at h
      · rcases List.mem_cons.1 h with h | h
        · exact .inl h
        · exact .inr (List.mem_cons_of_mem _ h)
      · rcases List.mem_cons.1 h with h | h
        · exact .inr (h ▸ List.mem_cons_self)
        · rcases ih h with h | h
          · exact .inl h
          · exact .inr (List.mem_cons_of_mem _ h)

theorem ascending_put (key value : String) {pairs : List (String × String)}
    (h : pairs.Pairwise fun p q => p.1 < q.1) :
    (put key value pairs).Pairwise fun p q => p.1 < q.1 := by
  induction pairs with
  | nil => simp [put]
  | cons p rest ih =>
    rw [List.pairwise_cons] at h
    simp only [put]
    split
    · rename_i before
      refine List.pairwise_cons.2 ⟨?_, List.pairwise_cons.2 h⟩
      intro q member
      rcases List.mem_cons.1 member with rfl | member
      · exact before
      · exact String.lt_trans before (h.1 q member)
    · rename_i not_before
      split
      · rename_i same
        refine List.pairwise_cons.2 ⟨?_, h.2⟩
        intro q member
        exact same ▸ h.1 q member
      · rename_i different
        refine List.pairwise_cons.2 ⟨?_, ih h.2⟩
        intro q member
        rcases mem_put member with rfl | member
        · rcases Decidable.em (p.1 < key) with after | not_after
          · exact after
          · exact absurd
              (String.le_antisymm (String.not_lt.1 not_after) (String.not_lt.1 not_before)) different
        · exact h.1 q member

def empty : Params := ⟨[], List.Pairwise.nil⟩

def insert (params : Params) (key value : String) : Params :=
  ⟨put key value params.pairs, ascending_put key value params.ascending⟩

/-- The map of some pairs, of which later ones overwrite earlier ones. -/
def ofPairs (pairs : List (String × String)) : Params :=
  pairs.foldl (fun params p => params.insert p.1 p.2) empty

/-- Compact JSON text. -/
def encode (params : Params) : String := Json.writeObject params.pairs

def decode (text : String) : Except Json.Problem Params :=
  (Json.readAll Json.readStringMap text).map ofPairs

end Params

end LeaseQueue
