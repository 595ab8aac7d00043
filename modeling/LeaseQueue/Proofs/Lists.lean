import Mathlib.Data.List.Nodup
/-! Lists of entries that are looked up by place or by key, after one was replaced or added. -/
namespace LeaseQueue

variable {α κ : Type}

theorem getElem?_set_cases {entries : List α} {i j : Nat} {u v : α}
    (found : (entries.set i u)[j]? = some v) :
    (i = j ∧ v = u) ∨ (i ≠ j ∧ entries[j]? = some v) := by
  rw [List.getElem?_set] at found
  split at found
  · rename_i own
    split at found
    · cases found; exact .inl ⟨own, rfl⟩
    · cases found
  · rename_i other
    exact .inr ⟨other, found⟩

theorem getElem?_append_cases {entries : List α} {i : Nat} {u v : α}
    (found : (entries ++ [u])[i]? = some v) :
    entries[i]? = some v ∨ entries.length = i ∧ v = u := by
  rcases Nat.lt_or_ge i entries.length with old | new
  · rw [List.getElem?_append_left old] at found
    exact .inl found
  · rw [List.getElem?_append_right new, List.getElem?_singleton] at found
    split at found
    · rename_i last
      exact .inr ⟨by omega, (Option.some.inj found).symm⟩
    · cases found

theorem nodup_append_new {keys : List κ} {key : κ} (unique : keys.Nodup) (absent : key ∉ keys) :
    (keys ++ [key]).Nodup := by
  rw [List.nodup_append_comm]
  exact List.nodup_cons.mpr ⟨absent, unique⟩

/-- Where keys are unique, an entry is the one that its key finds. -/
theorem find?_of_key {entries : List α} {key : α → κ} {own : α → Bool} {k : κ} {entry : α}
    (unique : (entries.map key).Nodup) (owned : ∀ entry, own entry = true → key entry = k)
    (member : entry ∈ entries) (mine : own entry = true) : entries.find? own = some entry := by
  obtain ⟨other, found⟩ := Option.isSome_iff_exists.mp (List.find?_isSome.mpr ⟨entry, member, mine⟩)
  have same : key other = key entry :=
    (owned other (List.find?_some found)).trans (owned entry mine).symm
  rw [found, List.inj_on_of_nodup_map unique (List.mem_of_find?_eq_some found) member same]

/-- Where keys are unique, the value that stands with a key is the one that is looked up. -/
theorem lookup_eq_some_of_mem [DecidableEq κ] {pairs : List (κ × α)}
    (unique : (pairs.map Prod.fst).Nodup) {key : κ} {value : α} (member : (key, value) ∈ pairs) :
    pairs.lookup key = some value := by
  obtain ⟨before, after, rfl⟩ := List.append_of_mem member
  rw [List.map_append, List.map_cons, List.nodup_middle, List.nodup_cons] at unique
  refine List.lookup_eq_some_iff.mpr ⟨before, after, rfl, ?_⟩
  intro pair earlier
  rw [bne_iff_ne]
  intro same
  exact unique.1 (List.mem_append_left _ (List.mem_map.mpr ⟨pair, earlier, same.symm⟩))

theorem lookup_eq_some_iff_mem [DecidableEq κ] {pairs : List (κ × α)}
    (unique : (pairs.map Prod.fst).Nodup) {key : κ} {value : α} :
    pairs.lookup key = some value ↔ (key, value) ∈ pairs := by
  refine ⟨?_, lookup_eq_some_of_mem unique⟩
  intro found
  obtain ⟨before, after, rfl, _⟩ := List.lookup_eq_some_iff.mp found
  exact List.mem_append_right _ List.mem_cons_self

end LeaseQueue
