import LeaseQueue.Proofs.Json.Objects
import LeaseQueue.Proofs.Store.Claims
/-! The parameters of a grouping are those that were stored for it first. No operation replaces or
removes them. -/
namespace LeaseQueue

/-- The parameters that an operation has for a grouping. -/
def StoreCall.put? (id : GroupingId) : StoreCall → Option Params
  | .putGrouping grouping params => if grouping = id then some params else none
  | _ => none

namespace Store

def firstPut? (id : GroupingId) (calls : List StoreCall) : Option Params :=
  calls.findSome? (StoreCall.put? id)

/-- The stored text of the parameters of a grouping. -/
def paramsText? (s : Store) (id : GroupingId) : Option String :=
  (s.groupings.find? fun row => row.key = id.bytes).map (·.params)

variable {s : Store} {id : GroupingId}

theorem firstPut?_cons (id : GroupingId) (c : StoreCall) (calls : List StoreCall) :
    firstPut? id (c :: calls) = (c.put? id).or (firstPut? id calls) := by
  rw [firstPut?, List.findSome?_cons]
  cases c.put? id <;> rfl

theorem firstPut?_append (id : GroupingId) (calls more : List StoreCall) :
    firstPut? id (calls ++ more) = (firstPut? id calls).or (firstPut? id more) :=
  List.findSome?_append

theorem groupings_setLease (s : Store) (key : RowKey) (ends : Int) :
    (s.setLease key ends).groupings = s.groupings := by
  cases key <;> rfl

theorem groupings_ensurePrimary (s : Store) (groupings : List GroupingId) :
    (s.ensurePrimary groupings).groupings = s.groupings := by
  induction groupings generalizing s with
  | nil => rfl
  | cons grouping groupings ih =>
    refine (ih (s.ensureOne grouping)).trans ?_
    unfold ensureOne
    split <;> rfl

theorem groupings_perform (s : Store) {c : StoreCall} (other : ∀ id, c.put? id = none) :
    (s.perform c).2.groupings = s.groupings := by
  cases asked : c.lease? with
  | some asking =>
    rcases s.perform_grants asked with ⟨key, ends, _, grant⟩ | same
    · rw [grant.written, groupings_setLease]
    · rw [same]
  | none =>
    cases c with
    | claimPrimary | claimOldest | claimRandom | leaseSecondary => cases asked
    | putGrouping grouping params => simpa [StoreCall.put?] using other grouping
    | ensurePrimary groupings => exact groupings_ensurePrimary s groupings
    | upsertSecondary work updated =>
      simp only [perform, upsertSecondary]
      split <;> rfl
    | _ => rfl

theorem paramsText?_putGrouping (s : Store) (grouping id : GroupingId) (params : Params) :
    (s.putGrouping grouping params).paramsText? id =
      (s.paramsText? id).or (if grouping = id then some params.encode else none) := by
  unfold putGrouping paramsText?
  split
  · rename_i present
    split
    · rename_i same
      obtain ⟨row, found⟩ := Option.isSome_iff_exists.mp
        (List.find?_isSome.mpr (List.any_eq_true.mp (same ▸ present)))
      rw [found]
      rfl
    · rw [Option.or_none]
  · rw [List.find?_append, List.find?_singleton, Option.map_or]
    simp only [decide_eq_true_eq, GroupingId.bytes_inj]
    split <;> rfl

theorem paramsText?_perform (s : Store) (c : StoreCall) (id : GroupingId) :
    (s.perform c).2.paramsText? id = (s.paramsText? id).or ((c.put? id).map Params.encode) := by
  cases c with
  | putGrouping grouping params =>
    refine (paramsText?_putGrouping s grouping id params).trans ?_
    rw [StoreCall.put?]
    split <;> rfl
  | _ =>
    rw [paramsText?, groupings_perform s fun _ => rfl]
    exact Option.or_none.symm

theorem paramsText?_after (s : Store) (calls : List StoreCall) (id : GroupingId) :
    (s.after calls).paramsText? id =
      (s.paramsText? id).or ((firstPut? id calls).map Params.encode) := by
  induction calls generalizing s with
  | nil => exact Option.or_none.symm
  | cons c calls ih =>
    rw [after, ih, paramsText?_perform, Option.or_assoc, firstPut?_cons, Option.map_or]

theorem groupingParams_of_text {known : Option Params}
    (stored : s.paramsText? id = known.map Params.encode) : s.groupingParams id = .ok known := by
  unfold paramsText? at stored
  unfold groupingParams
  split
  · rename_i absent
    rw [absent] at stored
    cases known with
    | none => rfl
    | some params => cases stored
  · rename_i row found
    rw [found] at stored
    cases known with
    | none => cases stored
    | some params =>
      have text : row.params = params.encode := Option.some.inj stored
      rw [text, readParams, Params.decode_encode]
      rfl

/-- A store that began empty knows the parameters that were stored first. -/
theorem groupingParams_after (calls : List StoreCall) (id : GroupingId) :
    (Store.empty.after calls).groupingParams id = .ok (firstPut? id calls) :=
  groupingParams_of_text (paramsText?_after .empty calls id)

end Store

end LeaseQueue
