import LeaseQueue.Store.Error
/-! Running a transaction again after a conflict with another worker, up to a number of attempts. -/
namespace LeaseQueue

/-- How often a transaction may be run. -/
structure RetryPolicy where
  maxAttempts : Nat
  pos : 0 < maxAttempts

namespace RetryPolicy

/-- A policy of at least one attempt. -/
def ofMax (attempts : Nat) : RetryPolicy := ⟨max attempts 1, by omega⟩

def default : RetryPolicy := ofMax 10

variable {m : Type → Type} [Monad m] {α : Type}

/-- Makes an attempt, with `left` further ones allowed and `made` made before. -/
def attemptFrom (operation : String) (attempt : m (Except DatabaseError α)) :
    Nat → Nat → m (Except StoreError α)
  | left, made => do
    match ← attempt with
    | .ok value => return .ok value
    | .error cause =>
      if cause.isConflict then
        match left with
        | 0 => return .error (.retriesExhausted operation (made + 1) cause)
        | left + 1 => attemptFrom operation attempt left (made + 1)
      else return .error (.queryFailed cause)

/-- Makes an attempt until it succeeds, fails without a conflict, or was made as often as the policy
allows. -/
def run (policy : RetryPolicy) (operation : String) (attempt : m (Except DatabaseError α)) :
    m (Except StoreError α) :=
  attemptFrom operation attempt (policy.maxAttempts - 1) 0

end RetryPolicy

end LeaseQueue
