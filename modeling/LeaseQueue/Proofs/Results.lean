/-! Results that may be errors, taken apart: what a result that was mapped or passed on was before. -/
namespace LeaseQueue

variable {ε α β : Type}

theorem exists_of_map_eq_ok {f : α → β} {x : Except ε α} {b : β} (h : x.map f = .ok b) :
    ∃ a, x = .ok a ∧ f a = b := by
  cases x with
  | error e => cases h
  | ok a => exact ⟨a, rfl, Except.ok.inj h⟩

theorem exists_of_bind_eq_ok {f : α → Except ε β} {x : Except ε α} {b : β}
    (h : (do let a ← x; f a) = .ok b) : ∃ a, x = .ok a ∧ f a = .ok b := by
  cases x with
  | error e => cases h
  | ok a => exact ⟨a, rfl, h⟩

theorem error_of_map {f : α → β} {result : Except ε α} {e : ε} (failed : result.map f = .error e) :
    result = .error e := by
  cases result with
  | ok value => cases failed
  | error _ => cases failed; rfl

theorem error_or_none {result : Except ε (Option α)} (none : ∀ a, result ≠ .ok (some a)) :
    (∃ e, result = .error e) ∨ result = .ok Option.none := by
  cases result with
  | error e => exact .inl ⟨e, rfl⟩
  | ok a? =>
    cases a? with
    | none => exact .inr rfl
    | some a => exact absurd rfl (none a)

end LeaseQueue
