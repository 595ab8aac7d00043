import LeaseQueue.Proofs.Poller.Runs
import Mathlib.Algebra.Order.Field.Power
import Mathlib.Tactic.Linarith
import Mathlib.Tactic.Positivity
import Mathlib.Tactic.Ring
/-! Draws as numbers of the interval from zero up to but excluding one, what their comparison with a
proportion means, and the iterations that take one. -/
namespace LeaseQueue

def Draw.value (draw : Draw) : ℚ := draw.numerator / 2 ^ 53

theorem Draw.value_nonneg (draw : Draw) : 0 ≤ draw.value := by
  unfold Draw.value
  positivity

theorem Draw.value_lt_one (draw : Draw) : draw.value < 1 := by
  unfold Draw.value
  rw [div_lt_one (by positivity)]
  exact_mod_cast draw.lt_one

namespace Binary64

/-- The exact value of a finite number. -/
def finiteValue (negative : Bool) (mantissa : Nat) (exponent : Int) : ℚ :=
  (if negative then -1 else 1) * (mantissa * 2 ^ exponent)

/-! Comparisons with exact values. None holds of what is not a number. -/

def Exceeds (r : ℚ) : Binary64 → Prop
  | .finite negative mantissa exponent => r < finiteValue negative mantissa exponent
  | .infinite negative => negative = false
  | .notANumber => False

def AtMost (r : ℚ) : Binary64 → Prop
  | .finite negative mantissa exponent => finiteValue negative mantissa exponent ≤ r
  | .infinite negative => negative = true
  | .notANumber => False

def AtLeast (r : ℚ) : Binary64 → Prop
  | .finite negative mantissa exponent => r ≤ finiteValue negative mantissa exponent
  | .infinite negative => negative = false
  | .notANumber => False

theorem scaled_eq (b : Nat) (e : Int) (k : Nat) :
    (b : ℚ) * 2 ^ (e + k) = (b * 2 ^ k : ℕ) * 2 ^ e := by
  rw [zpow_add₀ (by norm_num), zpow_natCast]
  push_cast
  ring

theorem scaledLt_iff (a : Nat) (e : Int) (b : Nat) (f : Int) :
    scaledLt a e b f = true ↔ (a : ℚ) * 2 ^ e < b * 2 ^ f := by
  unfold scaledLt
  split
  · rename_i le
    obtain ⟨k, rfl⟩ := Int.le.dest le
    rw [scaled_eq, mul_lt_mul_iff_left₀ (by positivity), Nat.cast_lt, decide_eq_true_eq]
    simp
  · rename_i lt
    obtain ⟨k, rfl⟩ := Int.le.dest (Int.le_of_lt (Int.not_le.mp lt))
    rw [scaled_eq, mul_lt_mul_iff_left₀ (by positivity), Nat.cast_lt, decide_eq_true_eq]
    simp

/-- The comparison of a draw with a proportion is exact. -/
theorem above_iff (x : Binary64) (draw : Draw) :
    x.above draw.numerator = true ↔ x.Exceeds draw.value := by
  cases x with
  | finite negative mantissa exponent =>
    cases negative with
    | false =>
      have value : draw.value = draw.numerator * 2 ^ (-53 : ℤ) := by
        rw [Draw.value, zpow_neg, div_eq_mul_inv]
        norm_cast
      simp [above, Exceeds, finiteValue, scaledLt_iff, value]
    | true =>
      have low : finiteValue true mantissa exponent ≤ draw.value := by
        have positive : (0 : ℚ) ≤ mantissa * 2 ^ exponent := by positivity
        have drawn := draw.value_nonneg
        simp only [finiteValue, if_true]
        linarith
      simpa [above, Exceeds] using low
  | infinite negative => simp [above, Exceeds]
  | notANumber => simp [above, Exceeds]

/-- A negative zero counts as zero. -/
theorem isProportion_iff (x : Binary64) : x.isProportion = true ↔ x.AtLeast 0 ∧ x.AtMost 1 := by
  cases x with
  | finite negative mantissa exponent =>
    rcases Nat.eq_zero_or_pos mantissa with rfl | positive
    · simp [isProportion, AtLeast, AtMost, finiteValue]
    · have value : (0 : ℚ) < mantissa * 2 ^ exponent := by positivity
      have some : mantissa ≠ 0 := Nat.ne_of_gt positive
      cases negative with
      | false =>
        have above_one := scaledLt_iff 1 0 mantissa exponent
        simp only [Nat.cast_one, zpow_zero, mul_one] at above_one
        have at_most : (!scaledLt 1 0 mantissa exponent) = true ↔ (mantissa : ℚ) * 2 ^ exponent ≤ 1 := by
          rw [Bool.not_eq_true', ← Bool.not_eq_true, above_one, not_lt]
        simpa [isProportion, AtLeast, AtMost, finiteValue, some, value.le] using at_most
      | true =>
        have below : ¬ (mantissa : ℚ) * 2 ^ exponent ≤ 0 := not_le.mpr value
        simp [isProportion, AtLeast, AtMost, finiteValue, some, below]
  | infinite negative => cases negative <;> simp [isProportion, AtLeast, AtMost]
  | notANumber => simp [isProportion, AtLeast]

theorem above_of_atMost {x : Binary64} (low : x.AtMost 0) (draw : Draw) :
    x.above draw.numerator = false := by
  rw [Bool.eq_false_iff, ne_eq, above_iff]
  intro above
  cases x with
  | finite negative mantissa exponent =>
    exact absurd (lt_of_lt_of_le above low) (not_lt_of_ge draw.value_nonneg)
  | infinite negative => exact absurd (low.symm.trans above) nofun
  | notANumber => exact low

theorem above_of_atLeast {x : Binary64} (high : x.AtLeast 1) (draw : Draw) :
    x.above draw.numerator = true := by
  rw [above_iff]
  cases x with
  | finite negative mantissa exponent => exact lt_of_lt_of_le draw.value_lt_one high
  | infinite negative => exact high
  | notANumber => exact high

end Binary64

/-- The proportion leaves the choice between the queues to no draw. -/
def PollerSettings.Decided (settings : PollerSettings) : Prop :=
  settings.secondaryProportion.AtMost 0 ∨ settings.secondaryProportion.AtLeast 1

namespace Poller

variable {p : Poller}

theorem choosesSecondary_iff (draw : Draw) :
    p.choosesSecondary draw = true ↔ p.settings.secondaryProportion.Exceeds draw.value :=
  Binary64.above_iff p.settings.secondaryProportion draw

theorem choosesSecondary_decided (decided : p.settings.Decided) (draw other : Draw) :
    p.choosesSecondary draw = p.choosesSecondary other := by
  unfold choosesSecondary
  rcases decided with low | high
  · simp only [Binary64.above_of_atMost low]
  · simp only [Binary64.above_of_atLeast high]

theorem generator_next (now : Instant) :
    (p.next now).2.generator = if p.ready now = 2 then p.generator.next.2 else p.generator := by
  unfold next ready
  by_cases primary : p.primaryUntil ≤ now <;> by_cases secondary : p.secondaryUntil ≤ now <;>
    simp [timer, primary, secondary]

/-- The queue that a draw takes. -/
def drawnSource (p : Poller) (draw : Draw) : Source :=
  if p.choosesSecondary draw then .secondary else .primary

theorem next_of_ready {now : Instant} (ready : ∀ source, p.timer source ≤ now) :
    p.next now =
      (some (p.drawnSource p.generator.next.1), { p with generator := p.generator.next.2 }) := by
  have primary : p.primaryUntil ≤ now := ready .primary
  have secondary : p.secondaryUntil ≤ now := ready .secondary
  unfold next
  rw [if_pos primary, if_pos secondary]
  rfl

/-- Decisions at a moment at which both queues are ready take the draws at successive positions. -/
theorem nexts_of_ready {now : Instant} (ready : ∀ source, p.timer source ≤ now) (n : Nat) :
    p.nexts now n =
      ((List.range n).map fun i =>
        some (p.drawnSource (Generator.drawAt p.generator.key (p.generator.position + i))),
      { p with generator := ⟨p.generator.key, p.generator.position + n⟩ }) := by
  induction n generalizing p with
  | zero => rfl
  | succ n ih =>
    have still : ∀ source,
        ({ p with generator := p.generator.next.2 } : Poller).timer source ≤ now := by
      intro source
      cases source
      · exact ready .primary
      · exact ready .secondary
    rw [nexts, next_of_ready ready]
    simp only [ih still]
    have onward : ∀ i, p.generator.position + 1 + i = p.generator.position + (i + 1) :=
      fun i => Nat.add_right_comm _ 1 i
    simp only [Generator.next, onward, List.range_succ_eq_map, List.map_cons, List.map_map]
    rfl

/-- While a queue is left alone, the decisions at a moment are all the same and take no draw. -/
theorem nexts_of_shut {now : Instant} (shut : ∃ source, ¬ p.timer source ≤ now) (n : Nat) :
    p.nexts now n = (.replicate n (p.next now).1, p) := by
  have same : p.next now = ((p.next now).1, p) := by
    obtain ⟨source, shut⟩ := shut
    unfold next
    cases source with
    | primary =>
      have primary : ¬ p.primaryUntil ≤ now := shut
      rw [if_neg primary]
      split <;> rfl
    | secondary =>
      have secondary : ¬ p.secondaryUntil ≤ now := shut
      split
      · rfl
      · rfl
  induction n with
  | zero => rfl
  | succ n ih =>
    rw [nexts, same]
    simp only [ih, List.replicate_succ]

theorem generator_record (source : Source) (attempt : Attempt) (now : Instant) :
    (p.record source attempt now).generator = p.generator := by
  cases attempt <;> cases source <;> rfl

end Poller

namespace PollLoop

variable {σ : Type} (e : Surroundings σ) (c : Cancellation) (l : PollLoop σ)

/-- Whether both queues are ready in the next iteration, which then takes a draw. -/
def draws : Bool :=
  l.result.isNone && !c.fired l.time l.attempts && l.poller.ready (e.clock l.time l.state).1 = 2

theorem generator_sleep (tick : Nat) :
    (l.sleep tick c).poller.generator = l.poller.generator := by
  unfold sleep
  simp only
  split <;> rfl

theorem generator_attempt (source : Source) :
    (l.attempt e c source).poller.generator = l.poller.generator := by
  unfold attempt
  simp only
  split
  · rfl
  · exact Poller.generator_record _ _ _

/-- A draw is taken in the iterations in which both queues are ready, and in no other. -/
theorem generator_iterate : (l.iterate e c).poller.generator =
    if l.draws e c then l.poller.generator.next.2 else l.poller.generator := by
  unfold iterate draws
  cases ended : l.result with
  | some result => simp
  | none =>
    cases fired : c.fired l.time l.attempts with
    | true => simp [cancelAt]
    | false =>
      have chosen := l.poller.generator_next (e.clock l.time l.state).1
      simp only [Option.isSome_none, Option.isNone_none, Bool.false_eq_true, if_false,
        Bool.not_false, Bool.true_and, decide_eq_true_eq]
      rw [← chosen]
      cases (l.poller.next (e.clock l.time l.state).1).1 with
      | none => exact generator_sleep c _ e.tick
      | some source => exact generator_attempt e c _ source

/-- How many of the first iterations take a draw. -/
def drawsTaken (n : Nat) : Nat := (List.range n).countP fun i => (l.run e c i).draws e c

/-- The generator has gone on by one position for each draw that was taken. -/
theorem generator_run (n : Nat) : (l.run e c n).poller.generator =
    ⟨l.poller.generator.key, l.poller.generator.position + l.drawsTaken e c n⟩ := by
  induction n with
  | zero => rfl
  | succ n ih =>
    have taken : l.drawsTaken e c (n + 1) =
        l.drawsTaken e c n + if (l.run e c n).draws e c then 1 else 0 := by
      rw [drawsTaken, List.range_succ, List.countP_append, List.countP_singleton]
      rfl
    rw [run_succ, generator_iterate, ih, taken]
    split <;> rfl

end PollLoop

end LeaseQueue
