/-! Numbers of the 64-bit binary floating-point format, decoded exactly: a finite one is
`mantissa * 2 ^ exponent` with a sign. -/
namespace LeaseQueue

/-- What 64 bits mean as a floating-point number. -/
inductive Binary64 where
  | finite (negative : Bool) (mantissa : Nat) (exponent : Int)
  | infinite (negative : Bool)
  | notANumber

namespace Binary64

def ofBits (bits : UInt64) : Binary64 :=
  let n := bits.toNat
  let negative := decide (Nat.pow 2 63 ≤ n)
  let biased : Nat := n / Nat.pow 2 52 % 2048
  let fraction : Nat := n % Nat.pow 2 52
  if biased = 2047 then
    if fraction = 0 then .infinite negative else .notANumber
  else if biased = 0 then .finite negative fraction (-1074)
  else .finite negative (Nat.pow 2 52 + fraction) ((biased : Int) - 1075)

/-- Whether the natural number `a * 2 ^ e` is less than `b * 2 ^ f`. -/
def scaledLt (a : Nat) (e : Int) (b : Nat) (f : Int) : Bool :=
  if e ≤ f then decide (a < b * Nat.pow 2 (f - e).toNat)
  else decide (a * Nat.pow 2 (e - f).toNat < b)

/-- Whether `numerator / 2 ^ 53` is less than a floating-point number. -/
def above (numerator : Nat) : Binary64 → Bool
  | .finite false mantissa exponent => scaledLt numerator (-53) mantissa exponent
  | .finite true _ _ => false
  | .infinite negative => !negative
  | .notANumber => false

/-- Whether a number lies between zero and one, both included. Zero counts with either sign. -/
def isProportion : Binary64 → Bool
  | .finite negative mantissa exponent =>
    mantissa = 0 || (!negative && !scaledLt 1 0 mantissa exponent)
  | .infinite _ => false
  | .notANumber => false

end Binary64

/-- The quotient rounded to the nearest natural number, a half to the even one. -/
def divRoundEven (numerator denominator : Nat) : Nat :=
  let whole := numerator / denominator
  let rest := 2 * (numerator % denominator)
  if rest < denominator then whole
  else if denominator < rest then whole + 1
  else whole + whole % 2

/-- The number `mantissa * 2 ^ exponent` as a fraction. -/
def fractionOf (mantissa : Nat) (exponent : Int) : Nat × Nat :=
  (mantissa * Nat.pow 2 exponent.toNat, Nat.pow 2 (-exponent).toNat)

end LeaseQueue
