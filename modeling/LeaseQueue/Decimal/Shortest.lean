import LeaseQueue.Decimal.Binary64
import LeaseQueue.Time.Written
/-! Decimal text of floating-point numbers: the shortest that reads back, and a fixed number of
places. -/
namespace LeaseQueue.Decimal

/-- A fraction with a positive denominator. -/
abbrev Fraction := Nat × Nat

def Fraction.lt (x y : Fraction) : Bool := x.1 * y.2 < y.1 * x.2

def Fraction.le (x y : Fraction) : Bool := x.1 * y.2 ≤ y.1 * x.2

/-- The number `digits * 10 ^ power` as a fraction. -/
def tenths (digits : Nat) (power : Int) : Fraction :=
  (digits * Nat.pow 10 power.toNat, Nat.pow 10 (-power).toNat)

/-- The numbers that round to `mantissa * 2 ^ exponent`: they lie between the midpoints to its two
neighbours, which belong to it if the mantissa is even. Below a power of two the lower neighbour is
nearer by half. -/
structure Interval where
  low : Fraction
  high : Fraction
  closed : Bool

def Interval.of (mantissa : Nat) (exponent : Int) : Interval :=
  let nearBelow := mantissa = Nat.pow 2 52 ∧ exponent ≠ -1074
  { low :=
      if nearBelow then fractionOf (4 * mantissa - 1) (exponent - 2)
      else fractionOf (2 * mantissa - 1) (exponent - 1)
    high := fractionOf (2 * mantissa + 1) (exponent - 1)
    closed := mantissa % 2 = 0 }

def Interval.holds (i : Interval) (x : Fraction) : Bool :=
  if i.closed then i.low.le x && x.le i.high else i.low.lt x && x.lt i.high

/-- The point of the grid of multiples of `10 ^ power` that reads back and is nearest to the value.
Only the two neighbours of the value on the grid can be nearest; of two equally near ones the even
one is taken. Zero is no candidate. -/
def onGrid (interval : Interval) (value : Fraction) (power : Int) : Option Nat :=
  let unit := tenths 1 power
  let below := value.1 * unit.2 / (value.2 * unit.1)
  let above := below + 1
  let belowOk := below ≠ 0 && interval.holds (tenths below power)
  let aboveOk := interval.holds (tenths above power)
  if belowOk && aboveOk then
    let nearest := divRoundEven (value.1 * unit.2) (value.2 * unit.1)
    some nearest
  else if belowOk then some below
  else if aboveOk then some above
  else none

/-- The digits and the power of ten of the shortest decimal that reads back as
`mantissa * 2 ^ exponent`, found on the coarsest grid that holds one. -/
def shortest (mantissa : Nat) (exponent : Int) : Nat × Int :=
  let interval := Interval.of mantissa exponent
  let value := fractionOf mantissa exponent
  let powers := (List.range 640).map fun (i : Nat) => (310 : Int) - i
  (powers.findSome? fun power =>
    (onGrid interval value power).map fun digits => (digits, power)).getD (0, 0)

/-- The text of a positive decimal: positional with a fraction from a hundred thousandth up to
`10 ^ 16`, else with one digit before the point and a signed exponent. -/
def written (digits : Nat) (power : Int) : String :=
  let text := (toString digits).toList
  let point := text.length + power
  if 0 ≤ power ∧ point ≤ 16 then
    String.ofList (text ++ List.replicate power.toNat '0') ++ ".0"
  else if 0 < point ∧ point ≤ 16 then
    String.ofList (text.take point.toNat) ++ "." ++ String.ofList (text.drop point.toNat)
  else if -5 < point ∧ point ≤ 0 then
    "0." ++ String.ofList (List.replicate (-point).toNat '0' ++ text)
  else
    let fraction := if text.length = 1 then "" else "." ++ String.ofList (text.drop 1)
    let sign := if point - 1 < 0 then "-" else "+"
    String.ofList (text.take 1) ++ fraction ++ "e" ++ sign ++ toString (point - 1).natAbs

/-- The shortest decimal that reads back. -/
def shortestText : Binary64 → String
  | .finite negative mantissa exponent =>
    let sign := if negative then "-" else ""
    if mantissa = 0 then sign ++ "0.0"
    else
      let (digits, power) := shortest mantissa exponent
      sign ++ written digits power
  | .infinite negative => if negative then "-inf" else "inf"
  | .notANumber => "NaN"

/-- The number with `places` digits after the point, a tie going to the even digit. -/
def fixedText (places : Nat) : Binary64 → String
  | .finite negative mantissa exponent =>
    let (numerator, denominator) := fractionOf mantissa exponent
    let scaled := divRoundEven (numerator * Nat.pow 10 places) denominator
    let sign := if negative then "-" else ""
    sign ++ toString (scaled / Nat.pow 10 places) ++ "." ++
      paddedNat places (scaled % Nat.pow 10 places)
  | .infinite negative => if negative then "-inf" else "inf"
  | .notANumber => "NaN"

end LeaseQueue.Decimal
