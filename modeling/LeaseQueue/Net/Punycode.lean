/-! Punycode: the labels of a domain name that hold characters outside ASCII, written within ASCII.
Code points are taken in ascending order, and the steps between their places are written as numbers
of variable length with digits of base 36. -/
namespace LeaseQueue.Punycode

def digit (n : Nat) : Char := if n < 26 then Char.ofNat (97 + n) else Char.ofNat (22 + n)

/-- The least value of a digit that does not end a number. -/
def threshold (place bias : Nat) : Nat :=
  if place ≤ bias then 1 else if bias + 26 ≤ place then 26 else place - bias

theorem threshold_bounds (place bias : Nat) :
    1 ≤ threshold place bias ∧ threshold place bias ≤ 26 := by
  unfold threshold
  split
  · omega
  · split <;> omega

/-- The digits of a number, of which the first stands at `place`. -/
def writeNumber (bias place n : Nat) : List Char :=
  let t := threshold place bias
  if n < t then [digit n]
  else digit (t + (n - t) % (36 - t)) :: writeNumber bias (place + 36) ((n - t) / (36 - t))
termination_by n
decreasing_by
  have bounds := threshold_bounds place bias
  have smaller := Nat.div_le_self (n - threshold place bias) (36 - threshold place bias)
  omega

def shrink (delta places : Nat) : Nat × Nat :=
  if 455 < delta then shrink (delta / 35) (places + 36) else (delta, places)
termination_by delta
decreasing_by exact Nat.div_lt_self (by omega) (by omega)

/-- The bias after a number was written and `count` characters are placed. -/
def adapt (delta count : Nat) (first : Bool) : Nat :=
  let damped := if first then delta / 700 else delta / 2
  let (delta, places) := shrink (damped + damped / count) 0
  places + 36 * delta / (delta + 38)

structure Progress where
  written : List Char
  delta : Nat
  bias : Nat
  /-- How many characters are placed. -/
  placed : Nat

/-- Goes over one character of the label while those of `point` are placed. -/
def visit (basic point : Nat) (p : Progress) (c : Char) : Progress :=
  if c.toNat < point then { p with delta := p.delta + 1 }
  else if c.toNat = point then
    { written := p.written ++ writeNumber p.bias 36 p.delta
      delta := 0
      bias := adapt p.delta (p.placed + 1) (p.placed = basic)
      placed := p.placed + 1 }
  else p

/-- Places the code points of an ascending list, where `next` is the least that may follow. -/
def place (label : List Char) (basic : Nat) : List Nat → Nat → Progress → Progress
  | [], _, p => p
  | point :: rest, next, p =>
    let p := { p with delta := p.delta + (point - next) * (p.placed + 1) }
    let p := label.foldl (visit basic point) p
    place label basic rest (point + 1) { p with delta := p.delta + 1 }

/-- A label within ASCII. One that is so already stays as it is. -/
def encodeLabel (label : List Char) : List Char :=
  let basic := label.filter fun c => c.toNat < 128
  let points := ((label.filter fun c => 128 ≤ c.toNat).map Char.toNat).mergeSort.eraseReps
  if points = [] then label
  else
    let start := if basic = [] then [] else basic ++ ['-']
    "xn--".toList ++ (place label basic.length points 128 ⟨start, 0, 72, basic.length⟩).written

end LeaseQueue.Punycode
