/-! Instants, signed spans and unsigned durations, exact to the nanosecond.
An instant carries its bounds, so a sum that leaves the calendar is `none` and never wraps. -/
namespace LeaseQueue

/-- A signed length of time in nanoseconds. -/
structure Span where
  nanos : Int
deriving DecidableEq

/-- An unsigned length of time in nanoseconds. -/
structure Duration where
  nanos : Nat
deriving DecidableEq

/-- The first representable nanosecond, counted from the Unix epoch: 1 January -262143. -/
def earliestNanos : Int := -8334601228800000000000

/-- The last representable nanosecond: the end of 31 December 262142. -/
def latestNanos : Int := 8210266876799999999999

/-- A representable point in time, in nanoseconds since the Unix epoch. -/
structure Instant where
  nanos : Int
  earliest_le : earliestNanos ≤ nanos
  le_latest : nanos ≤ latestNanos
deriving DecidableEq

namespace Span

def ofMillis (ms : Int) : Span := ⟨ms * 1000000⟩

def ofSeconds (seconds : Int) : Span := ⟨seconds * 1000000000⟩

/-- The span of `seconds` and `nanos`, where `nanos` counts upwards from the whole second. -/
def ofParts (seconds : Int) (nanos : Nat) : Span := ⟨seconds * 1000000000 + nanos⟩

end Span

namespace Duration

def ofMillis (ms : Nat) : Duration := ⟨ms * 1000000⟩

def ofSeconds (seconds : Nat) : Duration := ⟨seconds * 1000000000⟩

def ofParts (seconds nanos : Nat) : Duration := ⟨seconds * 1000000000 + nanos⟩

/-- Whole seconds and the nanoseconds left over. -/
def parts (d : Duration) : Nat × Nat := (d.nanos / 1000000000, d.nanos % 1000000000)

/-- The longest span that is handed to time arithmetic, in milliseconds. -/
def maxSpanMillis : Nat := 9223372036854775807

/-- The span of the whole milliseconds of `d`, cut at the longest one. -/
def toSpan (d : Duration) : Span := .ofMillis (min (d.nanos / 1000000) maxSpanMillis : Nat)

/-- The nanoseconds from one tick of a worker's timers to the next. -/
def timerTick : Nat := 1000000

theorem timerTick_pos : 0 < timerTick := Nat.succ_pos _

/-- How long a sleep of `d` lasts by timers that tick once in so many nanoseconds. They never fire
early. -/
def ticks (d : Duration) (tick : Nat) : Nat := (d.nanos + (tick - 1)) / tick

end Duration

namespace Instant

/-- The instant `nanos` nanoseconds after the epoch, if it is representable. -/
def ofNanos? (nanos : Int) : Option Instant :=
  if h : earliestNanos ≤ nanos ∧ nanos ≤ latestNanos then some ⟨nanos, h.1, h.2⟩ else none

def ofMillis? (ms : Int) : Option Instant := ofNanos? (ms * 1000000)

/-- The instant of `seconds` and `nanos`, where `nanos` counts upwards from the whole second. -/
def ofParts? (seconds : Int) (nanos : Nat) : Option Instant :=
  ofNanos? (seconds * 1000000000 + nanos)

def epoch : Instant := ⟨0, by decide, by decide⟩

def earliest : Instant := ⟨earliestNanos, by decide, by decide⟩

def latest : Instant := ⟨latestNanos, by decide, by decide⟩

instance : LE Instant := ⟨fun a b => a.nanos ≤ b.nanos⟩

instance : LT Instant := ⟨fun a b => a.nanos < b.nanos⟩

instance (a b : Instant) : Decidable (a ≤ b) := inferInstanceAs (Decidable (a.nanos ≤ b.nanos))

instance (a b : Instant) : Decidable (a < b) := inferInstanceAs (Decidable (a.nanos < b.nanos))

/-- Milliseconds since the epoch, rounded towards the past. -/
def millis (t : Instant) : Int := t.nanos / 1000000

/-- Whole seconds since the epoch, rounded towards the past, and the nanoseconds after them. -/
def parts (t : Instant) : Int × Nat := (t.nanos / 1000000000, (t.nanos % 1000000000).toNat)

def add? (t : Instant) (d : Span) : Option Instant := ofNanos? (t.nanos + d.nanos)

def sub? (t : Instant) (d : Span) : Option Instant := ofNanos? (t.nanos - d.nanos)

/-- The sum, or the last representable instant where the sum lies beyond it. -/
def addOrLatest (t : Instant) (d : Span) : Instant := (t.add? d).getD latest

theorem ofNanos?_eq_some_iff {n : Int} {t : Instant} : ofNanos? n = some t ↔ t.nanos = n := by
  unfold ofNanos?
  split
  · constructor
    · intro h; cases h; rfl
    · intro h; cases t; cases h; rfl
  · rename_i outside
    constructor
    · intro h; cases h
    · intro h; exact absurd ⟨h ▸ t.earliest_le, h ▸ t.le_latest⟩ outside

theorem ofNanos?_eq_none_iff {n : Int} :
    ofNanos? n = none ↔ n < earliestNanos ∨ latestNanos < n := by
  unfold ofNanos?
  split
  · rename_i inside
    simp only [reduceCtorEq, false_iff]
    omega
  · rename_i outside
    simp only [true_iff]
    omega

theorem add?_eq_some_iff {t u : Instant} {d : Span} :
    t.add? d = some u ↔ u.nanos = t.nanos + d.nanos := ofNanos?_eq_some_iff

theorem sub?_eq_some_iff {t u : Instant} {d : Span} :
    t.sub? d = some u ↔ u.nanos = t.nanos - d.nanos := ofNanos?_eq_some_iff

end Instant

end LeaseQueue
