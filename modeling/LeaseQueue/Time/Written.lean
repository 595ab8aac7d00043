import LeaseQueue.Time.Instant
/-! How times are written: instants as calendar date and clock time, signed spans in the style of
ISO 8601, unsigned durations in the largest unit that leaves a whole part. -/
namespace LeaseQueue

/-- A number in decimal with leading zeros up to `width` digits. -/
def paddedNat (width n : Nat) : String :=
  let digits := toString n
  String.ofList (List.replicate (width - digits.length) '0') ++ digits

/-- The digits of `n / 10 ^ width` after the point, without trailing zeros. -/
def fractionDigits (width n : Nat) : String :=
  String.ofList ((paddedNat width n).toList.reverse.dropWhile (· = '0')).reverse

/-- A whole part, a fraction of `width` digits if it is not zero, and a unit. -/
def writtenDecimal (whole width fraction : Nat) (unit : String) : String :=
  if fraction = 0 then toString whole ++ unit
  else toString whole ++ "." ++ fractionDigits width fraction ++ unit

namespace Span

/-- The length without its sign, as `PT...S`, or `P0D` for none. A minus sign precedes the `P`
of a span that lies below zero. -/
def written (d : Span) : String :=
  let size := d.nanos.natAbs
  let sign := if d.nanos < 0 then "-P" else "P"
  if size = 0 then sign ++ "0D"
  else sign ++ "T" ++ writtenDecimal (size / 1000000000) 9 (size % 1000000000) "S"

end Span

namespace Duration

/-- The duration in the largest of seconds, milliseconds, microseconds and nanoseconds of which
it holds at least one. -/
def written (d : Duration) : String :=
  if 1000000000 ≤ d.nanos then writtenDecimal (d.nanos / 1000000000) 9 (d.nanos % 1000000000) "s"
  else if 1000000 ≤ d.nanos then writtenDecimal (d.nanos / 1000000) 6 (d.nanos % 1000000) "ms"
  else if 1000 ≤ d.nanos then writtenDecimal (d.nanos / 1000) 3 (d.nanos % 1000) "µs"
  else toString d.nanos ++ "ns"

end Duration

/-- A day of the proleptic Gregorian calendar. -/
structure Date where
  year : Int
  month : Nat
  day : Nat
deriving DecidableEq

namespace Date

/-- The date `days` days after 1 January 1970. The year is counted from March, so that the leap
day ends it, and 400 such years form an era of 146097 days. -/
def ofEpochDay (days : Int) : Date :=
  let shifted := days + 719468
  let era := shifted / 146097
  let dayOfEra := (shifted % 146097).toNat
  let yearOfEra :=
    (dayOfEra - dayOfEra / 1460 + dayOfEra / 36524 - dayOfEra / 146096) / 365
  let dayOfYear := dayOfEra - (365 * yearOfEra + yearOfEra / 4 - yearOfEra / 100)
  let monthFromMarch := (5 * dayOfYear + 2) / 153
  let day := dayOfYear - (153 * monthFromMarch + 2) / 5 + 1
  let month := if monthFromMarch < 10 then monthFromMarch + 3 else monthFromMarch - 9
  let year := era * 400 + yearOfEra
  { year := if month ≤ 2 then year + 1 else year, month, day }

/-- Years outside 0 to 9999 carry a sign. -/
def written (d : Date) : String :=
  let year :=
    if 0 ≤ d.year ∧ d.year ≤ 9999 then paddedNat 4 d.year.toNat
    else (if d.year < 0 then "-" else "+") ++ paddedNat 4 d.year.natAbs
  year ++ "-" ++ paddedNat 2 d.month ++ "-" ++ paddedNat 2 d.day

end Date

namespace Instant

/-- The fraction of a second is left out if it is zero, else it has the least of 3, 6 and 9
digits that is exact. -/
def writtenFraction (nanos : Nat) : String :=
  if nanos = 0 then ""
  else if nanos % 1000000 = 0 then "." ++ paddedNat 3 (nanos / 1000000)
  else if nanos % 1000 = 0 then "." ++ paddedNat 6 (nanos / 1000)
  else "." ++ paddedNat 9 nanos

/-- Date and time of day in universal time. -/
def written (t : Instant) : String :=
  let (seconds, nanos) := t.parts
  let ofDay := (seconds % 86400).toNat
  (Date.ofEpochDay (seconds / 86400)).written ++ " " ++ paddedNat 2 (ofDay / 3600) ++ ":" ++
    paddedNat 2 (ofDay / 60 % 60) ++ ":" ++ paddedNat 2 (ofDay % 60) ++
    writtenFraction nanos ++ " UTC"

end Instant

end LeaseQueue
