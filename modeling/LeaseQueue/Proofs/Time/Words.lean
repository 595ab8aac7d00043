import LeaseQueue.Time.Instant
import Mathlib.Algebra.Ring.Int.Defs
import Mathlib.Algebra.Ring.Nat
/-! Times in machine words. Lengths of time are kept as seconds and nanoseconds, converted through
milliseconds of 128 and then 64 bits, and added to instants in seconds and nanoseconds again. No sum
leaves its words, so the exact numbers of nanoseconds tell what the words do. -/
namespace LeaseQueue

section Signed

variable {a b : Int64}

theorem toInt_add_of_fits (low : -2 ^ 63 ≤ a.toInt + b.toInt) (high : a.toInt + b.toInt < 2 ^ 63) :
    (a + b).toInt = a.toInt + b.toInt := by
  rw [Int64.toInt_add]
  apply Int.bmod_eq_of_le_mul_two <;> omega

theorem toInt_sub_of_fits (low : -2 ^ 63 ≤ a.toInt - b.toInt) (high : a.toInt - b.toInt < 2 ^ 63) :
    (a - b).toInt = a.toInt - b.toInt := by
  rw [Int64.toInt_sub]
  apply Int.bmod_eq_of_le_mul_two <;> omega

end Signed

/-- An unsigned length of time: whole seconds, and the nanoseconds after them. -/
structure DurationWords where
  seconds : UInt64
  nanos : UInt32
  nanos_lt : nanos.toNat < 1000000000

namespace DurationWords

variable (w : DurationWords)

def duration : Duration := .ofParts w.seconds.toNat w.nanos.toNat

/-- The whole milliseconds. -/
def millis : BitVec 128 :=
  w.seconds.toBitVec.setWidth 128 * 1000#128 + (w.nanos / 1000000).toBitVec.setWidth 128

/-- The whole milliseconds in a signed word, or the greatest one where they do not fit. -/
def signedMillis : Int64 :=
  if w.millis.toNat < 2 ^ 63 then .ofBitVec (w.millis.setWidth 64) else .maxValue

theorem toNat_seconds_mul :
    (w.seconds.toBitVec.setWidth 128 * 1000#128).toNat = w.seconds.toNat * 1000 := by
  have bound := w.seconds.toNat_lt
  have wide : (w.seconds.toBitVec.setWidth 128).toNat = w.seconds.toNat := by
    rw [BitVec.toNat_setWidth, UInt64.toNat_toBitVec]
    omega
  rw [BitVec.toNat_mul, wide, BitVec.toNat_ofNat]
  omega

theorem toNat_nanos_div :
    ((w.nanos / 1000000).toBitVec.setWidth 128).toNat = w.nanos.toNat / 1000000 := by
  have bound := w.nanos_lt
  have quotient : (w.nanos / 1000000).toNat = w.nanos.toNat / 1000000 := UInt32.toNat_div _ _
  rw [BitVec.toNat_setWidth, UInt32.toNat_toBitVec, quotient]
  omega

/-- The milliseconds of every length of time fit into 128 bits. -/
theorem toNat_millis : w.millis.toNat = w.duration.nanos / 1000000 := by
  have bound := w.seconds.toNat_lt
  have nanos := w.nanos_lt
  have whole : w.duration.nanos = w.seconds.toNat * 1000000000 + w.nanos.toNat := rfl
  rw [millis, BitVec.toNat_add, toNat_seconds_mul, toNat_nanos_div, whole]
  omega

theorem toInt_signedMillis :
    w.signedMillis.toInt = (min (w.duration.nanos / 1000000) Duration.maxSpanMillis : Nat) := by
  have exact := w.toNat_millis
  unfold signedMillis Duration.maxSpanMillis
  split
  · rename_i fits
    have kept : (w.millis.setWidth 64).toNat = w.millis.toNat := by
      rw [BitVec.toNat_setWidth]
      omega
    rw [Int64.toInt_ofBitVec, BitVec.toInt_eq_toNat_of_lt (by omega), kept, exact]
    omega
  · have greatest : Int64.maxValue.toInt = 9223372036854775807 := rfl
    omega

theorem toSpan_eq : w.duration.toSpan = .ofMillis w.signedMillis.toInt := by
  rw [toInt_signedMillis]
  rfl

end DurationWords

/-- A point in time or a signed length of it: whole seconds, rounded towards the past, and the
nanoseconds after them. -/
structure TimeWords where
  seconds : Int64
  nanos : UInt32
  nanos_lt : nanos.toNat < 1000000000

namespace TimeWords

variable (a b : TimeWords)

def value : Int := a.seconds.toInt * 1000000000 + a.nanos.toNat

/-- Two numbers of nanoseconds together are no more than a word holds. -/
theorem toNat_nanos_add : (a.nanos + b.nanos).toNat = a.nanos.toNat + b.nanos.toNat := by
  have first := a.nanos_lt
  have second := b.nanos_lt
  rw [UInt32.toNat_add]
  omega

theorem toNat_nanos_carried (beyond : ¬ (a.nanos + b.nanos).toNat < 1000000000) :
    (a.nanos + b.nanos - 1000000000).toNat = a.nanos.toNat + b.nanos.toNat - 1000000000 := by
  have sum := toNat_nanos_add a b
  rw [UInt32.toNat_sub_of_le _ _ (UInt32.le_iff_toNat_le.mpr (Nat.le_of_not_lt beyond)), sum]
  rfl

theorem toNat_nanos_borrowed (under : a.nanos.toNat < b.nanos.toNat) :
    (a.nanos + 1000000000 - b.nanos).toNat = a.nanos.toNat + 1000000000 - b.nanos.toNat := by
  have first := a.nanos_lt
  have second := b.nanos_lt
  have sum : (a.nanos + 1000000000).toNat = a.nanos.toNat + 1000000000 := by
    have whole : (1000000000 : UInt32).toNat = 1000000000 := rfl
    rw [UInt32.toNat_add, whole]
    omega
  rw [UInt32.toNat_sub_of_le _ _ (UInt32.le_iff_toNat_le.mpr (by omega)), sum]

/-- The sum, with a second that the nanoseconds may carry. -/
def plus : TimeWords :=
  if within : (a.nanos + b.nanos).toNat < 1000000000 then
    ⟨a.seconds + b.seconds, a.nanos + b.nanos, within⟩
  else
    ⟨a.seconds + b.seconds + 1, a.nanos + b.nanos - 1000000000, by
      have first := a.nanos_lt
      have second := b.nanos_lt
      rw [toNat_nanos_carried a b within]
      omega⟩

/-- The difference, with a second that the nanoseconds may borrow. -/
def minus : TimeWords :=
  if under : a.nanos.toNat < b.nanos.toNat then
    ⟨a.seconds - b.seconds - 1, a.nanos + 1000000000 - b.nanos, by
      rw [toNat_nanos_borrowed a b under]
      omega⟩
  else
    ⟨a.seconds - b.seconds, a.nanos - b.nanos, by
      have first := a.nanos_lt
      rw [UInt32.toNat_sub_of_le _ _ (UInt32.le_iff_toNat_le.mpr (Nat.le_of_not_lt under))]
      omega⟩

/-- A time that is so far from the ends of its word of seconds that two of them together do not
reach them. -/
def Moderate (a : TimeWords) : Prop := -2 ^ 62 < a.seconds.toInt ∧ a.seconds.toInt < 2 ^ 62 - 1

variable {a b}

theorem Moderate.value_plus (first : a.Moderate) (second : b.Moderate) :
    (a.plus b).value = a.value + b.value := by
  obtain ⟨_, _⟩ := first
  obtain ⟨_, _⟩ := second
  have seconds : (a.seconds + b.seconds).toInt = a.seconds.toInt + b.seconds.toInt :=
    toInt_add_of_fits (by omega) (by omega)
  unfold plus
  split
  · unfold value
    simp only [seconds, toNat_nanos_add]
    omega
  · rename_i beyond
    have one : (1 : Int64).toInt = 1 := rfl
    have carried : (a.seconds + b.seconds + 1).toInt = a.seconds.toInt + b.seconds.toInt + 1 := by
      rw [toInt_add_of_fits (by omega) (by omega), seconds, one]
    have enough := beyond
    rw [toNat_nanos_add] at enough
    unfold value
    simp only [carried, toNat_nanos_carried a b beyond]
    omega

theorem Moderate.value_minus (first : a.Moderate) (second : b.Moderate) :
    (a.minus b).value = a.value - b.value := by
  obtain ⟨_, _⟩ := first
  obtain ⟨_, _⟩ := second
  have seconds : (a.seconds - b.seconds).toInt = a.seconds.toInt - b.seconds.toInt :=
    toInt_sub_of_fits (by omega) (by omega)
  unfold minus
  split
  · rename_i under
    have one : (1 : Int64).toInt = 1 := rfl
    have borrowed : (a.seconds - b.seconds - 1).toInt = a.seconds.toInt - b.seconds.toInt - 1 := by
      rw [toInt_sub_of_fits (by omega) (by omega), seconds, one]
    have second := b.nanos_lt
    unfold value
    simp only [borrowed, toNat_nanos_borrowed a b under]
    omega
  · rename_i enough
    unfold value
    simp only [seconds,
      UInt32.toNat_sub_of_le _ _ (UInt32.le_iff_toNat_le.mpr (Nat.le_of_not_lt enough))]
    omega

def ofParts (seconds : Int) (nanos : Nat) (below : nanos < 1000000000) : TimeWords :=
  ⟨.ofInt seconds, .ofNat nanos, by
    rw [UInt32.toNat_ofNat']
    omega⟩

section Parts

variable {seconds : Int} {nanos : Nat} (below : nanos < 1000000000)
  (moderate : -2 ^ 62 < seconds ∧ seconds < 2 ^ 62 - 1)
include moderate

theorem toInt_seconds_ofParts : (ofParts seconds nanos below).seconds.toInt = seconds :=
  Int64.toInt_ofInt_of_le (by omega) (by omega)

theorem moderate_ofParts : (ofParts seconds nanos below).Moderate := by
  rw [Moderate, toInt_seconds_ofParts below moderate]
  exact moderate

theorem value_ofParts : (ofParts seconds nanos below).value = seconds * 1000000000 + nanos := by
  have word : (ofParts seconds nanos below).nanos.toNat = nanos := by
    rw [ofParts, UInt32.toNat_ofNat']
    omega
  rw [value, toInt_seconds_ofParts below moderate, word]

end Parts

end TimeWords

namespace Instant

variable (t : Instant)

def words : TimeWords := .ofParts (t.nanos / 1000000000) (t.nanos % 1000000000).toNat (by omega)

theorem seconds_moderate : -2 ^ 62 < t.nanos / 1000000000 ∧ t.nanos / 1000000000 < 2 ^ 62 - 1 := by
  -- The calendar is far shorter than what a word of seconds counts.
  have begun := t.earliest_le
  have inside := t.le_latest
  unfold earliestNanos at begun
  unfold latestNanos at inside
  omega

theorem value_words : t.words.value = t.nanos := by
  rw [words, TimeWords.value_ofParts _ t.seconds_moderate]
  omega

end Instant

namespace DurationWords

variable (w : DurationWords)

/-- The length of time as it is added to instants. -/
def span : TimeWords :=
  .ofParts (w.signedMillis.toInt / 1000) ((w.signedMillis.toInt % 1000).toNat * 1000000) (by omega)

theorem seconds_moderate :
    -2 ^ 62 < w.signedMillis.toInt / 1000 ∧ w.signedMillis.toInt / 1000 < 2 ^ 62 - 1 := by
  -- A word of milliseconds counts a thousandth of the seconds that its like counts.
  have low := w.signedMillis.le_toInt
  have high := w.signedMillis.toInt_lt
  omega

theorem value_span : w.span.value = w.duration.toSpan.nanos := by
  have exact : w.duration.toSpan.nanos = w.signedMillis.toInt * 1000000 :=
    congrArg Span.nanos w.toSpan_eq
  rw [span, TimeWords.value_ofParts _ w.seconds_moderate, exact]
  omega

/-- The sum of an instant and a length of time is exact, also where it lies beyond the calendar. -/
theorem value_plus (t : Instant) :
    (t.words.plus w.span).value = t.nanos + w.duration.toSpan.nanos := by
  rw [← t.value_words, ← w.value_span]
  exact (TimeWords.moderate_ofParts _ t.seconds_moderate).value_plus
    (TimeWords.moderate_ofParts _ w.seconds_moderate)

theorem value_minus (t : Instant) :
    (t.words.minus w.span).value = t.nanos - w.duration.toSpan.nanos := by
  rw [← t.value_words, ← w.value_span]
  exact (TimeWords.moderate_ofParts _ t.seconds_moderate).value_minus
    (TimeWords.moderate_ofParts _ w.seconds_moderate)

end DurationWords

end LeaseQueue
