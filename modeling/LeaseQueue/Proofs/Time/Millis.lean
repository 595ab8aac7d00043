import LeaseQueue.Store.Error
/-! Exact times beside their whole milliseconds. Rounding goes towards the past, so a strict
comparison of milliseconds is also one of the exact times. -/
namespace LeaseQueue

namespace Instant

theorem lt_iff_nanos {a b : Instant} : a < b ↔ a.nanos < b.nanos := Iff.rfl

theorem le_iff_nanos {a b : Instant} : a ≤ b ↔ a.nanos ≤ b.nanos := Iff.rfl

theorem millis_mono {a b : Instant} (h : a ≤ b) : a.millis ≤ b.millis := by
  rw [le_iff_nanos] at h
  unfold millis
  omega

theorem lt_of_millis_lt {a b : Instant} (h : a.millis < b.millis) : a < b := by
  rw [lt_iff_nanos]
  unfold millis at h
  omega

theorem le_addOrLatest {t : Instant} {d : Span} (forward : 0 ≤ d.nanos) : t ≤ t.addOrLatest d := by
  unfold addOrLatest
  cases sum : t.add? d with
  | none => exact t.le_latest
  | some later =>
    rw [Option.getD_some, le_iff_nanos, add?_eq_some_iff.mp sum]
    omega

theorem lt_addOrLatest {t : Instant} {d : Span} (forward : 0 < d.nanos) (inside : t < latest) :
    t < t.addOrLatest d := by
  unfold addOrLatest
  cases sum : t.add? d with
  | none => exact inside
  | some later =>
    rw [Option.getD_some, lt_iff_nanos, add?_eq_some_iff.mp sum]
    omega

/-- A whole number of milliseconds. -/
def Whole (t : Instant) : Prop := t.nanos % 1000000 = 0

theorem whole_epoch : epoch.Whole := rfl

theorem millis_lt_iff {a b : Instant} (whole : b.Whole) : a.millis < b.millis ↔ a < b := by
  refine ⟨lt_of_millis_lt, ?_⟩
  intro h
  rw [lt_iff_nanos] at h
  unfold Whole at whole
  unfold millis
  omega

theorem millis_le_iff {a b : Instant} (whole : a.Whole) : a.millis ≤ b.millis ↔ a ≤ b := by
  have later := millis_lt_iff (a := b) whole
  rw [lt_iff_nanos] at later
  rw [le_iff_nanos]
  omega

/-- The instant so many milliseconds after the epoch, or the epoch where there is none. -/
def atMillis (ms : Int) : Instant := (ofMillis? ms).getD epoch

theorem whole_atMillis (ms : Int) : (atMillis ms).Whole := by
  unfold atMillis
  cases read : ofMillis? ms with
  | none => exact whole_epoch
  | some t =>
    rw [ofMillis?, ofNanos?_eq_some_iff] at read
    rw [Option.getD_some, Whole, read]
    exact Int.mul_emod_left ms 1000000

/-- The whole millisecond at or before an instant. The calendar begins with one. -/
def floorMillis (t : Instant) : Instant where
  nanos := t.millis * 1000000
  earliest_le := by
    have begun := t.earliest_le
    unfold earliestNanos at begun ⊢
    unfold millis
    omega
  le_latest := by
    have inside := t.le_latest
    unfold millis
    omega

theorem ofMillis?_floor (t : Instant) : ofMillis? t.millis = some t.floorMillis :=
  ofNanos?_eq_some_iff.mpr rfl

/-- Whole milliseconds are read back as they were written. -/
theorem ofMillis?_millis {t : Instant} (whole : t.Whole) : ofMillis? t.millis = some t := by
  unfold Whole at whole
  rw [ofMillis?, ofNanos?_eq_some_iff]
  unfold millis
  omega

theorem floorMillis_of_whole {t : Instant} (whole : t.Whole) : t.floorMillis = t :=
  Option.some.inj ((ofMillis?_floor t).symm.trans (ofMillis?_millis whole))

end Instant

/-- A whole number of milliseconds. -/
def Span.Whole (d : Span) : Prop := d.nanos % 1000000 = 0

theorem leaseEnd_eq_ok_iff {now ends : Instant} {lease : Span} :
    leaseEnd now lease = .ok ends ↔ ends.nanos = now.nanos + lease.nanos := by
  rw [← Instant.add?_eq_some_iff]
  unfold leaseEnd
  split
  · rename_i t h
    rw [h]
    exact ⟨fun eq => congrArg some (Except.ok.inj eq), fun eq => congrArg _ (Option.some.inj eq)⟩
  · rename_i h
    rw [h]
    constructor <;> intro impossible <;> cases impossible

theorem staleCutoff_eq_ok_iff {now cutoff : Instant} {staleness : Span} :
    staleCutoff now staleness = .ok cutoff ↔ cutoff.nanos = now.nanos - staleness.nanos := by
  rw [← Instant.sub?_eq_some_iff]
  unfold staleCutoff
  split
  · rename_i t h
    rw [h]
    exact ⟨fun eq => congrArg some (Except.ok.inj eq), fun eq => congrArg _ (Option.some.inj eq)⟩
  · rename_i h
    rw [h]
    constructor <;> intro impossible <;> cases impossible

theorem Instant.Whole.leaseEnd {now ends : Instant} {lease : Span} (whole : now.Whole)
    (length : lease.Whole) (granted : LeaseQueue.leaseEnd now lease = .ok ends) : ends.Whole := by
  have sum := leaseEnd_eq_ok_iff.mp granted
  unfold Instant.Whole at whole ⊢
  unfold Span.Whole at length
  omega

theorem Instant.Whole.staleCutoff {now cutoff : Instant} {staleness : Span} (whole : now.Whole)
    (length : staleness.Whole) (found : LeaseQueue.staleCutoff now staleness = .ok cutoff) :
    cutoff.Whole := by
  have difference := staleCutoff_eq_ok_iff.mp found
  unfold Instant.Whole at whole ⊢
  unfold Span.Whole at length
  omega

/-- A lease of no negative length ends no earlier than it begins, also in milliseconds. -/
theorem millis_le_of_leaseEnd {now ends : Instant} {lease : Span} (length : 0 ≤ lease.nanos)
    (granted : leaseEnd now lease = .ok ends) : now.millis ≤ ends.millis := by
  apply Instant.millis_mono
  rw [Instant.le_iff_nanos, leaseEnd_eq_ok_iff.mp granted]
  omega

end LeaseQueue
