import LeaseQueue.Proofs.Lists
import LeaseQueue.Proofs.Store.Claims
/-! Keys are unique in each table, and no operation changes the key of a row. -/
namespace LeaseQueue.Store

/-- A rewriting of rows that changes no key. -/
theorem keys_unchanged {α κ : Type} (rows : List α) (f : α → α) (key : α → κ)
    (same : ∀ row, key (f row) = key row) : (rows.map f).map key = rows.map key := by
  rw [List.map_map]
  exact List.map_congr_left fun row _ => same row

theorem primaryKeys_setPrimaryLease (s : Store) (key : List UInt8) (ends : Int) :
    (s.setPrimaryLease key ends).primary.map (·.key) = s.primary.map (·.key) := by
  apply keys_unchanged
  intro row
  split <;> rfl

theorem primaryKeys_completePrimary (s : Store) (grouping : GroupingId) (now : Instant) :
    (s.completePrimary grouping now).primary.map (·.key) = s.primary.map (·.key) := by
  apply keys_unchanged
  intro row
  split <;> rfl

/-- The key of a row of review-branch work. -/
def secondaryKey (row : SecondaryRow) : String × List UInt8 := (row.branch, row.key)

theorem secondaryKeys_setSecondaryLease (s : Store) (branch : String) (key : List UInt8)
    (ends : Int) :
    (s.setSecondaryLease branch key ends).secondary.map secondaryKey =
      s.secondary.map secondaryKey := by
  apply keys_unchanged
  intro row
  split <;> rfl

theorem secondaryKeys_completeSecondary (s : Store) (branch : String) (grouping : GroupingId)
    (now : Instant) :
    (s.completeSecondary branch grouping now).secondary.map secondaryKey =
      s.secondary.map secondaryKey := by
  apply keys_unchanged
  intro row
  split <;> rfl

/-- No two rows of a table have the same key. -/
structure Keyed (s : Store) : Prop where
  primary : (s.primary.map (·.key)).Nodup
  secondary : (s.secondary.map secondaryKey).Nodup

theorem keyed_empty : Store.empty.Keyed := ⟨List.nodup_nil, List.nodup_nil⟩

theorem Keyed.setLease {s : Store} (keyed : s.Keyed) (key : RowKey) (ends : Int) :
    (s.setLease key ends).Keyed := by
  cases key with
  | primary key =>
    exact ⟨(primaryKeys_setPrimaryLease s key ends).symm ▸ keyed.primary, keyed.secondary⟩
  | secondary branch key =>
    exact ⟨keyed.primary,
      (secondaryKeys_setSecondaryLease s branch key ends).symm ▸ keyed.secondary⟩

theorem Keyed.grant {s next : Store} {key : RowKey} {now ends : Instant} (keyed : s.Keyed)
    (grant : Grant s key now ends next) : next.Keyed := by
  rw [grant.written]
  exact keyed.setLease key ends.millis

theorem Keyed.ensureOne {s : Store} (keyed : s.Keyed) (grouping : GroupingId) :
    (s.ensureOne grouping).Keyed := by
  unfold Store.ensureOne
  split
  · exact keyed
  · rename_i absent
    refine ⟨?_, keyed.secondary⟩
    rw [List.map_append]
    apply nodup_append_new keyed.primary
    intro present
    obtain ⟨row, member, same⟩ := List.mem_map.mp present
    exact absent (List.any_eq_true.mpr ⟨row, member, decide_eq_true same⟩)

theorem Keyed.ensurePrimary {s : Store} (keyed : s.Keyed) (groupings : List GroupingId) :
    (s.ensurePrimary groupings).Keyed := by
  induction groupings generalizing s with
  | nil => exact keyed
  | cons grouping groupings ih => exact ih (keyed.ensureOne grouping)

theorem Keyed.upsertSecondary {s : Store} (keyed : s.Keyed) (branch : String)
    (grouping : GroupingId) (digests : List Digest) (updated : Instant) :
    (s.upsertSecondary branch grouping digests updated).Keyed := by
  unfold Store.upsertSecondary
  simp only
  split
  · refine ⟨keyed.primary, ?_⟩
    rw [keys_unchanged]
    · exact keyed.secondary
    · intro row; split <;> rfl
  · rename_i absent
    refine ⟨keyed.primary, ?_⟩
    rw [List.map_append]
    apply nodup_append_new keyed.secondary
    intro present
    obtain ⟨row, member, same⟩ := List.mem_map.mp present
    have own := Prod.mk.inj same
    exact absent (List.any_eq_true.mpr ⟨row, member, SecondaryRow.hasKey_iff.mpr own⟩)

theorem Keyed.retireBranch {s : Store} (keyed : s.Keyed) (branch : String) :
    (s.retireBranch branch).2.Keyed :=
  ⟨keyed.primary, keyed.secondary.sublist (List.filter_sublist.map secondaryKey)⟩

theorem Keyed.perform {s : Store} (keyed : s.Keyed) (c : StoreCall) : (s.perform c).2.Keyed := by
  cases asked : c.lease? with
  | some asking =>
    rcases s.perform_grants asked with ⟨_, _, _, grant⟩ | same
    · exact keyed.grant grant
    · rw [same]; exact keyed
  | none =>
    cases c with
    | claimPrimary | claimOldest | claimRandom | leaseSecondary => cases asked
    | completePrimary grouping now =>
      exact ⟨(primaryKeys_completePrimary s grouping now).symm ▸ keyed.primary, keyed.secondary⟩
    | completeSecondary branch grouping now =>
      exact ⟨keyed.primary,
        (secondaryKeys_completeSecondary s branch grouping now).symm ▸ keyed.secondary⟩
    | ensurePrimary groupings => exact keyed.ensurePrimary groupings
    | upsertSecondary work updated =>
      exact keyed.upsertSecondary work.branch work.grouping work.digests updated
    | retireBranch branch => exact keyed.retireBranch branch
    | putGrouping grouping params =>
      simp only [Store.perform, putGrouping]
      split
      · exact keyed
      · exact ⟨keyed.primary, keyed.secondary⟩
    | groupingParams | primaryRow | secondaryRow | candidates => exact keyed

theorem Keyed.after {s : Store} (keyed : s.Keyed) (cs : List StoreCall) : (s.after cs).Keyed := by
  induction cs generalizing s with
  | nil => exact keyed
  | cons c cs ih => exact ih (keyed.perform c)

/-- Rows of one key are one row where keys are unique. -/
theorem length_filter_key {α κ : Type} {rows : List α} {key : α → κ} {own : α → Bool} {k : κ}
    (unique : (rows.map key).Nodup) (owned : ∀ row, own row = true → key row = k) :
    (rows.filter own).length ≤ 1 := by
  have keys : (rows.filter own).map key = List.replicate (rows.filter own).length k := by
    apply List.eq_replicate_iff.mpr
    refine ⟨List.length_map key, ?_⟩
    intro other member
    obtain ⟨row, hr, rfl⟩ := List.mem_map.mp member
    exact owned row (List.mem_filter.mp hr).2
  have distinct : ((rows.filter own).map key).Nodup :=
    unique.sublist (List.filter_sublist.map key)
  rw [keys] at distinct
  exact List.nodup_replicate.mp distinct

theorem Keyed.eq_of_hasKey {s : Store} (keyed : s.Keyed) {row other : SecondaryRow}
    (member : row ∈ s.secondary) (own : other ∈ s.secondary)
    (same : row.hasKey other.branch other.key = true) : row = other := by
  apply List.inj_on_of_nodup_map keyed.secondary member own
  exact Prod.ext_iff.mpr (SecondaryRow.hasKey_iff.mp same)

theorem Keyed.length_leases {s : Store} (keyed : s.Keyed) (key : RowKey) :
    (s.leases key).length ≤ 1 := by
  cases key with
  | primary key =>
    rw [leases, List.length_map]
    exact length_filter_key keyed.primary fun row own => of_decide_eq_true own
  | secondary branch key =>
    rw [leases, List.length_map]
    exact length_filter_key (k := (branch, key)) keyed.secondary fun row own =>
      Prod.ext_iff.mpr (SecondaryRow.hasKey_iff.mp own)

theorem Keyed.leasedTo {s : Store} {key : RowKey} {ends : Int} (keyed : s.Keyed)
    (found : s.leaseEnds? key = some ends) : s.LeasedTo key ends := by
  have short := keyed.length_leases key
  unfold leaseEnds? at found
  unfold LeasedTo
  cases rows : s.leases key with
  | nil => rw [rows] at found; cases found
  | cons e rest =>
    rw [rows] at found short
    cases found
    have single : rest = [] := List.length_eq_zero_iff.mp (by simpa using short)
    subst single
    simp

theorem LeasedTo.leaseEnds? {s : Store} {key : RowKey} {bound : Int} (held : s.LeasedTo key bound) :
    ∃ ends, s.leaseEnds? key = some ends ∧ bound ≤ ends := by
  unfold Store.leaseEnds?
  cases rows : s.leases key with
  | nil => exact absurd rows held.1
  | cons e rest => exact ⟨e, rfl, held.2 e (rows ▸ List.mem_cons_self)⟩

end LeaseQueue.Store
