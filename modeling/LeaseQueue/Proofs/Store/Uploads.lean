import LeaseQueue.Proofs.Store.Stored
/-! What the rows of review-branch work hold of an upload: the digests and the time of the update.
Only a further upload or the end of the branch takes them away. -/
namespace LeaseQueue

/-- Digests that were uploaded, and the time that they were given. -/
structure Upload where
  digests : List Digest
  updated : Instant
deriving DecidableEq

/-- Where there are digests, only times decide whether a row is due. -/
theorem SecondaryRow.isDue?_of_filled {row : SecondaryRow} {digests : List Digest}
    (held : row.digests = Digest.encodeList digests) (filled : digests ≠ []) (moment : Int) :
    row.isDue? moment = some true ↔ row.leaseEnds < moment ∧ row.calculated < row.updated := by
  rw [isDue?_eq_true_iff, held, Digest.arrayLength?_encodeList]
  simp [List.length_pos_iff, filled]

namespace Store

theorem calculated_completeSecondary {s : Store} {branch : String} {grouping : GroupingId}
    {now : Instant} {row : SecondaryRow}
    (member : row ∈ (s.completeSecondary branch grouping now).secondary)
    (own : row.hasKey branch grouping.bytes = true) : row.calculated = now.millis := by
  obtain ⟨before, _, rfl⟩ := List.mem_map.mp member
  split at own
  · rename_i same
    rw [if_pos same]
  · rename_i other
    exact absurd own other

/-- The digests and the update times of the rows with a key. -/
def uploads (s : Store) (branch : String) (key : List UInt8) : List (String × Int) :=
  (s.secondary.filter (SecondaryRow.hasKey branch key)).map fun row => (row.digests, row.updated)

/-- There are rows with this key, and they hold an upload. -/
def Carries (s : Store) (branch : String) (grouping : GroupingId) (upload : Upload) : Prop :=
  s.uploads branch grouping.bytes ≠ [] ∧ ∀ held ∈ s.uploads branch grouping.bytes,
    held = (Digest.encodeList upload.digests, upload.updated.millis)

theorem Carries.of_uploads {s next : Store} {branch : String} {grouping : GroupingId}
    {upload : Upload} (carried : s.Carries branch grouping upload)
    (same : next.uploads branch grouping.bytes = s.uploads branch grouping.bytes) :
    next.Carries branch grouping upload := by
  rw [Carries, same]
  exact carried

theorem Carries.row {s : Store} {branch : String} {grouping : GroupingId} {upload : Upload}
    {row : SecondaryRow} (carried : s.Carries branch grouping upload) (member : row ∈ s.secondary)
    (own : row.hasKey branch grouping.bytes = true) :
    row.digests = Digest.encodeList upload.digests ∧ row.updated = upload.updated.millis := by
  have held := carried.2 (row.digests, row.updated)
    (List.mem_map.mpr ⟨row, List.mem_filter.mpr ⟨member, own⟩, rfl⟩)
  exact Prod.mk.inj held

theorem Carries.exists_row {s : Store} {branch : String} {grouping : GroupingId} {upload : Upload}
    (carried : s.Carries branch grouping upload) :
    ∃ row ∈ s.secondary, row.hasKey branch grouping.bytes = true := by
  obtain ⟨held, found⟩ := List.exists_mem_of_ne_nil _ carried.1
  obtain ⟨row, member, _⟩ := List.mem_map.mp found
  exact ⟨row, (List.mem_filter.mp member).1, (List.mem_filter.mp member).2⟩

variable (s : Store) (branch : String) (key : List UInt8)

theorem uploads_setLease (own : RowKey) (ends : Int) :
    (s.setLease own ends).uploads branch key = s.uploads branch key := by
  cases own with
  | primary k => rfl
  | secondary b k =>
    apply read_unchanged
    · intro row; split <;> rfl
    · intro row _; split <;> rfl

theorem uploads_completeSecondary (b : String) (grouping : GroupingId) (now : Instant) :
    (s.completeSecondary b grouping now).uploads branch key = s.uploads branch key := by
  apply read_unchanged
  · intro row; split <;> rfl
  · intro row _; split <;> rfl

/-- No call of a unit changes an upload. -/
theorem uploads_byUnit {c : StoreCall} (own : c.byUnit = true) :
    (s.perform c).2.uploads branch key = s.uploads branch key := by
  cases asked : c.lease? with
  | some asking =>
    rcases s.perform_grants asked with ⟨_, _, _, grant⟩ | same
    · rw [grant.written, uploads_setLease]
    · rw [same]
  | none =>
    cases c with
    | claimPrimary | claimOldest | claimRandom | leaseSecondary => cases asked
    | completePrimary grouping now => rfl
    | completeSecondary b grouping now =>
      exact uploads_completeSecondary s branch key b grouping now
    | _ => cases own

theorem secondary_ensurePrimary (groupings : List GroupingId) :
    (s.ensurePrimary groupings).secondary = s.secondary := by
  induction groupings generalizing s with
  | nil => rfl
  | cons grouping groupings ih =>
    refine (ih (s.ensureOne grouping)).trans ?_
    unfold ensureOne
    split <;> rfl

theorem uploads_retireBranch (retired : String) (other : branch ≠ retired) :
    (s.retireBranch retired).2.uploads branch key = s.uploads branch key :=
  congrArg (List.map _) (filter_retireBranch s other key)

theorem uploads_upsertSecondary_other (b : String) (grouping : GroupingId) (digests : List Digest)
    (updated : Instant) (other : ¬ (b = branch ∧ grouping.bytes = key)) :
    (s.upsertSecondary b grouping digests updated).uploads branch key = s.uploads branch key := by
  unfold upsertSecondary
  simp only
  split
  · apply read_unchanged
    · intro row; split <;> rfl
    · intro row own
      rw [SecondaryRow.hasKey_other other own]
      rfl
  · simp [uploads, List.filter_append, SecondaryRow.hasKey, other]

theorem carries_upsertSecondary (grouping : GroupingId) (digests : List Digest)
    (updated : Instant) :
    (s.upsertSecondary branch grouping digests updated).Carries branch grouping
      ⟨digests, updated⟩ := by
  unfold upsertSecondary
  simp only
  split
  · rename_i present
    have keys : SecondaryRow.hasKey branch grouping.bytes ∘
        (fun row => if row.hasKey branch grouping.bytes then
          { row with digests := Digest.encodeList digests, updated := updated.millis } else row) =
        SecondaryRow.hasKey branch grouping.bytes := by
      funext row
      simp only [Function.comp_apply]
      split <;> rfl
    constructor
    · obtain ⟨row, member, own⟩ := List.any_eq_true.mp present
      intro empty
      simp only [uploads, List.filter_map, keys, List.map_eq_nil_iff, List.filter_eq_nil_iff]
        at empty
      exact empty row member own
    · intro held found
      simp only [uploads, List.filter_map, keys, List.map_map] at found
      obtain ⟨row, member, rfl⟩ := List.mem_map.mp found
      simp only [Function.comp_apply, (List.mem_filter.mp member).2, if_true]
  · rename_i absent
    have none : s.secondary.filter (SecondaryRow.hasKey branch grouping.bytes) = [] := by
      rw [List.filter_eq_nil_iff]
      simpa using absent
    constructor
    · simp [uploads, List.filter_append, SecondaryRow.hasKey]
    · intro held found
      simpa [uploads, List.filter_append, none, SecondaryRow.hasKey] using found

end Store

end LeaseQueue
