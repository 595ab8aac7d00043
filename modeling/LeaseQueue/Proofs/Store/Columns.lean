import LeaseQueue.Proofs.Store.Groupings
import LeaseQueue.Proofs.Store.Leases
import LeaseQueue.Proofs.Store.Legible
import LeaseQueue.Proofs.Store.Uploads
/-! What an operation writes. Every column belongs to one kind of operation, and every operation
leaves the columns of others, and the rows of other keys, as they are. -/
namespace LeaseQueue

/-- The columns of a row of either queue, apart from its key. Primary-branch work has no upload. -/
structure WorkRow where
  leaseEnds : Int
  calculated : Int
  upload? : Option (String × Int)
deriving DecidableEq

def PrimaryRow.columns (row : PrimaryRow) : WorkRow := ⟨row.leaseEnds, row.calculated, none⟩

def SecondaryRow.columns (row : SecondaryRow) : WorkRow :=
  ⟨row.leaseEnds, row.calculated, some (row.digests, row.updated)⟩

/-- An upload as it is stored. -/
def Upload.columns (upload : Upload) : String × Int :=
  (Digest.encodeList upload.digests, upload.updated.millis)

namespace WorkRow

def fresh : WorkRow := ⟨Store.beginning, Store.beginning, none⟩

/-- The row after a new lease, a completion and an upload, or those of them that there are. -/
def written (ends? completed? : Option Instant) (upload? : Option Upload) (row : WorkRow) :
    WorkRow where
  leaseEnds := ends?.elim row.leaseEnds Instant.millis
  calculated := completed?.elim row.calculated Instant.millis
  upload? := (upload?.map Upload.columns).or row.upload?

theorem written_none : written none none none = id := by
  funext row
  simp [written]

end WorkRow

namespace StoreCall

/-- The moment of the completion that a call records for a row. -/
def completion? : StoreCall → RowKey → Option Instant
  | .completePrimary grouping now, .primary key => if grouping.bytes = key then some now else none
  | .completeSecondary own grouping now, .secondary branch key =>
    if own = branch ∧ grouping.bytes = key then some now else none
  | _, _ => none

/-- The upload that a call records for a row. -/
def upload? : StoreCall → RowKey → Option Upload
  | .upsertSecondary work updated, .secondary branch key =>
    if work.branch = branch ∧ work.grouping.bytes = key then some ⟨work.digests, updated⟩ else none
  | _, _ => none

/-- Whether a call adds a row with a key where there is none. -/
def creates : StoreCall → RowKey → Bool
  | .ensurePrimary groupings, .primary key => groupings.any fun grouping => grouping.bytes = key
  | .upsertSecondary work _, .secondary branch key =>
    work.branch = branch ∧ work.grouping.bytes = key
  | _, _ => false

variable {c : StoreCall} {asking : Instant × Span}

theorem only_leases (asked : c.lease? = some asking) (key : RowKey) :
    c.completion? key = none ∧ c.upload? key = none ∧ c.creates key = false ∧
      c.retires key = false := by
  cases c with
  | claimPrimary | claimOldest | claimRandom | leaseSecondary => exact ⟨rfl, rfl, rfl, rfl⟩
  | _ => cases asked

theorem only_completes {key : RowKey} {now : Instant} (completes : c.completion? key = some now) :
    c.lease? = none ∧ c.upload? key = none ∧ c.creates key = false ∧ c.retires key = false := by
  cases c with
  | completePrimary | completeSecondary => exact ⟨rfl, rfl, rfl, rfl⟩
  | _ => cases completes

theorem only_uploads {key : RowKey} {upload : Upload} (uploads : c.upload? key = some upload) :
    c.lease? = none ∧ c.completion? key = none ∧ c.creates key = true ∧ c.retires key = false := by
  cases c with
  | upsertSecondary work updated =>
    cases key with
    | primary key => cases uploads
    | secondary branch key =>
      refine ⟨rfl, rfl, ?_, rfl⟩
      by_contra other
      simp only [creates, decide_eq_true_eq] at other
      rw [upload?, if_neg other] at uploads
      cases uploads
  | _ => cases uploads

theorem leased?_of_none (none : c.lease? = none) (answer : Except StoreError StoreAnswer) :
    c.leased? answer = .none := by
  cases c with
  | claimPrimary | claimOldest | claimRandom | leaseSecondary => cases none
  | _ => rfl

end StoreCall

/-- A call that leased nothing leaves nothing to record. -/
theorem Ledger.record_of_none {l : Ledger} {c : StoreCall} {asking : Instant × Span}
    {answer : Except StoreError StoreAnswer} (asked : c.lease? = some asking)
    (none : c.leased? answer = none) : l.record c answer = l := by
  cases c with
  | claimPrimary | claimOldest | claimRandom | leaseSecondary =>
    unfold StoreCall.leased? at none
    unfold record
    split at none <;> grind
  | _ => cases asked

namespace Store

def row? (s : Store) : RowKey → Option WorkRow
  | .primary key => (s.primary.find? fun row => row.key = key).map PrimaryRow.columns
  | .secondary branch key =>
    (s.secondary.find? (SecondaryRow.hasKey branch key)).map SecondaryRow.columns

/-- The end of the lease that a call takes of a row, if it takes one. -/
def newLease? (s : Store) (c : StoreCall) (key : RowKey) : Option Instant :=
  if c.leased? (s.perform c).1 = some key then c.lease?.bind fun asked => asked.1.add? asked.2
  else none

/-! What each operation makes of the row with a key. -/

section Rows

/-- A rewriting of rows that changes no key, seen at the row with a key. -/
theorem find?_rewritten {α : Type} (rows : List α) (f : α → α) (own : α → Bool)
    (read : α → WorkRow) (write : WorkRow → WorkRow) (keys : ∀ row, own (f row) = own row)
    (same : ∀ row, own row = true → read (f row) = write (read row)) :
    ((rows.map f).find? own).map read = ((rows.find? own).map read).map write := by
  have keys' : own ∘ f = own := funext keys
  rw [List.find?_map, keys', Option.map_map, Option.map_map]
  apply Option.map_congr
  intro row found
  exact same row (List.find?_some found)

variable (s : Store)

theorem row?_setLease (own key : RowKey) (ends : Instant) :
    (s.setLease own ends.millis).row? key =
      (s.row? key).map (.written (if own = key then some ends else none) none none) := by
  cases own with
  | primary k =>
    cases key with
    | primary key =>
      apply find?_rewritten
      · intro row; split <;> rfl
      · intro row own
        obtain rfl : row.key = key := of_decide_eq_true own
        by_cases same : k = row.key
        · simp [same, PrimaryRow.columns, WorkRow.written]
        · simp [same, Ne.symm same, PrimaryRow.columns, WorkRow.written]
    | secondary branch key => simp [WorkRow.written_none, setLease, setPrimaryLease, row?]
  | secondary b k =>
    cases key with
    | primary key => simp [WorkRow.written_none, setLease, setSecondaryLease, row?]
    | secondary branch key =>
      apply find?_rewritten
      · intro row; split <;> rfl
      · intro row own
        by_cases same : b = branch ∧ k = key
        · obtain ⟨rfl, rfl⟩ := same
          simp [own, SecondaryRow.columns, WorkRow.written]
        · simp [same, SecondaryRow.hasKey_other same own, SecondaryRow.columns, WorkRow.written]

theorem row?_completePrimary (grouping : GroupingId) (now : Instant) (key : RowKey) :
    (s.completePrimary grouping now).row? key =
      (s.row? key).map
        (.written none ((StoreCall.completePrimary grouping now).completion? key) none) := by
  cases key with
  | primary key =>
    apply find?_rewritten
    · intro row; split <;> rfl
    · intro row own
      obtain rfl : row.key = key := of_decide_eq_true own
      by_cases same : grouping.bytes = row.key
      · simp [same, StoreCall.completion?, PrimaryRow.columns, WorkRow.written]
      · simp [same, Ne.symm same, StoreCall.completion?, PrimaryRow.columns, WorkRow.written]
  | secondary branch key =>
    simp [WorkRow.written_none, StoreCall.completion?, completePrimary, row?]

theorem row?_completeSecondary (b : String) (grouping : GroupingId) (now : Instant)
    (key : RowKey) :
    (s.completeSecondary b grouping now).row? key =
      (s.row? key).map
        (.written none ((StoreCall.completeSecondary b grouping now).completion? key) none) := by
  cases key with
  | primary key => simp [WorkRow.written_none, StoreCall.completion?, completeSecondary, row?]
  | secondary branch key =>
    apply find?_rewritten
    · intro row; split <;> rfl
    · intro row own
      by_cases same : b = branch ∧ grouping.bytes = key
      · obtain ⟨rfl, rfl⟩ := same
        simp [own, StoreCall.completion?, SecondaryRow.columns, WorkRow.written]
      · simp [same, SecondaryRow.hasKey_other same own, StoreCall.completion?,
          SecondaryRow.columns, WorkRow.written]

theorem row?_ensureOne (grouping : GroupingId) (key : RowKey) :
    (s.ensureOne grouping).row? key =
      (s.row? key).or (if key = .primary grouping.bytes then some .fresh else none) := by
  unfold ensureOne
  split
  · rename_i present
    split
    · rename_i own
      subst own
      obtain ⟨row, found⟩ := Option.isSome_iff_exists.mp
        (List.find?_isSome.mpr (List.any_eq_true.mp present))
      simp [row?, found]
    · exact Option.or_none.symm
  · cases key with
    | primary key =>
      simp only [row?, List.find?_append, List.find?_singleton, Option.map_or, decide_eq_true_eq,
        RowKey.primary.injEq, eq_comm (a := key)]
      split <;> rfl
    | secondary branch key => simp [row?]

theorem row?_ensurePrimary (groupings : List GroupingId) (key : RowKey) :
    (s.ensurePrimary groupings).row? key = (s.row? key).or
      (if (StoreCall.ensurePrimary groupings).creates key then some .fresh else none) := by
  induction groupings generalizing s with
  | nil => cases key <;> simp [ensurePrimary, StoreCall.creates]
  | cons grouping groupings ih =>
    refine (ih (s.ensureOne grouping)).trans ?_
    rw [row?_ensureOne, Option.or_assoc]
    cases key with
    | primary key =>
      by_cases own : key = grouping.bytes
      · simp [StoreCall.creates, own]
      · simp [StoreCall.creates, own, Ne.symm own]
    | secondary branch key => simp [StoreCall.creates]

theorem row?_upsertSecondary (work : SecondaryWork) (updated : Instant) (key : RowKey) :
    (s.upsertSecondary work.branch work.grouping work.digests updated).row? key =
      ((s.row? key).or (if (StoreCall.upsertSecondary work updated).creates key then some .fresh
        else none)).map
        (.written none none ((StoreCall.upsertSecondary work updated).upload? key)) := by
  unfold upsertSecondary
  simp only
  cases key with
  | primary key =>
    split <;> simp [row?, StoreCall.creates, StoreCall.upload?, WorkRow.written_none]
  | secondary branch key =>
    split
    · rename_i present
      refine (find?_rewritten _ _ _ _ (.written none none
        ((StoreCall.upsertSecondary work updated).upload? (.secondary branch key))) ?_ ?_).trans
        (congrArg (Option.map _) ?_)
      · intro row; split <;> rfl
      · intro row own
        by_cases same : work.branch = branch ∧ work.grouping.bytes = key
        · obtain ⟨rfl, rfl⟩ := same
          simp [own, StoreCall.upload?, SecondaryRow.columns, WorkRow.written, Upload.columns]
        · simp [same, SecondaryRow.hasKey_other same own, StoreCall.upload?,
            SecondaryRow.columns, WorkRow.written]
      · by_cases same : work.branch = branch ∧ work.grouping.bytes = key
        · obtain ⟨rfl, rfl⟩ := same
          obtain ⟨row, found⟩ := Option.isSome_iff_exists.mp
            (List.find?_isSome.mpr (List.any_eq_true.mp present))
          simp [row?, found]
        · simp [row?, StoreCall.creates, same]
    · rename_i absent
      by_cases same : work.branch = branch ∧ work.grouping.bytes = key
      · obtain ⟨rfl, rfl⟩ := same
        have missing : s.secondary.find? (SecondaryRow.hasKey work.branch work.grouping.bytes) =
            none := by simpa [List.find?_eq_none] using absent
        simp [row?, missing, StoreCall.creates, StoreCall.upload?, SecondaryRow.hasKey,
          SecondaryRow.columns, WorkRow.written, WorkRow.fresh, Upload.columns]
      · simp [row?, same, StoreCall.creates, StoreCall.upload?, SecondaryRow.hasKey,
          WorkRow.written_none]

theorem row?_retireBranch (branch : String) (key : RowKey) :
    (s.retireBranch branch).2.row? key =
      if (StoreCall.retireBranch branch).retires key then none else s.row? key := by
  cases key with
  | primary key => simp [row?, retireBranch, StoreCall.retires]
  | secondary b key =>
    by_cases own : b = branch
    · simp +contextual [row?, retireBranch, StoreCall.retires, own, SecondaryRow.hasKey]
    · simp only [row?, retireBranch, StoreCall.retires, own, List.find?_filter]
      congr 2
      funext row
      by_cases mine : row.branch = b <;> simp [SecondaryRow.hasKey, mine, own]

end Rows

/-- A claim or a lease returns a row and writes its new lease, or it changes nothing. -/
theorem Reached.lease_cases {s : Store} (reached : s.Reached) {c : StoreCall} {now : Instant}
    {lease : Span} (asked : c.lease? = some (now, lease)) :
    (∃ key ends, leaseEnd now lease = .ok ends ∧ s.Leases c key ∧
      Grant s key now ends (s.perform c).2) ∨
    ((∀ key, ¬ s.Leases c key) ∧ (s.perform c).2 = s) := by
  cases won : c.leased? (s.perform c).1 with
  | some key =>
    obtain ⟨_, _, ends, own, granted, grant⟩ := grant_of_leases won
    cases asked.symm.trans own
    exact .inl ⟨key, ends, granted, won, grant⟩
  | none =>
    obtain ⟨calls, rfl⟩ := reached
    have followed : (Ledger.empty.follow empty calls).stored = empty.after calls :=
      Ledger.empty.stored_follow calls
    refine .inr ⟨?_, ?_⟩
    · intro key leased
      exact absurd (won.symm.trans leased) nofun
    · rw [← followed] at won ⊢
      rw [Ledger.stored_record, Ledger.record_of_none asked won]

theorem newLease?_of_leases {s : Store} {c : StoreCall} {now ends : Instant} {lease : Span}
    {own : RowKey} (asked : c.lease? = some (now, lease)) (granted : leaseEnd now lease = .ok ends)
    (won : s.Leases c own) (key : RowKey) :
    s.newLease? c key = if own = key then some ends else none := by
  have answered : c.leased? (s.perform c).1 = some own := won
  rw [newLease?, answered, asked, Option.bind_some, add?_of_leaseEnd granted]
  simp only [Option.some.injEq]

theorem newLease?_of_not_leases {s : Store} {c : StoreCall} {key : RowKey}
    (none : ¬ s.Leases c key) : s.newLease? c key = .none := if_neg none

theorem newLease?_of_none {s : Store} {c : StoreCall} (unasked : c.lease? = none) (key : RowKey) :
    s.newLease? c key = none := by
  apply newLease?_of_not_leases
  rw [Leases, StoreCall.leased?_of_none unasked]
  exact nofun

/-- What an operation makes of the row with a key. -/
theorem Reached.row?_perform {s : Store} (reached : s.Reached) (c : StoreCall) (key : RowKey) :
    (s.perform c).2.row? key =
      if c.retires key then none
      else ((s.row? key).or (if c.creates key then some .fresh else none)).map
        (.written (s.newLease? c key) (c.completion? key) (c.upload? key)) := by
  cases asked : c.lease? with
  | some asking =>
    obtain ⟨completion, upload, creates, retires⟩ := StoreCall.only_leases asked key
    rw [completion, upload, creates, retires]
    rcases reached.lease_cases asked with ⟨own, ends, granted, won, grant⟩ | ⟨none, same⟩
    · rw [grant.written, row?_setLease, newLease?_of_leases asked granted won]
      simp
    · rw [same, newLease?_of_not_leases (none key)]
      simp [WorkRow.written_none]
  | none =>
    rw [newLease?_of_none asked]
    cases c with
    | claimPrimary | claimOldest | claimRandom | leaseSecondary => cases asked
    | completePrimary grouping now =>
      refine (row?_completePrimary s grouping now key).trans ?_
      simp [StoreCall.retires, StoreCall.creates, StoreCall.upload?]
    | completeSecondary branch grouping now =>
      refine (row?_completeSecondary s branch grouping now key).trans ?_
      simp [StoreCall.retires, StoreCall.creates, StoreCall.upload?]
    | ensurePrimary groupings =>
      refine (row?_ensurePrimary s groupings key).trans ?_
      simp [StoreCall.retires, StoreCall.completion?, StoreCall.upload?, WorkRow.written_none]
    | upsertSecondary work updated => exact row?_upsertSecondary s work updated key
    | retireBranch branch =>
      refine (row?_retireBranch s branch key).trans ?_
      simp [StoreCall.creates, StoreCall.completion?, StoreCall.upload?, WorkRow.written_none]
    | putGrouping grouping params =>
      have same : (s.putGrouping grouping params).row? key = s.row? key := by
        unfold putGrouping
        cases key <;> split <;> rfl
      refine same.trans ?_
      simp [StoreCall.retires, StoreCall.creates, StoreCall.completion?, StoreCall.upload?,
        WorkRow.written_none]
    | groupingParams | primaryRow | secondaryRow | candidates =>
      refine Eq.trans (b := s.row? key) rfl ?_
      simp [StoreCall.retires, StoreCall.creates, StoreCall.completion?, StoreCall.upload?,
        WorkRow.written_none]

/-! Groupings, and the operations on missing keys. -/

theorem groupings_kept (s : Store) (c : StoreCall) :
    s.groupings <+: (s.perform c).2.groupings := by
  cases c with
  | putGrouping grouping params =>
    simp only [perform, putGrouping]
    split
    · exact List.prefix_rfl
    · exact List.prefix_append _ _
  | _ =>
    refine ⟨[], ?_⟩
    rw [List.append_nil, groupings_perform s fun _ => rfl]

theorem groupingParams_kept {s next : Store} (kept : s.groupings <+: next.groupings)
    {grouping : GroupingId} {params : Params}
    (stored : s.groupingParams grouping = .ok (some params)) :
    next.groupingParams grouping = .ok (some params) := by
  obtain ⟨more, same⟩ := kept
  unfold groupingParams at stored ⊢
  rw [← same, List.find?_append]
  cases found : s.groupings.find? fun row => row.key = grouping.bytes with
  | none => rw [found] at stored; cases stored
  | some row => rw [found] at stored; exact stored

theorem nodup_groupings_after (calls : List StoreCall) {s : Store}
    (unique : (s.groupings.map (·.key)).Nodup) : ((s.after calls).groupings.map (·.key)).Nodup := by
  induction calls generalizing s with
  | nil => exact unique
  | cons c calls ih =>
    apply ih
    cases c with
    | putGrouping grouping params =>
      simp only [perform, putGrouping]
      split
      · exact unique
      · rename_i absent
        rw [List.map_append]
        apply nodup_append_new unique
        intro present
        obtain ⟨row, member, same⟩ := List.mem_map.mp present
        exact absent (List.any_eq_true.mpr ⟨row, member, decide_eq_true same⟩)
    | _ => rwa [groupings_perform s fun _ => rfl]

theorem Reached.nodup_groupings {s : Store} (reached : s.Reached) :
    (s.groupings.map (·.key)).Nodup := by
  obtain ⟨calls, rfl⟩ := reached
  exact nodup_groupings_after calls List.nodup_nil

theorem primary_prefix_ensurePrimary (s : Store) (groupings : List GroupingId) :
    s.primary <+: (s.ensurePrimary groupings).primary := by
  induction groupings generalizing s with
  | nil => exact List.prefix_rfl
  | cons grouping groupings ih =>
    refine List.IsPrefix.trans ?_ (ih (s.ensureOne grouping))
    unfold ensureOne
    split
    · exact List.prefix_rfl
    · exact List.prefix_append _ _

theorem row?_of_leases {s : Store} {c : StoreCall} {key : RowKey} (won : s.Leases c key) :
    ∃ row, s.row? key = some row := by
  obtain ⟨_, _, _, _, _, grant⟩ := grant_of_leases won
  obtain ⟨_, member, _⟩ := grant.free
  rw [← Option.isSome_iff_exists]
  cases key with
  | primary key =>
    obtain ⟨row, found, _⟩ := List.mem_map.mp member
    obtain ⟨among, own⟩ := List.mem_filter.mp found
    rw [row?, Option.isSome_map, List.find?_isSome]
    exact ⟨row, among, own⟩
  | secondary branch key =>
    obtain ⟨row, found, _⟩ := List.mem_map.mp member
    obtain ⟨among, own⟩ := List.mem_filter.mp found
    rw [row?, Option.isSome_map, List.find?_isSome]
    exact ⟨row, among, own⟩

/-- A rewriting of the rows with a key that there are none of. -/
theorem map_missing {α : Type} {rows : List α} {own : α → Bool} (f : α → α)
    (missing : rows.find? own = none) : (rows.map fun row => if own row then f row else row) = rows := by
  rw [List.find?_eq_none] at missing
  refine Eq.trans (List.map_congr_left fun row member => ?_) (List.map_id rows)
  rw [if_neg (missing row member), id]

theorem complete_missing {s : Store} {c : StoreCall} {key : RowKey} {now : Instant}
    (missing : s.row? key = none) (completes : c.completion? key = some now) :
    (s.perform c).2 = s := by
  cases c with
  | completePrimary grouping moment =>
    cases key with
    | primary key =>
      obtain rfl : grouping.bytes = key := by
        by_contra other
        simp [StoreCall.completion?, other] at completes
      have same := map_missing (fun row => { row with calculated := moment.millis })
        (Option.map_eq_none_iff.mp missing)
      simp only [decide_eq_true_eq] at same
      simp only [perform, completePrimary, same]
    | secondary branch key => cases completes
  | completeSecondary own grouping moment =>
    cases key with
    | primary key => cases completes
    | secondary branch key =>
      obtain ⟨rfl, rfl⟩ : own = branch ∧ grouping.bytes = key := by
        by_contra other
        simp [StoreCall.completion?, other] at completes
      have same := map_missing (fun row => { row with calculated := moment.millis })
        (Option.map_eq_none_iff.mp missing)
      simp only [perform, completeSecondary, same]
  | _ => cases completes

theorem lease_missing {s : Store} {branch : String} {grouping : GroupingId} (now : Instant)
    (lease : Span) (missing : s.row? (.secondary branch grouping.bytes) = none) :
    (s.perform (.leaseSecondary branch grouping now lease)).2 = s := by
  have absent : s.secondary.find? (SecondaryRow.hasKey branch grouping.bytes) = none :=
    Option.map_eq_none_iff.mp missing
  simp only [perform, answering, leaseSecondary, absent]
  split <;> rfl

/-- The rows that an operation finds and that are not there after it are those of a retired
branch. -/
theorem Reached.removed_iff {s : Store} (reached : s.Reached) (c : StoreCall) {key : RowKey}
    {row : WorkRow} (before : s.row? key = some row) :
    (s.perform c).2.row? key = none ↔
      ∃ branch bytes, c = .retireBranch branch ∧ key = .secondary branch bytes := by
  rw [reached.row?_perform, before, Option.some_or, Option.map_some]
  constructor
  · intro gone
    split at gone
    · rename_i retires
      cases c with
      | retireBranch branch =>
        cases key with
        | primary key => cases retires
        | secondary own bytes =>
          obtain rfl : own = branch := of_decide_eq_true retires
          exact ⟨own, bytes, rfl, rfl⟩
      | _ => cases retires
    · cases gone
  · rintro ⟨branch, bytes, rfl, rfl⟩
    simp [StoreCall.retires]

theorem Reached.row?_added {s : Store} (reached : s.Reached) {c : StoreCall} {key : RowKey}
    {row : WorkRow} (before : s.row? key = none) (after : (s.perform c).2.row? key = some row) :
    c.creates key = true ∧ row.leaseEnds = beginning ∧ row.calculated = beginning := by
  rw [reached.row?_perform, before, Option.none_or] at after
  split at after
  · cases after
  · split at after
    · rename_i creates
      have unleased : ¬ s.Leases c key := by
        intro won
        obtain ⟨row, present⟩ := row?_of_leases won
        cases before.symm.trans present
      have uncompleted : c.completion? key = none := by
        by_contra completes
        obtain ⟨now, completes⟩ := Option.ne_none_iff_exists'.mp completes
        cases creates.symm.trans (StoreCall.only_completes completes).2.2.1
      cases after
      simp [WorkRow.written, WorkRow.fresh, newLease?_of_not_leases unleased, uncompleted, creates]
    · cases after

/-- How an operation takes a store to the next one: which columns of which rows it writes, and which
rows it adds and removes. -/
structure WritesOwn (s : Store) (c : StoreCall) (next : Store) : Prop where
  kept : ∀ key row later, s.row? key = some row → next.row? key = some later →
    (¬ s.Leases c key → later.leaseEnds = row.leaseEnds) ∧
    (c.completion? key = none → later.calculated = row.calculated) ∧
    (c.upload? key = none → later.upload? = row.upload?)
  leased : ∀ key, s.Leases c key → ∃ row now lease ends, s.row? key = some row ∧
    c.lease? = some (now, lease) ∧ leaseEnd now lease = .ok ends ∧
    next.row? key = some { row with leaseEnds := ends.millis }
  completed : ∀ key now, c.completion? key = some now →
    next.row? key = (s.row? key).map fun row => { row with calculated := now.millis }
  uploaded : ∀ key upload, c.upload? key = some upload →
    next.row? key = some { (s.row? key).getD .fresh with upload? := some upload.columns }
  added : ∀ key row, s.row? key = none → next.row? key = some row →
    c.creates key = true ∧ row.leaseEnds = beginning ∧ row.calculated = beginning
  removed : ∀ key row, s.row? key = some row →
    (next.row? key = none ↔ ∃ branch bytes, c = .retireBranch branch ∧
      key = .secondary branch bytes)
  retired : ∀ branch, c = .retireBranch branch → ∃ number,
    (s.perform c).1 = .ok (.removed number) ∧ number + next.secondary.length = s.secondary.length
  missing : ∀ key, s.row? key = none → (∀ now, c.completion? key = some now → next = s) ∧
    ∀ branch grouping now lease, c = .leaseSecondary branch grouping now lease →
      key = .secondary branch grouping.bytes → next = s
  ensured : ∀ groupings, c = .ensurePrimary groupings → s.primary <+: next.primary
  params : ∀ grouping params, s.groupingParams grouping = .ok (some params) →
    next.groupingParams grouping = .ok (some params)
  unique : (next.groupings.map (·.key)).Nodup ∧ (next.primary.map (·.key)).Nodup ∧
    (next.secondary.map secondaryKey).Nodup

theorem operations_write_own {s : Store} (reached : s.Reached) (c : StoreCall) :
    s.WritesOwn c (s.perform c).2 := by
  have keyed := (reached.perform c).keyed
  have written := reached.row?_perform c
  constructor
  case kept =>
    intro key row later before after
    rw [written, before, Option.some_or] at after
    split at after
    · cases after
    · cases after
      refine ⟨fun unleased => ?_, fun uncompleted => ?_, fun unchanged => ?_⟩
      · simp [WorkRow.written, newLease?_of_not_leases unleased]
      · simp [WorkRow.written, uncompleted]
      · simp [WorkRow.written, unchanged]
  case leased =>
    intro key won
    obtain ⟨row, before⟩ := row?_of_leases won
    obtain ⟨now, lease, ends, asked, granted, _⟩ := grant_of_leases won
    obtain ⟨completion, upload, _, retires⟩ := StoreCall.only_leases asked key
    refine ⟨row, now, lease, ends, before, asked, granted, ?_⟩
    rw [written, before, retires, completion, upload, newLease?_of_leases asked granted won]
    simp [WorkRow.written]
  case completed =>
    intro key now completes
    obtain ⟨unasked, upload, creates, retires⟩ := StoreCall.only_completes completes
    rw [written, retires, creates, completes, upload, newLease?_of_none unasked]
    cases s.row? key <;> simp [WorkRow.written]
  case uploaded =>
    intro key upload uploads
    obtain ⟨unasked, completion, creates, retires⟩ := StoreCall.only_uploads uploads
    rw [written, retires, creates, completion, uploads, newLease?_of_none unasked]
    cases s.row? key <;> simp [WorkRow.written]
  case added => exact fun key row before after => reached.row?_added before after
  case removed => exact fun key row before => reached.removed_iff c before
  case retired =>
    rintro branch rfl
    refine ⟨_, rfl, ?_⟩
    have parted := List.length_eq_length_filter_add (l := s.secondary)
      fun row => decide (row.branch = branch)
    simpa [perform, retireBranch, List.countP_eq_length_filter] using parted.symm
  case missing =>
    intro key absent
    refine ⟨fun now completes => complete_missing absent completes, ?_⟩
    rintro branch grouping now lease rfl rfl
    exact lease_missing now lease absent
  case ensured =>
    rintro groupings rfl
    exact primary_prefix_ensurePrimary s groupings
  case params => exact fun _ _ stored => groupingParams_kept (groupings_kept s c) stored
  case unique => exact ⟨(reached.perform c).nodup_groupings, keyed.primary, keyed.secondary⟩

/-- New digests for a row that was calculated and is leased keep both of these times. -/
theorem operations_write_own_upload :
    let s := empty.after [.upsertSecondary soleWork (.atMillis 1000),
      .leaseSecondary "review" soleGrouping (.atMillis 2000) (.ofSeconds 600),
      .completeSecondary "review" soleGrouping (.atMillis 3000)]
    s.row? (.secondary "review" soleGrouping.bytes) =
        some ⟨602000, 3000, some (Digest.encodeList [⟨"aa"⟩], 1000)⟩ ∧
      (s.perform (.upsertSecondary soleWork (.atMillis 4000))).2.row?
          (.secondary "review" soleGrouping.bytes) =
        some ⟨602000, 3000, some (Digest.encodeList [⟨"aa"⟩], 4000)⟩ := by
  intro s
  have before : s.row? (.secondary "review" soleGrouping.bytes) =
      some ⟨602000, 3000, some (Digest.encodeList [⟨"aa"⟩], 1000)⟩ := by decide +kernel
  have own := operations_write_own (s := s) ⟨_, rfl⟩
    (.upsertSecondary soleWork (.atMillis 4000))
  refine ⟨before, ?_⟩
  rw [own.uploaded _ ⟨[⟨"aa"⟩], .atMillis 4000⟩ rfl, before]
  rfl

end Store

end LeaseQueue
