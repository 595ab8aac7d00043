import LeaseQueue.Store.Call
/-! Runs of store operations, and what they do to the ends of leases. A lease is written only where
a row's lease has ended, so along a run a row's lease ends never earlier, until its branch is
retired. -/
namespace LeaseQueue

/-- The key of a row of one of the two queues. -/
inductive RowKey where
  | primary (key : List UInt8)
  | secondary (branch : String) (key : List UInt8)
deriving DecidableEq

namespace StoreCall

/-- The moment and the length of the lease that a call asks for. -/
def lease? : StoreCall → Option (Instant × Span)
  | .claimPrimary now _ lease => some (now, lease)
  | .claimOldest now lease => some (now, lease)
  | .claimRandom _ now lease => some (now, lease)
  | .leaseSecondary _ _ now lease => some (now, lease)
  | _ => none

/-- The row that a call leased, by its answer. -/
def leased? : StoreCall → Except StoreError StoreAnswer → Option RowKey
  | .claimPrimary _ _ _, .ok (.primaryWork (some grouping)) => some (.primary grouping.bytes)
  | .claimOldest _ _, .ok (.secondaryWork (some work)) =>
    some (.secondary work.branch work.grouping.bytes)
  | .claimRandom _ _ _, .ok (.secondaryWork (some work)) =>
    some (.secondary work.branch work.grouping.bytes)
  | .leaseSecondary branch grouping _ _, .ok (.digests (some _)) =>
    some (.secondary branch grouping.bytes)
  | _, _ => none

/-- Whether a call removes the row with a key. -/
def retires : StoreCall → RowKey → Bool
  | .retireBranch retired, .secondary branch _ => branch = retired
  | _, _ => false

/-- The calls that units of work make. They add no rows and remove none. -/
def byUnit : StoreCall → Bool
  | .claimPrimary _ _ _ => true
  | .claimOldest _ _ => true
  | .leaseSecondary _ _ _ _ => true
  | .completePrimary _ _ => true
  | .completeSecondary _ _ _ => true
  | _ => false

theorem retires_byUnit {c : StoreCall} (own : c.byUnit = true) (key : RowKey) :
    c.retires key = false := by
  cases c <;> first | rfl | cases own

/-- No lease that a call asks for has a negative length. -/
def LeasesForward (c : StoreCall) : Prop :=
  ∀ now lease, c.lease? = some (now, lease) → 0 ≤ lease.nanos

theorem leasesForward_of_none {c : StoreCall} (none : c.lease? = none) : c.LeasesForward := by
  intro now lease asked
  rw [none] at asked
  cases asked

end StoreCall

namespace Store

def soleGrouping : GroupingId := ⟨List.replicate 16 1, rfl⟩

def soleWork : SecondaryWork := ⟨"review", soleGrouping, [⟨"aa"⟩]⟩

def after (s : Store) : List StoreCall → Store
  | [] => s
  | c :: cs => (s.perform c).2.after cs

/-- The ends of the leases of the rows with a key: one at most, as long as keys are unique. -/
def leases (s : Store) : RowKey → List Int
  | .primary key => (s.primary.filter fun row => row.key = key).map (·.leaseEnds)
  | .secondary branch key => (s.secondary.filter (SecondaryRow.hasKey branch key)).map (·.leaseEnds)

def leaseEnds? (s : Store) (key : RowKey) : Option Int := (s.leases key).head?

/-- There are rows with this key, and their leases end at `bound` or later. -/
def LeasedTo (s : Store) (key : RowKey) (bound : Int) : Prop :=
  s.leases key ≠ [] ∧ ∀ ends ∈ s.leases key, bound ≤ ends

def Leases (s : Store) (c : StoreCall) (key : RowKey) : Prop :=
  c.leased? (s.perform c).1 = some key

theorem after_append (s : Store) (cs ds : List StoreCall) :
    s.after (cs ++ ds) = (s.after cs).after ds := by
  induction cs generalizing s with
  | nil => rfl
  | cons c cs ih => exact ih (s.perform c).2

def setLease (s : Store) : RowKey → Int → Store
  | .primary key, ends => s.setPrimaryLease key ends
  | .secondary branch key, ends => s.setSecondaryLease branch key ends

/-- A rewriting of rows that changes neither keys nor what is read of the rows with a key. -/
theorem read_unchanged {α β : Type} (rows : List α) (f : α → α) (own : α → Bool) (read : α → β)
    (keys : ∀ row, own (f row) = own row) (same : ∀ row, own row = true → read (f row) = read row) :
    ((rows.map f).filter own).map read = (rows.filter own).map read := by
  have keys' : own ∘ f = own := funext keys
  rw [List.filter_map, List.map_map, keys']
  exact List.map_congr_left fun row member => same row (List.mem_filter.mp member).2

theorem leases_setPrimaryLease (s : Store) (key : List UInt8) (ends : Int) (other : RowKey) :
    (s.setPrimaryLease key ends).leases other =
      if other = .primary key then (s.leases other).map fun _ => ends else s.leases other := by
  cases other with
  | secondary branch k => rfl
  | primary k =>
    have keys : (fun row : PrimaryRow => decide (row.key = k)) ∘
        (fun row => if row.key = key then { row with leaseEnds := ends } else row) =
        fun row => decide (row.key = k) := by
      funext row
      simp only [Function.comp_apply]
      split <;> rfl
    simp only [setPrimaryLease, leases, List.filter_map, keys, List.map_map, RowKey.primary.injEq]
    split
    · rename_i same
      apply List.map_congr_left
      intro row member
      have rowKey : row.key = key := by simpa [same] using (List.mem_filter.mp member).2
      simp [rowKey]
    · rename_i different
      apply List.map_congr_left
      intro row member
      have rowKey : row.key ≠ key := by
        have eq : row.key = k := by simpa using (List.mem_filter.mp member).2
        exact eq ▸ different
      simp [rowKey]

theorem leases_setSecondaryLease (s : Store) (branch : String) (key : List UInt8) (ends : Int)
    (other : RowKey) :
    (s.setSecondaryLease branch key ends).leases other =
      if other = .secondary branch key then (s.leases other).map fun _ => ends
      else s.leases other := by
  cases other with
  | primary k => rfl
  | secondary b k =>
    have keys : SecondaryRow.hasKey b k ∘
        (fun row => if row.hasKey branch key then { row with leaseEnds := ends } else row) =
        SecondaryRow.hasKey b k := by
      funext row
      simp only [Function.comp_apply]
      split <;> rfl
    simp only [setSecondaryLease, leases, List.filter_map, keys, List.map_map,
      RowKey.secondary.injEq]
    split
    · rename_i same
      apply List.map_congr_left
      intro row member
      have rowKey : row.hasKey branch key = true := by
        rw [← same.1, ← same.2]; exact (List.mem_filter.mp member).2
      simp [rowKey]
    · rename_i different
      apply List.map_congr_left
      intro row member
      have rowKey : row.hasKey branch key = false := by
        have own := (List.mem_filter.mp member).2
        simp only [SecondaryRow.hasKey, Bool.and_eq_true, decide_eq_true_eq] at own
        simp only [SecondaryRow.hasKey, own, Bool.and_eq_false_iff, decide_eq_false_iff_not]
        exact Decidable.not_and_iff_or_not.mp different
      simp [rowKey]

theorem leases_setLease (s : Store) (key : RowKey) (ends : Int) (other : RowKey) :
    (s.setLease key ends).leases other =
      if other = key then (s.leases other).map fun _ => ends else s.leases other := by
  cases key with
  | primary key => exact leases_setPrimaryLease s key ends other
  | secondary branch key => exact leases_setSecondaryLease s branch key ends other

theorem leases_completePrimary (s : Store) (grouping : GroupingId) (now : Instant) (key : RowKey) :
    (s.completePrimary grouping now).leases key = s.leases key := by
  cases key with
  | secondary branch k => rfl
  | primary k =>
    apply read_unchanged
    · intro row; split <;> rfl
    · intro row _; split <;> rfl

theorem leases_completeSecondary (s : Store) (branch : String) (grouping : GroupingId)
    (now : Instant) (key : RowKey) :
    (s.completeSecondary branch grouping now).leases key = s.leases key := by
  cases key with
  | primary k => rfl
  | secondary b k =>
    apply read_unchanged
    · intro row; split <;> rfl
    · intro row _; split <;> rfl

theorem leases_ensureOne (s : Store) (grouping : GroupingId) (key : RowKey)
    (present : s.leases key ≠ []) : (s.ensureOne grouping).leases key = s.leases key := by
  unfold ensureOne
  split
  · rfl
  · rename_i absent
    cases key with
    | secondary branch k => rfl
    | primary k =>
      have different : grouping.bytes ≠ k := by
        rintro rfl
        apply present
        simpa [leases, List.filter_eq_nil_iff] using absent
      simp [leases, List.filter_append, different]

theorem leases_ensurePrimary (s : Store) (groupings : List GroupingId) (key : RowKey)
    (present : s.leases key ≠ []) : (s.ensurePrimary groupings).leases key = s.leases key := by
  induction groupings generalizing s with
  | nil => rfl
  | cons grouping groupings ih =>
    have one := leases_ensureOne s grouping key present
    exact (ih (s.ensureOne grouping) (one ▸ present)).trans one

/-- New digests change nothing else of the rows that are there. -/
theorem read_upsertSecondary {β : Type} (s : Store) (read : SecondaryRow → β)
    (ignored : ∀ row digests updated, read { row with digests, updated } = read row)
    (b : String) (grouping : GroupingId) (digests : List Digest) (updated : Instant)
    {branch : String} {key : List UInt8}
    (present : (s.secondary.filter (SecondaryRow.hasKey branch key)).map read ≠ []) :
    ((s.upsertSecondary b grouping digests updated).secondary.filter
        (SecondaryRow.hasKey branch key)).map read =
      (s.secondary.filter (SecondaryRow.hasKey branch key)).map read := by
  unfold upsertSecondary
  simp only
  split
  · apply read_unchanged
    · intro row; split <;> rfl
    · intro row _
      split
      · exact ignored row _ _
      · rfl
  · rename_i absent
    have different : ¬ (b = branch ∧ grouping.bytes = key) := by
      rintro ⟨rfl, rfl⟩
      apply present
      simpa [List.filter_eq_nil_iff] using absent
    simp [List.filter_append, SecondaryRow.hasKey, different]

theorem leases_upsertSecondary (s : Store) (branch : String) (grouping : GroupingId)
    (digests : List Digest) (updated : Instant) (key : RowKey) (present : s.leases key ≠ []) :
    (s.upsertSecondary branch grouping digests updated).leases key = s.leases key := by
  cases key with
  | primary k => unfold upsertSecondary; simp only; split <;> rfl
  | secondary b k =>
    exact read_upsertSecondary s (·.leaseEnds) (fun _ _ _ => rfl) branch grouping digests updated
      present

/-- A branch that is retired leaves the rows of other branches. -/
theorem filter_retireBranch (s : Store) {branch retired : String} (other : branch ≠ retired)
    (key : List UInt8) :
    (s.retireBranch retired).2.secondary.filter (SecondaryRow.hasKey branch key) =
      s.secondary.filter (SecondaryRow.hasKey branch key) := by
  simp only [retireBranch, List.filter_filter]
  congr 1
  funext row
  by_cases own : row.branch = branch
  · simp [own, other]
  · simp [SecondaryRow.hasKey, own]

theorem leases_retireBranch (s : Store) (branch : String) (key : RowKey)
    (kept : (StoreCall.retireBranch branch).retires key = false) :
    (s.retireBranch branch).2.leases key = s.leases key := by
  cases key with
  | primary k => rfl
  | secondary b k =>
    have other : b ≠ branch := by simpa [StoreCall.retires] using kept
    exact congrArg (List.map (·.leaseEnds)) (filter_retireBranch s other k)

/-- A step that leases the row with a key until `ends`, its earlier lease having ended by `now`. -/
structure Grant (s : Store) (key : RowKey) (now ends : Instant) (next : Store) : Prop where
  free : ∃ earlier ∈ s.leases key, earlier < now.millis
  written : next = s.setLease key ends.millis

namespace Grant

variable {s next : Store} {key : RowKey} {now ends : Instant}

theorem leasedTo (grant : Grant s key now ends next) : next.LeasedTo key ends.millis := by
  obtain ⟨earlier, member, _⟩ := grant.free
  have leases : next.leases key = (s.leases key).map fun _ => ends.millis := by
    rw [grant.written, leases_setLease, if_pos rfl]
  constructor
  · intro empty
    rw [leases, List.map_eq_nil_iff] at empty
    rw [empty] at member
    cases member
  · intro e he
    rw [leases] at he
    obtain ⟨_, _, rfl⟩ := List.mem_map.mp he
    exact Int.le_refl _

/-- A row that is leased to a bound is free again only after it. -/
theorem bound_lt {bound : Int} (grant : Grant s key now ends next)
    (held : s.LeasedTo key bound) : bound < now.millis := by
  obtain ⟨earlier, member, ended⟩ := grant.free
  exact Int.lt_of_le_of_lt (held.2 earlier member) ended

theorem keeps {bound : Int} {other : RowKey} (grant : Grant s key now ends next)
    (forward : now.millis ≤ ends.millis) (held : s.LeasedTo other bound) :
    next.LeasedTo other bound := by
  by_cases own : other = key
  · subst own
    have later := grant.bound_lt held
    have own := grant.leasedTo
    exact ⟨own.1, fun e he => Int.le_trans (by omega) (own.2 e he)⟩
  · have same : next.leases other = s.leases other := by
      rw [grant.written, leases_setLease, if_neg own]
    rw [LeasedTo, same]
    exact held

end Grant

end Store

end LeaseQueue
