import LeaseQueue.Proofs.Store.Uploads
/-! Uploads to a row that come after its completion, when all times are read from one clock. Both
times are kept in whole milliseconds: an upload is seen from the next millisecond on, and it is
hidden in that of the completion. -/
namespace LeaseQueue

namespace StoreCall

/-- The time that a caller has read for a call. -/
def reading? : StoreCall → Option Instant
  | .upsertSecondary _ updated => some updated
  | .claimPrimary now _ _ => some now
  | .completePrimary _ now => some now
  | .claimOldest now _ => some now
  | .claimRandom _ now _ => some now
  | .candidates now _ => some now
  | .leaseSecondary _ _ now _ => some now
  | .completeSecondary _ _ now => some now
  | _ => none

def completes (branch : String) (key : List UInt8) : StoreCall → Bool
  | .completeSecondary own grouping _ => own = branch ∧ grouping.bytes = key
  | _ => false

def uploads (branch : String) (key : List UInt8) : StoreCall → Bool
  | .upsertSecondary work _ => work.branch = branch ∧ work.grouping.bytes = key
  | _ => false

end StoreCall

/-- A call of a history, and what the shared clock shows when it is applied. -/
structure TimedCall where
  clock : Instant
  call : StoreCall

/-- The clock never goes back. Callers have read their times from it when their calls are applied,
and producers stamp an upload with the present time. -/
structure Clocked (history : List TimedCall) : Prop where
  forward : history.Pairwise fun earlier later => earlier.clock ≤ later.clock
  read : ∀ c ∈ history, ∀ time, c.call.reading? = some time → time ≤ c.clock
  stamped : ∀ c ∈ history, ∀ work updated, c.call = .upsertSecondary work updated →
    updated = c.clock

theorem Clocked.completed_le_updated {before between later : List TimedCall} {c u : TimedCall}
    {branch : String} {grouping : GroupingId} {work : SecondaryWork} {completed updated : Instant}
    (clocked : Clocked (before ++ c :: between ++ u :: later))
    (completes : c.call = .completeSecondary branch grouping completed)
    (uploads : u.call = .upsertSecondary work updated) : completed ≤ updated := by
  have order : c.clock ≤ u.clock := by
    have pairs := (List.pairwise_append.mp clocked.forward).2.2
    exact pairs c (by simp) u List.mem_cons_self
  have read : completed ≤ c.clock := clocked.read c (by simp) completed (by rw [completes]; rfl)
  rw [clocked.stamped u (by simp) work updated uploads]
  exact Int.le_trans read order

namespace Store

def history (calls : List TimedCall) : Store := empty.after (calls.map (·.call))

/-- The times of the last calculations of the rows with a key. -/
def calculations (s : Store) (branch : String) (key : List UInt8) : List Int :=
  (s.secondary.filter (SecondaryRow.hasKey branch key)).map (·.calculated)

/-- There are rows with this key, and they were calculated last at a time. -/
def CalculatedAt (s : Store) (branch : String) (key : List UInt8) (time : Int) : Prop :=
  s.calculations branch key ≠ [] ∧ ∀ calculated ∈ s.calculations branch key, calculated = time

theorem history_append (earlier later : List TimedCall) :
    history (earlier ++ later) = (history earlier).after (later.map (·.call)) := by
  unfold history
  rw [List.map_append, after_append]

theorem mem_calls {between later : List TimedCall} {u : TimedCall} {call : StoreCall}
    (member : call ∈ (between ++ u :: later).map (·.call)) :
    call = u.call ∨ ∃ d ∈ between ++ later, d.call = call := by
  obtain ⟨d, among, rfl⟩ := List.mem_map.mp member
  rcases List.mem_append.mp among with first | rest
  · exact .inr ⟨d, List.mem_append_left _ first, rfl⟩
  · rcases List.mem_cons.mp rest with rfl | last
    · exact .inl rfl
    · exact .inr ⟨d, List.mem_append_right _ last, rfl⟩

section Frames

variable (s : Store) {branch : String} {key : List UInt8}

theorem calculations_setLease (own : RowKey) (ends : Int) :
    (s.setLease own ends).calculations branch key = s.calculations branch key := by
  cases own with
  | primary k => rfl
  | secondary b k =>
    apply read_unchanged
    · intro row; split <;> rfl
    · intro row _; split <;> rfl

theorem calculations_completeSecondary_other (b : String) (grouping : GroupingId) (now : Instant)
    (other : ¬ (b = branch ∧ grouping.bytes = key)) :
    (s.completeSecondary b grouping now).calculations branch key = s.calculations branch key := by
  apply read_unchanged
  · intro row; split <;> rfl
  · intro row own
    rw [SecondaryRow.hasKey_other other own]
    rfl

theorem calculations_perform {c : StoreCall} (present : s.calculations branch key ≠ [])
    (uncompleted : c.completes branch key = false)
    (kept : c.retires (.secondary branch key) = false) :
    (s.perform c).2.calculations branch key = s.calculations branch key := by
  cases asked : c.lease? with
  | some asking =>
    rcases s.perform_grants asked with ⟨_, _, _, grant⟩ | same
    · rw [grant.written, calculations_setLease]
    · rw [same]
  | none =>
    cases c with
    | claimPrimary | claimOldest | claimRandom | leaseSecondary => cases asked
    | completePrimary | groupingParams | primaryRow | secondaryRow | candidates => rfl
    | completeSecondary b grouping now =>
      exact calculations_completeSecondary_other s b grouping now (of_decide_eq_false uncompleted)
    | ensurePrimary groupings =>
      simp only [perform, calculations, secondary_ensurePrimary]
    | upsertSecondary work updated =>
      exact read_upsertSecondary s (·.calculated) (fun _ _ _ => rfl) work.branch work.grouping
        work.digests updated present
    | retireBranch retired =>
      exact congrArg (List.map _) (filter_retireBranch s (of_decide_eq_false kept) key)
    | putGrouping grouping params =>
      simp only [perform, putGrouping]
      split <;> rfl

theorem uploads_perform {c : StoreCall} (unchanged : c.uploads branch key = false)
    (kept : c.retires (.secondary branch key) = false) :
    (s.perform c).2.uploads branch key = s.uploads branch key := by
  cases c with
  | claimPrimary | claimOldest | leaseSecondary | completePrimary | completeSecondary =>
    exact uploads_byUnit s branch key rfl
  | claimRandom choice now lease =>
    rcases s.perform_grants (c := .claimRandom choice now lease) rfl with ⟨_, _, _, grant⟩ | same
    · rw [grant.written, uploads_setLease]
    · rw [same]
  | groupingParams | primaryRow | secondaryRow | candidates => rfl
  | ensurePrimary groupings => simp only [perform, uploads, secondary_ensurePrimary]
  | upsertSecondary work updated =>
    exact uploads_upsertSecondary_other s branch key work.branch work.grouping work.digests updated
      (of_decide_eq_false unchanged)
  | retireBranch retired =>
    exact uploads_retireBranch s branch key retired (of_decide_eq_false kept)
  | putGrouping grouping params =>
    simp only [perform, putGrouping]
    split <;> rfl

end Frames

namespace CalculatedAt

variable {s : Store} {branch : String} {key : List UInt8} {time : Int}

theorem row {row : SecondaryRow} (calculated : s.CalculatedAt branch key time)
    (member : row ∈ s.secondary) (own : row.hasKey branch key = true) : row.calculated = time :=
  calculated.2 row.calculated (List.mem_map.mpr ⟨row, List.mem_filter.mpr ⟨member, own⟩, rfl⟩)

theorem after (calculated : s.CalculatedAt branch key time) {calls : List StoreCall}
    (uncompleted : ∀ c ∈ calls, c.completes branch key = false)
    (kept : ∀ c ∈ calls, c.retires (.secondary branch key) = false) :
    (s.after calls).CalculatedAt branch key time := by
  induction calls generalizing s with
  | nil => exact calculated
  | cons c calls ih =>
    have one := calculations_perform s calculated.1 (uncompleted c List.mem_cons_self)
      (kept c List.mem_cons_self)
    have next : (s.perform c).2.CalculatedAt branch key time := by
      rw [CalculatedAt, one]
      exact calculated
    exact ih next (fun d member => uncompleted d (List.mem_cons_of_mem _ member))
      (fun d member => kept d (List.mem_cons_of_mem _ member))

end CalculatedAt

theorem calculatedAt_completeSecondary {s : Store} {branch : String} {grouping : GroupingId}
    (present : ∃ row ∈ s.secondary, row.hasKey branch grouping.bytes = true) (now : Instant) :
    (s.completeSecondary branch grouping now).CalculatedAt branch grouping.bytes now.millis := by
  obtain ⟨row, member, own⟩ := present
  constructor
  · intro empty
    have completed : { row with calculated := now.millis } ∈
        (s.completeSecondary branch grouping now).secondary :=
      List.mem_map.mpr ⟨row, member, if_pos own⟩
    rw [calculations, List.map_eq_nil_iff, List.filter_eq_nil_iff] at empty
    exact empty _ completed own
  · intro calculated found
    obtain ⟨later, among, rfl⟩ := List.mem_map.mp found
    obtain ⟨inside, mine⟩ := List.mem_filter.mp among
    exact calculated_completeSecondary inside mine

theorem Carries.after {s : Store} {branch : String} {grouping : GroupingId} {upload : Upload}
    (carried : s.Carries branch grouping upload) {calls : List StoreCall}
    (unchanged : ∀ c ∈ calls, c.uploads branch grouping.bytes = false)
    (kept : ∀ c ∈ calls, c.retires (.secondary branch grouping.bytes) = false) :
    (s.after calls).Carries branch grouping upload := by
  induction calls generalizing s with
  | nil => exact carried
  | cons c calls ih =>
    have one := uploads_perform s (unchanged c List.mem_cons_self) (kept c List.mem_cons_self)
    exact ih (carried.of_uploads one) (fun d member => unchanged d (List.mem_cons_of_mem _ member))
      (fun d member => kept d (List.mem_cons_of_mem _ member))

/-- An upload to a row whose last completion came before it is seen if and only if its time lies in
a later millisecond. It is due then as soon as the lease of the row has ended, until the next
completion or upload or the end of the branch. -/
theorem later_upload_due_iff (before between later : List TimedCall) (c u : TimedCall)
    (branch : String) (grouping : GroupingId) (digests : List Digest) (completed updated : Instant)
    (clocked : Clocked (before ++ c :: between ++ u :: later))
    (completes : c.call = .completeSecondary branch grouping completed)
    (uploads : u.call = .upsertSecondary ⟨branch, grouping, digests⟩ updated)
    (filled : digests ≠ [])
    (present : ∃ row ∈ (history before).secondary, row.hasKey branch grouping.bytes = true)
    (uncompleted : ∀ d ∈ between ++ later, d.call.completes branch grouping.bytes = false)
    (kept : ∀ d ∈ between ++ later, d.call.retires (.secondary branch grouping.bytes) = false)
    (unchanged : ∀ d ∈ later, d.call.uploads branch grouping.bytes = false) :
    (∃ row ∈ (history (before ++ c :: between ++ u :: later)).secondary,
      row.hasKey branch grouping.bytes = true) ∧
    ∀ row ∈ (history (before ++ c :: between ++ u :: later)).secondary,
      row.hasKey branch grouping.bytes = true →
      row.digests = Digest.encodeList digests ∧
      (row.calculated < row.updated ↔ completed.millis ≠ updated.millis) ∧
      ∀ moment, row.isDue? moment = some true ↔
        row.leaseEnds < moment ∧ completed.millis ≠ updated.millis := by
  have order := Instant.millis_mono (clocked.completed_le_updated completes uploads)
  have calculated : (history (before ++ c :: between ++ u :: later)).CalculatedAt branch
      grouping.bytes completed.millis := by
    rw [List.append_assoc, List.cons_append, history_append, List.map_cons, after, completes]
    apply (calculatedAt_completeSecondary present completed).after
    · intro call member
      rcases mem_calls member with rfl | ⟨d, among, rfl⟩
      · rw [uploads]
        rfl
      · exact uncompleted d among
    · intro call member
      rcases mem_calls member with rfl | ⟨d, among, rfl⟩
      · rw [uploads]
        rfl
      · exact kept d among
  have carried : (history (before ++ c :: between ++ u :: later)).Carries branch grouping
      ⟨digests, updated⟩ := by
    rw [history_append, List.map_cons, after, uploads]
    apply (carries_upsertSecondary (history (before ++ c :: between)) branch grouping digests
      updated).after
    · intro call member
      obtain ⟨d, among, rfl⟩ := List.mem_map.mp member
      exact unchanged d among
    · intro call member
      obtain ⟨d, among, rfl⟩ := List.mem_map.mp member
      exact kept d (List.mem_append_right _ among)
  refine ⟨carried.exists_row, ?_⟩
  intro row member own
  obtain ⟨held, stamped⟩ : row.digests = Digest.encodeList digests ∧
      row.updated = updated.millis := carried.row member own
  have drift : row.calculated < row.updated ↔ completed.millis ≠ updated.millis := by
    rw [calculated.row member own, stamped]
    omega
  refine ⟨held, drift, ?_⟩
  intro moment
  rw [SecondaryRow.isDue?_of_filled held filled, drift]

/-- A row that is leased, and then its completion. -/
def leasedRow : List TimedCall :=
  [⟨.atMillis 1000, .upsertSecondary soleWork (.atMillis 1000)⟩,
    ⟨.atMillis 100000, .claimOldest (.atMillis 100000) (.ofSeconds 600)⟩]

def soleCompletion : TimedCall :=
  ⟨.atMillis 200000, .completeSecondary "review" soleGrouping (.atMillis 200000)⟩

/-- New digests for the row. -/
def uploadAt (clock : Instant) : TimedCall :=
  ⟨clock, .upsertSecondary { soleWork with digests := [⟨"bb"⟩] } clock⟩

theorem clocked_uploadAt {clock : Instant} (after : .atMillis 200000 ≤ clock) :
    Clocked (leasedRow ++ soleCompletion :: [] ++ uploadAt clock :: []) := by
  have early : .atMillis 1000 ≤ clock := Int.le_trans (by decide) after
  have middle : .atMillis 100000 ≤ clock := Int.le_trans (by decide) after
  constructor
  · have first : Instant.atMillis 1000 ≤ .atMillis 100000 := by decide
    have second : Instant.atMillis 1000 ≤ .atMillis 200000 := by decide
    have third : Instant.atMillis 100000 ≤ .atMillis 200000 := by decide
    simp [leasedRow, soleCompletion, uploadAt, first, second, third, early, middle, after]
  · intro c member time read
    simp only [leasedRow, soleCompletion, uploadAt, List.cons_append, List.nil_append,
      List.mem_cons, List.not_mem_nil, or_false] at member
    rcases member with rfl | rfl | rfl | rfl
    all_goals
      cases Option.some.inj read
      exact Int.le_refl _
  · intro c member work updated stamp
    simp only [leasedRow, soleCompletion, uploadAt, List.cons_append, List.nil_append,
      List.mem_cons, List.not_mem_nil, or_false] at member
    rcases member with rfl | rfl | rfl | rfl
    all_goals
      cases stamp <;> rfl

/-- A millisecond after the completion new digests are seen. -/
theorem later_upload_due_next_millisecond :
    Clocked (leasedRow ++ soleCompletion :: [] ++ uploadAt (.atMillis 200001) :: []) ∧
    (∃ row ∈ (history leasedRow).secondary, row.hasKey "review" soleGrouping.bytes = true) ∧
    ∃ row ∈ (history (leasedRow ++ soleCompletion :: [] ++
        uploadAt (.atMillis 200001) :: [])).secondary, row.calculated < row.updated := by
  have clocked : Clocked (leasedRow ++ soleCompletion :: [] ++ uploadAt (.atMillis 200001) :: []) :=
    clocked_uploadAt (by decide)
  have present : ∃ row ∈ (history leasedRow).secondary,
      row.hasKey "review" soleGrouping.bytes = true := by
    refine ⟨⟨"review", soleGrouping.bytes, Digest.encodeList [⟨"aa"⟩], 1000, 0, 700000⟩, ?_, ?_⟩
    · decide +kernel
    · decide +kernel
  obtain ⟨⟨row, member, own⟩, rows⟩ := later_upload_due_iff leasedRow [] [] soleCompletion
    (uploadAt (.atMillis 200001)) "review" soleGrouping [⟨"bb"⟩] (.atMillis 200000)
    (.atMillis 200001) clocked rfl rfl (List.cons_ne_nil _ _) present (List.forall_mem_nil _)
    (List.forall_mem_nil _) (List.forall_mem_nil _)
  exact ⟨clocked, present, row, member, (rows row member own).2.1.mpr (by decide)⟩

def hiddenUpload : List TimedCall :=
  leasedRow ++ soleCompletion :: [] ++ uploadAt ⟨200000000001, by decide, by decide⟩ :: []

/-- A nanosecond after the completion they are not, and no claim after the lease finds them. -/
theorem upload_hidden_in_completion_millisecond :
    Clocked hiddenUpload ∧
    (history hiddenUpload).secondary =
      [⟨"review", soleGrouping.bytes, Digest.encodeList [⟨"bb"⟩], 200000, 200000, 700000⟩] ∧
    ((history hiddenUpload).claimOldest (.atMillis 700001) (.ofSeconds 600)).1 = .ok none := by
  refine ⟨clocked_uploadAt (by decide), ?_, ?_⟩
  · decide +kernel
  · decide +kernel

end Store

end LeaseQueue
