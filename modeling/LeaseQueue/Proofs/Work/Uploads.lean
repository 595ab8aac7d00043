import LeaseQueue.Proofs.Store.Uploads
import LeaseQueue.Proofs.Work.Steps
/-! Uploads that reach a row while it is calculated. A completion is recorded with the time read
after the calculation, so it hides every upload up to that time, also those that the unit never
saw. -/
namespace LeaseQueue

/-- The last upload to a row, unless its branch was retired after it. -/
def lastUpload? (branch : String) (grouping : GroupingId) : List Deed → Option Upload
  | [] => none
  | .uploaded work updated :: log =>
    if work.branch = branch ∧ work.grouping = grouping then some ⟨work.digests, updated⟩
    else lastUpload? branch grouping log
  | .retired retired :: log =>
    if branch = retired then none else lastUpload? branch grouping log
  | .claimed _ _ :: log => lastUpload? branch grouping log

namespace Stage

variable (settings : ClaimerSettings) (kind : ClaimKind) (choice : Nat)
  (answer : Except DiffError Unit) (w : World)

theorem uploads_step (stage : Stage) (branch : String) (key : List UInt8) :
    (step settings kind choice answer w stage).2.store.uploads branch key =
      w.store.uploads branch key := by
  rcases store_step settings kind choice answer w stage with same | ⟨c, own, _, call⟩
  · rw [same]
  · rw [call, Store.uploads_byUnit w.store branch key own]

end Stage

namespace Fleet

variable {f : Fleet}

/-! Rows hold what was uploaded to them last. -/

def Carried (f : Fleet) : Prop :=
  ∀ branch grouping upload, lastUpload? branch grouping f.log = some upload →
    f.world.store.Carries branch grouping upload

theorem carried_idle (world : World) : (idle world).Carried := by
  intro branch grouping upload last
  cases last

theorem Carried.of_uploads {g : Fleet} (carried : f.Carried)
    (log : ∀ branch grouping, lastUpload? branch grouping g.log = lastUpload? branch grouping f.log)
    (same : ∀ branch key, g.world.store.uploads branch key = f.world.store.uploads branch key) :
    g.Carried := by
  intro branch grouping upload last
  rw [log] at last
  exact (carried branch grouping upload last).of_uploads (same branch grouping.bytes)

theorem Carried.fail (carried : f.Carried) (i : Nat) (cause : ClaimError) :
    (f.fail i cause).Carried := by
  unfold Fleet.fail
  split
  · exact carried
  · exact carried.of_uploads (fun _ _ => rfl) fun _ _ => rfl

theorem Carried.move (carried : f.Carried) (i choice : Nat) (answer : Except DiffError Unit)
    (cache : GroupingCache) : (f.move i choice answer cache).Carried := by
  unfold Fleet.move
  split
  · exact carried
  · rename_i u found
    split
    · exact carried
    · have uploads :=
        Stage.uploads_step u.settings u.kind choice answer { f.world with cache } u.stage
      simp only [Fleet.enter]
      split
      · exact carried.of_uploads (fun _ _ => rfl) uploads
      · exact carried.of_uploads (fun _ _ => rfl) uploads

theorem Carried.ensurePrimary (carried : f.Carried) (groupings : List GroupingId) :
    (f.produce (.ensurePrimary groupings)).Carried := by
  refine carried.of_uploads (fun _ _ => rfl) ?_
  intro branch key
  simp only [produce, Store.perform, Store.uploads, Store.secondary_ensurePrimary]

theorem Carried.putGrouping (carried : f.Carried) (grouping : GroupingId) (params : Params) :
    (f.produce (.putGrouping grouping params)).Carried := by
  refine carried.of_uploads (fun _ _ => rfl) ?_
  intro branch key
  simp only [produce, Store.perform, Store.putGrouping]
  split <;> rfl

theorem Carried.upload (carried : f.Carried) (work : SecondaryWork) (updated : Instant) :
    (f.step (.upload work updated)).Carried := by
  intro branch grouping upload last
  simp only [step, note, produce, lastUpload?] at last
  split at last
  · rename_i own
    obtain ⟨rfl, rfl⟩ := own
    cases last
    exact Store.carries_upsertSecondary f.world.store work.branch work.grouping work.digests updated
  · rename_i other
    rw [← GroupingId.bytes_inj] at other
    exact (carried branch grouping upload last).of_uploads
      (Store.uploads_upsertSecondary_other f.world.store branch grouping.bytes work.branch
        work.grouping work.digests updated other)

theorem Carried.retire (carried : f.Carried) (retired : String) :
    (f.step (.retire retired)).Carried := by
  intro branch grouping upload last
  simp only [step, note, produce, lastUpload?] at last
  split at last
  · cases last
  · rename_i other
    exact (carried branch grouping upload last).of_uploads
      (Store.uploads_retireBranch f.world.store branch grouping.bytes retired other)

theorem Carried.step (carried : f.Carried) (event : FleetEvent) : (f.step event).Carried := by
  cases event with
  | pass time => exact carried.of_uploads (fun _ _ => rfl) fun _ _ => rfl
  | start settings kind => exact carried.of_uploads (fun _ _ => rfl) fun _ _ => rfl
  | move i choice answer cache => exact carried.move i choice answer cache
  | fail i cause => exact carried.fail i cause
  | putGrouping grouping params => exact carried.putGrouping grouping params
  | ensurePrimary groupings => exact carried.ensurePrimary groupings
  | upload work updated => exact carried.upload work updated
  | retire branch => exact carried.retire branch

theorem Carried.run (carried : f.Carried) (events : List FleetEvent) : (f.run events).Carried := by
  induction events generalizing f with
  | nil => exact carried
  | cons event events ih => exact ih (carried.step event)

/-! A unit that has not read the time for its completion reads a later one. -/

/-- The clock stands at `time` or later, and so does all that a unit reads for its completion. -/
structure ReadsAfter (f : Fleet) (time : Instant) (i : Nat) : Prop where
  clock : time ≤ f.world.clock
  read (u : UnitOfWork) (work : ClaimedWork) (now : Instant) :
    f.units[i]? = some u → u.stage.completion? = some (work, now) → time ≤ now

theorem ReadsAfter.move {time : Instant} {i : Nat} (after : f.ReadsAfter time i) (j choice : Nat)
    (answer : Except DiffError Unit) (cache : GroupingCache) :
    (f.move j choice answer cache).ReadsAfter time i := by
  unfold Fleet.move
  split
  · exact after
  · rename_i u found
    split
    · exact after
    · have clock := Stage.clock_step u.settings u.kind choice answer { f.world with cache } u.stage
      have follows :=
        Stage.step_follows u.settings u.kind choice answer { f.world with cache } u.stage
      constructor
      · rw [world_enter, clock]
        exact after.clock
      · intro v work now foundLater reads
        rcases units_enter foundLater with same | before
        · rw [same] at reads
          rw [follows.completion reads]
          exact after.clock
        · exact after.read v work now before reads

theorem ReadsAfter.start {time : Instant} {i : Nat} (after : f.ReadsAfter time i)
    (settings : ClaimerSettings) (kind : ClaimKind) :
    (f.start settings kind).ReadsAfter time i := by
  refine ⟨after.clock, ?_⟩
  intro u work now found reads
  rcases units_start found with before | rfl
  · exact after.read u work now before reads
  · cases reads

theorem ReadsAfter.fail {time : Instant} {i : Nat} (after : f.ReadsAfter time i) (j : Nat)
    (cause : ClaimError) : (f.fail j cause).ReadsAfter time i := by
  constructor
  · unfold Fleet.fail
    split <;> exact after.clock
  · intro u work now found reads
    rcases units_fail found with before | ⟨_, _, rfl⟩
    · exact after.read u work now before reads
    · cases reads

theorem ReadsAfter.step {time : Instant} {i : Nat} (after : f.ReadsAfter time i)
    (event : FleetEvent) : (f.step event).ReadsAfter time i := by
  cases event with
  | pass length =>
    have forward := f.world.clock.le_addOrLatest (d := ⟨length.nanos⟩) (Int.natCast_nonneg _)
    exact ⟨Int.le_trans after.clock forward, after.read⟩
  | start settings kind => exact after.start settings kind
  | move j choice answer cache => exact after.move j choice answer cache
  | fail j cause => exact after.fail j cause
  | putGrouping | ensurePrimary | upload | retire => exact ⟨after.clock, after.read⟩

theorem ReadsAfter.run {time : Instant} {i : Nat} (after : f.ReadsAfter time i)
    (events : List FleetEvent) : (f.run events).ReadsAfter time i := by
  induction events generalizing f with
  | nil => exact after
  | cons event events ih => exact ih (after.step event)

theorem store_completion {i choice : Nat} {answer : Except DiffError Unit} {cache : GroupingCache}
    {work : ClaimedWork} {now : Instant} {branch : String}
    (next : f.completing? i = some (work, now)) (own : work.branch = some branch) :
    (f.step (.move i choice answer cache)).world.store =
      f.world.store.completeSecondary branch work.grouping now := by
  obtain ⟨u, found, running, completing⟩ := completing?_eq_some next
  simp only [step, Fleet.move, found, running, Bool.false_eq_true, if_false, completing]
  rw [world_enter]
  simp only [Stage.step, Stage.complete, own]

/-- Right after a unit has completed a row, digests that were uploaded to it last can still be
claimed if and only if their time lies in a later millisecond than the one that the unit read after
its calculation. An upload from before that reading is never claimed. -/
theorem upload_claimable_iff (world : World) (events : List FleetEvent) (i choice : Nat)
    (answer : Except DiffError Unit) (cache : GroupingCache) (work : ClaimedWork) (now : Instant)
    (branch : String) (upload : Upload)
    (next : ((idle world).run events).completing? i = some (work, now))
    (own : work.branch = some branch)
    (last : lastUpload? branch work.grouping ((idle world).run events).log = some upload)
    (filled : upload.digests ≠ []) :
    (∃ row ∈ (((idle world).run events).step (.move i choice answer cache)).world.store.secondary,
      row.hasKey branch work.grouping.bytes = true) ∧
    ∀ row ∈ (((idle world).run events).step (.move i choice answer cache)).world.store.secondary,
      row.hasKey branch work.grouping.bytes = true →
      row.digests = Digest.encodeList upload.digests ∧
      (row.calculated < row.updated ↔ now.millis < upload.updated.millis) ∧
      (∀ moment, row.isDue? moment = some true ↔
        row.leaseEnds < moment ∧ now.millis < upload.updated.millis) ∧
      (∀ earlier later, events = earlier ++ later →
        upload.updated ≤ ((idle world).run earlier).world.clock →
        (∀ u, ((idle world).run earlier).units[i]? = some u → u.stage.completion? = none) →
        ¬ row.calculated < row.updated) := by
  have carried := (carried_idle world).run events branch work.grouping upload last
  rw [store_completion next own]
  have held : (((idle world).run events).world.store.completeSecondary branch work.grouping
      now).Carries branch work.grouping upload :=
    carried.of_uploads (Store.uploads_completeSecondary _ _ _ _ _ _)
  refine ⟨held.exists_row, ?_⟩
  intro row member mine
  obtain ⟨digests, updated⟩ := held.row member mine
  have calculated := Store.calculated_completeSecondary member mine
  rw [calculated, updated]
  refine ⟨digests, Iff.rfl, ?_, ?_⟩
  · intro moment
    rw [SecondaryRow.isDue?_of_filled digests filled, calculated, updated]
  · rintro earlier later rfl before unread
    have after : ((idle world).run earlier).ReadsAfter upload.updated i := by
      refine ⟨before, ?_⟩
      intro u own now found reads
      cases (unread u found).symm.trans reads
    have read := after.run later
    rw [← run_append] at read
    obtain ⟨u, found, _, completing⟩ := completing?_eq_some next
    have late : upload.updated ≤ now := by
      apply read.read u work now found
      rw [completing]
      rfl
    exact Int.not_lt.mpr (Instant.millis_mono late)

/-- A worker has claimed a row with one digest and calculates it. -/
def soleCalculation : List FleetEvent :=
  [.upload Store.soleWork (.atMillis 1000), .pass (.ofSeconds 100),
    .start .default (.secondary .low), .move 0 0 (.ok ()) soleWorld.cache,
    .move 0 0 (.ok ()) soleWorld.cache, .move 0 0 (.ok ()) soleWorld.cache]

/-- Other digests for the same row, stamped when the clock shows it. -/
def newUpload : FleetEvent :=
  .upload { Store.soleWork with digests := [⟨"bb"⟩] } (.atMillis 101000)

/-- The new digests come after the unit has read the time for its completion. -/
def uploadAfterReading : List FleetEvent :=
  soleCalculation ++ [.move 0 0 (.ok ()) soleWorld.cache, .move 0 0 (.ok ()) soleWorld.cache,
    .pass (.ofSeconds 1), newUpload]

theorem upload_claimable_after_reading :
    ((idle soleWorld).run uploadAfterReading).completing? 0 =
      some (⟨some "review", Store.soleGrouping, [⟨"aa"⟩]⟩, .atMillis 100000) ∧
    lastUpload? "review" Store.soleGrouping ((idle soleWorld).run uploadAfterReading).log =
      some ⟨[⟨"bb"⟩], .atMillis 101000⟩ ∧
    ∃ row ∈ (((idle soleWorld).run uploadAfterReading).step
        (.move 0 0 (.ok ()) soleWorld.cache)).world.store.secondary,
      row.calculated < row.updated := by
  have next : ((idle soleWorld).run uploadAfterReading).completing? 0 =
      some (⟨some "review", Store.soleGrouping, [⟨"aa"⟩]⟩, .atMillis 100000) := by
    decide +kernel
  have last : lastUpload? "review" Store.soleGrouping
      ((idle soleWorld).run uploadAfterReading).log =
      some ⟨[⟨"bb"⟩], .atMillis 101000⟩ := by
    decide +kernel
  obtain ⟨⟨row, member, own⟩, rows⟩ := upload_claimable_iff soleWorld uploadAfterReading 0 0
    (.ok ()) soleWorld.cache _ _ "review" _ next rfl last (List.cons_ne_nil _ _)
  exact ⟨next, last, row, member, (rows row member own).2.1.mpr (by decide)⟩

/-- The new digests come while the unit calculates. -/
def uploadDuringCalculation : List FleetEvent :=
  soleCalculation ++ [.pass (.ofSeconds 1), newUpload, .pass (.ofSeconds 1),
    .move 0 0 (.ok ()) soleWorld.cache, .move 0 0 (.ok ()) soleWorld.cache]

/-- The unit completes the row without having seen the digests that the row has since its claim, and
nobody can claim the row any more. -/
theorem upload_lost_during_calculation :
    ((idle soleWorld).run uploadDuringCalculation).log =
      [.uploaded { Store.soleWork with digests := [⟨"bb"⟩] } (.atMillis 101000),
        .claimed 0 (.secondary "review" Store.soleGrouping.bytes 0),
        .uploaded Store.soleWork (.atMillis 1000)] ∧
    ((idle soleWorld).run uploadDuringCalculation).completing? 0 =
      some (⟨some "review", Store.soleGrouping, [⟨"aa"⟩]⟩, .atMillis 102000) ∧
    (((idle soleWorld).run uploadDuringCalculation).step
        (.move 0 0 (.ok ()) soleWorld.cache)).world.store.secondary =
      [⟨"review", Store.soleGrouping.bytes, Digest.encodeList [⟨"bb"⟩], 101000, 102000, 700000⟩] ∧
    ¬ (102000 : Int) < 101000 := by
  decide +kernel

end Fleet

end LeaseQueue
