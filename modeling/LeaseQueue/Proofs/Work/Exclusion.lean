import LeaseQueue.Proofs.Work.Steps
/-! Units exclude each other. The time that a claim uses was read after its unit started, so the
lease it is granted lasts until the deadline of the unit, and nobody else leases the row before
that. -/
namespace LeaseQueue

/-- A lease of whole milliseconds, and not none. -/
def ClaimerSettings.WholeLease (settings : ClaimerSettings) : Prop :=
  0 < settings.lease.nanos ∧ settings.lease.nanos % 1000000 = 0

/-- A lease that is too long to be exact is also too long to be granted. -/
theorem toSpan_of_leaseEnd {now ends : Instant} {lease : Duration}
    (whole : lease.nanos % 1000000 = 0) (granted : leaseEnd now lease.toSpan = .ok ends) :
    lease.toSpan.nanos = lease.nanos := by
  have sum := leaseEnd_eq_ok_iff.mp granted
  have first := now.earliest_le
  have last := ends.le_latest
  unfold earliestNanos at first
  unfold latestNanos at last
  unfold Duration.toSpan Span.ofMillis Duration.maxSpanMillis at sum ⊢
  simp only at sum ⊢
  omega

namespace Store

theorem LeasedTo.mono {s : Store} {key : RowKey} {bound lower : Int} (held : s.LeasedTo key bound)
    (below : lower ≤ bound) : s.LeasedTo key lower :=
  ⟨held.1, fun ends member => Int.le_trans below (held.2 ends member)⟩

end Store

namespace UnitOfWork

/-- The deadline of a unit in milliseconds, rounded as the store rounds the end of a lease. -/
def deadline (u : UnitOfWork) : Int := (u.started.nanos + u.settings.lease.nanos) / 1000000

theorem deadline_le {u : UnitOfWork} {now ends : Instant} (whole : u.settings.WholeLease)
    (after : u.started ≤ now) (granted : leaseEnd now u.settings.lease.toSpan = .ok ends) :
    u.deadline ≤ ends.millis := by
  have sum := leaseEnd_eq_ok_iff.mp granted
  rw [toSpan_of_leaseEnd whole.2 granted] at sum
  rw [Instant.le_iff_nanos] at after
  unfold deadline Instant.millis
  omega

theorem overdue_of_deadline_lt {u : UnitOfWork} {now clock : Instant}
    (passed : u.deadline < now.millis) (before : now ≤ clock) : u.overdue clock = true := by
  rw [Instant.le_iff_nanos] at before
  unfold deadline Instant.millis at passed
  unfold overdue
  rw [decide_eq_true_eq]
  omega

theorem running_before {u : UnitOfWork} {clock later : Instant} (forward : clock ≤ later)
    (running : u.overdue later = false) : u.overdue clock = false := by
  rw [Instant.le_iff_nanos] at forward
  unfold UnitOfWork.overdue at running ⊢
  rw [decide_eq_false_iff_not] at running ⊢
  omega

end UnitOfWork

/-! Rows and the log. -/

/-- A row that is not of a future generation. -/
def HeldRow.Reached (log : List Deed) : HeldRow → Prop
  | .primary _ => True
  | .secondary branch _ claimed => claimed ≤ generation log branch

namespace ClaimedWork

theorem key_rowNow (log : List Deed) (work : ClaimedWork) : (work.rowNow log).key = work.key := by
  unfold rowNow key
  cases work.branch <;> rfl

theorem current_rowNow (log : List Deed) (work : ClaimedWork) : (work.rowNow log).Current log := by
  unfold rowNow
  cases work.branch with
  | none => exact trivial
  | some branch => exact rfl

end ClaimedWork

namespace HeldRow

variable {log : List Deed} {row : HeldRow}

theorem Current.reached (current : row.Current log) : row.Reached log := by
  cases row with
  | primary key => exact trivial
  | secondary branch key claimed => exact Nat.le_of_eq current

theorem Reached.cons (reached : row.Reached log) (deed : Deed) : row.Reached (deed :: log) := by
  cases row with
  | primary key => exact trivial
  | secondary branch key claimed =>
    exact Nat.le_trans reached ((List.sublist_cons_self deed log).countP_le)

/-- A row that outlives a deed was there before it, and not of a branch that the deed retired. -/
theorem Current.of_cons {deed : Deed} (reached : row.Reached log)
    (current : row.Current (deed :: log)) :
    row.Current log ∧ ∀ branch, deed = .retired branch →
      (StoreCall.retireBranch branch).retires row.key = false := by
  cases row with
  | primary key => exact ⟨trivial, fun _ _ => rfl⟩
  | secondary branch key claimed =>
    have now : claimed = generation (deed :: log) branch := current
    have before : claimed ≤ generation log branch := reached
    unfold generation at now before
    rw [List.countP_cons] at now
    by_cases own : deed.retires branch = true
    · rw [if_pos own] at now
      omega
    · rw [if_neg own] at now
      refine ⟨now, ?_⟩
      rintro retired rfl
      simpa [Deed.retires, StoreCall.retires, HeldRow.key, eq_comm] using own

end HeldRow

theorem latestClaim?_cons_other {log : List Deed} {row : HeldRow} {deed : Deed}
    (other : deed.claimer? row = none) : latestClaim? (deed :: log) row = latestClaim? log row := by
  unfold latestClaim?
  rw [List.findSome?_cons, other]

theorem latestClaim?_cons_own (log : List Deed) (row : HeldRow) (i : Nat) :
    latestClaim? (.claimed i row :: log) row = some i := by
  unfold latestClaim?
  rw [List.findSome?_cons]
  simp [Deed.claimer?]

/-! What is true of every unit at every moment. -/

/-- Where a unit holds work, its row is leased to its deadline or later, unless the branch was
retired since, and nobody claimed the row after it. -/
structure HeldSound (clock : Instant) (store : Store) (log : List Deed) (i : Nat) (u : UnitOfWork)
    (work : ClaimedWork) (row : HeldRow) : Prop where
  key : row.key = work.key
  reached : row.Reached log
  leased : row.Current log → store.LeasedTo row.key u.deadline
  latest : u.overdue clock = false → latestClaim? log row = some i

structure UnitSound (clock : Instant) (store : Store) (log : List Deed) (i : Nat) (u : UnitOfWork) :
    Prop where
  started : u.started ≤ clock
  whole : u.settings.WholeLease
  claiming : ∀ now, u.stage.claimTime? = some now → u.started ≤ now ∧ now ≤ clock
  held : ∀ work, u.stage.work? = some work →
    ∃ row, u.row? = some row ∧ HeldSound clock store log i u work row

/-- A unit that has neither read the clock nor work in hand. -/
theorem UnitSound.of_free {clock : Instant} {store : Store} {log : List Deed} {i : Nat}
    {u : UnitOfWork} (started : u.started ≤ clock) (whole : u.settings.WholeLease)
    (unread : u.stage.claimTime? = none) (free : u.stage.work? = none) :
    UnitSound clock store log i u := by
  refine ⟨started, whole, ?_, ?_⟩
  · intro now read
    cases unread.symm.trans read
  · intro work own
    cases free.symm.trans own

/-- Later moments at which nobody has claimed a row that a unit may still work on. -/
structure Later (clock clock' : Instant) (store store' : Store) (log log' : List Deed) : Prop where
  forward : clock ≤ clock'
  reached (row : HeldRow) : row.Reached log → row.Reached log'
  current (row : HeldRow) : row.Reached log → row.Current log' → row.Current log
  leased (row : HeldRow) (bound : Int) : row.Reached log → row.Current log' →
    store.LeasedTo row.key bound → store'.LeasedTo row.key bound

section Frame

variable {clock clock' : Instant} {store store' : Store} {log log' : List Deed} {i : Nat}
  {u : UnitOfWork}

theorem HeldSound.later {work : ClaimedWork} {row : HeldRow}
    (sound : HeldSound clock store log i u work row)
    (later : Later clock clock' store store' log log')
    (latest : u.overdue clock' = false → latestClaim? log' row = some i) :
    HeldSound clock' store' log' i u work row where
  key := sound.key
  reached := later.reached row sound.reached
  leased current :=
    later.leased row _ sound.reached current
      (sound.leased (later.current row sound.reached current))
  latest := latest

theorem UnitSound.later (sound : UnitSound clock store log i u)
    (later : Later clock clock' store store' log log')
    (latest : ∀ work row, HeldSound clock store log i u work row → u.overdue clock' = false →
      latestClaim? log' row = some i) : UnitSound clock' store' log' i u where
  started := Int.le_trans sound.started later.forward
  whole := sound.whole
  claiming now read :=
    ⟨(sound.claiming now read).1, Int.le_trans (sound.claiming now read).2 later.forward⟩
  held work own := by
    obtain ⟨row, claimed, held⟩ := sound.held work own
    exact ⟨row, claimed, held.later later (latest work row held)⟩

end Frame

namespace Later

variable {clock : Instant} {store store' : Store} {log : List Deed}

theorem of_time {clock' : Instant} (forward : clock ≤ clock') :
    Later clock clock' store store log log :=
  ⟨forward, fun _ reached => reached, fun _ _ current => current, fun _ _ _ _ leased => leased⟩

/-- An operation that removes no row. -/
theorem of_store (leased : ∀ key bound, store.LeasedTo key bound → store'.LeasedTo key bound) :
    Later clock clock store store' log log :=
  ⟨Int.le_refl _, fun _ reached => reached, fun _ _ current => current,
    fun row bound _ _ held => leased row.key bound held⟩

theorem of_deed {deed : Deed}
    (leased : ∀ key bound,
      (∀ branch, deed = .retired branch → (StoreCall.retireBranch branch).retires key = false) →
      store.LeasedTo key bound → store'.LeasedTo key bound) :
    Later clock clock store store' log (deed :: log) where
  forward := Int.le_refl _
  reached _ reached := reached.cons deed
  current _ reached current := (HeldRow.Current.of_cons reached current).1
  leased row bound reached current held :=
    leased row.key bound (HeldRow.Current.of_cons reached current).2 held

end Later

namespace Fleet

def Sound (f : Fleet) : Prop :=
  ∀ i u, f.units[i]? = some u → UnitSound f.world.clock f.world.store f.log i u

variable {f : Fleet}

theorem sound_idle (world : World) : (idle world).Sound := by
  intro i u found
  cases found

theorem Sound.pass (sound : f.Sound) (time : Duration) : (f.pass time).Sound := by
  intro i u found
  have forward : f.world.clock ≤ f.world.clock.addOrLatest ⟨time.nanos⟩ :=
    Instant.le_addOrLatest (Int.natCast_nonneg _)
  refine (sound i u found).later (.of_time forward) ?_
  intro work row held running
  exact held.latest (UnitOfWork.running_before forward running)

theorem Sound.start (sound : f.Sound) {settings : ClaimerSettings} (whole : settings.WholeLease)
    (kind : ClaimKind) : (f.start settings kind).Sound := by
  intro i u found
  rcases units_start found with before | rfl
  · exact sound i u before
  · exact .of_free (Int.le_refl _) whole rfl rfl

theorem Sound.fail (sound : f.Sound) (i : Nat) (cause : ClaimError) : (f.fail i cause).Sound := by
  have same : (f.fail i cause).world = f.world ∧ (f.fail i cause).log = f.log := by
    unfold Fleet.fail
    split <;> exact ⟨rfl, rfl⟩
  intro j v found
  rw [same.1, same.2]
  rcases units_fail found with before | ⟨u, before, rfl⟩
  · exact sound j v before
  · exact .of_free (sound j u before).started (sound j u before).whole rfl rfl

theorem Sound.produce (sound : f.Sound) {c : StoreCall} (kept : ∀ key, c.retires key = false)
    (none : c.lease? = none) : (f.produce c).Sound := by
  intro i u found
  refine (sound i u found).later (.of_store ?_) fun _ _ held => held.latest
  intro key bound held
  exact Store.leasedTo_perform held (kept key) (StoreCall.leasesForward_of_none none)

theorem Sound.upload (sound : f.Sound) (work : SecondaryWork) (updated : Instant) :
    (f.step (.upload work updated)).Sound := by
  intro i u found
  refine (sound i u found).later (.of_deed ?_) fun _ _ held => held.latest
  intro key bound _ held
  exact Store.leasedTo_perform held rfl (StoreCall.leasesForward_of_none rfl)

theorem Sound.retire (sound : f.Sound) (branch : String) : (f.step (.retire branch)).Sound := by
  intro i u found
  refine (sound i u found).later (.of_deed ?_) fun _ _ held => held.latest
  intro key bound kept held
  exact Store.leasedTo_perform held (kept branch rfl) (StoreCall.leasesForward_of_none rfl)

/-- A unit that reaches a stage with new work has the row for itself. -/
theorem Sound.enter_claim (sound : f.Sound) {i : Nat} {u : UnitOfWork}
    (found : f.units[i]? = some u) {stage : Stage} {world : World} {work : ClaimedWork}
    {now ends : Instant} (same : world.clock = f.world.clock) (own : stage.work? = some work)
    (later : ∀ read, stage.claimTime? = some read → u.started ≤ read ∧ read ≤ f.world.clock)
    (read : u.stage.claimTime? = some now)
    (granted : leaseEnd now u.settings.lease.toSpan = .ok ends)
    (grant : Store.Grant f.world.store work.key now ends world.store)
    (leases : ∀ key bound, f.world.store.LeasedTo key bound → world.store.LeasedTo key bound) :
    let row := work.rowNow f.log
    Fleet.Sound ⟨world, f.units.set i { u with stage, row? := some row },
      .claimed i row :: f.log⟩ := by
  intro row j v foundLater
  have before := sound i u found
  have times := before.claiming now read
  simp only [same]
  rcases getElem?_set_cases foundLater with ⟨rfl, rfl⟩ | ⟨_, other⟩
  · refine ⟨before.started, before.whole, later, ?_⟩
    intro work' held
    cases own.symm.trans held
    refine ⟨row, rfl, ⟨work.key_rowNow f.log, ?_, ?_, ?_⟩⟩
    · exact (work.current_rowNow f.log).reached.cons _
    · intro _
      rw [work.key_rowNow f.log]
      exact grant.leasedTo.mono (u.deadline_le before.whole times.1 granted)
    · intro _
      exact latestClaim?_cons_own _ _ _
  · refine (sound j v other).later (.of_deed fun key bound _ => leases key bound) ?_
    intro workOther rowOther held running
    have different : row ≠ rowOther := by
      rintro rfl
      have leased := held.leased (work.current_rowNow f.log)
      rw [work.key_rowNow f.log] at leased
      rw [v.overdue_of_deadline_lt (grant.bound_lt leased) times.2] at running
      cases running
    rw [latestClaim?_cons_other (by simp [Deed.claimer?, different])]
    exact held.latest running

theorem Sound.enter_on (sound : f.Sound) {i : Nat} {u : UnitOfWork} (found : f.units[i]? = some u)
    {stage : Stage} {world : World} (same : world.clock = f.world.clock)
    (own : ∀ work, stage.work? = some work → u.stage.work? = some work)
    (later : ∀ read, stage.claimTime? = some read → u.started ≤ read ∧ read ≤ f.world.clock)
    (leases : ∀ key bound, f.world.store.LeasedTo key bound → world.store.LeasedTo key bound) :
    Fleet.Sound { f with world, units := f.units.set i { u with stage } } := by
  intro j v foundLater
  simp only [same]
  rcases getElem?_set_cases foundLater with ⟨rfl, rfl⟩ | ⟨_, other⟩
  · have before := sound i u found
    refine ⟨before.started, before.whole, later, ?_⟩
    intro work held
    obtain ⟨row, claimed, heldSound⟩ := before.held work (own work held)
    have moved := heldSound.later (.of_store leases) heldSound.latest
    exact ⟨row, claimed, moved.key, moved.reached, moved.leased, moved.latest⟩
  · exact (sound j v other).later (.of_store leases) fun work row held => held.latest

theorem Sound.move (sound : f.Sound) (i choice : Nat) (answer : Except DiffError Unit)
    (cache : GroupingCache) : (f.move i choice answer cache).Sound := by
  unfold Fleet.move
  split
  · exact sound
  · rename_i u found
    split
    · exact sound
    · have before := sound i u found
      have clock := Stage.clock_step u.settings u.kind choice answer { f.world with cache } u.stage
      have follows :=
        Stage.step_follows u.settings u.kind choice answer { f.world with cache } u.stage
      have leases : ∀ key bound, f.world.store.LeasedTo key bound →
          (Stage.step u.settings u.kind choice answer
            { f.world with cache } u.stage).2.store.LeasedTo key bound :=
        fun key bound held => Stage.leasedTo_step u.settings u.kind choice answer
          { f.world with cache } held
      have later : ∀ read,
          (Stage.step u.settings u.kind choice answer
            { f.world with cache } u.stage).1.claimTime? = some read →
          u.started ≤ read ∧ read ≤ f.world.clock := by
        intro read reads
        rcases follows.claimTime reads with ⟨_, rfl⟩ | earlier
        · exact ⟨before.started, Int.le_refl _⟩
        · exact before.claiming read earlier
      simp only [Fleet.enter]
      split
      · rename_i work claimed
        unfold Stage.claims? at claimed
        split at claimed
        · rename_i free
          obtain ⟨now, ends, read, granted, grant⟩ := follows.granted free claimed
          exact sound.enter_claim found clock claimed later read granted grant leases
        · cases claimed
      · rename_i unclaimed
        refine sound.enter_on found clock ?_ later leases
        intro work held
        unfold Stage.claims? at unclaimed
        split at unclaimed
        · exact absurd (unclaimed.symm.trans held) nofun
        · rename_i own holds
          rw [follows.holding holds held]
          exact holds

theorem Sound.step (sound : f.Sound) {event : FleetEvent}
    (valid : ∀ settings kind, event = .start settings kind → settings.WholeLease) :
    (f.step event).Sound := by
  cases event with
  | pass time => exact sound.pass time
  | start settings kind => exact sound.start (valid settings kind rfl) kind
  | move i choice answer cache => exact sound.move i choice answer cache
  | fail i cause => exact sound.fail i cause
  | putGrouping grouping params => exact sound.produce (fun _ => rfl) rfl
  | ensurePrimary groupings => exact sound.produce (fun _ => rfl) rfl
  | upload work updated => exact sound.upload work updated
  | retire branch => exact sound.retire branch

theorem Sound.run (sound : f.Sound) {events : List FleetEvent}
    (valid : ∀ settings kind, .start settings kind ∈ events → settings.WholeLease) :
    (f.run events).Sound := by
  induction events generalizing f with
  | nil => exact sound
  | cons event events ih =>
    refine ih (sound.step ?_) fun settings kind member =>
      valid settings kind (List.mem_cons_of_mem _ member)
    rintro settings kind rfl
    exact valid settings kind List.mem_cons_self

theorem Sound.latest {i : Nat} {row : HeldRow} (sound : f.Sound) (holds : f.Holds i row) :
    latestClaim? f.log row = some i := by
  obtain ⟨u, found, running, held, claimed⟩ := holds
  obtain ⟨work, own⟩ := Option.isSome_iff_exists.mp held
  obtain ⟨_, same, heldSound⟩ := (sound i u found).held work own
  cases claimed.symm.trans same
  exact heldSound.latest running

/-- From any store on, and in any order of their steps, two units never hold the same row, and a
unit that completes its work holds the row by the latest claim of it. -/
theorem units_exclude (world : World) (events : List FleetEvent)
    (valid : ∀ settings kind, .start settings kind ∈ events → settings.WholeLease) :
    (∀ (i : Nat) (u : UnitOfWork) work, ((idle world).run events).units[i]? = some u →
      u.stage.work? = some work → ∃ row, u.row? = some row ∧ row.key = work.key) ∧
    (∀ i j row, ((idle world).run events).Holds i row → ((idle world).run events).Holds j row →
      i = j) ∧
    (∀ i work now, ((idle world).run events).completing? i = some (work, now) →
      ∃ row, row.key = work.key ∧ ((idle world).run events).Holds i row ∧
        latestClaim? ((idle world).run events).log row = some i) := by
  have sound := (sound_idle world).run valid
  refine ⟨?_, ?_, ?_⟩
  · intro i u work found own
    obtain ⟨row, claimed, held⟩ := (sound i u found).held work own
    exact ⟨row, claimed, held.key⟩
  · intro i j row first second
    exact Option.some.inj ((sound.latest first).symm.trans (sound.latest second))
  · intro i work now next
    obtain ⟨u, found, running, completing⟩ := completing?_eq_some next
    have own : u.stage.work? = some work := by rw [completing]; rfl
    obtain ⟨row, claimed, held⟩ := (sound i u found).held work own
    exact ⟨row, held.key, ⟨u, found, running, by rw [own]; rfl, claimed⟩, held.latest running⟩

/-- The first of two workers claims a grouping and calculates it, and the second comes too late. -/
def rivalry : List FleetEvent :=
  [.ensurePrimary [Store.soleGrouping], .pass (.ofSeconds 100), .start .default .primary,
    .start .default .primary,
    .move 0 0 (.ok ()) soleWorld.cache, .move 1 0 (.ok ()) soleWorld.cache,
    .move 0 0 (.ok ()) soleWorld.cache, .move 1 0 (.ok ()) soleWorld.cache,
    .move 0 0 (.ok ()) soleWorld.cache, .move 0 0 (.ok ()) soleWorld.cache,
    .pass (.ofSeconds 1), .move 0 0 (.ok ()) soleWorld.cache]

theorem units_exclude_rivalry :
    (∀ settings kind, .start settings kind ∈ rivalry → settings.WholeLease) ∧
    ((idle soleWorld).run rivalry).completing? 0 =
      some (⟨none, Store.soleGrouping, []⟩, .atMillis 101000) ∧
    ∃ row, row.key = .primary Store.soleGrouping.bytes ∧
      latestClaim? ((idle soleWorld).run rivalry).log row = some 0 := by
  have valid : ∀ settings kind, .start settings kind ∈ rivalry → settings.WholeLease := by
    intro settings kind member
    simp only [rivalry, List.mem_cons, FleetEvent.start.injEq, reduceCtorEq, List.not_mem_nil,
      false_or, or_false, or_self] at member
    rw [member.1]
    exact ⟨by decide, by decide⟩
  have next : ((idle soleWorld).run rivalry).completing? 0 =
      some (⟨none, Store.soleGrouping, []⟩, .atMillis 101000) := by
    decide +kernel
  obtain ⟨row, key, _, latest⟩ := (units_exclude soleWorld rivalry valid).2.2 0 _ _ next
  exact ⟨valid, next, row, key, latest⟩

end Fleet

end LeaseQueue
