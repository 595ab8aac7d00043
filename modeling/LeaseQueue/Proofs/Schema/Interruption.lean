import LeaseQueue.Proofs.Schema.Stages
/-! Workers that are interrupted, or that come while others are at work, leave whole migrations
recorded, and a later run goes on from there. -/
namespace LeaseQueue.Postgres

open Migrating
open Schema (Consistent Due Prefixed Unchanged)

variable {migrations : List Migration} {start records shown : Schema.Recorded} {w : Worker}
variable {statement : Statement} {carried : Bool} {reply : Answered}
variable {more : Answered → Session (Except MigrationError Nat)}

namespace Worker

/-- If the worker has read a record that differs, it has ended with an error that names the first
migration with such a record, and it sent nothing but what it took to read them. -/
def Refuses (migrations : List Migration) (w : Worker) : Prop :=
  ∀ x ∈ w.exchanges, ∀ shown, x.Shows shown → ∀ first m after checksum,
    migrations = first ++ m :: after → Unchanged first shown → (m.name, checksum) ∈ shown →
    checksum ≠ m.checksum →
    w.session = .ended (.error (.checksumMismatch m.name checksum m.checksum)) ∧
      w.sent = [.selectRecords, .createRecords, .createRecords] ∧ w.committed = []

/-- The worker ends with an error only if a statement failed or it has read a record that differs. -/
def FailsForCause (migrations : List Migration) (w : Worker) : Prop :=
  ∀ e, w.session = .ended (.error e) → w.HasFailed ∨
    ∃ x ∈ w.exchanges, ∃ shown, x.Shows shown ∧ ¬ Unchanged migrations shown

/-- What the migrations are to a worker that has read the records: recorded then, recorded by it,
and left. -/
structure Shares (migrations : List Migration) (start records : Schema.Recorded) (w : Worker)
    (skipped own rest : List Migration) : Prop where
  whole : migrations = skipped ++ own ++ rest
  applied : ∀ m ∈ skipped ++ own, m.entry ∈ records
  fresh : ∀ m ∈ rest, m.name ∉ start.map Prod.fst
  committed : w.committed = own.map Migration.entry
  unchanged : Unchanged migrations start
  shown : ∀ x ∈ w.exchanges, ∀ shown, x.Shows shown → Unchanged migrations shown

/-- Where a worker stands among records that have grown from others. -/
inductive Placed (migrations : List Migration) (start records : Schema.Recorded) (w : Worker) : Prop
  | opening (opening : w.Opening migrations) (committed : w.committed = []) (free : w.OwesNothing)
  | stopped (stopped : w.Stopped) (committed : w.committed = [])
  | refused {e} (session : w.session = .ended (.error e)) (committed : w.committed = [])
    (changed : ∃ x ∈ w.exchanges, ∃ shown, x.Shows shown ∧ ¬ Unchanged migrations shown)
    (refuses : w.Refuses migrations)
  | sharing {skipped own rest} (shares : w.Shares migrations start records skipped own rest)
    (stage : w.Stage rest)

namespace Shares

variable {skipped own rest : List Migration}

theorem mono (shares : w.Shares migrations start records skipped own rest)
    {later : Schema.Recorded} (grown : records ⊆ later) :
    w.Shares migrations start later skipped own rest :=
  { shares with applied := fun m member => grown (shares.applied m member) }

/-- An exchange that makes nothing last. -/
theorem unmoved (shares : w.Shares migrations start records skipped own rest)
    {x : Exchange} (nothing : w.kept x carried = [])
    (read : ∀ shown, x.Shows shown → Unchanged migrations shown)
    (session : Session (Except MigrationError Nat)) :
    (w.answered x carried session).Shares migrations start records skipped own rest where
  whole := shares.whole
  applied := shares.applied
  fresh := shares.fresh
  committed := by simp [answered, nothing, shares.committed]
  unchanged := shares.unchanged
  shown := List.forall_mem_cons.mpr ⟨read, shares.shown⟩

/-- An exchange that makes the record of the next migration last. -/
theorem moved {m : Migration} (shares : w.Shares migrations start records skipped own (m :: rest))
    {x : Exchange} (kept : w.kept x carried = [m.entry])
    (read : ∀ shown, x.Shows shown → Unchanged migrations shown)
    (session : Session (Except MigrationError Nat)) {later : Schema.Recorded}
    (grown : records ⊆ later) (recorded : m.entry ∈ later) :
    (w.answered x carried session).Shares migrations start later skipped (own ++ [m]) rest where
  whole := by simp [shares.whole]
  applied := by
    intro d member
    rw [← List.append_assoc] at member
    rcases List.mem_append.mp member with old | new
    · exact grown (shares.applied d old)
    · rwa [List.mem_singleton.mp new]
  fresh := fun d member => shares.fresh d (List.mem_cons_of_mem m member)
  committed := by simp [answered, kept, shares.committed]
  unchanged := shares.unchanged
  shown := List.forall_mem_cons.mpr ⟨read, shares.shown⟩

theorem due {m : Migration} (shares : w.Shares migrations start records skipped own (m :: rest)) :
    Due migrations start records [m.entry] :=
  .inr ⟨skipped ++ own, m, rest, rfl, shares.whole, shares.applied,
    shares.fresh m List.mem_cons_self⟩

end Shares

theorem Placed.mono (placed : w.Placed migrations start records) {later : Schema.Recorded}
    (grown : records ⊆ later) : w.Placed migrations start later := by
  cases placed with
  | opening opening committed free => exact .opening opening committed free
  | stopped stopped committed => exact .stopped stopped committed
  | refused session committed changed refuses => exact .refused session committed changed refuses
  | sharing shares stage => exact .sharing (shares.mono grown) stage

/-- What a worker committed is some of the migrations, in their order and without a gap. -/
theorem Placed.committed_eq (placed : w.Placed migrations start records) :
    ∃ before own after, migrations = before ++ own ++ after ∧
      w.committed = own.map Migration.entry := by
  cases placed with
  | opening _ committed => exact ⟨[], [], migrations, rfl, committed⟩
  | stopped _ committed => exact ⟨[], [], migrations, rfl, committed⟩
  | refused _ committed => exact ⟨[], [], migrations, rfl, committed⟩
  | sharing shares => exact ⟨_, _, _, shares.whole, shares.committed⟩

theorem Placed.refuses (placed : w.Placed migrations start records) : w.Refuses migrations := by
  cases placed with
  | opening opening =>
    intro x member shown shows
    exact absurd shows (unread opening.unsent x member shown)
  | stopped stopped =>
    intro x member shown shows
    exact absurd shows (stopped.unread x member shown)
  | refused _ _ _ refuses => exact refuses
  | sharing shares =>
    rintro x member shown shows first m after checksum rfl - recorded changed
    exact absurd (shares.shown x member shown shows m (by simp) checksum recorded) changed

theorem Placed.failsForCause (placed : w.Placed migrations start records) :
    w.FailsForCause migrations := by
  intro e ended
  cases placed with
  | opening opening =>
    obtain ⟨_, _, session, -⟩ := opening.sends
    cases session.symm.trans ended
  | stopped stopped => exact .inl stopped.failed
  | refused _ _ changed => exact .inr changed
  | sharing _ stage =>
    rcases stage.of_ended ended with ⟨⟨_, well⟩, -⟩ | ⟨-, failed⟩
    · cases well
    · exact .inl failed

theorem Informed.refused {e : MigrationError} (informed : w.Informed migrations shown)
    (committed : w.committed = []) (unique : (shown.reverse.map Prod.fst).Nodup)
    (refused : Schema.pending shown.reverse migrations = .error e) :
    w.Placed migrations start records := by
  have session := informed.session
  rw [planAfter, refused] at session
  have reversed {list : List Migration} : Unchanged list shown.reverse ↔ Unchanged list shown :=
    Schema.unchanged_congr fun _ => List.mem_reverse
  obtain ⟨x, among, read⟩ := informed.read
  have changed : ¬ Unchanged migrations shown := by
    intro unchanged
    obtain ⟨left, accepted⟩ := Schema.exists_pending_of_unchanged unique (reversed.mpr unchanged)
    cases refused.symm.trans accepted
  refine .refused session committed ⟨x, among, shown, read, changed⟩ ?_
  rintro y member other shows first m after checksum rfl unchanged recorded different
  obtain rfl : other = shown := informed.shows y member other shows
  have named : Schema.pending other.reverse (first ++ m :: after) = _ :=
    Schema.pending_of_changed unique (reversed.mpr unchanged) (List.mem_reverse.mpr recorded)
      different
  obtain rfl := Except.error.inj (refused.symm.trans named)
  exact ⟨session, informed.sent, committed⟩

/-- A worker that has read the records refuses them, or goes on with what they leave pending. -/
theorem Informed.placed (informed : w.Informed migrations shown) (committed : w.committed = [])
    (free : w.OwesNothing) (same : shown.Perm records)
    (consistent : Consistent migrations start records) : w.Placed migrations start records := by
  have unique := Schema.unique_reverse same consistent.unique
  have shown_iff (record : String × String) : record ∈ shown.reverse ↔ record ∈ records :=
    List.mem_reverse.trans same.mem_iff
  cases accepted : Schema.pending shown.reverse migrations with
  | error e => exact informed.refused committed unique accepted
  | ok left =>
    have session := informed.session
    rw [planAfter, accepted] at session
    have unchanged := (Schema.unchanged_congr shown_iff).mp
      (Schema.unchanged_of_pending unique accepted)
    -- The recorded migrations come first, so what is left is all that comes after them.
    obtain ⟨done, rest, rfl, applied, missing⟩ := consistent.prefixed.split unchanged
    have unrecorded : ∀ m ∈ rest, m.name ∉ shown.reverse.map Prod.fst := by
      simpa only [List.mem_map, shown_iff] using missing
    have pending := (Schema.pending_of_recorded unique
      (fun m member => (shown_iff _).mpr (applied m member))).trans
        (Schema.pending_of_fresh unique unrecorded)
    obtain rfl := Except.ok.inj (accepted.symm.trans pending)
    have shares : w.Shares (done ++ left) start records done [] left := by
      refine ⟨by simp, by simpa using applied, ?_, committed, ?_, ?_⟩
      · intro m member known
        exact missing m member ((consistent.grown.map Prod.fst).subset known)
      · intro m listed checksum recorded
        exact unchanged m listed checksum (consistent.grown.subset recorded)
      · intro x member other shows
        obtain rfl := informed.shows x member other shows
        exact (Schema.unchanged_congr fun _ => same.mem_iff).mpr unchanged
    exact .sharing shares (.applying session free)

/-- An exchange of a worker makes nothing last but the record of a migration that is due. -/
theorem Placed.answered (placed : w.Placed migrations start records)
    (distinct : (migrations.map Migration.name).Nodup)
    (consistent : Consistent migrations start records)
    (sending : w.session = .sending statement more)
    (obeyed : ∀ answer, reply = .ok answer → carried = true)
    (shown : ∀ shown, Exchange.Shows ⟨statement, reply⟩ shown → shown.Perm records) :
    Due migrations start records (w.kept ⟨statement, reply⟩ carried) ∧
      (w.answered ⟨statement, reply⟩ carried (more reply)).Placed migrations start
        (Schema.keep records (w.kept ⟨statement, reply⟩ carried)) := by
  cases placed with
  | opening opening committed free =>
    obtain ⟨nothing, committed, free, outcome⟩ := opening.answered committed free sending
    rw [nothing]
    refine ⟨.inl rfl, ?_⟩
    rcases outcome with opening | stopped | ⟨read, shows, informed⟩
    · exact .opening opening committed free
    · exact .stopped stopped committed
    · exact informed.placed committed free (shown read shows) consistent
  | stopped stopped =>
    obtain ⟨cause, ended⟩ := stopped.session
    cases ended.symm.trans sending
  | refused session => cases session.symm.trans sending
  | sharing shares stage =>
    have read : ∀ other, Exchange.Shows ⟨statement, reply⟩ other → Unchanged migrations other :=
      fun other shows => (Schema.unchanged_congr fun _ => (shown other shows).mem_iff).mpr
        (consistent.unchanged distinct shares.unchanged)
    rcases stage.answered sending obeyed with ⟨nothing, stage⟩ | ⟨m, later, rfl, kept, stage⟩
    · rw [nothing]
      exact ⟨.inl rfl, .sharing (shares.unmoved nothing read _) stage⟩
    · rw [kept]
      refine ⟨shares.due, .sharing (shares.moved kept read _ ?_ ?_) stage⟩
      · exact (Schema.prefix_keep records [m.entry]).subset
      · exact (shares.due.mem_keep distinct consistent m.entry).mpr (.inr List.mem_cons_self)

/-- A run that ends well leaves all recorded. -/
theorem Placed.complete (placed : w.Placed migrations start records) {number : Nat}
    (ended : w.session = .ended (.ok number)) : ∀ m ∈ migrations, m.entry ∈ records := by
  cases placed with
  | opening opening =>
    obtain ⟨_, _, session, -⟩ := opening.sends
    cases session.symm.trans ended
  | stopped stopped =>
    obtain ⟨cause, session⟩ := stopped.session
    cases session.symm.trans ended
  | refused session => cases session.symm.trans ended
  | sharing shares stage =>
    rcases stage.of_ended ended with ⟨-, rfl⟩ | ⟨⟨_, badly⟩, -⟩
    · simpa [shares.whole] using shares.applied
    · cases badly

/-! When all is recorded. -/

/-- Where a worker stands that came when all was recorded. -/
inductive Idle (migrations : List Migration) (w : Worker) : Prop
  | opening (opening : w.Opening migrations) (committed : w.committed = []) (free : w.OwesNothing)
  | stopped (stopped : w.Stopped) (committed : w.committed = [])
  | done (session : w.session = .ended (.ok 0))
    (sent : w.sent = [.selectRecords, .createRecords, .createRecords])
    (committed : w.committed = [])

theorem Idle.answered (idle : w.Idle migrations) (unique : (records.map Prod.fst).Nodup)
    (complete : ∀ m ∈ migrations, m.entry ∈ records) (sending : w.session = .sending statement more)
    (shown : ∀ shown, Exchange.Shows ⟨statement, reply⟩ shown → shown.Perm records) :
    (w.answered ⟨statement, reply⟩ carried (more reply)).Idle migrations := by
  cases idle with
  | opening opening committed free =>
    obtain ⟨-, committed, free, outcome⟩ := opening.answered committed free sending
    rcases outcome with opening | stopped | ⟨read, shows, informed⟩
    · exact .opening opening committed free
    · exact .stopped stopped committed
    · have same := shown read shows
      have pending : Schema.pending read.reverse (migrations ++ []) = .ok [] :=
        Schema.pending_of_recorded (Schema.unique_reverse same unique) fun m listed =>
          List.mem_reverse.mpr (same.mem_iff.mpr (complete m listed))
      have session := informed.session
      rw [List.append_nil] at pending
      rw [planAfter, pending] at session
      exact .done session informed.sent committed
  | stopped stopped =>
    obtain ⟨cause, session⟩ := stopped.session
    cases session.symm.trans sending
  | done session => cases session.symm.trans sending

/-- The worker only looks. Unless a statement fails it ends well after three of them. -/
structure FindsNothing (w : Worker) : Prop where
  committed : w.committed = []
  sent : w.sent <:+ [.selectRecords, .createRecords, .createRecords]
  ended : (∀ x ∈ w.exchanges, ¬ x.Failed) →
    (w.session = .ended (.ok 0) ∧ w.exchanges.length = 3) ∨
      ((∃ statement more, w.session = .sending statement more) ∧ w.exchanges.length < 3)

theorem Idle.findsNothing (idle : w.Idle migrations) : w.FindsNothing := by
  have length : w.exchanges.length = w.sent.length := by simp [Worker.sent]
  cases idle with
  | opening opening committed =>
    obtain ⟨_, _, session, fits⟩ := opening.sends
    refine ⟨committed, (List.suffix_cons _ _).trans fits, fun _ => .inr ⟨⟨_, _, session⟩, ?_⟩⟩
    rw [length]
    exact fits.length_le
  | stopped stopped committed =>
    refine ⟨committed, stopped.sent, fun heard => ?_⟩
    obtain ⟨x, member, failed⟩ := stopped.failed
    exact absurd failed (heard x member)
  | done session sent committed =>
    refine ⟨committed, by simp [sent], fun _ => .inl ⟨session, ?_⟩⟩
    simp [length, sent]

end Worker

namespace Rollout

/-- What holds of a rollout at every moment. -/
structure Orderly (migrations : List Migration) (start : Schema.Recorded) (r : Rollout) : Prop where
  consistent : Consistent migrations start r.records
  exact : ∀ record, record ∈ r.records ↔
    record ∈ start ∨ ∃ w ∈ r.workers, record ∈ w.committed
  placed : ∀ w ∈ r.workers, w.Placed migrations start r.records

theorem exists_set_iff {workers : List Worker} {i : Nat} {next : Worker} {new : Schema.Recorded}
    (found : workers[i]? = some w) (more : next.committed = w.committed ++ new)
    (record : String × String) :
    (∃ v ∈ workers.set i next, record ∈ v.committed) ↔
      (∃ v ∈ workers, record ∈ v.committed) ∨ record ∈ new := by
  obtain ⟨inside, own⟩ := List.getElem?_eq_some_iff.mp found
  obtain ⟨before, after, split, -, replaced⟩ := @List.exists_of_set _ i next workers inside
  rw [own] at split
  rw [replaced, split]
  simp only [List.mem_append, List.mem_cons, or_and_right, exists_or, exists_eq_left, more,
    or_assoc, or_comm (b := ∃ v, v ∈ after ∧ record ∈ v.committed)]

namespace Orderly

variable {r later : Rollout} (distinct : (migrations.map Migration.name).Nodup)
include distinct

theorem next (orderly : r.Orderly migrations start) (step : Next migrations r later) :
    later.Orderly migrations start := by
  cases step with
  | enter =>
    refine ⟨orderly.consistent, ?_, ?_⟩
    · intro record
      simp [orderly.exact record, Worker.start, or_and_right, exists_or]
    · intro w member
      rcases List.mem_append.mp member with old | new
      · exact orderly.placed w old
      · rw [List.mem_singleton.mp new]
        exact .opening (.creating rfl rfl) rfl rfl
  | answer i w statement more reply carried found sending obeyed shown =>
    have member : w ∈ r.workers := List.mem_of_getElem? found
    obtain ⟨due, placed⟩ := (orderly.placed w member).answered distinct orderly.consistent sending
      obeyed shown
    refine ⟨due.consistent distinct orderly.consistent, ?_, ?_⟩
    · intro record
      rw [answered, due.mem_keep distinct orderly.consistent, orderly.exact record,
        exists_set_iff found rfl record, or_assoc]
    · intro v among
      rcases List.mem_or_eq_of_mem_set among with old | rfl
      · exact (orderly.placed v old).mono (Schema.prefix_keep r.records _).subset
      · exact placed

theorem run (orderly : r.Orderly migrations start) (reached : Reaches migrations r later) :
    later.Orderly migrations start := by
  induction reached with
  | refl => exact orderly
  | tail _ step ih => exact next distinct ih step

end Orderly

/-- What holds from some rollout on in which all is recorded. -/
structure Settled (migrations : List Migration) (earlier r : Rollout) : Prop where
  records : r.records = earlier.records
  idle : ∀ i late, earlier.workers.length ≤ i → r.workers[i]? = some late → late.Idle migrations

variable {earlier r later : Rollout}

theorem Settled.next (settled : Settled migrations earlier r) (orderly : r.Orderly migrations start)
    (distinct : (migrations.map Migration.name).Nodup)
    (complete : ∀ m ∈ migrations, m.entry ∈ r.records) (step : Next migrations r later) :
    Settled migrations earlier later := by
  cases step with
  | enter =>
    refine ⟨settled.records, ?_⟩
    intro i late new found
    rcases getElem?_append_cases found with old | ⟨-, rfl⟩
    · exact settled.idle i late new old
    · exact .opening (.creating rfl rfl) rfl rfl
  | answer i w statement more reply carried found sending obeyed shown =>
    -- A worker that read earlier may still commit, but only what is recorded already.
    obtain ⟨due, -⟩ := (orderly.placed w (List.mem_of_getElem? found)).answered distinct
      orderly.consistent sending obeyed shown
    refine ⟨(due.keep_eq complete).trans settled.records, ?_⟩
    intro j late new among
    rcases getElem?_set_cases among with ⟨rfl, rfl⟩ | ⟨-, old⟩
    · exact (settled.idle i w new found).answered orderly.consistent.unique complete sending shown
    · exact settled.idle j late new old

theorem Settled.run (orderly : r.Orderly migrations start)
    (distinct : (migrations.map Migration.name).Nodup)
    (complete : ∀ m ∈ migrations, m.entry ∈ r.records) (reached : Reaches migrations r later) :
    Settled migrations r later := by
  induction reached with
  | refl =>
    refine ⟨rfl, fun i late new found => ?_⟩
    rw [List.getElem?_eq_none new] at found
    cases found
  | tail before step ih =>
    exact ih.next (orderly.run distinct before) distinct (ih.records ▸ complete) step

theorem prefix_of_reaches (reached : Reaches migrations r later) : r.records <+: later.records := by
  induction reached with
  | refl => exact List.prefix_rfl
  | tail _ step ih =>
    cases step with
    | enter => exact ih
    | answer => exact ih.trans (Schema.prefix_keep _ _)

/-- However workers that apply the same migrations are interrupted and get in between each other,
recorded checksums stay, new ones are those of the migrations, and the migrations that are recorded
come first. What is recorded was there at the start or was committed by a worker. A worker that has
read another checksum has refused it, and one that fails has read such a one or had a statement fail.
Once a worker ends well, all is recorded and stays, and those that come later find nothing to
apply. -/
theorem survives_interruption (distinct : (migrations.map Migration.name).Nodup)
    (unique : (start.map Prod.fst).Nodup) (prefixed : Prefixed migrations start)
    (reached : Reaches migrations ⟨start, []⟩ r) (onward : Reaches migrations r later) :
    Consistent migrations start r.records ∧ r.records <+: later.records ∧
      (∀ record, record ∈ r.records ↔
        record ∈ start ∨ ∃ w ∈ r.workers, record ∈ w.committed) ∧
      (∀ w ∈ r.workers, w.Refuses migrations ∧ w.FailsForCause migrations ∧
        ∃ before own after, migrations = before ++ own ++ after ∧
          w.committed = own.map Migration.entry) ∧
      ∀ w ∈ r.workers, ∀ number, w.session = .ended (.ok number) →
        (∀ m ∈ migrations, m.entry ∈ r.records) ∧ later.records = r.records ∧
          ∀ i late, r.workers.length ≤ i → later.workers[i]? = some late → late.FindsNothing := by
  have begun : Orderly migrations start ⟨start, []⟩ := by
    refine ⟨⟨List.prefix_rfl, unique, fun record old => .inl old, prefixed⟩, ?_, ?_⟩ <;> simp
  have orderly := begun.run distinct reached
  refine ⟨orderly.consistent, prefix_of_reaches onward, orderly.exact, ?_, ?_⟩
  · intro w among
    have placed := orderly.placed w among
    exact ⟨placed.refuses, placed.failsForCause, placed.committed_eq⟩
  · intro w among number ended
    have complete := (orderly.placed w among).complete ended
    have settled := Settled.run orderly distinct complete onward
    refine ⟨complete, settled.records, ?_⟩
    intro i late new found
    exact (settled.idle i late new found).findsNothing

theorem Reaches.answered (reached : Reaches migrations earlier r) (i : Nat) (reply : Answered)
    (found : r.workers[i]? = some w) (sending : w.session = .sending statement more)
    (other : statement ≠ .selectRecords) :
    Reaches migrations earlier (r.answered i w ⟨statement, reply⟩ true (more reply)) :=
  reached.tail (.answer r i w statement more reply true found sending (fun _ _ => rfl)
    fun _ shows => absurd shows.1 other)

theorem Reaches.readNone (reached : Reaches migrations earlier r) (i : Nat)
    (found : r.workers[i]? = some w) (sending : w.session = .sending .selectRecords more)
    (bare : r.records = []) :
    Reaches migrations earlier
      (r.answered i w ⟨.selectRecords, .ok ⟨[], 0⟩⟩ true (more (.ok ⟨[], 0⟩))) := by
  refine reached.tail (.answer r i w _ more _ true found sending (fun _ _ => rfl) ?_)
  rintro shown ⟨-, answer, applied, ok, read, rfl⟩
  obtain rfl := Except.ok.inj ok
  obtain rfl := Except.ok.inj read
  rw [bare]
  exact .nil

def acknowledged : Answered := .ok ⟨[], 0⟩

def lost : Answered := .error (.unreachable "connection reset by peer")

def createQueue : Migration := ⟨"0001_create_queue", "CREATE TABLE IF NOT EXISTS queue (id INT)"⟩

/-- Two workers read no records. The first applies the migration and does not hear of its commit, the
second applies it once more. -/
theorem survives_interruption_unheard_commit :
    ∃ r, Reaches [createQueue] ⟨[], []⟩ r ∧ r.records = [createQueue.entry] ∧
      (∃ w ∈ r.workers, w.session = .ended (.ok 1)) ∧
      Prefixed [createQueue] r.records ∧
      ∀ later, Reaches [createQueue] r later → later.records = r.records := by
  have run : Reaches [createQueue] ⟨[], []⟩ _ := .tail (.single (.enter _)) (.enter _)
  have run := run.answered 0 acknowledged rfl rfl (by decide +kernel)
  have run := run.answered 0 acknowledged rfl rfl (by decide +kernel)
  have run := run.readNone 0 rfl rfl rfl
  have run := run.answered 1 acknowledged rfl rfl (by decide +kernel)
  have run := run.answered 1 acknowledged rfl rfl (by decide +kernel)
  have run := run.readNone 1 rfl rfl rfl
  have run := run.answered 0 acknowledged rfl rfl (by decide +kernel)
  have run := run.answered 0 acknowledged rfl rfl (by decide +kernel)
  have run := run.answered 0 acknowledged rfl rfl (by decide +kernel)
  have run := run.answered 0 lost rfl rfl (by decide +kernel)
  have run := run.answered 1 acknowledged rfl rfl (by decide +kernel)
  have run := run.answered 1 acknowledged rfl rfl (by decide +kernel)
  have run := run.answered 1 acknowledged rfl rfl (by decide +kernel)
  have run := run.answered 1 acknowledged rfl rfl (by decide +kernel)
  have safe (later : Rollout) (onward : Reaches [createQueue] _ later) :=
    survives_interruption (by simp) (by simp) ⟨[], [createQueue], rfl, by simp, by simp⟩ run onward
  refine ⟨_, run, rfl, ⟨_, List.mem_of_getElem? (i := 1) rfl, rfl⟩, (safe _ .refl).1.prefixed, ?_⟩
  intro later onward
  obtain ⟨-, -, -, -, once_ended⟩ := safe later onward
  exact (once_ended _ (List.mem_of_getElem? (i := 1) rfl) 1 rfl).2.1

end Rollout

end LeaseQueue.Postgres
