import LeaseQueue.Proofs.Schema.Rollout
/-! What a worker has left to send while it applies migrations, and what each of its exchanges makes
last. -/
namespace LeaseQueue.Postgres

open Migrating

variable {migrations : List Migration} {w : Worker} {statement : Statement} {carried : Bool}
variable {more : Answered → Session (Except MigrationError Nat)} {reply : Answered}

theorem Exchange.Shows.unique {x : Exchange} {shown other : Schema.Recorded} (first : x.Shows shown)
    (second : x.Shows other) : shown = other := by
  obtain ⟨-, reply, applied, ok, read, rfl⟩ := first
  obtain ⟨-, _, others, again, reread, rfl⟩ := second
  obtain rfl := Except.ok.inj (ok.symm.trans again)
  rw [Except.ok.inj (read.symm.trans reread)]

/-- A reply that fails shows no records. -/
theorem Exchange.Failed.not_shows {x : Exchange} (failed : x.Failed) (shown : Schema.Recorded) :
    ¬ x.Shows shown := by
  rintro ⟨-, _, _, ok, read, -⟩
  rcases failed with ⟨cause, refused⟩ | ⟨-, reply, cause, same, unreadable⟩
  · cases refused.symm.trans ok
  · obtain rfl := Except.ok.inj (same.symm.trans ok)
    cases unreadable.symm.trans read

namespace Worker

/-- The statements that were sent, the latest first. -/
def sent (w : Worker) : List Statement := w.exchanges.map (·.statement)

def OwesNothing (w : Worker) : Prop := w.uncommitted?.getD [] = []

/-- A statement without arguments keeps no record of a worker that owes none. -/
theorem kept_of_bare (bare : statement.arguments = []) (free : w.OwesNothing) :
    w.kept ⟨statement, reply⟩ carried = [] :=
  (Statement.effect_of_bare w.uncommitted? bare carried free).1

theorem owesNothing_of_bare (bare : statement.arguments = []) (free : w.OwesNothing)
    (session : Session (Except MigrationError Nat)) :
    (w.answered ⟨statement, reply⟩ carried session).OwesNothing :=
  (Statement.effect_of_bare w.uncommitted? bare carried free).2

/-! Before it applies the first. -/

/-- The worker has yet to read the records. -/
inductive Opening (migrations : List Migration) (w : Worker) : Prop
  | creating (sent : w.sent = []) (session : w.session = (applyPending migrations).run)
  | again (sent : w.sent = [.createRecords])
    (session : w.session =
      .sending .createRecords (orStop (.sending .selectRecords (readThen migrations))))
  | reading (sent : w.sent = [.createRecords, .createRecords])
    (session : w.session = .sending .selectRecords (readThen migrations))

def HasFailed (w : Worker) : Prop := ∃ x ∈ w.exchanges, x.Failed

/-- The worker was stopped before it had read the records. -/
structure Stopped (w : Worker) : Prop where
  session : ∃ cause, w.session = .ended (.error (.database cause))
  failed : w.HasFailed
  sent : w.sent <:+ [.selectRecords, .createRecords, .createRecords]
  unread : ∀ x ∈ w.exchanges, ∀ shown, ¬ x.Shows shown

/-- The worker has read the records and sent nothing since. -/
structure Informed (migrations : List Migration) (shown : Schema.Recorded) (w : Worker) : Prop where
  session : w.session = planAfter migrations shown.reverse
  sent : w.sent = [.selectRecords, .createRecords, .createRecords]
  read : ∃ x ∈ w.exchanges, x.Shows shown
  shows : ∀ x ∈ w.exchanges, ∀ other, x.Shows other → other = shown

/-- A reply to any other statement shows no records. -/
theorem unread (unsent : .selectRecords ∉ w.sent) : ∀ x ∈ w.exchanges, ∀ shown, ¬ x.Shows shown :=
  fun _ member _ shows => unsent (List.mem_map.mpr ⟨_, member, shows.1⟩)

@[simp]
theorem sent_answered (x : Exchange) (session : Session (Except MigrationError Nat)) :
    (w.answered x carried session).sent = x.statement :: w.sent := rfl

theorem Opening.unsent (opening : w.Opening migrations) : .selectRecords ∉ w.sent := by
  have other : Statement.selectRecords ≠ .createRecords := by decide
  cases opening with
  | creating sent => simp [sent]
  | again sent => simp [sent, other]
  | reading sent => simp [sent, other]

theorem Opening.sends (opening : w.Opening migrations) :
    ∃ statement more, w.session = .sending statement more ∧
      (statement :: w.sent) <:+ [.selectRecords, .createRecords, .createRecords] := by
  cases opening with
  | creating sent session =>
    refine ⟨_, _, session.trans (run_applyPending migrations), ?_⟩
    rw [sent]
    exact ⟨[_, _], rfl⟩
  | again sent session => exact ⟨_, _, session, by simp [sent]⟩
  | reading sent session => exact ⟨_, _, session, by simp [sent]⟩

/-- A failure before the reading is over stops the worker. -/
theorem Opening.stopped (opening : w.Opening migrations)
    (sending : w.session = .sending statement more) (cause : DatabaseError)
    (failed : Exchange.Failed ⟨statement, reply⟩) :
    (w.answered ⟨statement, reply⟩ carried (.ended (.error (.database cause)))).Stopped where
  session := ⟨cause, rfl⟩
  failed := ⟨_, List.mem_cons_self, failed⟩
  sent := by
    obtain ⟨_, _, session, fits⟩ := opening.sends
    obtain ⟨rfl, -⟩ := Session.sending.inj (session.symm.trans sending)
    exact fits
  unread := List.forall_mem_cons.mpr ⟨failed.not_shows, unread opening.unsent⟩

theorem Opening.outcome (opening : w.Opening migrations) (reply : Answered) (carried : Bool)
    (sending : w.session = .sending statement more) :
    statement.arguments = [] ∧
      ((w.answered ⟨statement, reply⟩ carried (more reply)).Opening migrations ∨
        (w.answered ⟨statement, reply⟩ carried (more reply)).Stopped ∨
        ∃ shown, Exchange.Shows ⟨statement, reply⟩ shown ∧
          (w.answered ⟨statement, reply⟩ carried (more reply)).Informed migrations shown) := by
  have unsent := opening.unsent
  have stopped (cause : DatabaseError) (failed : Exchange.Failed ⟨statement, reply⟩) :
      (w.answered ⟨statement, reply⟩ carried (.ended (.error (.database cause)))).Stopped :=
    opening.stopped sending cause failed
  cases opening with
  | creating sent session =>
    rw [run_applyPending] at session
    obtain ⟨rfl, rfl⟩ := Session.sending.inj (session.symm.trans sending)
    refine ⟨rfl, ?_⟩
    cases reply with
    | ok => exact .inl (.again (by simp [sent]) rfl)
    | error cause => exact .inr (.inl (stopped cause (.inl ⟨cause, rfl⟩)))
  | again sent session =>
    obtain ⟨rfl, rfl⟩ := Session.sending.inj (session.symm.trans sending)
    refine ⟨rfl, ?_⟩
    cases reply with
    | ok => exact .inl (.reading (by simp [sent]) rfl)
    | error cause => exact .inr (.inl (stopped cause (.inl ⟨cause, rfl⟩)))
  | reading sent session =>
    obtain ⟨rfl, rfl⟩ := Session.sending.inj (session.symm.trans sending)
    refine ⟨rfl, .inr ?_⟩
    cases reply with
    | error cause => exact .inl (stopped cause (.inl ⟨cause, rfl⟩))
    | ok answer =>
      simp only [readThen]
      cases rows : answer.rows.mapM readRecord with
      | error cause => exact .inl (stopped cause (.inr ⟨rfl, answer, cause, rfl, rows⟩))
      | ok applied =>
        have shows : Exchange.Shows ⟨.selectRecords, .ok answer⟩ _ :=
          ⟨rfl, answer, applied, rfl, rows, rfl⟩
        refine .inr ⟨_, shows, ?_, by simp [sent], ⟨_, List.mem_cons_self, shows⟩, ?_⟩
        · simp [Worker.answered, planFrom, checksums]
        · refine List.forall_mem_cons.mpr ⟨fun other again => again.unique shows, ?_⟩
          exact fun x earlier other again => absurd again (unread unsent x earlier other)

/-- An exchange before the reading is over makes nothing last. -/
theorem Opening.answered (opening : w.Opening migrations) (committed : w.committed = [])
    (free : w.OwesNothing) (sending : w.session = .sending statement more) :
    let next := w.answered ⟨statement, reply⟩ carried (more reply)
    w.kept ⟨statement, reply⟩ carried = [] ∧ next.committed = [] ∧ next.OwesNothing ∧
      (next.Opening migrations ∨ next.Stopped ∨
        ∃ shown, Exchange.Shows ⟨statement, reply⟩ shown ∧ next.Informed migrations shown) := by
  obtain ⟨bare, outcome⟩ := opening.outcome reply carried sending
  have nothing : w.kept ⟨statement, reply⟩ carried = [] := kept_of_bare bare free
  refine ⟨nothing, ?_, owesNothing_of_bare bare free _, outcome⟩
  simp [Worker.answered, nothing, committed]

/-! While it applies them. -/

/-- Where a worker stands that has these migrations to record. -/
inductive Stage (w : Worker) : List Migration → Prop
  | applying {rest total} (session : w.session = plan total rest) (free : w.OwesNothing) :
    w.Stage rest
  | changing {m rest total} (session : w.session = changeThen m (plan total rest))
    (free : w.OwesNothing) : w.Stage (m :: rest)
  | recording {m rest total} (session : w.session = recordThen m (plan total rest))
    (free : w.OwesNothing) : w.Stage (m :: rest)
  | committing {m rest total} (session : w.session = commitThen (plan total rest))
    (owed : w.uncommitted?.getD [] = [m.entry]) : w.Stage (m :: rest)
  /-- The text of the migration has ended the transaction. -/
  | committed {rest total} (session : w.session = commitThen (plan total rest))
    (free : w.OwesNothing) : w.Stage rest
  | leaving {rest e} (session : w.session = leave e) (failed : w.HasFailed) : w.Stage rest
  | failed {rest e} (session : w.session = .ended (.error e)) (failed : w.HasFailed) : w.Stage rest

theorem HasFailed.answered (failed : w.HasFailed) {x : Exchange}
    {session : Session (Except MigrationError Nat)} : (w.answered x carried session).HasFailed := by
  obtain ⟨y, member, failed⟩ := failed
  exact ⟨y, List.mem_cons_of_mem x member, failed⟩

/-- An exchange makes nothing last, or the record of the next migration. -/
theorem Stage.answered {rest : List Migration} (stage : w.Stage rest)
    (sending : w.session = .sending statement more)
    (obeyed : ∀ answer, reply = .ok answer → carried = true) :
    (w.kept ⟨statement, reply⟩ carried = [] ∧
        (w.answered ⟨statement, reply⟩ carried (more reply)).Stage rest) ∨
      ∃ m later, rest = m :: later ∧ w.kept ⟨statement, reply⟩ carried = [m.entry] ∧
        (w.answered ⟨statement, reply⟩ carried (more reply)).Stage later := by
  have refused {cause session} :
      (w.answered ⟨statement, .error cause⟩ carried session).HasFailed :=
    ⟨_, List.mem_cons_self, .inl ⟨cause, rfl⟩⟩
  cases stage with
  | applying session free =>
    cases rest with
    | nil => cases session.symm.trans sending
    | cons m rest =>
      obtain ⟨rfl, rfl⟩ := Session.sending.inj (session.symm.trans sending)
      refine .inl ⟨kept_of_bare rfl free, ?_⟩
      cases reply with
      | ok => exact .changing rfl (owesNothing_of_bare rfl free _)
      | error => exact .leaving rfl refused
  | changing session free =>
    obtain ⟨rfl, rfl⟩ := Session.sending.inj (session.symm.trans sending)
    refine .inl ⟨kept_of_bare rfl free, ?_⟩
    cases reply with
    | ok => exact .recording rfl (owesNothing_of_bare rfl free _)
    | error => exact .leaving rfl refused
  | @recording m rest total session free =>
    obtain ⟨rfl, rfl⟩ := Session.sending.inj (session.symm.trans sending)
    cases carried with
    | false =>
      cases reply with
      | ok answer => cases obeyed answer rfl
      | error => exact .inl ⟨rfl, .leaving rfl refused⟩
    | true =>
      -- The text of the migration may have ended the transaction; then the record lasts at once.
      rcases Statement.carry_insertRecord w.uncommitted? m free with outside | inside
      · refine .inr ⟨m, rest, rfl, congrArg Prod.fst outside, ?_⟩
        have free : ((Statement.insertRecord m).carry w.uncommitted?).2.getD [] = [] := by
          rw [outside]
          rfl
        cases reply with
        | ok => exact .committed rfl free
        | error => exact .leaving rfl refused
      · refine .inl ⟨congrArg Prod.fst inside, ?_⟩
        cases reply with
        | ok => exact .committing rfl (congrArg (·.2.getD []) inside)
        | error => exact .leaving rfl refused
  | committing session owed =>
    obtain ⟨rfl, rfl⟩ := Session.sending.inj (session.symm.trans sending)
    cases carried with
    | false =>
      cases reply with
      | ok answer => cases obeyed answer rfl
      | error => exact .inl ⟨rfl, .leaving rfl refused⟩
    | true =>
      -- The record lasts now, whether or not the worker hears of it.
      have effect := Statement.carry_commit w.uncommitted?
      refine .inr ⟨_, _, rfl, (congrArg Prod.fst effect).trans owed, ?_⟩
      have free : (commit.carry w.uncommitted?).2.getD [] = [] := by
        rw [effect]
        rfl
      cases reply with
      | ok => exact .applying rfl free
      | error => exact .leaving rfl refused
  | committed session free =>
    obtain ⟨rfl, rfl⟩ := Session.sending.inj (session.symm.trans sending)
    refine .inl ⟨kept_of_bare rfl free, ?_⟩
    cases reply with
    | ok => exact .applying rfl (owesNothing_of_bare rfl free _)
    | error => exact .leaving rfl refused
  | leaving session failed =>
    obtain ⟨rfl, rfl⟩ := Session.sending.inj (session.symm.trans sending)
    refine .inl ⟨?_, .failed rfl failed.answered⟩
    cases carried <;> simp [kept, Statement.effect, Statement.carry_rollback]
  | failed session => cases session.symm.trans sending

/-- A worker ends well when nothing is left, and with an error when a statement has failed. -/
theorem Stage.of_ended {rest : List Migration} {result : Except MigrationError Nat}
    (stage : w.Stage rest) (ended : w.session = .ended result) :
    ((∃ number, result = .ok number) ∧ rest = []) ∨
      (∃ e, result = .error e) ∧ w.HasFailed := by
  cases stage with
  | @applying _ total session =>
    cases rest with
    | nil =>
      obtain rfl := Session.ended.inj (session.symm.trans ended)
      exact .inl ⟨⟨total, rfl⟩, rfl⟩
    | cons => cases session.symm.trans ended
  | changing session => cases session.symm.trans ended
  | recording session => cases session.symm.trans ended
  | committing session => cases session.symm.trans ended
  | committed session => cases session.symm.trans ended
  | leaving session => cases session.symm.trans ended
  | @failed _ e session failed =>
    obtain rfl := Session.ended.inj (session.symm.trans ended)
    exact .inr ⟨⟨e, rfl⟩, failed⟩

end Worker

end LeaseQueue.Postgres
