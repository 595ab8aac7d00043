import LeaseQueue.Postgres.Migrate
import LeaseQueue.Proofs.Schema.Recorded
import Mathlib.Logic.Relation
/-! Workers that apply the same migrations to one database at the same time. Their statements come in
any order, and any of them may be refused, whether or not it was carried out. Of the database nothing
is assumed but that the records of a transaction are kept when it commits and not before, and that a
name that is recorded keeps its record. -/
namespace LeaseQueue.Postgres

/-! What a worker sends, one statement after the other. -/

namespace Migrating

/-- Outside a transaction a refusal ends the run at once. -/
def orStop (next : Session (Except MigrationError Nat)) :
    Answered → Session (Except MigrationError Nat)
  | .ok _ => next
  | .error cause => .ended (.error (.database cause))

def leave (e : MigrationError) : Session (Except MigrationError Nat) :=
  .sending rollback fun _ => .ended (.error e)

/-- Inside a transaction a refusal is followed by a rollback. -/
def orLeave (fail : DatabaseError → MigrationError) (next : Session (Except MigrationError Nat)) :
    Answered → Session (Except MigrationError Nat)
  | .ok _ => next
  | .error cause => leave (fail cause)

def commitThen (next : Session (Except MigrationError Nat)) : Session (Except MigrationError Nat) :=
  .sending commit (orLeave .database next)

def recordThen (m : Migration) (next : Session (Except MigrationError Nat)) :
    Session (Except MigrationError Nat) :=
  .sending (.insertRecord m) (orLeave .database (commitThen next))

def changeThen (m : Migration) (next : Session (Except MigrationError Nat)) :
    Session (Except MigrationError Nat) :=
  .sending ⟨m.sql, []⟩ (orLeave (.statementFailed m.name) (recordThen m next))

/-- Applying what is left of the pending migrations. -/
def plan (total : Nat) : List Migration → Session (Except MigrationError Nat)
  | [] => .ended (.ok total)
  | m :: rest => .sending begin (orLeave .database (changeThen m (plan total rest)))

/-- What follows when some checksums are recorded. -/
def planAfter (migrations : List Migration) (recorded : Schema.Recorded) :
    Session (Except MigrationError Nat) :=
  match Schema.pending recorded migrations with
  | .error e => .ended (.error e)
  | .ok pending => plan pending.length pending

/-- What follows the reading of the records. -/
def planFrom (migrations : List Migration) :
    Except DatabaseError (List AppliedMigration) → Session (Except MigrationError Nat)
  | .error cause => .ended (.error (.database cause))
  | .ok applied => planAfter migrations (checksums applied)

def readThen (migrations : List Migration) : Answered → Session (Except MigrationError Nat)
  | .ok reply => planFrom migrations (reply.rows.mapM readRecord)
  | .error cause => planFrom migrations (.error cause)

theorem sending_congr {α : Type} {statement : Statement} {next other : Answered → Session α}
    (ok : ∀ reply, next (.ok reply) = other (.ok reply))
    (error : ∀ cause, next (.error cause) = other (.error cause)) :
    Session.sending statement next = .sending statement other := by
  congr 1
  funext answered
  cases answered with
  | ok reply => exact ok reply
  | error cause => exact error cause

theorem run_applyAll (total : Nat) (rest : List Migration) :
    (do applyAll rest; return total : Migrating Nat).run = plan total rest := by
  induction rest with
  | nil => rfl
  | cons m rest ih =>
    refine sending_congr (fun _ => sending_congr (fun _ => sending_congr (fun _ =>
      sending_congr (fun _ => ih) ?_) ?_) ?_) ?_
    all_goals exact fun _ => rfl

theorem run_planFrom (migrations : List Migration)
    (read : Except DatabaseError (List AppliedMigration)) :
    (do
      let records ← Attempt.ofRead .database read
      let pending ← ExceptT.mk (.ended (Schema.pending (checksums records) migrations))
      applyAll pending
      return pending.length : Migrating Nat).run = planFrom migrations read := by
  cases read with
  | error cause => rfl
  | ok applied =>
    change Session.bind (.ended (Schema.pending (checksums applied) migrations))
      (ExceptT.bindCont fun pending => do applyAll pending; return pending.length) = _
    simp only [planFrom, planAfter]
    cases Schema.pending (checksums applied) migrations with
    | error e => rfl
    | ok pending => exact run_applyAll pending.length pending

theorem run_applyPending (migrations : List Migration) :
    (applyPending migrations).run =
      .sending .createRecords (orStop (.sending .createRecords (orStop
        (.sending .selectRecords (readThen migrations))))) := by
  refine sending_congr (fun _ => sending_congr (fun _ => sending_congr (fun reply => ?_) ?_) ?_) ?_
  · exact run_planFrom migrations (reply.rows.mapM readRecord)
  all_goals exact fun _ => rfl

end Migrating

/-! What the database makes of it. -/

namespace Statement

/-- The record that a statement makes, if it makes one. -/
def record? : Statement → Option (String × String)
  | ⟨sql, [.text name, .text checksum]⟩ =>
    if sql = (insertRecord ⟨"", ""⟩).sql then some (name, checksum) else none
  | _ => none

/-- The records that last from now on when a statement is carried out, and those that its transaction
has yet to commit. A statement outside a transaction is a transaction of its own. -/
def carry (statement : Statement) (uncommitted? : Option Schema.Recorded) :
    Schema.Recorded × Option Schema.Recorded :=
  if statement = begin then ([], some (uncommitted?.getD []))
  else if statement = commit then (uncommitted?.getD [], none)
  else if statement = rollback then ([], none)
  else
    match statement.record?, uncommitted? with
    | none, _ => ([], uncommitted?)
    | some record, none => ([record], none)
    | some record, some uncommitted => ([], some (uncommitted ++ [record]))

/-- The same of a statement that may not have been carried out. -/
def effect (statement : Statement) (carried : Bool) (uncommitted? : Option Schema.Recorded) :
    Schema.Recorded × Option Schema.Recorded :=
  if carried then statement.carry uncommitted? else ([], uncommitted?)

section Effects

variable (uncommitted? : Option Schema.Recorded)

theorem carry_commit : commit.carry uncommitted? = (uncommitted?.getD [], none) := by
  unfold carry
  rw [if_neg (by decide), if_pos rfl]

theorem carry_rollback : rollback.carry uncommitted? = ([], none) := by
  unfold carry
  rw [if_neg (by decide), if_neg (by decide), if_pos rfl]

theorem insertRecord_ne (m : Migration) {statement : Statement} (bare : statement.arguments = []) :
    insertRecord m ≠ statement := by
  rintro rfl
  simp [insertRecord] at bare

theorem record?_insertRecord (m : Migration) : (insertRecord m).record? = some m.entry := by
  simp only [insertRecord, record?, if_true]
  rfl

/-- Outside a transaction a record lasts at once. -/
theorem carry_insertRecord (m : Migration) (nothing : uncommitted?.getD [] = []) :
    (insertRecord m).carry uncommitted? = ([m.entry], none) ∨
      (insertRecord m).carry uncommitted? = ([], some [m.entry]) := by
  unfold carry
  rw [if_neg (insertRecord_ne m rfl), if_neg (insertRecord_ne m rfl),
    if_neg (insertRecord_ne m rfl), record?_insertRecord]
  cases uncommitted? with
  | none => exact .inl rfl
  | some uncommitted =>
    obtain rfl : uncommitted = [] := nothing
    exact .inr rfl

/-- A statement without arguments makes no record, whatever its text. -/
theorem effect_of_bare {statement : Statement} (bare : statement.arguments = []) (carried : Bool)
    (nothing : uncommitted?.getD [] = []) :
    (statement.effect carried uncommitted?).1 = [] ∧
      (statement.effect carried uncommitted?).2.getD [] = [] := by
  cases carried with
  | false => exact ⟨rfl, nothing⟩
  | true =>
    have none_made : statement.record? = none := by
      cases statement
      subst bare
      rfl
    simp only [effect, carry, none_made, if_true]
    split
    · exact ⟨rfl, nothing⟩
    split
    · exact ⟨nothing, rfl⟩
    split
    · exact ⟨rfl, rfl⟩
    · exact ⟨rfl, nothing⟩

end Effects

end Statement

/-- The reply shows some records. -/
def Exchange.Shows (x : Exchange) (records : Schema.Recorded) : Prop :=
  x.statement = .selectRecords ∧ ∃ reply applied, x.reply = .ok reply ∧
    reply.rows.mapM Migrating.readRecord = .ok applied ∧
    records = applied.map fun record => (record.name, record.checksum)

/-- The statement was refused, or its reply cannot be read. -/
def Exchange.Failed (x : Exchange) : Prop :=
  (∃ cause, x.reply = .error cause) ∨ x.statement = .selectRecords ∧
    ∃ reply cause, x.reply = .ok reply ∧ reply.rows.mapM Migrating.readRecord = .error cause

/-- A worker that applies migrations: what it has yet to send, the records of its open transaction,
its exchanges, the latest first, and the records that it committed, told so or not. -/
structure Worker where
  session : Session (Except MigrationError Nat)
  uncommitted? : Option Schema.Recorded
  exchanges : List Exchange
  committed : Schema.Recorded

namespace Worker

def start (migrations : List Migration) : Worker :=
  ⟨(Migrating.applyPending migrations).run, none, [], []⟩

/-- The records that an exchange of the worker makes last. -/
def kept (w : Worker) (x : Exchange) (carried : Bool) : Schema.Recorded :=
  (x.statement.effect carried w.uncommitted?).1

/-- The worker after an exchange. -/
def answered (w : Worker) (x : Exchange) (carried : Bool)
    (session : Session (Except MigrationError Nat)) : Worker where
  session
  uncommitted? := (x.statement.effect carried w.uncommitted?).2
  exchanges := x :: w.exchanges
  committed := w.committed ++ w.kept x carried

end Worker

/-- A database with the workers that have come to it so far. -/
structure Rollout where
  records : Schema.Recorded
  workers : List Worker

namespace Rollout

/-- The rollout after an exchange of the worker in a place. -/
def answered (r : Rollout) (i : Nat) (w : Worker) (x : Exchange) (carried : Bool)
    (session : Session (Except MigrationError Nat)) : Rollout where
  records := Schema.keep r.records (w.kept x carried)
  workers := r.workers.set i (w.answered x carried session)

/-- A worker comes, or one of them has its next statement answered. A statement that is refused may
have been carried out. A worker that stops is one that is never answered again. -/
inductive Next (migrations : List Migration) : Rollout → Rollout → Prop
  | enter (r : Rollout) : Next migrations r { r with workers := r.workers ++ [.start migrations] }
  | answer (r : Rollout) (i : Nat) (w : Worker) (statement : Statement)
    (more : Answered → Session (Except MigrationError Nat)) (reply : Answered) (carried : Bool)
    (found : r.workers[i]? = some w) (sending : w.session = .sending statement more)
    (obeyed : ∀ answer, reply = .ok answer → carried = true)
    (shown : ∀ records, Exchange.Shows ⟨statement, reply⟩ records → records.Perm r.records) :
    Next migrations r (r.answered i w ⟨statement, reply⟩ carried (more reply))

def Reaches (migrations : List Migration) : Rollout → Rollout → Prop :=
  Relation.ReflTransGen (Next migrations)

end Rollout

end LeaseQueue.Postgres
