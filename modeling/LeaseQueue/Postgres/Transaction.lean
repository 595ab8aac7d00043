import LeaseQueue.Postgres.Session
/-! Transactions: a body between `BEGIN` and `COMMIT`, and a `ROLLBACK` after any failure. -/
namespace LeaseQueue.Postgres

variable {ε α : Type}

/-- A session that can fail. -/
abbrev Attempt (ε : Type) := ExceptT ε Session

namespace Attempt

/-- Sends a statement. A refusal ends the attempt with the error that `fail` makes of it. -/
def send (fail : DatabaseError → ε) (statement : Statement) : Attempt ε Reply :=
  (Session.send statement).bind fun
    | .ok reply => .ended (.ok reply)
    | .error cause => .ended (.error (fail cause))

/-- Sends statements in turn and passes over their replies. -/
def sendAll (fail : DatabaseError → ε) : List Statement → Attempt ε Unit
  | [] => pure ()
  | statement :: rest => do
    let _ ← send fail statement
    sendAll fail rest

/-- Goes on with a value that was read, or ends with its error. -/
def ofRead (fail : DatabaseError → ε) : Except DatabaseError α → Attempt ε α
  | .ok value => Session.ended (.ok value)
  | .error cause => Session.ended (.error (fail cause))

end Attempt

def begin : Statement := ⟨"BEGIN", []⟩

def commit : Statement := ⟨"COMMIT", []⟩

def rollback : Statement := ⟨"ROLLBACK", []⟩

def setSerializable : Statement := ⟨"SET TRANSACTION ISOLATION LEVEL SERIALIZABLE", []⟩

/-- Sends the opening statements, runs the body and commits. -/
def upToCommit (fail : DatabaseError → ε) (opening : List Statement) (body : Attempt ε α) :
    Attempt ε α := do
  Attempt.sendAll fail opening
  let value ← body
  let _ ← Attempt.send fail commit
  return value

/-- Runs a body as a transaction. Whichever statement fails, a rollback follows it, whose own reply
changes nothing. -/
def transaction (fail : DatabaseError → ε) (opening : List Statement) (body : Attempt ε α) :
    Session (Except ε α) :=
  (upToCommit fail opening body).run.bind fun
    | .ok value => .ended (.ok value)
    | .error e => .sending rollback fun _ => .ended (.error e)

/-- A transaction that behaves as if no other ran at the same time, or conflicts. -/
def serializable (body : Attempt DatabaseError α) : Session (Except DatabaseError α) :=
  transaction id [begin, setSerializable] body

end LeaseQueue.Postgres
