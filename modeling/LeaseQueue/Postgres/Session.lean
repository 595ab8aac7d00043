import LeaseQueue.Store.Error
import LeaseQueue.Text.Blank
/-! Sessions with a database server: statements are sent one at a time, and what is sent next
depends on the replies. A session is data, so any server can answer it, and the statements of
several can be interleaved. -/
namespace LeaseQueue.Postgres

/-- An argument of a statement, or a column of a row. Times count microseconds since the epoch. -/
inductive Value where
  | null
  | bytes (bytes : List UInt8)
  | text (text : String)
  | texts (texts : List String)
  | integer (n : Int)
  | micros (n : Int)
  | json (text : String)
deriving DecidableEq

structure Statement where
  sql : String
  arguments : List Value
deriving DecidableEq

/-- A row, as the names of its columns with their values. -/
abbrev Row := List (String × Value)

/-- A reply to a statement that succeeded. -/
structure Reply where
  rows : List Row
  affected : Nat

/-- What a server replies to a statement. -/
abbrev Answered := Except DatabaseError Reply

/-- A statement that was sent, and the reply to it. -/
structure Exchange where
  statement : Statement
  reply : Answered

/-- A session that ends with a value. -/
inductive Session (α : Type) where
  | ended (value : α)
  | sending (statement : Statement) (next : Answered → Session α)

/-- A server that replies from a state of its own. -/
structure Server (σ : Type) where
  respond : Statement → σ → Answered × σ

namespace Session

variable {α β σ : Type}

def bind : Session α → (α → Session β) → Session β
  | .ended value, next => next value
  | .sending statement more, next => .sending statement fun reply => (more reply).bind next

instance : Monad Session where
  pure := .ended
  bind := bind

/-- Sends one statement. -/
def send (statement : Statement) : Session Answered := .sending statement .ended

/-- What a session ends with at a server, the exchanges that it had, and the server's state after
them. -/
def run (server : Server σ) : Session α → σ → α × List Exchange × σ
  | .ended value, state => (value, [], state)
  | .sending statement next, state =>
    let (reply, state) := server.respond statement state
    let (value, exchanges, state) := run server (next reply) state
    (value, ⟨statement, reply⟩ :: exchanges, state)

/-- A session after one reply. A session that has ended stays as it is. -/
def step (server : Server σ) : Session α → σ → Session α × σ
  | .ended value, state => (.ended value, state)
  | .sending statement next, state =>
    let (reply, state) := server.respond statement state
    (next reply, state)

end Session

/-- A reply that a script holds back for the statements that begin with a text. -/
structure ScriptedReply where
  beginning : String
  answer : Answered

/-- A server that follows a script. The first reply left is given to the first statement that
begins as it says, however it is spaced; other statements succeed with nothing. -/
def Server.scripted : Server (List ScriptedReply) where
  respond statement
    | [] => (.ok ⟨[], 0⟩, [])
    | reply :: rest =>
      if reply.beginning.toList.isPrefixOf (squeezeBlank statement.sql).toList then
        (reply.answer, rest)
      else (.ok ⟨[], 0⟩, reply :: rest)

end LeaseQueue.Postgres
