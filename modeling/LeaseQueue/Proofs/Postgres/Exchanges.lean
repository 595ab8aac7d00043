import LeaseQueue.Postgres.Store
/-! The exchanges that a session can have with a server, whatever the server replies, and how they
split where sessions follow each other. -/
namespace LeaseQueue.Postgres

namespace Exchange

def Succeeded (x : Exchange) : Prop := ∃ reply, x.reply = .ok reply

end Exchange

namespace Session

variable {α β σ : Type}

/-- A session has some exchanges, with any replies, and ends with a value. -/
inductive Yields : Session α → List Exchange → α → Prop
  | ended (value : α) : Yields (.ended value) [] value
  | sending (statement : Statement) (next : Answered → Session α) (reply : Answered)
    (exchanges : List Exchange) (value : α) (rest : Yields (next reply) exchanges value) :
    Yields (.sending statement next) (⟨statement, reply⟩ :: exchanges) value

theorem yields_run (server : Server σ) (session : Session α) (state : σ) :
    session.Yields (session.run server state).2.1 (session.run server state).1 := by
  induction session generalizing state with
  | ended value => exact .ended value
  | sending statement next ih =>
    have rest := ih (server.respond statement state).1 (server.respond statement state).2
    exact .sending statement next _ _ _ rest

theorem yields_ended_iff {value other : α} {exchanges : List Exchange} :
    (Session.ended value).Yields exchanges other ↔ exchanges = [] ∧ other = value := by
  constructor
  · intro yields
    cases yields
    exact ⟨rfl, rfl⟩
  · rintro ⟨rfl, rfl⟩
    exact .ended other

theorem yields_sending_iff {statement : Statement} {next : Answered → Session α} {value : α}
    {exchanges : List Exchange} :
    (Session.sending statement next).Yields exchanges value ↔
      ∃ reply rest, exchanges = ⟨statement, reply⟩ :: rest ∧ (next reply).Yields rest value := by
  constructor
  · intro yields
    cases yields with
    | sending _ _ reply rest _ more => exact ⟨reply, rest, rfl, more⟩
  · rintro ⟨reply, rest, rfl, more⟩
    exact .sending statement next reply rest value more

theorem yields_bind_iff {session : Session α} {next : α → Session β} {b : β}
    {exchanges : List Exchange} :
    (session.bind next).Yields exchanges b ↔
      ∃ a first second, exchanges = first ++ second ∧ session.Yields first a ∧
        (next a).Yields second b := by
  induction session generalizing exchanges with
  | ended value =>
    constructor
    · intro yields
      exact ⟨value, [], exchanges, rfl, .ended value, yields⟩
    · rintro ⟨a, first, second, rfl, ended, more⟩
      obtain ⟨rfl, rfl⟩ := yields_ended_iff.mp ended
      exact more
  | sending statement more ih =>
    rw [Session.bind, yields_sending_iff]
    constructor
    · rintro ⟨reply, rest, rfl, yields⟩
      obtain ⟨a, first, second, rfl, one, two⟩ := (ih reply).mp yields
      exact ⟨a, ⟨statement, reply⟩ :: first, second, rfl, .sending _ _ _ _ _ one, two⟩
    · rintro ⟨a, first, second, rfl, one, two⟩
      obtain ⟨reply, rest, rfl, later⟩ := yields_sending_iff.mp one
      exact ⟨reply, rest ++ second, rfl, (ih reply).mpr ⟨a, rest, second, rfl, later, two⟩⟩

end Session

namespace Attempt

variable {ε α β : Type} {fail : DatabaseError → ε}

def Yields (attempt : Attempt ε α) (exchanges : List Exchange) (result : Except ε α) : Prop :=
  Session.Yields attempt.run exchanges result

theorem yields_pure_iff {value : α} {exchanges : List Exchange} {result : Except ε α} :
    Attempt.Yields (pure value) exchanges result ↔ exchanges = [] ∧ result = .ok value :=
  Session.yields_ended_iff

theorem yields_ofRead_iff {read : Except DatabaseError α} {exchanges : List Exchange}
    {result : Except ε α} :
    (ofRead fail read).Yields exchanges result ↔ exchanges = [] ∧ result = read.mapError fail := by
  cases read <;> exact Session.yields_ended_iff

theorem yields_send_iff {statement : Statement} {exchanges : List Exchange}
    {result : Except ε Reply} :
    (send fail statement).Yields exchanges result ↔
      ∃ answered : Answered, exchanges = [⟨statement, answered⟩] ∧
        result = answered.mapError fail := by
  unfold Yields send
  constructor
  · intro yields
    obtain ⟨answered, first, second, rfl, sent, more⟩ := Session.yields_bind_iff.mp yields
    obtain ⟨reply, rest, rfl, finished⟩ := Session.yields_sending_iff.mp sent
    obtain ⟨rfl, rfl⟩ := Session.yields_ended_iff.mp finished
    refine ⟨answered, ?_⟩
    cases answered with
    | ok reply =>
      obtain ⟨rfl, rfl⟩ := Session.yields_ended_iff.mp more
      exact ⟨rfl, rfl⟩
    | error cause =>
      obtain ⟨rfl, rfl⟩ := Session.yields_ended_iff.mp more
      exact ⟨rfl, rfl⟩
  · rintro ⟨answered, rfl, rfl⟩
    apply Session.yields_bind_iff.mpr
    refine ⟨answered, [⟨statement, answered⟩], [], rfl, .sending _ _ _ _ _ (.ended _), ?_⟩
    cases answered with
    | ok reply => exact .ended _
    | error cause => exact .ended _

/-- An attempt that goes on fails in its first part, or it succeeds there and goes on. -/
theorem yields_bind_iff {attempt : Attempt ε α} {next : α → Attempt ε β}
    {exchanges : List Exchange} {result : Except ε β} :
    Attempt.Yields (attempt >>= next) exchanges result ↔
      (∃ e, result = .error e ∧ attempt.Yields exchanges (.error e)) ∨
      ∃ a first second, exchanges = first ++ second ∧ attempt.Yields first (.ok a) ∧
        (next a).Yields second result := by
  have split : Attempt.Yields (attempt >>= next) exchanges result ↔
      ∃ outcome first second, exchanges = first ++ second ∧
        Session.Yields attempt.run first outcome ∧
        Session.Yields (ExceptT.bindCont next outcome) second result :=
    Session.yields_bind_iff
  rw [split]
  constructor
  · rintro ⟨outcome, first, second, rfl, one, more⟩
    cases outcome with
    | error e =>
      obtain ⟨rfl, rfl⟩ := Session.yields_ended_iff.mp more
      rw [List.append_nil]
      exact .inl ⟨e, rfl, one⟩
    | ok a => exact .inr ⟨a, first, second, rfl, one, more⟩
  · rintro (⟨e, rfl, one⟩ | ⟨a, first, second, rfl, one, more⟩)
    · exact ⟨.error e, exchanges, [], (List.append_nil _).symm, one, .ended _⟩
    · exact ⟨.ok a, first, second, rfl, one, more⟩

theorem yields_sendAll {statements : List Statement} {exchanges : List Exchange}
    (sent : (sendAll fail statements).Yields exchanges (.ok ())) :
    exchanges.map (·.statement) = statements ∧ ∀ x ∈ exchanges, x.Succeeded := by
  induction statements generalizing exchanges with
  | nil =>
    obtain ⟨rfl, _⟩ := yields_pure_iff.mp sent
    exact ⟨rfl, List.forall_mem_nil _⟩
  | cons statement statements ih =>
    rcases yields_bind_iff.mp sent with ⟨e, failed, _⟩ | ⟨reply, first, second, rfl, one, more⟩
    · cases failed
    · obtain ⟨answered, rfl, answer⟩ := yields_send_iff.mp one
      obtain ⟨same, succeeded⟩ := ih more
      cases answered with
      | error cause => cases answer
      | ok reply =>
        refine ⟨congrArg (statement :: ·) same, ?_⟩
        intro x member
        rcases List.mem_cons.mp member with rfl | later
        · exact ⟨reply, rfl⟩
        · exact succeeded x later

end Attempt

end LeaseQueue.Postgres
