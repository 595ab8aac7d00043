import LeaseQueue.Proofs.Postgres.Exchanges
/-! The shape of transactions and of their repetition after conflicts. An attempt sends `COMMIT` only
if all went well before, and no attempt follows one whose `COMMIT` was acknowledged. -/
namespace LeaseQueue.Postgres

variable {α : Type}

/-- A `COMMIT` that the server has acknowledged. -/
def Exchange.Acknowledged (x : Exchange) : Prop := x.statement = commit ∧ x.Succeeded

/-- The exchanges of one attempt at a transaction: how far it got, and what it came to. -/
inductive TransactionRun (body : Attempt DatabaseError α) :
    List Exchange → Except DatabaseError α → Prop
  | unbegun (cause : DatabaseError) (undone : Answered) :
    TransactionRun body [⟨begin, .error cause⟩, ⟨rollback, undone⟩] (.error cause)
  | unset (cause : DatabaseError) (opened : Reply) (undone : Answered) :
    TransactionRun body
      [⟨begin, .ok opened⟩, ⟨setSerializable, .error cause⟩, ⟨rollback, undone⟩] (.error cause)
  | failed (cause : DatabaseError) (opened set : Reply) (inner : List Exchange)
    (undone : Answered) (yields : body.Yields inner (.error cause)) :
    TransactionRun body
      (⟨begin, .ok opened⟩ :: ⟨setSerializable, .ok set⟩ :: inner ++ [⟨rollback, undone⟩])
      (.error cause)
  | uncommitted (cause : DatabaseError) (opened set : Reply) (inner : List Exchange) (value : α)
    (undone : Answered) (yields : body.Yields inner (.ok value)) :
    TransactionRun body
      (⟨begin, .ok opened⟩ :: ⟨setSerializable, .ok set⟩ :: inner ++
        [⟨commit, .error cause⟩, ⟨rollback, undone⟩])
      (.error cause)
  | committed (opened set done : Reply) (inner : List Exchange) (value : α)
    (yields : body.Yields inner (.ok value)) :
    TransactionRun body
      (⟨begin, .ok opened⟩ :: ⟨setSerializable, .ok set⟩ :: inner ++ [⟨commit, .ok done⟩])
      (.ok value)

theorem yields_send_id_iff {statement : Statement} {exchanges : List Exchange}
    {result : Except DatabaseError Reply} :
    (Attempt.send id statement).Yields exchanges result ↔ exchanges = [⟨statement, result⟩] := by
  have same : ∀ answered : Answered, answered.mapError id = answered := by
    intro answered
    cases answered <;> rfl
  rw [Attempt.yields_send_iff]
  constructor
  · rintro ⟨answered, rfl, rfl⟩
    rw [same]
  · rintro rfl
    exact ⟨result, rfl, (same result).symm⟩

theorem yields_opening {exchanges : List Exchange} {result : Except DatabaseError Unit}
    (yields : (Attempt.sendAll id [begin, setSerializable]).Yields exchanges result) :
    (∃ cause, result = .error cause ∧ exchanges = [⟨begin, .error cause⟩]) ∨
    (∃ opened cause, result = .error cause ∧
      exchanges = [⟨begin, .ok opened⟩, ⟨setSerializable, .error cause⟩]) ∨
    ∃ opened set, result = .ok () ∧
      exchanges = [⟨begin, .ok opened⟩, ⟨setSerializable, .ok set⟩] := by
  rcases Attempt.yields_bind_iff.mp yields with
    ⟨cause, rfl, failed⟩ | ⟨opened, first, rest, rfl, one, more⟩
  · exact .inl ⟨cause, rfl, yields_send_id_iff.mp failed⟩
  · rw [yields_send_id_iff.mp one]
    rcases Attempt.yields_bind_iff.mp more with
      ⟨cause, rfl, failed⟩ | ⟨set, second, none, rfl, two, ended⟩
    · rw [yields_send_id_iff.mp failed]
      exact .inr (.inl ⟨opened, cause, rfl, rfl⟩)
    · obtain ⟨rfl, rfl⟩ := Attempt.yields_pure_iff.mp ended
      rw [yields_send_id_iff.mp two]
      exact .inr (.inr ⟨opened, set, rfl, rfl⟩)

/-- What a transaction has sent before its rollback, or before its end if it was committed. -/
theorem yields_upToCommit {body : Attempt DatabaseError α} {exchanges : List Exchange}
    {result : Except DatabaseError α}
    (yields : (upToCommit id [begin, setSerializable] body).Yields exchanges result) :
    (∃ cause, result = .error cause ∧ ∀ undone,
      TransactionRun body (exchanges ++ [⟨rollback, undone⟩]) (.error cause)) ∨
    ∃ value, result = .ok value ∧ TransactionRun body exchanges (.ok value) := by
  rcases Attempt.yields_bind_iff.mp yields with
    ⟨cause, rfl, failed⟩ | ⟨_, opening, rest, rfl, started, more⟩
  · refine .inl ⟨cause, rfl, ?_⟩
    intro undone
    rcases yields_opening failed with ⟨_, ⟨⟩, rfl⟩ | ⟨opened, _, ⟨⟩, rfl⟩ | ⟨_, _, impossible, _⟩
    · exact .unbegun cause undone
    · exact .unset cause opened undone
    · cases impossible
  obtain ⟨opened, set, rfl⟩ : ∃ opened set,
      opening = [⟨begin, .ok opened⟩, ⟨setSerializable, .ok set⟩] := by
    rcases yields_opening started with
      ⟨_, impossible, _⟩ | ⟨_, _, impossible, _⟩ | ⟨opened, set, _, same⟩
    · cases impossible
    · cases impossible
    · exact ⟨opened, set, same⟩
  rcases Attempt.yields_bind_iff.mp more with
    ⟨cause, rfl, failed⟩ | ⟨value, inner, last, rfl, worked, closing⟩
  · refine .inl ⟨cause, rfl, ?_⟩
    intro undone
    exact .failed cause opened set rest undone failed
  rcases Attempt.yields_bind_iff.mp closing with
    ⟨cause, rfl, failed⟩ | ⟨done, closed, none, rfl, closes, ended⟩
  · refine .inl ⟨cause, rfl, ?_⟩
    intro undone
    rw [yields_send_id_iff.mp failed, List.append_assoc, List.append_assoc]
    exact .uncommitted cause opened set inner value undone worked
  · obtain ⟨rfl, rfl⟩ := Attempt.yields_pure_iff.mp ended
    rw [yields_send_id_iff.mp closes]
    exact .inr ⟨value, rfl, .committed opened set done inner value worked⟩

theorem yields_serializable {body : Attempt DatabaseError α} {exchanges : List Exchange}
    {result : Except DatabaseError α}
    (yields : (serializable body).Yields exchanges result) :
    TransactionRun body exchanges result := by
  obtain ⟨outcome, first, second, rfl, one, more⟩ := Session.yields_bind_iff.mp yields
  rcases yields_upToCommit one with ⟨cause, rfl, failed⟩ | ⟨value, rfl, committed⟩
  · obtain ⟨undone, rest, rfl, ended⟩ := Session.yields_sending_iff.mp more
    obtain ⟨rfl, rfl⟩ := Session.yields_ended_iff.mp ended
    exact failed undone
  · obtain ⟨rfl, rfl⟩ := Session.yields_ended_iff.mp more
    rw [List.append_nil]
    exact committed

/-! Bodies that read and write, and leave the transaction itself alone. -/

theorem begin_ne_commit : begin ≠ commit := by decide

theorem setSerializable_ne_commit : setSerializable ≠ commit := by decide

theorem rollback_ne_commit : rollback ≠ commit := by decide

/-- A statement that reads or writes: one that does not control the transaction. -/
structure Statement.Works (statement : Statement) : Prop where
  notBegin : statement ≠ begin
  notSet : statement ≠ setSerializable
  notCommit : statement ≠ commit
  notRollback : statement ≠ rollback

/-- Statements that control a transaction have no arguments. -/
theorem Statement.works_of_arguments {statement : Statement} (some : statement.arguments ≠ []) :
    statement.Works := by
  constructor
  all_goals
    rintro rfl
    exact some rfl

/-- A body of statements that read or write, which succeeds only if all of them do. -/
structure Attempt.Plain (body : Attempt DatabaseError α) : Prop where
  works : ∀ {exchanges result}, body.Yields exchanges result →
    ∀ x ∈ exchanges, x.statement.Works
  strict : ∀ {exchanges value}, body.Yields exchanges (.ok value) → ∀ x ∈ exchanges, x.Succeeded

namespace Attempt.Plain

variable {β : Type}

theorem pure (value : α) : Plain (Pure.pure value) := by
  constructor
  · intro exchanges result yields
    obtain ⟨rfl, _⟩ := yields_pure_iff.mp yields
    exact List.forall_mem_nil _
  · intro exchanges other yields
    obtain ⟨rfl, _⟩ := yields_pure_iff.mp yields
    exact List.forall_mem_nil _

theorem ofRead (read : Except DatabaseError α) : Plain (Attempt.ofRead id read) := by
  constructor
  · intro exchanges result yields
    obtain ⟨rfl, _⟩ := yields_ofRead_iff.mp yields
    exact List.forall_mem_nil _
  · intro exchanges other yields
    obtain ⟨rfl, _⟩ := yields_ofRead_iff.mp yields
    exact List.forall_mem_nil _

theorem send {statement : Statement} (works : statement.Works) :
    Plain (Attempt.send id statement) := by
  constructor
  · intro exchanges result yields x member
    rw [yields_send_id_iff.mp yields] at member
    cases List.mem_singleton.mp member
    exact works
  · intro exchanges reply yields x member
    rw [yields_send_id_iff.mp yields] at member
    cases List.mem_singleton.mp member
    exact ⟨reply, rfl⟩

theorem bind {body : Attempt DatabaseError α} {next : α → Attempt DatabaseError β}
    (plain : body.Plain) (plainNext : ∀ a, (next a).Plain) : Plain (body >>= next) := by
  constructor
  · intro exchanges result yields x member
    rcases yields_bind_iff.mp yields with ⟨e, rfl, failed⟩ | ⟨a, first, second, rfl, one, more⟩
    · exact plain.works failed x member
    · rcases List.mem_append.mp member with early | late
      · exact plain.works one x early
      · exact (plainNext a).works more x late
  · intro exchanges value yields x member
    rcases yields_bind_iff.mp yields with ⟨e, failed, _⟩ | ⟨a, first, second, rfl, one, more⟩
    · cases failed
    · rcases List.mem_append.mp member with early | late
      · exact plain.strict one x early
      · exact (plainNext a).strict more x late

theorem sendAll {statements : List Statement} (works : ∀ s ∈ statements, s.Works) :
    Plain (Attempt.sendAll id statements) := by
  induction statements with
  | nil => exact pure ()
  | cons statement statements ih =>
    exact bind (send (works statement List.mem_cons_self)) fun _ =>
      ih fun s member => works s (List.mem_cons_of_mem _ member)

end Attempt.Plain

/-! What every attempt keeps to. -/

structure Disciplined (attempt : List Exchange) : Prop where
  /-- It begins a transaction, once. -/
  opens : ∃ reply rest, attempt = ⟨begin, reply⟩ :: rest ∧ ∀ x ∈ rest, x.statement ≠ begin
  /-- It reads and writes only in a transaction that has been made serializable. -/
  isolated : ∀ before x after, attempt = before ++ x :: after → x.statement.Works →
    ∃ opened set rest, before = ⟨begin, .ok opened⟩ :: ⟨setSerializable, .ok set⟩ :: rest
  /-- It commits only what has succeeded in every statement. -/
  sound : ∀ before x after, attempt = before ++ x :: after → x.statement = commit →
    ∀ y ∈ before, y.Succeeded

theorem exists_of_append_eq {β : Type} {front back before after : List β} {x : β}
    (same : front ++ back = before ++ x :: after) (outside : x ∉ front) :
    ∃ more, before = front ++ more ∧ back = more ++ x :: after := by
  rcases List.append_eq_append_iff.mp same with ⟨more, rfl, rest⟩ | ⟨more, rfl, rest⟩
  · exact ⟨more, rfl, rest⟩
  · cases more with
    | nil =>
      rw [List.append_nil, rest]
      exact ⟨[], (List.append_nil _).symm, rfl⟩
    | cons y more =>
      cases rest
      exact absurd (List.mem_append_right _ List.mem_cons_self) outside

theorem isolated_of_opened {opened set : Reply} {rest before after : List Exchange} {x : Exchange}
    (same : ⟨begin, .ok opened⟩ :: ⟨setSerializable, .ok set⟩ :: rest = before ++ x :: after)
    (works : x.statement.Works) :
    ∃ opened set rest, before = ⟨begin, .ok opened⟩ :: ⟨setSerializable, .ok set⟩ :: rest := by
  cases before with
  | nil =>
    cases same
    exact absurd rfl works.notBegin
  | cons first before =>
    cases before with
    | nil =>
      cases same
      exact absurd rfl works.notSet
    | cons second before =>
      cases same
      exact ⟨opened, set, before, rfl⟩

theorem ne_commit_of_mem_opened {opened set : Reply} {inner : List Exchange}
    (works : ∀ x ∈ inner, x.statement.Works) {x : Exchange}
    (member : x ∈ (⟨begin, .ok opened⟩ :: ⟨setSerializable, .ok set⟩ :: inner : List Exchange)) :
    x.statement ≠ commit := by
  rcases List.mem_cons.mp member with rfl | member
  · exact begin_ne_commit
  rcases List.mem_cons.mp member with rfl | member
  · exact setSerializable_ne_commit
  · exact (works x member).notCommit

theorem succeeded_of_mem_opened {opened set : Reply} {inner : List Exchange}
    (strict : ∀ x ∈ inner, x.Succeeded) {x : Exchange}
    (member : x ∈ (⟨begin, .ok opened⟩ :: ⟨setSerializable, .ok set⟩ :: inner : List Exchange)) :
    x.Succeeded := by
  rcases List.mem_cons.mp member with rfl | member
  · exact ⟨opened, rfl⟩
  rcases List.mem_cons.mp member with rfl | member
  · exact ⟨set, rfl⟩
  · exact strict x member

namespace TransactionRun

variable {body : Attempt DatabaseError α} {attempt : List Exchange}
  {result : Except DatabaseError α}

theorem opens (run : TransactionRun body attempt result) (plain : body.Plain) :
    ∃ reply rest, attempt = ⟨begin, reply⟩ :: rest ∧ ∀ x ∈ rest, x.statement ≠ begin := by
  have inside : ∀ {inner : List Exchange} {outcome : Except DatabaseError α} {set : Reply}
      {closing : List Exchange}, body.Yields inner outcome →
      (∀ x ∈ closing, x.statement ≠ begin) →
      ∀ x ∈ (⟨setSerializable, .ok set⟩ :: inner ++ closing : List Exchange),
        x.statement ≠ begin := by
    intro inner outcome set closing yields closed x member
    rcases List.mem_append.mp member with early | late
    · rcases List.mem_cons.mp early with rfl | worked
      · show setSerializable ≠ begin
        decide
      · exact (plain.works yields x worked).notBegin
    · exact closed x late
  cases run with
  | unbegun cause undone => exact ⟨_, _, rfl, by simp [rollback, begin]⟩
  | unset cause opened undone => exact ⟨_, _, rfl, by simp [rollback, setSerializable, begin]⟩
  | failed cause opened set inner undone yields =>
    exact ⟨_, _, rfl, inside yields (by simp [rollback, begin])⟩
  | uncommitted cause opened set inner value undone yields =>
    exact ⟨_, _, rfl, inside yields (by simp [rollback, commit, begin])⟩
  | committed opened set done inner value yields =>
    exact ⟨_, _, rfl, inside yields (by simp [commit, begin])⟩

theorem isolated (run : TransactionRun body attempt result) {before after : List Exchange}
    {x : Exchange} (same : attempt = before ++ x :: after) (works : x.statement.Works) :
    ∃ opened set rest, before = ⟨begin, .ok opened⟩ :: ⟨setSerializable, .ok set⟩ :: rest := by
  have member : x ∈ attempt := by
    rw [same]
    exact List.mem_append_right _ List.mem_cons_self
  cases run with
  | unbegun cause undone =>
    simp only [List.mem_cons, List.not_mem_nil, or_false] at member
    rcases member with rfl | rfl
    · exact absurd rfl works.notBegin
    · exact absurd rfl works.notRollback
  | unset cause opened undone =>
    simp only [List.mem_cons, List.not_mem_nil, or_false] at member
    rcases member with rfl | rfl | rfl
    · exact absurd rfl works.notBegin
    · exact absurd rfl works.notSet
    · exact absurd rfl works.notRollback
  | failed | uncommitted | committed => exact isolated_of_opened same works

/-- All went well before a `COMMIT`, and the attempt succeeds if the server acknowledges it. -/
theorem commits (run : TransactionRun body attempt result) (plain : body.Plain)
    {before after : List Exchange} {x : Exchange} (same : attempt = before ++ x :: after)
    (commits : x.statement = commit) :
    (∀ y ∈ before, y.Succeeded) ∧ (x.Succeeded → ∃ value, result = .ok value) := by
  have member : x ∈ attempt := by
    rw [same]
    exact List.mem_append_right _ List.mem_cons_self
  have outside : ∀ {opened set : Reply} {inner : List Exchange}
      {outcome : Except DatabaseError α}, body.Yields inner outcome →
      x ∉ (⟨begin, .ok opened⟩ :: ⟨setSerializable, .ok set⟩ :: inner : List Exchange) := by
    intro opened set inner outcome yields inside
    exact ne_commit_of_mem_opened (plain.works yields) inside commits
  cases run with
  | unbegun cause undone =>
    simp only [List.mem_cons, List.not_mem_nil, or_false] at member
    rcases member with rfl | rfl
    · exact absurd commits begin_ne_commit
    · exact absurd commits rollback_ne_commit
  | unset cause opened undone =>
    simp only [List.mem_cons, List.not_mem_nil, or_false] at member
    rcases member with rfl | rfl | rfl
    · exact absurd commits begin_ne_commit
    · exact absurd commits setSerializable_ne_commit
    · exact absurd commits rollback_ne_commit
  | failed cause opened set inner undone yields =>
    obtain ⟨more, rfl, rest⟩ := exists_of_append_eq same (outside yields)
    have last : x ∈ [(⟨rollback, undone⟩ : Exchange)] := by
      rw [rest]
      exact List.mem_append_right _ List.mem_cons_self
    cases List.mem_singleton.mp last
    exact absurd commits rollback_ne_commit
  | uncommitted cause opened set inner value undone yields =>
    obtain ⟨more, rfl, rest⟩ := exists_of_append_eq same (outside yields)
    cases more with
    | nil =>
      cases rest
      rw [List.append_nil]
      refine ⟨fun _ => succeeded_of_mem_opened (plain.strict yields), ?_⟩
      rintro ⟨_, impossible⟩
      cases impossible
    | cons first more =>
      -- Behind the `COMMIT` there is nothing but the rollback.
      have last : x ∈ [(⟨rollback, undone⟩ : Exchange)] := by
        rw [(List.cons.inj rest).2]
        exact List.mem_append_right _ List.mem_cons_self
      cases List.mem_singleton.mp last
      exact absurd commits rollback_ne_commit
  | committed opened set done inner value yields =>
    obtain ⟨more, rfl, rest⟩ := exists_of_append_eq same (outside yields)
    cases more with
    | nil =>
      rw [List.append_nil]
      exact ⟨fun _ => succeeded_of_mem_opened (plain.strict yields), fun _ => ⟨value, rfl⟩⟩
    | cons first more =>
      have last : x ∈ ([] : List Exchange) := by
        rw [(List.cons.inj rest).2]
        exact List.mem_append_right _ List.mem_cons_self
      cases last

theorem disciplined (run : TransactionRun body attempt result) (plain : body.Plain) :
    Disciplined attempt :=
  ⟨run.opens plain, fun _ _ _ => run.isolated, fun _ _ _ same commits =>
    (run.commits plain same commits).1⟩

/-- The server has not acknowledged the `COMMIT` of an attempt that failed. -/
theorem unacknowledged {cause : DatabaseError} (run : TransactionRun body attempt (.error cause))
    (plain : body.Plain) : ∀ x ∈ attempt, ¬ x.Acknowledged := by
  rintro x member ⟨commits, succeeded⟩
  obtain ⟨before, after, same⟩ := List.append_of_mem member
  obtain ⟨value, impossible⟩ := (run.commits plain same commits).2 succeeded
  cases impossible

end TransactionRun

/-! Attempts after conflicts. -/

section Retries

variable {operation : String} {session : Session (Except DatabaseError α)}
  {exchanges : List Exchange} {result : Except StoreError α}

/-- What the last of several attempts comes to, `allowed` of them being allowed. -/
inductive LastAttempt (operation : String) (allowed made : Nat) :
    Except DatabaseError α → Except StoreError α → Prop
  | succeeded (value : α) : LastAttempt operation allowed made (.ok value) (.ok value)
  | exhausted (cause : DatabaseError) (conflict : cause.isConflict = true) (all : made = allowed) :
    LastAttempt operation allowed made (.error cause)
      (.error (.retriesExhausted operation made cause))
  | failed (cause : DatabaseError) (serious : cause.isConflict = false) :
    LastAttempt operation allowed made (.error cause) (.error (.queryFailed cause))

/-- An attempt is the last one, or it ends in a conflict and further ones are left. -/
theorem yields_attemptFrom_cases {left made : Nat}
    (yields : (RetryPolicy.attemptFrom operation session left made).Yields exchanges result) :
    (∃ outcome, session.Yields exchanges outcome ∧
      LastAttempt operation (made + left + 1) (made + 1) outcome result) ∨
    ∃ cause fewer first rest, left = fewer + 1 ∧ cause.isConflict = true ∧
      exchanges = first ++ rest ∧ session.Yields first (.error cause) ∧
      (RetryPolicy.attemptFrom operation session fewer (made + 1)).Yields rest result := by
  unfold RetryPolicy.attemptFrom at yields
  obtain ⟨outcome, first, rest, rfl, one, more⟩ := Session.yields_bind_iff.mp yields
  cases outcome with
  | ok value =>
    obtain ⟨rfl, rfl⟩ := Session.yields_ended_iff.mp more
    rw [List.append_nil]
    exact .inl ⟨.ok value, one, .succeeded value⟩
  | error cause =>
    cases conflict : cause.isConflict with
    | false =>
      simp only [conflict, Bool.false_eq_true, if_false] at more
      obtain ⟨rfl, rfl⟩ := Session.yields_ended_iff.mp more
      rw [List.append_nil]
      exact .inl ⟨.error cause, one, .failed cause conflict⟩
    | true =>
      simp only [conflict, if_true] at more
      cases left with
      | zero =>
        obtain ⟨rfl, rfl⟩ := Session.yields_ended_iff.mp more
        rw [List.append_nil]
        exact .inl ⟨.error cause, one, .exhausted cause conflict rfl⟩
      | succ fewer => exact .inr ⟨cause, fewer, first, rest, rfl, conflict, rfl, one, more⟩

/-- All attempts but the last one have ended in conflicts. -/
theorem yields_attemptFrom {left made : Nat}
    (yields : (RetryPolicy.attemptFrom operation session left made).Yields exchanges result) :
    ∃ (conflicts : List (List Exchange)) (last : List Exchange)
      (outcome : Except DatabaseError α),
      exchanges = conflicts.flatten ++ last ∧ conflicts.length ≤ left ∧
      (∀ attempt ∈ conflicts, ∃ cause, session.Yields attempt (.error cause)) ∧
      session.Yields last outcome ∧
      LastAttempt operation (made + left + 1) (made + conflicts.length + 1) outcome result := by
  induction left generalizing made exchanges with
  | zero =>
    rcases yields_attemptFrom_cases yields with ⟨outcome, one, ends⟩ | ⟨_, _, _, _, ⟨⟩, _⟩
    exact ⟨[], exchanges, outcome, rfl, Nat.zero_le _, List.forall_mem_nil _, one, ends⟩
  | succ left ih =>
    rcases yields_attemptFrom_cases yields with
      ⟨outcome, one, ends⟩ | ⟨cause, fewer, first, rest, ⟨⟩, _, rfl, one, more⟩
    · exact ⟨[], exchanges, outcome, rfl, Nat.zero_le _, List.forall_mem_nil _, one, ends⟩
    · obtain ⟨conflicts, last, outcome, rfl, few, failed, final, ends⟩ := ih more
      refine ⟨first :: conflicts, last, outcome, (List.append_assoc ..).symm, ?_, ?_, final, ?_⟩
      · rw [List.length_cons]
        omega
      · intro attempt member
        rcases List.mem_cons.mp member with rfl | later
        · exact ⟨cause, one⟩
        · exact failed attempt later
      · have allowed : made + 1 + left + 1 = made + (left + 1) + 1 := by omega
        have count : made + 1 + conflicts.length + 1 = made + (first :: conflicts).length + 1 := by
          rw [List.length_cons]
          omega
        rw [← allowed, ← count]
        exact ends

end Retries

end LeaseQueue.Postgres
