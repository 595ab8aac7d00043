import LeaseQueue.Proofs.Postgres.Reports
import LeaseQueue.Proofs.Store.Retries
/-! What conflicts with other workers come to on a server. An attempt at an operation is the
operation with a budget of one. A transaction goes through as many attempts as it may, a single
statement through one. -/
namespace LeaseQueue

namespace Postgres

variable {σ α β : Type} {server : Server σ}

namespace Session

/-- What a session at a server ends with, and the server's state after it. -/
def runAt (server : Server σ) (session : Session α) : StateM σ α := fun state =>
  ((session.run server state).1, (session.run server state).2.2)

theorem runAt_bind (session : Session α) (next : α → Session β) (state : σ) :
    (session.bind next).runAt server state =
      (next (session.runAt server state).1).runAt server (session.runAt server state).2 := by
  induction session generalizing state with
  | ended value => rfl
  | sending statement more ih =>
    exact ih (server.respond statement state).1 (server.respond statement state).2

theorem bind_assoc {γ : Type} (session : Session α) (first : α → Session β)
    (second : β → Session γ) :
    (session.bind first).bind second = session.bind fun a => (first a).bind second := by
  induction session with
  | ended value => rfl
  | sending statement more ih => exact congrArg (Session.sending statement) (funext ih)

end Session

/-- A run of attempts at a server is one in its states. -/
theorem runAt_attemptFrom (operation : String) (session : Session (Except DatabaseError α))
    (left made : Nat) (state : σ) :
    (RetryPolicy.attemptFrom operation session left made).runAt server state =
      RetryPolicy.attemptFrom operation (session.runAt server) left made state := by
  induction left generalizing made state with
  | zero =>
    unfold RetryPolicy.attemptFrom
    refine (Session.runAt_bind session _ state).trans ?_
    simp only [bind, StateT.bind]
    rcases session.runAt server state with ⟨result, next⟩
    cases result with
    | ok value => rfl
    | error cause =>
      cases conflict : cause.isConflict <;> simp only [conflict] <;> rfl
  | succ left ih =>
    unfold RetryPolicy.attemptFrom
    refine (Session.runAt_bind session _ state).trans ?_
    simp only [bind, StateT.bind]
    rcases session.runAt server state with ⟨result, next⟩
    cases result with
    | ok value => rfl
    | error cause =>
      cases conflict : cause.isConflict with
      | false =>
        simp only [conflict]
        rfl
      | true =>
        simp only [conflict]
        exact ih (made + 1) next

open Operation (ofResult retried execute)

theorem run_answering (kind : α → StoreAnswer) (operation : Operation α) :
    (answering kind operation).run = operation.run.bind fun result => .ended (result.map kind) := by
  show operation.run.bind _ = _
  congr 1
  funext result
  cases result <;> rfl

/-- A session that repeats a transaction after conflicts and makes an answer of its value. -/
def Repeats (c : StoreCall) (body : Attempt DatabaseError α)
    (finish : α → Except StoreError StoreAnswer) : Prop :=
  (∀ value e, finish value = .error e → ∃ reason, e = .invalidRow reason) ∧
  ∃ name, ∀ settings, (perform settings c).run =
    (settings.retry.run name (serializable body)).bind fun result => .ended (result.bind finish)

theorem repeats_execute {c : StoreCall} {name : String} {statements : List Statement}
    (same : ∀ settings, perform settings c =
      answering (fun _ => .done) (execute settings name statements)) :
    Repeats c (Attempt.sendAll id statements) fun _ => .ok .done := by
  refine ⟨nofun, name, ?_⟩
  intro settings
  rw [same, run_answering]
  show Session.bind _ _ = _
  congr 1

theorem error_of_readId {key : List UInt8} {e : StoreError} (failed : Store.readId key = .error e) :
    ∃ reason, e = .invalidRow reason := by
  unfold Store.readId at failed
  cases read : GroupingId.ofBytes key with
  | ok grouping =>
    rw [read] at failed
    cases failed
  | error cause =>
    rw [read] at failed
    cases failed
    exact ⟨_, rfl⟩

/-- A claim reads what its transaction has leased, if that is anything. -/
def readLeased (read : α → Except StoreError β) : Option α → Except StoreError (Option β)
  | none => .ok none
  | some value => (read value).map some

theorem repeats_claim {c : StoreCall} {kind : Option β → StoreAnswer} {name : String}
    {body : Attempt DatabaseError (Option α)} {read : α → Except StoreError β}
    (invalid : ∀ value e, read value = .error e → ∃ reason, e = .invalidRow reason)
    (same : ∀ settings, perform settings c =
      answering kind (retried settings name body >>= fun value? =>
        ofResult (readLeased read value?))) :
    Repeats c body fun value? => (readLeased read value?).map kind := by
  refine ⟨?_, name, ?_⟩
  · intro value? e failed
    cases value? with
    | none => cases failed
    | some value => exact invalid value e (error_of_map (error_of_map failed))
  · intro settings
    rw [same, run_answering]
    refine (Session.bind_assoc _ _ _).trans (congrArg (Session.bind _) (funext ?_))
    intro result
    cases result with
    | error e => rfl
    | ok value? => rfl

theorem unsent_or_repeats {c : StoreCall} (transactional : c.transactional = true) :
    (∃ e, c.times = .error e ∧ ∀ settings, (perform settings c).run = .ended (.error e)) ∨
      c.times = .ok () ∧ ∃ (α : Type) (body : Attempt DatabaseError α)
        (finish : α → Except StoreError StoreAnswer), Repeats c body finish := by
  cases c with
  | completePrimary grouping now => exact .inr ⟨rfl, _, _, _, repeats_execute fun _ => rfl⟩
  | completeSecondary branch grouping now =>
    exact .inr ⟨rfl, _, _, _, repeats_execute fun _ => rfl⟩
  | ensurePrimary groupings => exact .inr ⟨rfl, _, _, _, repeats_execute fun _ => rfl⟩
  | upsertSecondary work updated => exact .inr ⟨rfl, _, _, _, repeats_execute fun _ => rfl⟩
  | claimPrimary now staleness lease =>
    rw [StoreCall.times]
    cases cutoff : staleCutoff now staleness with
    | error e =>
      refine .inl ⟨e, rfl, fun settings => ?_⟩
      rw [perform, claimPrimary, cutoff]
      rfl
    | ok stale =>
      cases granted : leaseEnd now lease with
      | error e =>
        refine .inl ⟨e, rfl, fun settings => ?_⟩
        rw [perform, claimPrimary, cutoff, granted]
        rfl
      | ok ends =>
        have same : ∀ settings, perform settings (.claimPrimary now staleness lease) =
            answering .primaryWork (retried settings "claim_primary_work"
              (claimPrimaryOnce now stale ends) >>= fun key? =>
                ofResult (readLeased Store.readId key?)) := by
          intro settings
          rw [perform, claimPrimary, cutoff, granted]
          refine congrArg (answering _) (congrArg (retried settings _ _ >>= ·) (funext ?_))
          intro key?
          cases key? <;> rfl
        exact .inr ⟨rfl, _, _, _, repeats_claim (fun _ _ => error_of_readId) same⟩
  | claimOldest now lease =>
    rw [StoreCall.times]
    cases granted : leaseEnd now lease with
    | error e =>
      refine .inl ⟨e, rfl, fun settings => ?_⟩
      rw [perform, claimOldest, granted]
      rfl
    | ok ends =>
      have same : ∀ settings, perform settings (.claimOldest now lease) =
          answering .secondaryWork (retried settings "claim_secondary_work_low_contention"
            (claimOldestOnce now ends) >>= fun raw? =>
              ofResult (readLeased RawWork.toWork raw?)) := by
        intro settings
        rw [perform, claimOldest, granted]
        refine congrArg (answering _) (congrArg (retried settings _ _ >>= ·) (funext ?_))
        intro raw?
        cases raw? <;> rfl
      exact .inr ⟨rfl, _, _, _, repeats_claim
        (fun _ _ failed => error_of_readId (error_of_map failed)) same⟩
  | leaseSecondary branch grouping now lease =>
    rw [StoreCall.times]
    cases granted : leaseEnd now lease with
    | error e =>
      refine .inl ⟨e, rfl, fun settings => ?_⟩
      rw [perform, leaseSecondary, granted]
      rfl
    | ok ends =>
      refine .inr ⟨rfl, _, fetchFirst (columnAt asDigests 0 "digests")
        (.leaseDue branch grouping ends now), fun digests? => .ok (.digests digests?), ?_,
        "lease_secondary_work", fun settings => ?_⟩
      · intro digests? e failed
        cases failed
      · rw [perform, leaseSecondary, granted, run_answering]
        rfl
  | _ => cases transactional

/-- An operation of one statement sends it once, whatever the settings are. -/
theorem sends_once {c : StoreCall} {name : String} (retried : c.retried? = some name)
    (single : c.transactional = false) :
    ∃ (statement : Statement) (kind : Reply → StoreAnswer), ∀ settings,
      (perform settings c).run = .sending statement fun reply =>
        .ended ((reply.mapError .queryFailed).map kind) := by
  cases c with
  | putGrouping grouping params =>
    refine ⟨.insertGrouping grouping params, fun _ => .done, fun _ => ?_⟩
    refine congrArg (Session.sending _) (funext fun reply => ?_)
    cases reply <;> rfl
  | retireBranch branch =>
    refine ⟨.deleteBranch branch, fun reply => .removed reply.affected, fun _ => ?_⟩
    refine congrArg (Session.sending _) (funext fun reply => ?_)
    cases reply <;> rfl
  | claimPrimary | claimOldest | leaseSecondary | completePrimary | completeSecondary
  | ensurePrimary | upsertSecondary => cases single
  | _ => cases retried

/-- The conflict that a result tells of. -/
def conflict? : Except StoreError StoreAnswer → Option DatabaseError
  | .error (.queryFailed cause) => if cause.isConflict then some cause else none
  | .error (.retriesExhausted _ _ cause) => if cause.isConflict then some cause else none
  | _ => none

/-- One attempt at an operation: the operation with a budget of one. -/
def once (server : Server σ) (settings : StoreSettings) (c : StoreCall) :
    StateM σ (Except StoreError StoreAnswer) :=
  Session.runAt server (perform { settings with retry := .ofMax 1 } c).run

open RetryPolicy (stateAfter outcome Retryable reply Last)

theorem isConflict_of_conflict? {result : Except StoreError StoreAnswer} {cause : DatabaseError}
    (told : conflict? result = some cause) : cause.isConflict = true := by
  unfold conflict? at told
  split at told
  · obtain ⟨conflict, same⟩ := Option.ite_none_right_eq_some.mp told
    cases same
    exact conflict
  · obtain ⟨conflict, same⟩ := Option.ite_none_right_eq_some.mp told
    cases same
    exact conflict
  · cases told

section Absorbed

variable {settings : StoreSettings} {c : StoreCall} {body : Attempt DatabaseError α}
  {finish : α → Except StoreError StoreAnswer} {state : σ}

/-- Only a transaction that conflicts makes an attempt tell of a conflict. -/
theorem retryable_of_conflict? {name : String} {result : Except DatabaseError α}
    {cause : DatabaseError}
    (invalid : ∀ value e, finish value = .error e → ∃ reason, e = .invalidRow reason)
    (told : conflict? ((reply name 1 result).bind finish) = some cause) : Retryable result := by
  cases result with
  | error other =>
    refine ⟨other, rfl, ?_⟩
    by_contra serious
    rw [reply, if_neg serious] at told
    exact absurd told (by simp [Except.bind, conflict?, serious])
  | ok value =>
    change conflict? (finish value) = some cause at told
    cases finished : finish value with
    | ok answer =>
      rw [finished] at told
      cases told
    | error e =>
      obtain ⟨reason, rfl⟩ := invalid value e finished
      rw [finished] at told
      cases told

theorem runAt_of_run {name : String}
    (same : ∀ settings, (perform settings c).run =
      (settings.retry.run name (serializable body)).bind fun result => .ended (result.bind finish))
    (settings : StoreSettings) (state : σ) :
    Session.runAt server (perform settings c).run state =
      let ran := settings.retry.run name (Session.runAt server (serializable body)) state
      (ran.1.bind finish, ran.2) := by
  rw [same]
  refine (Session.runAt_bind _ _ state).trans ?_
  rw [RetryPolicy.run, runAt_attemptFrom]
  rfl

/-- Conflicts, fewer than attempts are allowed, do not show in the result. -/
theorem Repeats.absorbs (repeats : Repeats c body finish) {k : Nat} {answer : StoreAnswer}
    (few : k < settings.retry.maxAttempts)
    (conflicts : ∀ i < k, ∃ cause,
      conflict? (outcome (once server settings c) i state) = some cause)
    (accepted : outcome (once server settings c) k state = .ok answer) :
    (Session.run server (perform settings c).run state).1 = .ok answer := by
  obtain ⟨invalid, name, same⟩ := repeats
  let transaction := Session.runAt server (serializable body)
  -- An attempt at the operation is one at its transaction, so both go through the same states.
  have attempts : ∀ state, once server settings c state =
      ((reply name 1 (transaction state).1).bind finish, (transaction state).2) := by
    intro state
    refine (runAt_of_run same _ state).trans ?_
    have ends : Last (.ofMax 1) transaction state 0 := ⟨Nat.one_pos, nofun, .inl rfl⟩
    rw [RetryPolicy.run_eq name ends]
    rfl
  have states : stateAfter (once server settings c) = stateAfter transaction := by
    have next : (fun s => (once server settings c s).2) = fun s => (transaction s).2 :=
      funext fun s => by rw [attempts]
    funext n s
    rw [stateAfter, stateAfter, next]
  have outcomes : ∀ i, outcome (once server settings c) i state =
      (reply name 1 (outcome transaction i state)).bind finish := by
    intro i
    rw [outcome, states, attempts]
    rfl
  have refused : ∀ i < k, Retryable (outcome transaction i state) := by
    intro i early
    obtain ⟨cause, told⟩ := conflicts i early
    rw [outcomes] at told
    exact retryable_of_conflict? invalid told
  rw [outcomes] at accepted
  cases last : outcome transaction k state with
  | error cause =>
    rw [last] at accepted
    cases accepted
  | ok value =>
    rw [last] at accepted
    have ends : Last settings.retry transaction state k := by
      refine ⟨few, refused, .inr ?_⟩
      rw [last]
      rintro ⟨_, ⟨⟩, _⟩
    have ran : (Session.run server (perform settings c).run state).1 =
        (settings.retry.run name transaction state).1.bind finish :=
      congrArg Prod.fst (runAt_of_run same settings state)
    rw [ran, RetryPolicy.run_eq name ends, last]
    exact accepted

end Absorbed

theorem times_of_accepted {settings : StoreSettings} {c : StoreCall} {state : σ} {k : Nat}
    {answer : StoreAnswer} (accepted : outcome (once server settings c) k state = .ok answer) :
    c.times = .ok () := by
  by_cases transactional : c.transactional = true
  · rcases unsent_or_repeats transactional with ⟨e, _, unsent⟩ | ⟨inside, _⟩
    · rw [outcome, once, unsent] at accepted
      cases accepted
    · exact inside
  · cases c <;> first | rfl | exact absurd rfl transactional

/-- A single statement is one attempt, and its conflict is what comes of it. -/
theorem run_single {c : StoreCall} {name : String} (retried : c.retried? = some name)
    (single : c.transactional = false) (settings : StoreSettings) (state : σ) :
    let result := (Session.run server (perform settings c).run state).1
    outcome (once server settings c) 0 state = result ∧
      ∀ cause, conflict? result = some cause → result = .error (.queryFailed cause) := by
  intro result
  obtain ⟨statement, kind, sends⟩ := sends_once retried single
  have sent : result = ((server.respond statement state).1.mapError .queryFailed).map kind := by
    show (Session.run server (perform settings c).run state).1 = _
    rw [sends]
    rfl
  constructor
  · show (Session.run server (perform { settings with retry := .ofMax 1 } c).run state).1 = result
    rw [sent, sends]
    rfl
  · intro cause told
    rw [sent] at told ⊢
    cases replied : (server.respond statement state).1 with
    | ok reply =>
      rw [replied] at told
      cases told
    | error refusal =>
      rw [replied] at told
      obtain ⟨_, own⟩ := Option.ite_none_right_eq_some.mp told
      cases own
      rfl

/-- An operation whose attempts conflict, fewer of them than are allowed, before one succeeds does
so itself exactly if it runs as a transaction or nothing conflicted. A single statement fails with
its first conflict. The embedded store absorbs the same conflicts in each operation. -/
theorem absorbs_conflicts_iff (server : Server σ) (settings : StoreSettings) (c : StoreCall)
    (name : String) (retried : c.retried? = some name) (state : σ) (k : Nat)
    (few : k < settings.retry.maxAttempts) (answer : StoreAnswer)
    (conflicts : ∀ i < k, ∃ cause,
      conflict? (outcome (once server settings c) i state) = some cause)
    (accepted : outcome (once server settings c) k state = .ok answer) :
    let result := (Session.run server (perform settings c).run state).1
    (result = .ok answer ↔ c.transactional = true ∨ k = 0) ∧
    (c.transactional = false → ∀ cause,
      conflict? (outcome (once server settings c) 0 state) = some cause →
      result = .error (.queryFailed cause)) ∧
    ∀ (s : Store) (traffic : Traffic), s.Reached →
      (∀ i ≤ k, ∀ s, traffic.refusal? i s = conflict? (outcome (once server settings c) i state)) →
      ∃ answer next, Store.performRetried settings.retry traffic name s c =
        (.ok (.ok answer), k + 1, next) := by
  intro result
  have fails : c.transactional = false → ∀ cause,
      conflict? (outcome (once server settings c) 0 state) = some cause →
      result = .error (.queryFailed cause) := by
    intro single cause told
    have same : outcome (once server settings c) 0 state = result :=
      (run_single retried single settings state).1
    rw [same] at told
    exact (run_single retried single settings state).2 cause told
  refine ⟨⟨?_, ?_⟩, fails, ?_⟩
  · intro succeeded
    by_contra neither
    obtain ⟨single, some⟩ := not_or.mp neither
    obtain ⟨cause, told⟩ := conflicts 0 (Nat.pos_of_ne_zero some)
    cases succeeded.symm.trans (fails (Bool.eq_false_iff.mpr single) cause told)
  · intro absorbed
    by_cases transactional : c.transactional = true
    · rcases unsent_or_repeats transactional with ⟨e, _, unsent⟩ | ⟨_, _, _, _, repeats⟩
      · rw [outcome, once, unsent] at accepted
        cases accepted
      · exact repeats.absorbs few conflicts accepted
    · obtain rfl := absorbed.resolve_left transactional
      have single : c.transactional = false := Bool.eq_false_iff.mpr transactional
      exact (run_single retried single settings state).1.symm.trans accepted
  · intro s traffic reached same
    refine Store.performRetried_absorbs retried (times_of_accepted accepted) few ?_ ?_ ?_
    · intro i early s
      obtain ⟨cause, told⟩ := conflicts i early
      exact ⟨cause, (same i (Nat.le_of_lt early) s).trans told, isConflict_of_conflict? told⟩
    · intro s
      rw [same k (Nat.le_refl k) s, accepted]
      rfl
    · exact (reached.after _).legible

/-- A claim whose first `COMMIT` conflicts wins its row in the second attempt. -/
theorem absorbs_conflicts_commit :
    let settings : StoreSettings := ⟨.default, none⟩
    let answer : StoreAnswer := .primaryWork (some Store.soleGrouping)
    conflict? (outcome (once .inTurn settings staleClaim) 0 conflicting) =
        some (.rejected (some "40001") "restart transaction") ∧
      outcome (once .inTurn settings staleClaim) 1 conflicting = .ok answer ∧
      (Session.run .inTurn (perform settings staleClaim).run conflicting).1 = .ok answer := by
  intro settings answer
  have told : conflict? (outcome (once .inTurn settings staleClaim) 0 conflicting) =
      some (.rejected (some "40001") "restart transaction") := by decide +kernel
  have accepted : outcome (once .inTurn settings staleClaim) 1 conflicting = .ok answer := by
    decide +kernel
  have conflicts : ∀ i < 1, ∃ cause,
      conflict? (outcome (once .inTurn settings staleClaim) i conflicting) = some cause := by
    intro i early
    obtain rfl := Nat.lt_one_iff.mp early
    exact ⟨_, told⟩
  have absorbed := absorbs_conflicts_iff .inTurn settings staleClaim "claim_primary_work" rfl
    conflicting 1 (by decide) answer conflicts accepted
  exact ⟨told, accepted, absorbed.1.mpr (.inl rfl)⟩

/-- The first of three attempts conflicts, and the next ones are accepted. -/
def firstConflicts : Traffic where
  others _ := []
  refusal? made _ :=
    if made = 0 then some (.rejected (some "40001") "restart transaction") else none

/-- A grouping is not put and a branch is not retired on a server after one conflict, though two
more attempts are allowed and the first of them would succeed. The embedded store does both. -/
theorem single_statements_conflict :
    let settings : StoreSettings := ⟨.ofMax 3, none⟩
    let conflict : DatabaseError := .rejected (some "40001") "restart transaction"
    let put : StoreCall := .putGrouping Store.soleGrouping .empty
    let retire : StoreCall := .retireBranch "a"
    let result (c : StoreCall) := (Session.run .inTurn (perform settings c).run [.error conflict]).1
    let embedded (name : String) (c : StoreCall) :=
      (Store.performRetried (.ofMax 3) firstConflicts name .empty c).1
    (conflict? (outcome (once .inTurn settings put) 0 [.error conflict]) = some conflict ∧
      outcome (once .inTurn settings put) 1 [.error conflict] = .ok .done ∧
      result put = .error (.queryFailed conflict) ∧
      embedded "put_grouping" put = .ok (.ok .done)) ∧
    conflict? (outcome (once .inTurn settings retire) 0 [.error conflict]) = some conflict ∧
      outcome (once .inTurn settings retire) 1 [.error conflict] = .ok (.removed 0) ∧
      result retire = .error (.queryFailed conflict) ∧
      embedded "retire_secondary_branch" retire = .ok (.ok (.removed 0)) := by
  decide +kernel

end Postgres

end LeaseQueue
