import LeaseQueue.Proofs.Postgres.Transactions
import LeaseQueue.Proofs.Store.Keys
/-! What the answer of a transactional operation says of the exchanges with the server: a success is
backed by an attempt whose `COMMIT` was acknowledged, and after an error there is none. -/
namespace LeaseQueue

/-- The operations that a work store on a server runs as serializable transactions. -/
def StoreCall.transactional : StoreCall → Bool
  | .claimPrimary _ _ _ => true
  | .claimOldest _ _ => true
  | .leaseSecondary _ _ _ _ => true
  | .completePrimary _ _ => true
  | .completeSecondary _ _ _ => true
  | .ensurePrimary _ => true
  | .upsertSecondary _ _ => true
  | _ => false

namespace Postgres

open Operation (ofResult retried execute)

variable {α : Type}

/-- An operation has exchanged so much in some attempts, and only the last one can be committed. -/
structure Attempted (limit : Nat) (exchanges : List Exchange) (attempts : List (List Exchange)) :
    Prop where
  whole : exchanges = attempts.flatten
  limit : attempts.length ≤ limit
  disciplined : ∀ attempt ∈ attempts, Disciplined attempt
  last : ∀ attempt ∈ attempts.dropLast, ∀ x ∈ attempt, ¬ x.Acknowledged

/-- The last attempt was committed, and this is what it sent as a transaction. -/
def Committed (attempts : List (List Exchange)) (inner : List Exchange) : Prop :=
  ∃ opened set done, attempts.getLast? =
    some (⟨begin, .ok opened⟩ :: ⟨setSerializable, .ok set⟩ :: inner ++ [⟨commit, .ok done⟩])

/-- No attempt was committed, and an error that counts the attempts counts all that are allowed. -/
structure Uncommitted (limit : Nat) (attempts : List (List Exchange)) (e : StoreError) : Prop where
  unacknowledged : ∀ attempt ∈ attempts, ∀ x ∈ attempt, ¬ x.Acknowledged
  counted : ∀ operation made cause, e = .retriesExhausted operation made cause →
    made = attempts.length ∧ made = limit

/-- The statements of a committed transaction that back an answer. The key of a row that is leased
is the key of the row that was selected; an identifier is read from it only after the commit. -/
inductive Backed : StoreCall → List Exchange → Except StoreError StoreAnswer → Prop
  | primary (now stale ends : Instant) (staleness lease : Span) (selected leased : Reply)
    (row : Row) (rest : List Row) (key : List UInt8)
    (cutoff : staleCutoff now staleness = .ok stale) (granted : leaseEnd now lease = .ok ends)
    (rows : selected.rows = row :: rest) (read : readKey row = .ok key) :
    Backed (.claimPrimary now staleness lease)
      [⟨.selectPrimary now stale, .ok selected⟩, ⟨.leasePrimary key ends, .ok leased⟩]
      ((Store.readId key).map fun grouping => .primaryWork (some grouping))
  | noPrimary (now stale : Instant) (staleness lease : Span) (selected : Reply)
    (cutoff : staleCutoff now staleness = .ok stale) (rows : selected.rows = []) :
    Backed (.claimPrimary now staleness lease) [⟨.selectPrimary now stale, .ok selected⟩]
      (.ok (.primaryWork none))
  | oldest (now ends : Instant) (lease : Span) (selected leased : Reply) (row : Row)
    (rest : List Row) (raw : RawWork) (granted : leaseEnd now lease = .ok ends)
    (rows : selected.rows = row :: rest) (read : readRawWork row = .ok raw) :
    Backed (.claimOldest now lease)
      [⟨.selectOldest now, .ok selected⟩, ⟨.leaseOldest raw.branch raw.key ends, .ok leased⟩]
      (raw.toWork.map fun work => .secondaryWork (some work))
  | noOldest (now : Instant) (lease : Span) (selected : Reply) (rows : selected.rows = []) :
    Backed (.claimOldest now lease) [⟨.selectOldest now, .ok selected⟩]
      (.ok (.secondaryWork none))
  | leased (branch : String) (grouping : GroupingId) (now ends : Instant) (lease : Span)
    (updated : Reply) (row : Row) (rest : List Row) (digests : List Digest)
    (granted : leaseEnd now lease = .ok ends) (rows : updated.rows = row :: rest)
    (read : columnAt asDigests 0 "digests" row = .ok digests) :
    Backed (.leaseSecondary branch grouping now lease)
      [⟨.leaseDue branch grouping ends now, .ok updated⟩] (.ok (.digests (some digests)))
  | notLeased (branch : String) (grouping : GroupingId) (now ends : Instant) (lease : Span)
    (updated : Reply) (granted : leaseEnd now lease = .ok ends) (rows : updated.rows = []) :
    Backed (.leaseSecondary branch grouping now lease)
      [⟨.leaseDue branch grouping ends now, .ok updated⟩] (.ok (.digests none))
  | completedPrimary (grouping : GroupingId) (now : Instant) (updated : Reply) :
    Backed (.completePrimary grouping now) [⟨.completePrimary grouping now, .ok updated⟩]
      (.ok .done)
  | completedSecondary (branch : String) (grouping : GroupingId) (now : Instant)
    (updated : Reply) :
    Backed (.completeSecondary branch grouping now)
      [⟨.completeSecondary branch grouping now, .ok updated⟩] (.ok .done)
  | ensured (groupings : List GroupingId) (inner : List Exchange)
    (sent : inner.map (·.statement) = groupings.map .insertPrimary)
    (succeeded : ∀ x ∈ inner, x.Succeeded) :
    Backed (.ensurePrimary groupings) inner (.ok .done)
  | upserted (work : SecondaryWork) (updated : Instant) (inserted : Reply) :
    Backed (.upsertSecondary work updated)
      [⟨.upsertSecondary work.branch work.grouping work.digests updated, .ok inserted⟩]
      (.ok .done)

/-- A result is true to the exchanges that led to it. -/
def Reported (limit : Nat) (c : StoreCall) (exchanges : List Exchange)
    (result : Except StoreError StoreAnswer) : Prop :=
  ∃ attempts, Attempted limit exchanges attempts ∧
    ((∃ inner, Committed attempts inner ∧ Backed c inner result) ∨
      ∃ e, result = .error e ∧ Uncommitted limit attempts e)

section Retried

variable {settings : StoreSettings} {operation : String} {body : Attempt DatabaseError α}
  {exchanges : List Exchange} {result : Except StoreError α}

theorem yields_retried (plain : body.Plain)
    (yields : (retried settings operation body).Yields exchanges result) :
    ∃ attempts, Attempted settings.retry.maxAttempts exchanges attempts ∧
      ((∃ inner value, result = .ok value ∧ Committed attempts inner ∧
        body.Yields inner (.ok value)) ∨
      ∃ e, result = .error e ∧ Uncommitted settings.retry.maxAttempts attempts e) := by
  obtain ⟨conflicts, last, outcome, rfl, few, failed, final, ends⟩ := yields_attemptFrom yields
  have runs : ∀ attempt ∈ conflicts, ∃ cause, TransactionRun body attempt (.error cause) := by
    intro attempt member
    obtain ⟨cause, yields⟩ := failed attempt member
    exact ⟨cause, yields_serializable yields⟩
  have run := yields_serializable final
  have positive := settings.retry.pos
  have quiet : ∀ attempt ∈ conflicts, ∀ x ∈ attempt, ¬ x.Acknowledged := by
    intro attempt member
    obtain ⟨cause, run⟩ := runs attempt member
    exact run.unacknowledged plain
  refine ⟨conflicts ++ [last], ⟨?_, ?_, ?_, ?_⟩, ?_⟩
  · rw [List.flatten_append, List.flatten_singleton]
  · rw [List.length_append, List.length_singleton]
    omega
  · intro attempt member
    rcases List.mem_append.mp member with early | late
    · obtain ⟨cause, run⟩ := runs attempt early
      exact run.disciplined plain
    · cases List.mem_singleton.mp late
      exact run.disciplined plain
  · rw [List.dropLast_concat]
    exact quiet
  · have silent : ∀ cause, TransactionRun body last (.error cause) →
        ∀ attempt ∈ conflicts ++ [last], ∀ x ∈ attempt, ¬ x.Acknowledged := by
      intro cause failed attempt member
      rcases List.mem_append.mp member with early | late
      · exact quiet attempt early
      · cases List.mem_singleton.mp late
        exact failed.unacknowledged plain
    cases ends with
    | succeeded value =>
      cases run with
      | committed opened set done inner _ yields =>
        exact .inl ⟨inner, value, rfl, ⟨opened, set, done, List.getLast?_concat⟩, yields⟩
    | exhausted cause conflict all =>
      refine .inr ⟨_, rfl, silent cause run, ?_⟩
      rintro _ _ _ ⟨⟩
      rw [List.length_append, List.length_singleton]
      omega
    | failed cause serious => exact .inr ⟨_, rfl, silent cause run, nofun⟩

/-- A retried body reports the truth if each of its successes is backed. What is made of its value
afterwards takes no further statement. -/
theorem reported_retried (plain : body.Plain) {c : StoreCall}
    {finish : α → Except StoreError StoreAnswer}
    (backed : ∀ {inner value}, body.Yields inner (.ok value) → Backed c inner (finish value))
    (yields : (retried settings operation body).Yields exchanges result) :
    Reported settings.retry.maxAttempts c exchanges (result.bind finish) := by
  obtain ⟨attempts, attempted, outcome⟩ := yields_retried plain yields
  refine ⟨attempts, attempted, ?_⟩
  rcases outcome with ⟨inner, value, rfl, committed, succeeded⟩ | ⟨e, rfl, uncommitted⟩
  · exact .inl ⟨inner, committed, backed succeeded⟩
  · exact .inr ⟨e, rfl, uncommitted⟩

end Retried

/-- An operation that sends nothing reports its error truly. -/
theorem reported_unsent {limit : Nat} {c : StoreCall} {e : StoreError}
    (uncounted : ∀ operation made cause, e ≠ .retriesExhausted operation made cause) :
    Reported limit c [] (.error e) := by
  refine ⟨[], ⟨rfl, Nat.zero_le _, List.forall_mem_nil _, List.forall_mem_nil _⟩, .inr ⟨e, rfl, ?_⟩⟩
  constructor
  · exact List.forall_mem_nil _
  · intro operation made cause counts
    exact absurd counts (uncounted operation made cause)

theorem yields_answering {kind : α → StoreAnswer} {operation : Operation α}
    {exchanges : List Exchange} {result : Except StoreError StoreAnswer}
    (yields : (answering kind operation).Yields exchanges result) :
    ∃ outcome, operation.Yields exchanges outcome ∧ result = outcome.map kind := by
  rcases Attempt.yields_bind_iff.mp yields with
    ⟨e, rfl, failed⟩ | ⟨value, first, second, rfl, one, more⟩
  · exact ⟨.error e, failed, rfl⟩
  · obtain ⟨rfl, rfl⟩ := Attempt.yields_pure_iff.mp more
    rw [List.append_nil]
    exact ⟨.ok value, one, rfl⟩

theorem yields_ofResult_bind {β : Type} {read : Except StoreError α} {next : α → Operation β}
    {exchanges : List Exchange} {result : Except StoreError β}
    (yields : Attempt.Yields (ofResult read >>= next) exchanges result) :
    (∃ e, read = .error e ∧ exchanges = [] ∧ result = .error e) ∨
    ∃ value, read = .ok value ∧ (next value).Yields exchanges result := by
  rcases Attempt.yields_bind_iff.mp yields with
    ⟨e, rfl, failed⟩ | ⟨value, first, second, rfl, one, more⟩
  · obtain ⟨rfl, same⟩ := Session.yields_ended_iff.mp failed
    exact .inl ⟨e, same.symm, rfl, rfl⟩
  · obtain ⟨rfl, same⟩ := Session.yields_ended_iff.mp one
    exact .inr ⟨value, same.symm, more⟩

/-! What the bodies send when they succeed. -/

section Bodies

variable {inner : List Exchange}

theorem firstRow_eq_none {read : Row → Except DatabaseError α} {reply : Reply}
    (none : firstRow read reply = .ok none) : reply.rows = [] := by
  unfold firstRow at none
  split at none
  · assumption
  · obtain ⟨_, _, impossible⟩ := exists_of_map_eq_ok none
    cases impossible

theorem firstRow_eq_some {read : Row → Except DatabaseError α} {reply : Reply} {value : α}
    (some : firstRow read reply = .ok (some value)) :
    ∃ row rest, reply.rows = row :: rest ∧ read row = .ok value := by
  unfold firstRow at some
  split at some
  · cases some
  · rename_i row rest rows
    obtain ⟨_, read, same⟩ := exists_of_map_eq_ok some
    cases same
    exact ⟨row, rest, rows, read⟩

theorem yields_fetchFirst {read : Row → Except DatabaseError α} {statement : Statement}
    {first : Option α} (yields : (fetchFirst read statement).Yields inner (.ok first)) :
    ∃ reply, inner = [⟨statement, .ok reply⟩] ∧ firstRow read reply = .ok first := by
  rcases Attempt.yields_bind_iff.mp yields with ⟨_, impossible, _⟩ | ⟨reply, sent, rest, rfl, one, more⟩
  · cases impossible
  · obtain ⟨rfl, same⟩ := Attempt.yields_ofRead_iff.mp more
    rw [yields_send_id_iff.mp one]
    refine ⟨reply, rfl, ?_⟩
    cases found : firstRow read reply with
    | ok value =>
      rw [found] at same
      cases same
      rfl
    | error cause =>
      rw [found] at same
      cases same

theorem plain_fetchFirst {read : Row → Except DatabaseError α} {statement : Statement}
    (works : statement.Works) : (fetchFirst read statement).Plain :=
  .bind (.send works) fun _ => .ofRead _

/-- Selects a row and leases it, as claims of both queues do. -/
def selectThenLease (read : Row → Except DatabaseError α) (select : Statement)
    (lease : α → Statement) : Attempt DatabaseError (Option α) := do
  match ← fetchFirst read select with
  | none => return none
  | some value =>
    let _ ← Attempt.send id (lease value)
    return some value

theorem claimPrimaryOnce_eq (now stale ends : Instant) :
    claimPrimaryOnce now stale ends =
      selectThenLease readKey (.selectPrimary now stale) fun key => .leasePrimary key ends := by
  unfold claimPrimaryOnce selectThenLease
  congr 1
  funext key?
  cases key? <;> rfl

theorem claimOldestOnce_eq (now ends : Instant) :
    claimOldestOnce now ends =
      selectThenLease readRawWork (.selectOldest now) fun raw =>
        .leaseOldest raw.branch raw.key ends := by
  unfold claimOldestOnce selectThenLease
  congr 1
  funext raw?
  cases raw? <;> rfl

theorem plain_selectThenLease {read : Row → Except DatabaseError α} {select : Statement}
    {lease : α → Statement} (selects : select.Works) (leases : ∀ value, (lease value).Works) :
    (selectThenLease read select lease).Plain := by
  apply Attempt.Plain.bind (plain_fetchFirst selects)
  intro found
  cases found with
  | none => exact .pure none
  | some value => exact .bind (.send (leases value)) fun _ => .pure (some value)

theorem yields_selectThenLease {read : Row → Except DatabaseError α} {select : Statement}
    {lease : α → Statement} {found : Option α}
    (yields : (selectThenLease read select lease).Yields inner (.ok found)) :
    (∃ selected, found = none ∧ selected.rows = [] ∧ inner = [⟨select, .ok selected⟩]) ∨
    ∃ value selected leased row rest, found = some value ∧ selected.rows = row :: rest ∧
      read row = .ok value ∧ inner = [⟨select, .ok selected⟩, ⟨lease value, .ok leased⟩] := by
  rcases Attempt.yields_bind_iff.mp yields with
    ⟨_, impossible, _⟩ | ⟨first, fetched, rest, rfl, one, more⟩
  · cases impossible
  obtain ⟨selected, rfl, reads⟩ := yields_fetchFirst one
  cases first with
  | none =>
    obtain ⟨rfl, same⟩ := Attempt.yields_pure_iff.mp more
    cases same
    exact .inl ⟨selected, rfl, firstRow_eq_none reads, rfl⟩
  | some value =>
    obtain ⟨row, others, rows, read⟩ := firstRow_eq_some reads
    rcases Attempt.yields_bind_iff.mp more with
      ⟨_, impossible, _⟩ | ⟨leased, sent, none, rfl, two, ended⟩
    · cases impossible
    · obtain ⟨rfl, same⟩ := Attempt.yields_pure_iff.mp ended
      cases same
      rw [yields_send_id_iff.mp two]
      exact .inr ⟨value, selected, leased, row, others, rfl, rows, read, rfl⟩

end Bodies

/-! Each operation. -/

section Operations

variable {settings : StoreSettings} {exchanges : List Exchange}
  {result : Except StoreError StoreAnswer}

theorem leaseEnd_uncounted {now : Instant} {lease : Span} {e : StoreError}
    (failed : leaseEnd now lease = .error e) (operation : String) (made : Nat)
    (cause : DatabaseError) : e ≠ .retriesExhausted operation made cause := by
  unfold leaseEnd at failed
  split at failed
  · cases failed
  · cases failed
    exact nofun

theorem staleCutoff_uncounted {now : Instant} {staleness : Span} {e : StoreError}
    (failed : staleCutoff now staleness = .error e) (operation : String) (made : Nat)
    (cause : DatabaseError) : e ≠ .retriesExhausted operation made cause := by
  unfold staleCutoff at failed
  split at failed
  · cases failed
  · cases failed
    exact nofun

/-- Statements that are executed report that all of them were. -/
theorem reported_execute {c : StoreCall} {operation : String} {statements : List Statement}
    (works : ∀ s ∈ statements, s.Works)
    (backed : ∀ {inner}, (Attempt.sendAll id statements).Yields inner (.ok ()) →
      Backed c inner (.ok .done))
    (yields : (answering (fun _ => .done) (execute settings operation statements)).Yields
      exchanges result) :
    Reported settings.retry.maxAttempts c exchanges result := by
  obtain ⟨outcome, retried, rfl⟩ := yields_answering yields
  exact reported_retried (.sendAll works) backed retried

theorem reported_executeOne {c : StoreCall} {operation : String} {statement : Statement}
    (works : statement.Works)
    (backed : ∀ reply, Backed c [⟨statement, .ok reply⟩] (.ok .done))
    (yields : (answering (fun _ => .done) (execute settings operation [statement])).Yields
      exchanges result) :
    Reported settings.retry.maxAttempts c exchanges result := by
  apply reported_execute (List.forall_mem_singleton.mpr works) _ yields
  intro inner executed
  obtain ⟨sent, succeeded⟩ := Attempt.yields_sendAll executed
  obtain ⟨x, rfl, rfl⟩ := List.map_eq_singleton_iff.mp sent
  obtain ⟨reply, same⟩ := succeeded x (List.mem_singleton_self x)
  have whole : x = ⟨x.statement, .ok reply⟩ := by rw [← same]
  rw [whole]
  exact backed reply

/-- A claim of either queue: what is left of its row after the commit is checked then. -/
theorem reported_claim {α β : Type} {c : StoreCall} {kind : Option β → StoreAnswer}
    {operation : String} {read : Row → Except DatabaseError α} {select : Statement}
    {lease : α → Statement} {finish : Option α → Operation (Option β)}
    {outcome : Except StoreError (Option β)} (check : α → Except StoreError β)
    (selects : select.Works) (leases : ∀ value, (lease value).Works)
    (nothing : finish none = pure none)
    (checked : ∀ value, finish (some value) = ofResult ((check value).map some))
    (backedNone : ∀ selected, selected.rows = [] →
      Backed c [⟨select, .ok selected⟩] (.ok (kind none)))
    (backedSome : ∀ selected leased row rest value, selected.rows = row :: rest →
      read row = .ok value →
      Backed c [⟨select, .ok selected⟩, ⟨lease value, .ok leased⟩]
        ((check value).map fun result => kind (some result)))
    (yields : Attempt.Yields
      (retried settings operation (selectThenLease read select lease) >>= finish) exchanges
      outcome) :
    Reported settings.retry.maxAttempts c exchanges (outcome.map kind) := by
  have plain : (selectThenLease read select lease).Plain := plain_selectThenLease selects leases
  have finished : ∃ found, (retried settings operation
      (selectThenLease read select lease)).Yields exchanges found ∧
      outcome.map kind = found.bind fun value? =>
        match value? with
        | none => .ok (kind none)
        | some value => (check value).map fun result => kind (some result) := by
    rcases Attempt.yields_bind_iff.mp yields with
      ⟨e, rfl, failed⟩ | ⟨value?, first, second, rfl, one, last⟩
    · exact ⟨.error e, failed, rfl⟩
    refine ⟨.ok value?, ?_⟩
    cases value? with
    | none =>
      rw [nothing] at last
      obtain ⟨rfl, rfl⟩ := Session.yields_ended_iff.mp last
      rw [List.append_nil]
      exact ⟨one, rfl⟩
    | some value =>
      rw [checked] at last
      obtain ⟨rfl, rfl⟩ := Session.yields_ended_iff.mp last
      rw [List.append_nil]
      refine ⟨one, ?_⟩
      show ((check value).map some).map kind = (check value).map fun result => kind (some result)
      cases check value <;> rfl
  obtain ⟨found, retried, same⟩ := finished
  rw [same]
  apply reported_retried plain _ retried
  intro inner value? succeeded
  rcases yields_selectThenLease succeeded with
    ⟨selected, rfl, rows, rfl⟩ | ⟨value, selected, leased, row, rest, rfl, rows, reads, rfl⟩
  · exact backedNone selected rows
  · exact backedSome selected leased row rest value rows reads

theorem reported_claimPrimary {now : Instant} {staleness lease : Span}
    (yields : (answering .primaryWork (claimPrimary settings now staleness lease)).Yields
      exchanges result) :
    Reported settings.retry.maxAttempts (.claimPrimary now staleness lease) exchanges result := by
  obtain ⟨outcome, claimed, rfl⟩ := yields_answering yields
  rcases yields_ofResult_bind claimed with ⟨e, failed, rfl, rfl⟩ | ⟨stale, cutoff, timed⟩
  · exact reported_unsent (staleCutoff_uncounted failed)
  rcases yields_ofResult_bind timed with ⟨e, failed, rfl, rfl⟩ | ⟨ends, granted, more⟩
  · exact reported_unsent (leaseEnd_uncounted failed)
  rw [claimPrimaryOnce_eq] at more
  apply reported_claim Store.readId _ _ rfl (fun _ => rfl) _ _ more
  · exact Statement.works_of_arguments (List.cons_ne_nil _ _)
  · exact fun _ => Statement.works_of_arguments (List.cons_ne_nil _ _)
  · intro selected rows
    exact .noPrimary now stale staleness lease selected cutoff rows
  · intro selected leased row rest key rows read
    exact .primary now stale ends staleness lease selected leased row rest key cutoff granted rows
      read

theorem reported_claimOldest {now : Instant} {lease : Span}
    (yields : (answering .secondaryWork (claimOldest settings now lease)).Yields exchanges
      result) :
    Reported settings.retry.maxAttempts (.claimOldest now lease) exchanges result := by
  obtain ⟨outcome, claimed, rfl⟩ := yields_answering yields
  rcases yields_ofResult_bind claimed with ⟨e, failed, rfl, rfl⟩ | ⟨ends, granted, more⟩
  · exact reported_unsent (leaseEnd_uncounted failed)
  rw [claimOldestOnce_eq] at more
  apply reported_claim RawWork.toWork _ _ rfl (fun _ => rfl) _ _ more
  · exact Statement.works_of_arguments (List.cons_ne_nil _ _)
  · exact fun _ => Statement.works_of_arguments (List.cons_ne_nil _ _)
  · intro selected rows
    exact .noOldest now lease selected rows
  · intro selected leased row rest raw rows read
    exact .oldest now ends lease selected leased row rest raw granted rows read

theorem reported_leaseSecondary {branch : String} {grouping : GroupingId} {now : Instant}
    {lease : Span}
    (yields : (answering .digests (leaseSecondary settings branch grouping now lease)).Yields
      exchanges result) :
    Reported settings.retry.maxAttempts (.leaseSecondary branch grouping now lease) exchanges
      result := by
  obtain ⟨outcome, leased, rfl⟩ := yields_answering yields
  rcases yields_ofResult_bind leased with ⟨e, failed, rfl, rfl⟩ | ⟨ends, granted, retried⟩
  · exact reported_unsent (leaseEnd_uncounted failed)
  have plain : (fetchFirst (columnAt asDigests 0 "digests")
      (.leaseDue branch grouping ends now)).Plain :=
    plain_fetchFirst (Statement.works_of_arguments (List.cons_ne_nil _ _))
  apply reported_retried plain _ retried
  intro inner digests? succeeded
  obtain ⟨updated, rfl, reads⟩ := yields_fetchFirst succeeded
  cases digests? with
  | none => exact .notLeased branch grouping now ends lease updated granted (firstRow_eq_none reads)
  | some digests =>
    obtain ⟨row, rest, rows, read⟩ := firstRow_eq_some reads
    exact .leased branch grouping now ends lease updated row rest digests granted rows read

end Operations

/-- A server that gives its replies in turn, whatever it is sent. -/
def Server.inTurn : Server (List Answered) where
  respond _
    | [] => (.ok ⟨[], 0⟩, [])
    | answered :: rest => (answered, rest)

/-- There is one stale grouping, and the first `COMMIT` ends in a conflict. -/
def conflicting : List Answered :=
  let done : Answered := .ok ⟨[], 0⟩
  let selected : Answered := .ok ⟨[[("grouping_id", .bytes Store.soleGrouping.bytes)]], 0⟩
  let conflict : Answered := .error (.rejected (some "40001") "restart transaction")
  [done, done, selected, done, conflict, done, done, done, selected, done, done]

def staleClaim : StoreCall := .claimPrimary (.atMillis 100000) (.ofSeconds 60) (.ofSeconds 600)

end Postgres

end LeaseQueue
