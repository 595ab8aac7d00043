import LeaseQueue.Proofs.Store.Legible
import LeaseQueue.Store.Retry
import Mathlib.Data.Nat.Find
import Mathlib.Logic.Function.Iterate
/-! Operations that are run again after a conflict. A conflict leaves nothing behind, so what other
workers do between two attempts is all that the next one finds changed. -/
namespace LeaseQueue

namespace DatabaseError

theorem isConflict_iff {cause : DatabaseError} :
    cause.isConflict = true ↔ ∃ code reason, cause = .rejected (some code) reason ∧
      code ∈ ["40001", "40P01", "5", "517", "6"] := by
  constructor
  · intro conflict
    cases cause with
    | rejected code reason =>
      cases code with
      | none => cases conflict
      | some code => exact ⟨code, reason, rfl, List.contains_iff_mem.mp conflict⟩
    | _ => cases conflict
  · rintro ⟨code, reason, rfl, known⟩
    exact List.contains_iff_mem.mpr known

end DatabaseError

namespace RetryPolicy

variable {σ α : Type}

/-- Whether a result asks for another attempt. -/
def Retryable (result : Except DatabaseError α) : Prop :=
  ∃ cause, result = .error cause ∧ cause.isConflict = true

/-- What a run returns after its last attempt, so many having been made. -/
def reply (operation : String) (made : Nat) : Except DatabaseError α → Except StoreError α
  | .ok value => .ok value
  | .error cause =>
    .error (if cause.isConflict then .retriesExhausted operation made cause else .queryFailed cause)

theorem reply_of_settled (operation : String) (made : Nat) {result : Except DatabaseError α}
    (settled : ¬ Retryable result) :
    reply operation made result = result.mapError .queryFailed := by
  cases result with
  | ok value => rfl
  | error cause =>
    have serious : ¬ cause.isConflict = true := fun conflict => settled ⟨cause, rfl, conflict⟩
    rw [reply, if_neg serious]
    rfl

/-- The state after so many attempts. -/
def stateAfter (attempt : StateM σ α) (n : Nat) (s : σ) : σ := (fun s => (attempt s).2)^[n] s

/-- The result of an attempt, so many having been made before. -/
def outcome (attempt : StateM σ α) (n : Nat) (s : σ) : α := (attempt (stateAfter attempt n s)).1

section Runs

variable {operation : String} {attempt : StateM σ (Except DatabaseError α)} {s : σ}

theorem stateAfter_succ (n : Nat) :
    stateAfter attempt (n + 1) s = stateAfter attempt n (attempt s).2 := rfl

theorem stateAfter_succ' (n : Nat) :
    stateAfter attempt (n + 1) s = (attempt (stateAfter attempt n s)).2 :=
  Function.iterate_succ_apply' _ n s

theorem outcome_succ (n : Nat) :
    outcome attempt (n + 1) s = outcome attempt n (attempt s).2 := rfl

theorem attemptFrom_of_settled (left made : Nat) (settled : ¬ Retryable (attempt s).1) :
    attemptFrom operation attempt left made s =
      (reply operation (made + 1) (attempt s).1, (attempt s).2) := by
  rw [reply_of_settled operation _ settled]
  unfold attemptFrom
  simp only [bind, StateT.bind]
  rcases ran : attempt s with ⟨result, next⟩
  rw [ran] at settled
  cases result with
  | ok value => rfl
  | error cause =>
    have serious : cause.isConflict = false :=
      Bool.eq_false_iff.mpr fun conflict => settled ⟨cause, rfl, conflict⟩
    simp only [serious]
    rfl

theorem attemptFrom_of_conflict (left made : Nat) {cause : DatabaseError}
    (failed : (attempt s).1 = .error cause) (conflict : cause.isConflict = true) :
    attemptFrom operation attempt left made s =
      match left with
      | 0 => (.error (.retriesExhausted operation (made + 1) cause), (attempt s).2)
      | left + 1 => attemptFrom operation attempt left (made + 1) (attempt s).2 := by
  rw [attemptFrom.eq_def]
  simp only [bind, StateT.bind]
  rcases ran : attempt s with ⟨result, next⟩
  rw [ran] at failed
  cases failed
  simp only [conflict]
  cases left <;> rfl

/-- A run makes one attempt after the other until one is settled or none is left. -/
theorem attemptFrom_eq (left made last : Nat) (within : last ≤ left)
    (conflicts : ∀ i < last, Retryable (outcome attempt i s))
    (final : last = left ∨ ¬ Retryable (outcome attempt last s)) :
    attemptFrom operation attempt left made s =
      (reply operation (made + last + 1) (outcome attempt last s),
        stateAfter attempt (last + 1) s) := by
  induction last generalizing left made s with
  | zero =>
    by_cases again : Retryable (attempt s).1
    · obtain rfl : 0 = left := final.resolve_right fun settled => settled again
      obtain ⟨cause, failed, conflict⟩ := again
      have replied : reply operation (made + 1) (attempt s).1 =
          .error (.retriesExhausted operation (made + 1) cause) := by
        rw [failed, reply, if_pos conflict]
      rw [attemptFrom_of_conflict 0 made failed conflict]
      exact Prod.ext replied.symm rfl
    · exact attemptFrom_of_settled left made again
  | succ last ih =>
    obtain ⟨cause, failed, conflict⟩ := conflicts 0 (Nat.succ_pos last)
    obtain ⟨left, rfl⟩ : ∃ fewer, left = fewer + 1 := ⟨left - 1, by omega⟩
    have first : (attempt s).1 = .error cause := failed
    rw [attemptFrom_of_conflict (left + 1) made first conflict]
    rw [stateAfter_succ, outcome_succ, show made + (last + 1) + 1 = made + 1 + last + 1 by omega]
    exact ih left (made + 1) (by omega)
      (fun i early => conflicts (i + 1) (Nat.succ_lt_succ early))
      (final.imp_left Nat.succ.inj)

/-- The last of the attempts that a run makes, counted from zero. -/
structure Last (policy : RetryPolicy) (attempt : StateM σ (Except DatabaseError α)) (s : σ)
    (last : Nat) : Prop where
  within : last < policy.maxAttempts
  conflicts : ∀ i < last, Retryable (outcome attempt i s)
  final : last + 1 = policy.maxAttempts ∨ ¬ Retryable (outcome attempt last s)

theorem run_eq {policy : RetryPolicy} {last : Nat} (operation : String)
    (ends : Last policy attempt s last) :
    policy.run operation attempt s =
      (reply operation (last + 1) (outcome attempt last s), stateAfter attempt (last + 1) s) := by
  have within := ends.within
  have budget := policy.pos
  rw [run, attemptFrom_eq (policy.maxAttempts - 1) 0 last (by omega) ends.conflicts
    (ends.final.imp_left (by omega)), Nat.zero_add]

theorem exists_last (policy : RetryPolicy) (attempt : StateM σ (Except DatabaseError α)) (s : σ) :
    ∃ last, Last policy attempt s last := by
  classical
  have stops : ∃ n, n + 1 = policy.maxAttempts ∨ ¬ Retryable (outcome attempt n s) :=
    ⟨policy.maxAttempts - 1, .inl (Nat.sub_add_cancel policy.pos)⟩
  refine ⟨Nat.find stops, ?_, ?_, Nat.find_spec stops⟩
  · have early := Nat.find_min' stops (.inl (Nat.sub_add_cancel policy.pos))
    have positive := policy.pos
    omega
  · intro i early
    exact not_not.mp fun settled => Nat.find_min stops early (.inr settled)

end Runs

/-- Attempts whose results are given. The state counts them. -/
def scripted (results : Nat → Except DatabaseError α) : StateM Nat (Except DatabaseError α) :=
  fun made => (results made, made + 1)

theorem stateAfter_scripted (results : Nat → Except DatabaseError α) (n : Nat) :
    stateAfter (scripted results) n 0 = n := by
  induction n with
  | zero => rfl
  | succ n ih => rw [stateAfter_succ', ih]; rfl

theorem outcome_scripted (results : Nat → Except DatabaseError α) (n : Nat) :
    outcome (scripted results) n 0 = results n := by
  rw [outcome, stateAfter_scripted]
  rfl

theorem run_scripted (policy : RetryPolicy) (operation : String)
    (results : Nat → Except DatabaseError α) (last : Nat) (within : last < policy.maxAttempts)
    (conflicts : ∀ i < last, Retryable (results i))
    (final : last + 1 = policy.maxAttempts ∨ ¬ Retryable (results last)) :
    policy.run operation (scripted results) 0 =
      (reply operation (last + 1) (results last), last + 1) := by
  have ends : Last policy (scripted results) 0 last := by
    refine ⟨within, ?_, ?_⟩
    · intro i early
      rw [outcome_scripted]
      exact conflicts i early
    · rw [outcome_scripted]
      exact final
  rw [run_eq operation ends, outcome_scripted, stateAfter_scripted]

end RetryPolicy

namespace StoreCall

/-- The name under which an operation is run again after conflicts, if it is. -/
def retried? : StoreCall → Option String
  | .claimPrimary _ _ _ => some "claim_primary_work"
  | .completePrimary _ _ => some "complete_primary_work"
  | .claimOldest _ _ => some "claim_secondary_work_low_contention"
  | .leaseSecondary _ _ _ _ => some "lease_secondary_work"
  | .completeSecondary _ _ _ => some "complete_secondary_work"
  | .putGrouping _ _ => some "put_grouping"
  | .ensurePrimary _ => some "ensure_primary_work"
  | .upsertSecondary _ _ => some "upsert_secondary_work"
  | .retireBranch _ => some "retire_secondary_branch"
  | _ => none

/-- Whether the times that an operation asks for are in the calendar. They are worked out before
its first attempt. -/
def times : StoreCall → Except StoreError Unit
  | .claimPrimary now staleness lease =>
    (staleCutoff now staleness).bind fun _ => (leaseEnd now lease).map fun _ => ()
  | .claimOldest now lease => (leaseEnd now lease).map fun _ => ()
  | .leaseSecondary _ _ now lease => (leaseEnd now lease).map fun _ => ()
  | _ => .ok ()

end StoreCall

/-- What surrounds the attempts at an operation: the operations of other workers right before each
of them, and which attempts the database refuses. A refused attempt leaves the store as it is. -/
structure Traffic where
  others : Nat → List StoreCall
  refusal? : Nat → Store → Option DatabaseError

namespace Store

/-- What a statement came to, apart from the reading of what it returned. -/
def ofStatement : Except StoreError StoreAnswer →
    Except DatabaseError (Except StoreError StoreAnswer)
  | .error (.queryFailed cause) => .error cause
  | result => .ok result

/-- An attempt at an operation in a store, so many having been made. -/
def attempt (traffic : Traffic) (c : StoreCall) :
    StateM (Nat × Store) (Except DatabaseError (Except StoreError StoreAnswer)) :=
  fun (made, s) =>
    let s := s.after (traffic.others made)
    match traffic.refusal? made s with
    | some cause => (.error cause, made + 1, s)
    | none => (ofStatement (s.perform c).1, made + 1, (s.perform c).2)

/-- An operation that is run again after conflicts: its result, how many attempts it made, and the
store after it. -/
def performRetried (policy : RetryPolicy) (traffic : Traffic) (name : String) (s : Store)
    (c : StoreCall) : Except StoreError (Except StoreError StoreAnswer) × Nat × Store :=
  match c.times with
  | .error e => (.error e, 0, s)
  | .ok () => policy.run name (attempt traffic c) (0, s)

/-- The store as so many attempts that failed leave it. -/
def between (traffic : Traffic) (s : Store) (made : Nat) : Store :=
  s.after ((List.range made).flatMap traffic.others)

variable {s : Store} {c : StoreCall} {traffic : Traffic}

theorem between_succ (traffic : Traffic) (s : Store) (made : Nat) :
    s.between traffic (made + 1) = (s.between traffic made).after (traffic.others made) := by
  rw [between, between, List.range_succ, List.flatMap_append, after_append, List.flatMap_singleton]

/-! A statement that fails has changed nothing: what cannot be read is noticed only after it. -/

theorem readId_ne_queryFailed (key : List UInt8) (cause : DatabaseError) :
    readId key ≠ .error (.queryFailed cause) := by
  unfold readId
  cases GroupingId.ofBytes key <;> nofun

theorem readDigests_ne_queryFailed (text : String) (cause : DatabaseError) :
    readDigests text ≠ .error (.queryFailed cause) := by
  unfold readDigests
  cases Digest.decodeList text <;> nofun

theorem work_ne_queryFailed (row : SecondaryRow) (cause : DatabaseError) :
    row.work ≠ .error (.queryFailed cause) := by
  intro failed
  unfold SecondaryRow.work at failed
  cases id : readId row.key with
  | error e =>
    rw [id] at failed
    cases failed
    exact readId_ne_queryFailed row.key cause id
  | ok grouping =>
    cases digests : readDigests row.digests with
    | error e =>
      rw [id, digests] at failed
      cases failed
      exact readDigests_ne_queryFailed row.digests cause digests
    | ok digests =>
      rw [id, digests] at failed
      cases failed

theorem perform_queryFailed {name : String} (retried : c.retried? = some name)
    {cause : DatabaseError} (failed : (s.perform c).1 = .error (.queryFailed cause)) :
    (s.perform c).2 = s := by
  cases c with
  | claimPrimary now staleness lease =>
    have failed := error_of_map failed
    rcases s.claimPrimary_cases now staleness lease with ⟨row, _, _, _, _, _, eq⟩ | ⟨_, same⟩
    · rw [eq] at failed
      exact absurd (error_of_map failed) (readId_ne_queryFailed row.key cause)
    · exact same
  | claimOldest now lease =>
    have failed := error_of_map failed
    rcases s.claimOldest_cases now lease with ⟨row, _, _, _, _, eq⟩ | ⟨_, same⟩
    · rw [eq] at failed
      exact absurd (error_of_map failed) (work_ne_queryFailed row cause)
    · exact same
  | leaseSecondary branch grouping now lease =>
    have failed := error_of_map failed
    rcases s.leaseSecondary_cases branch grouping now lease with ⟨row, _, _, _, _, eq⟩ | ⟨_, same⟩
    · rw [eq] at failed
      exact absurd (error_of_map failed) (readDigests_ne_queryFailed row.digests cause)
    · exact same
  | putGrouping | completePrimary | completeSecondary | ensurePrimary | upsertSecondary
  | retireBranch => cases failed
  | _ => cases retried

/-! Times outside the calendar fail an operation before it does anything. -/

theorem perform_of_times {e : StoreError} (outside : c.times = .error e) :
    s.perform c = (.error e, s) := by
  cases c with
  | claimPrimary now staleness lease =>
    rw [StoreCall.times] at outside
    simp only [perform, claimPrimary]
    cases cutoff : staleCutoff now staleness with
    | error e =>
      rw [cutoff] at outside
      cases outside
      rfl
    | ok stale =>
      rw [cutoff] at outside
      simp only [error_of_map outside]
      rfl
  | claimOldest now lease =>
    simp only [perform, claimOldest, error_of_map outside]
    rfl
  | leaseSecondary branch grouping now lease =>
    simp only [perform, leaseSecondary, error_of_map outside]
    rfl
  | _ => cases outside

/-- Where rows are legible, an operation fails only for its times. -/
theorem perform_legible {name : String} (legible : s.Legible) (retried : c.retried? = some name)
    (inside : c.times = .ok ()) : ∃ answer, (s.perform c).1 = .ok answer := by
  cases c with
  | claimPrimary now staleness lease =>
    rw [StoreCall.times] at inside
    cases cutoff : staleCutoff now staleness with
    | error e =>
      rw [cutoff] at inside
      cases inside
    | ok stale =>
    rw [cutoff] at inside
    obtain ⟨ends, granted, _⟩ := exists_of_map_eq_ok inside
    simp only [perform, answering]
    rcases claimPrimary_legible legible cutoff granted with ⟨_, eq⟩ | ⟨_, _, _, _, _, eq⟩
    · exact ⟨_, by rw [eq]; rfl⟩
    · exact ⟨_, by rw [eq]; rfl⟩
  | claimOldest now lease =>
    obtain ⟨ends, granted, _⟩ := exists_of_map_eq_ok inside
    simp only [perform, answering]
    rcases claimOldest_legible legible granted with ⟨_, eq⟩ | ⟨_, _, _, _, _, eq⟩
    · exact ⟨_, by rw [eq]; rfl⟩
    · exact ⟨_, by rw [eq]; rfl⟩
  | leaseSecondary branch grouping now lease =>
    obtain ⟨ends, granted, _⟩ := exists_of_map_eq_ok inside
    simp only [perform, answering, leaseSecondary, granted]
    cases found : s.secondary.find? (SecondaryRow.hasKey branch grouping.bytes) with
    | none => exact ⟨_, rfl⟩
    | some row =>
      have own := legible.secondary row (List.mem_of_find?_eq_some found)
      obtain ⟨work, _, read⟩ := own.work
      simp only [own.isDue?]
      cases row.isDue now.millis with
      | false => exact ⟨_, rfl⟩
      | true => exact ⟨_, by rw [read]; rfl⟩
  | putGrouping | completePrimary | completeSecondary | ensurePrimary | upsertSecondary
  | retireBranch => exact ⟨_, rfl⟩
  | _ => cases retried

theorem ofStatement_eq_error {result : Except StoreError StoreAnswer} {cause : DatabaseError}
    (failed : ofStatement result = .error cause) : result = .error (.queryFailed cause) := by
  unfold ofStatement at failed
  split at failed
  · cases failed
    rfl
  · cases failed

theorem ofStatement_eq_ok {result read : Except StoreError StoreAnswer}
    (succeeded : ofStatement result = .ok read) : read = result := by
  unfold ofStatement at succeeded
  split at succeeded
  · cases succeeded
  · exact (Except.ok.inj succeeded).symm

/-- An attempt that fails leaves the store as the other workers made it. -/
theorem attempt_eq_error {name : String} (retried : c.retried? = some name) {made : Nat}
    {cause : DatabaseError} (failed : (attempt traffic c (made, s)).1 = .error cause) :
    (attempt traffic c (made, s)).2 = (made + 1, s.after (traffic.others made)) := by
  unfold attempt at failed ⊢
  simp only at failed ⊢
  split
  · rfl
  · rename_i accepted
    rw [accepted] at failed
    exact congrArg (made + 1, ·) (perform_queryFailed retried (ofStatement_eq_error failed))

/-- An attempt that succeeds is one execution in the store that the other workers left. -/
theorem attempt_eq_ok {made : Nat} {read : Except StoreError StoreAnswer}
    (succeeded : (attempt traffic c (made, s)).1 = .ok read) :
    ∃ next, (attempt traffic c (made, s)).2 = (made + 1, next) ∧
      (s.after (traffic.others made)).perform c = (read, next) := by
  unfold attempt at succeeded ⊢
  simp only at succeeded ⊢
  split
  · rename_i refused
    rw [refused] at succeeded
    cases succeeded
  · rename_i accepted
    rw [accepted] at succeeded
    exact ⟨_, rfl, Prod.ext (ofStatement_eq_ok succeeded).symm rfl⟩

open RetryPolicy (stateAfter outcome Retryable Last)

theorem stateAfter_attempt {name : String} (retried : c.retried? = some name) {made : Nat}
    (failed : ∀ i < made, Retryable (outcome (attempt traffic c) i (0, s))) :
    stateAfter (attempt traffic c) made (0, s) = (made, s.between traffic made) := by
  induction made with
  | zero => rfl
  | succ made ih =>
    have before := ih fun i early => failed i (Nat.lt_succ_of_lt early)
    obtain ⟨cause, refused, _⟩ := failed made (Nat.lt_succ_self made)
    rw [outcome, before] at refused
    rw [RetryPolicy.stateAfter_succ', before, attempt_eq_error retried refused, between_succ]

/-- An operation that succeeds is one execution at the moment of its last attempt. One that fails
leaves the store as the other workers made it. -/
theorem performRetried_eq {name : String} (retried : c.retried? = some name)
    (policy : RetryPolicy) (traffic : Traffic) (s : Store) :
    ∃ result made next, performRetried policy traffic name s c = (result, made, next) ∧
      made ≤ policy.maxAttempts ∧
      (∀ read, result = .ok read → c.times = .ok () ∧
        (s.between traffic made).perform c = (read, next)) ∧
      (∀ e, result = .error e → next = s.between traffic made) := by
  unfold performRetried
  rcases c.times with e | ⟨⟩
  · refine ⟨.error e, 0, s, rfl, Nat.zero_le _, ?_, fun _ _ => rfl⟩
    rintro _ ⟨⟩
  · obtain ⟨last, ends⟩ := RetryPolicy.exists_last policy (attempt traffic c) (0, s)
    have before := stateAfter_attempt retried ends.conflicts
    have ran := RetryPolicy.run_eq name ends
    rw [RetryPolicy.stateAfter_succ', outcome, before] at ran
    rcases made : attempt traffic c (last, s.between traffic last) with ⟨outcome, state⟩
    rw [made] at ran
    cases outcome with
    | ok read =>
      obtain ⟨next, after, executed⟩ := attempt_eq_ok (congrArg Prod.fst made)
      rw [← between_succ] at executed
      refine ⟨.ok read, last + 1, next, ?_, ends.within, ?_, nofun⟩
      · rw [made] at after
        exact after ▸ ran
      · rintro _ ⟨⟩
        exact ⟨rfl, executed⟩
    | error cause =>
      have after := attempt_eq_error retried (congrArg Prod.fst made)
      rw [made, ← between_succ] at after
      refine ⟨RetryPolicy.reply name (last + 1) (.error cause), last + 1,
        s.between traffic (last + 1), after ▸ ran, ends.within, ?_, fun _ _ => rfl⟩
      rintro _ ⟨⟩

theorem made_stateAfter (traffic : Traffic) (c : StoreCall) (n : Nat) (s : Store) :
    (stateAfter (attempt traffic c) n (0, s)).1 = n := by
  induction n with
  | zero => rfl
  | succ n ih =>
    rw [RetryPolicy.stateAfter_succ']
    rcases reached : stateAfter (attempt traffic c) n (0, s) with ⟨made, before⟩
    rw [reached] at ih
    obtain rfl : made = n := ih
    unfold attempt
    simp only
    split <;> rfl

/-- An operation that the database refuses with conflicts, fewer than are allowed, and then accepts
succeeds. -/
theorem performRetried_absorbs {name : String} (retried : c.retried? = some name)
    (inside : c.times = .ok ()) {policy : RetryPolicy} {refused : Nat}
    (few : refused < policy.maxAttempts)
    (conflicts : ∀ i < refused, ∀ s, ∃ cause, traffic.refusal? i s = some cause ∧
      cause.isConflict = true)
    (accepted : ∀ s, traffic.refusal? refused s = none)
    (legible : (s.between traffic (refused + 1)).Legible) :
    ∃ answer next,
      performRetried policy traffic name s c = (.ok (.ok answer), refused + 1, next) := by
  have refuses : ∀ i < refused, Retryable (outcome (attempt traffic c) i (0, s)) := by
    intro i early
    have made := made_stateAfter traffic c i s
    rw [outcome]
    rcases reached : stateAfter (attempt traffic c) i (0, s) with ⟨count, before⟩
    rw [reached] at made
    obtain rfl : count = i := made
    obtain ⟨cause, refuses, conflict⟩ := conflicts count early (before.after (traffic.others count))
    refine ⟨cause, ?_, conflict⟩
    unfold attempt
    simp only [refuses]
  obtain ⟨answer, answered⟩ := perform_legible legible retried inside
  have last : outcome (attempt traffic c) refused (0, s) = .ok (.ok answer) := by
    rw [outcome, stateAfter_attempt retried refuses]
    unfold attempt
    simp only [accepted]
    rw [← between_succ, answered]
    rfl
  have ends : Last policy (attempt traffic c) (0, s) refused := by
    refine ⟨few, refuses, .inr ?_⟩
    rw [last]
    rintro ⟨_, ⟨⟩, _⟩
  refine ⟨answer, (stateAfter (attempt traffic c) (refused + 1) (0, s)).2, ?_⟩
  rw [performRetried, inside]
  simp only [RetryPolicy.run_eq name ends, last, RetryPolicy.reply]
  rw [Prod.ext_iff]
  exact ⟨rfl, Prod.ext (made_stateAfter traffic c (refused + 1) s) rfl⟩

/-- A single worker whose first attempt is accepted sees the operation as it is without retries. -/
theorem performRetried_quiet {name : String} (reached : s.Reached)
    (retried : c.retried? = some name) (policy : RetryPolicy) (alone : traffic.others 0 = [])
    (accepted : ∀ s, traffic.refusal? 0 s = none) :
    ∃ result made, performRetried policy traffic name s c = (result, made, (s.perform c).2) ∧
      result.bind id = (s.perform c).1 := by
  have same : s.between traffic 1 = s := by
    rw [between_succ, alone]
    rfl
  cases inside : c.times with
  | error e =>
    refine ⟨.error e, 0, ?_, ?_⟩
    · rw [performRetried, inside, perform_of_times inside]
    · rw [perform_of_times inside]
      rfl
  | ok _ =>
    obtain ⟨answer, next, ran⟩ := performRetried_absorbs retried inside policy.pos
      (fun i early => absurd early (Nat.not_lt_zero i)) accepted (same ▸ reached.legible)
    obtain ⟨result, made, after, eq, _, executed, _⟩ := performRetried_eq retried policy traffic s
    obtain ⟨rfl, rfl, rfl⟩ : result = .ok (.ok answer) ∧ made = 1 ∧ after = next := by
      simpa using eq.symm.trans ran
    have once := (executed _ rfl).2
    rw [same] at once
    rw [once]
    exact ⟨_, _, ran, rfl⟩

/-- A call that asks for a lease changes that of one row at most. -/
theorem leases_perform_one (s : Store) {now : Instant} {lease : Span}
    (asked : c.lease? = some (now, lease)) :
    ∃ key, ∀ other, other ≠ key → (s.perform c).2.leases other = s.leases other := by
  rcases s.perform_grants asked with ⟨key, ends, _, grant⟩ | same
  · refine ⟨key, ?_⟩
    intro other apart
    rw [grant.written, leases_setLease, if_neg apart]
  · exact ⟨.primary [], fun other _ => by rw [same]⟩

/-- Which errors count as conflicts, how often an attempt is made and what is returned. An
operation that is run again while others work succeeds as one execution at the moment of its last
attempt, or it fails and changes nothing. -/
theorem conflicts_retried (m : Nat) :
    (∀ cause : DatabaseError, cause.isConflict = true ↔ ∃ code reason,
      cause = .rejected (some code) reason ∧ code ∈ ["40001", "40P01", "5", "517", "6"]) ∧
    (∀ (α : Type) (operation : String) (results : Nat → Except DatabaseError α),
      let run := (RetryPolicy.ofMax m).run operation (RetryPolicy.scripted results) 0
      (∀ k, (∀ i < k, Retryable (results i)) → ¬ Retryable (results k) → k + 1 ≤ max m 1 →
        run = ((results k).mapError .queryFailed, k + 1)) ∧
      ((∀ i < max m 1, Retryable (results i)) →
        ∃ cause, results (max m 1 - 1) = .error cause ∧
          run = (.error (.retriesExhausted operation (max m 1) cause), max m 1))) ∧
    ∀ (s : Store) (traffic : Traffic) (c : StoreCall) (name : String), c.retried? = some name →
      ∃ result made next, performRetried (.ofMax m) traffic name s c = (result, made, next) ∧
        let moment := s.after ((List.range made).flatMap traffic.others)
        made ≤ max m 1 ∧
        (∀ read, result = .ok read → moment.perform c = (read, next)) ∧
        (∀ e, result = .error e → next = moment) ∧
        (s.Reached →
          (∀ read, result = .ok read → ∃ answer, read = .ok answer) ∧
          (c.lease?.isSome → ∃ key, (moment.leases key).length ≤ 1 ∧
            ∀ other, other ≠ key → next.leases other = moment.leases other)) := by
  refine ⟨fun cause => DatabaseError.isConflict_iff, ?_, ?_⟩
  · intro α operation results run
    constructor
    · intro k conflicts settled within
      rw [← RetryPolicy.reply_of_settled operation (k + 1) settled]
      exact RetryPolicy.run_scripted _ operation results k within conflicts (.inr settled)
    · intro conflicts
      obtain ⟨last, count⟩ : ∃ last, max m 1 = last + 1 := ⟨max m 1 - 1, by omega⟩
      rw [count] at conflicts ⊢
      obtain ⟨cause, failed, conflict⟩ := conflicts last (Nat.lt_succ_self last)
      refine ⟨cause, failed, ?_⟩
      have within : last < (RetryPolicy.ofMax m).maxAttempts := by
        show last < max m 1
        omega
      have ran := RetryPolicy.run_scripted (.ofMax m) operation results last within
        (fun i early => conflicts i (Nat.lt_succ_of_lt early)) (.inl count.symm)
      rwa [failed, RetryPolicy.reply, if_pos conflict] at ran
  · intro s traffic c name retried
    obtain ⟨result, made, next, ran, few, executed, failed⟩ :=
      performRetried_eq retried (.ofMax m) traffic s
    refine ⟨result, made, next, ran, few, fun read same => (executed read same).2, failed, ?_⟩
    intro reached
    have there := reached.after ((List.range made).flatMap traffic.others)
    constructor
    · intro read same
      obtain ⟨inside, same⟩ := executed read same
      obtain ⟨answer, answered⟩ := perform_legible there.legible retried inside
      exact ⟨answer, (congrArg Prod.fst same).symm.trans answered⟩
    · intro asks
      obtain ⟨⟨now, lease⟩, asked⟩ := Option.isSome_iff_exists.mp asks
      obtain ⟨key, apart⟩ := leases_perform_one (s.between traffic made) asked
      refine ⟨key, there.keyed.length_leases key, ?_⟩
      cases result with
      | ok read =>
        rw [(executed read rfl).2] at apart
        exact apart
      | error e =>
        rw [failed e rfl]
        exact fun _ _ => rfl

/-- The first attempt conflicts, and before the second one another worker takes the row. -/
def overtaken : Traffic where
  others made :=
    if made = 1 then [.claimPrimary (.atMillis 100000) (.ofSeconds 60) (.ofSeconds 600)] else []
  refusal? made _ :=
    if made = 0 then some (.rejected (some "40001") "restart transaction") else none

theorem conflicts_retried_overtaken :
    let s := empty.after [.ensurePrimary [soleGrouping]]
    let c : StoreCall := .claimPrimary (.atMillis 100000) (.ofSeconds 60) (.ofSeconds 600)
    let ran := performRetried (.ofMax 3) overtaken "claim_primary_work" s c
    (s.perform c).1 = .ok (.primaryWork (some soleGrouping)) ∧
      ran.1 = .ok (.ok (.primaryWork none)) ∧ ran.2.1 = 2 ∧
      (s.after ((List.range 2).flatMap overtaken.others)).perform c =
        (.ok (.primaryWork none), ran.2.2) := by
  intro s c ran
  have alone : (s.perform c).1 = .ok (.primaryWork (some soleGrouping)) := by decide +kernel
  have answer : ran.1 = .ok (.ok (.primaryWork none)) ∧ ran.2.1 = 2 := by decide +kernel
  obtain ⟨result, made, next, same, _, executed, _⟩ :=
    (conflicts_retried 3).2.2 s overtaken c "claim_primary_work" rfl
  have whole : ran = (result, made, next) := same
  rw [whole] at answer ⊢
  obtain ⟨rfl, rfl⟩ := answer
  exact ⟨alone, rfl, rfl, executed _ rfl⟩

end Store

end LeaseQueue
