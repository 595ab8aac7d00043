import LeaseQueue.Proofs.Poller.Due
import LeaseQueue.Proofs.Time.Millis
/-! Work that was claimed and never completed. Every lease ends, and a while after the last one
could all work that is left is due again, so repeated claims return each row of it once. -/
namespace LeaseQueue

/-- No lease that a call asks for is longer than `length`, or begins after `last`. -/
def StoreCall.LeasesBy (last : Instant) (length : Span) (c : StoreCall) : Prop :=
  ∀ now lease, c.lease? = some (now, lease) → now ≤ last ∧ lease.nanos ≤ length.nanos

/-- The last millisecond in which such a lease can end. -/
def lastLease (last : Instant) (length : Span) : Int :=
  max Store.beginning ((last.nanos + length.nanos) / 1000000)

theorem millis_le_lastLease {last now ends : Instant} {length lease : Span}
    (within : now ≤ last ∧ lease.nanos ≤ length.nanos) (granted : leaseEnd now lease = .ok ends) :
    ends.millis ≤ lastLease last length := by
  have sum := leaseEnd_eq_ok_iff.mp granted
  have early := Instant.le_iff_nanos.mp within.1
  have ordered : ends.millis ≤ (last.nanos + length.nanos) / 1000000 := by
    unfold Instant.millis
    omega
  exact Int.le_trans ordered (Int.le_max_right _ _)

theorem lastLease_lt_millis {last now : Instant} {length : Span}
    (late : last.nanos + length.nanos + 1000000 < now.nanos)
    (begun : Instant.epoch.nanos + 1000000 < now.nanos) : lastLease last length < now.millis := by
  have epoch : Instant.epoch.nanos = 0 := rfl
  have beginning : Store.beginning = 0 := rfl
  unfold lastLease Instant.millis
  omega

namespace Store

/-- All leases end by `bound`. -/
structure LeasedBy (s : Store) (bound : Int) : Prop where
  primary : ∀ row ∈ s.primary, row.leaseEnds ≤ bound
  secondary : ∀ row ∈ s.secondary, row.leaseEnds ≤ bound

theorem leasedBy_empty (bound : Int) : empty.LeasedBy bound :=
  ⟨List.forall_mem_nil _, List.forall_mem_nil _⟩

namespace LeasedBy

variable {s : Store} {bound : Int}

theorem setLease (leased : s.LeasedBy bound) (key : RowKey) {ends : Int} (within : ends ≤ bound) :
    (s.setLease key ends).LeasedBy bound := by
  cases key with
  | primary key =>
    refine ⟨?_, leased.secondary⟩
    intro row member
    obtain ⟨before, own, rfl⟩ := List.mem_map.mp member
    split
    · exact within
    · exact leased.primary before own
  | secondary branch key =>
    refine ⟨leased.primary, ?_⟩
    intro row member
    obtain ⟨before, own, rfl⟩ := List.mem_map.mp member
    split
    · exact within
    · exact leased.secondary before own

theorem completePrimary (leased : s.LeasedBy bound) (grouping : GroupingId) (now : Instant) :
    (s.completePrimary grouping now).LeasedBy bound := by
  refine ⟨?_, leased.secondary⟩
  intro row member
  obtain ⟨before, own, rfl⟩ := List.mem_map.mp member
  split <;> exact leased.primary before own

theorem completeSecondary (leased : s.LeasedBy bound) (branch : String) (grouping : GroupingId)
    (now : Instant) : (s.completeSecondary branch grouping now).LeasedBy bound := by
  refine ⟨leased.primary, ?_⟩
  intro row member
  obtain ⟨before, own, rfl⟩ := List.mem_map.mp member
  split <;> exact leased.secondary before own

/-- A new row counts as leased until the beginning. -/
theorem ensurePrimary (leased : s.LeasedBy bound) (begun : beginning ≤ bound)
    (groupings : List GroupingId) : (s.ensurePrimary groupings).LeasedBy bound := by
  induction groupings generalizing s with
  | nil => exact leased
  | cons grouping groupings ih =>
    apply ih
    unfold ensureOne
    split
    · exact leased
    · refine ⟨?_, leased.secondary⟩
      intro row member
      rcases List.mem_append.mp member with old | new
      · exact leased.primary row old
      · cases List.mem_singleton.mp new
        exact begun

theorem upsertSecondary (leased : s.LeasedBy bound) (begun : beginning ≤ bound) (branch : String)
    (grouping : GroupingId) (digests : List Digest) (updated : Instant) :
    (s.upsertSecondary branch grouping digests updated).LeasedBy bound := by
  unfold Store.upsertSecondary
  simp only
  split
  · refine ⟨leased.primary, ?_⟩
    intro row member
    obtain ⟨before, own, rfl⟩ := List.mem_map.mp member
    split <;> exact leased.secondary before own
  · refine ⟨leased.primary, ?_⟩
    intro row member
    rcases List.mem_append.mp member with old | new
    · exact leased.secondary row old
    · cases List.mem_singleton.mp new
      exact begun

theorem perform {last : Instant} {length : Span} (leased : s.LeasedBy (lastLease last length))
    {c : StoreCall} (within : c.LeasesBy last length) :
    (s.perform c).2.LeasedBy (lastLease last length) := by
  have begun : beginning ≤ lastLease last length := Int.le_max_left _ _
  cases asked : c.lease? with
  | some times =>
    obtain ⟨now, lease⟩ := times
    rcases s.perform_grants asked with ⟨key, ends, granted, grant⟩ | same
    · rw [grant.written]
      exact leased.setLease key (millis_le_lastLease (within now lease asked) granted)
    · rw [same]
      exact leased
  | none =>
    cases c with
    | putGrouping grouping params =>
      simp only [Store.perform, Store.putGrouping]
      split <;> exact ⟨leased.primary, leased.secondary⟩
    | ensurePrimary groupings => exact leased.ensurePrimary begun groupings
    | upsertSecondary work updated =>
      exact leased.upsertSecondary begun work.branch work.grouping work.digests updated
    | retireBranch branch =>
      exact ⟨leased.primary, fun row member =>
        leased.secondary row (List.mem_of_mem_filter member)⟩
    | completePrimary grouping now => exact leased.completePrimary grouping now
    | completeSecondary branch grouping now => exact leased.completeSecondary branch grouping now
    | groupingParams | primaryRow | secondaryRow | candidates => exact leased
    | claimPrimary | claimOldest | claimRandom | leaseSecondary => cases asked

theorem after {last : Instant} {length : Span} {calls : List StoreCall}
    (leased : s.LeasedBy (lastLease last length)) (within : ∀ c ∈ calls, c.LeasesBy last length) :
    (s.after calls).LeasedBy (lastLease last length) := by
  induction calls generalizing s with
  | nil => exact leased
  | cons c calls ih =>
    exact ih (leased.perform (within c List.mem_cons_self))
      fun other member => within other (List.mem_cons_of_mem c member)

end LeasedBy

/-! Work that is left, leased or not, and the rows that are due. -/

/-- The rows of a queue with something left to calculate, whoever holds them. -/
inductive Pending (s : Store) (stale : Int) : Source → RowKey → Prop where
  | primary {row : PrimaryRow} (member : row ∈ s.primary) (old : row.calculated < stale) :
    Pending s stale .primary row.rowKey
  | secondary {row : SecondaryRow} {digests : List Digest} (member : row ∈ s.secondary)
    (read : readDigests row.digests = .ok digests) (filled : digests ≠ [])
    (newer : row.calculated < row.updated) : Pending s stale .secondary row.rowKey

section Eligible

variable {s : Store} {now stale bound : Int}

theorem LeasedBy.isDue_primary (leased : s.LeasedBy bound) (ended : bound < now)
    {row : PrimaryRow} (member : row ∈ s.primary) (old : row.calculated < stale) :
    row.isDue now stale = true :=
  PrimaryRow.isDue_iff.mpr ⟨Int.lt_of_le_of_lt (leased.primary row member) ended, old⟩

theorem LeasedBy.isDue?_secondary (leased : s.LeasedBy bound) (legible : s.Legible)
    (ended : bound < now) {row : SecondaryRow} {digests : List Digest} (member : row ∈ s.secondary)
    (read : readDigests row.digests = .ok digests) (filled : digests ≠ [])
    (newer : row.calculated < row.updated) : row.isDue? now = some true := by
  have free : row.leaseEnds < now := Int.lt_of_le_of_lt (leased.secondary row member) ended
  obtain ⟨exact, rfl⟩ := legible.secondary row member
  cases read.symm.trans (readDigests_encodeList exact.digests)
  rw [exact.stored_isDue?, ExactSecondary.isDueStored_iff.mpr ⟨free, newer, filled⟩]

/-- Once all leases have ended, the rows that are due are those with something left. -/
theorem LeasedBy.pending_iff (leased : s.LeasedBy bound) (legible : s.Legible)
    (ended : bound < now) {source : Source} {key : RowKey} :
    s.Pending stale source key ↔ key ∈ s.dueKeys now stale source := by
  constructor
  · intro pending
    cases pending with
    | primary member old => exact mem_dueKeys_primary member (leased.isDue_primary ended member old)
    | secondary member read filled newer =>
      apply mem_dueKeys_secondary member
      exact SecondaryRow.isDue_iff.mpr
        (leased.isDue?_secondary legible ended member read filled newer)
  · intro due
    cases source with
    | primary =>
      obtain ⟨row, found, rfl⟩ := List.mem_map.mp due
      obtain ⟨member, ready⟩ := List.mem_filter.mp found
      exact .primary member (PrimaryRow.isDue_iff.mp ready).2
    | secondary =>
      obtain ⟨row, found, rfl⟩ := List.mem_map.mp due
      obtain ⟨member, ready⟩ := List.mem_filter.mp found
      have own := legible.secondary row member
      obtain ⟨work, read, digests⟩ := own.work
      have newer := (SecondaryRow.isDue?_eq_true_iff.mp (SecondaryRow.isDue_iff.mp ready)).2.1
      exact .secondary member digests (own.digests_ne_nil ready read) newer

end Eligible

end Store

namespace StoreCall

/-- The queue that a call claims from. -/
def queue : StoreCall → Source
  | .claimPrimary _ _ _ => .primary
  | _ => .secondary

/-- The answer of a claim that found no work. -/
def nothing (c : StoreCall) : StoreAnswer :=
  match c.queue with
  | .primary => .primaryWork none
  | .secondary => .secondaryWork none

/-- Whether the end of the lease that a call asks for lies within the calendar. -/
def inCalendar (c : StoreCall) : Bool :=
  c.lease?.any fun times => (leaseEnd times.1 times.2).isOk

/-- The claims of work at a moment. -/
inductive ClaimsAt (now : Instant) (staleness : Span) : StoreCall → Prop where
  | primary {lease : Span} (forward : 0 ≤ lease.nanos) :
    ClaimsAt now staleness (.claimPrimary now staleness lease)
  | oldest {lease : Span} (forward : 0 ≤ lease.nanos) :
    ClaimsAt now staleness (.claimOldest now lease)
  | random {lease : Span} (choice : Nat) (forward : 0 ≤ lease.nanos) :
    ClaimsAt now staleness (.claimRandom choice now lease)

theorem leased?_nothing (c : StoreCall) : c.leased? (.ok c.nothing) = none := by
  cases c <;> rfl

theorem leased?_error (c : StoreCall) (e : StoreError) : c.leased? (.error e) = none := by
  cases c <;> rfl

end StoreCall

namespace Store

/-- What a claim does: nothing was due, it leased a row that was, or its lease has no end. -/
inductive ClaimStep (s : Store) (now stale : Int) (c : StoreCall) : Prop where
  | nothing (none : s.dueKeys now stale c.queue = []) (answer : s.perform c = (.ok c.nothing, s))
  | leased {key : RowKey} {ends : Int} (due : key ∈ s.dueKeys now stale c.queue)
    (running : now ≤ ends) (won : s.Leases c key) (written : (s.perform c).2 = s.setLease key ends)
  | failed {e : StoreError} (beyond : c.inCalendar = false) (answer : s.perform c = (.error e, s))

section Claims

variable {s : Store} {now stale : Instant} {staleness lease : Span}

/-- A candidate that was just read is still due when it is leased. -/
theorem claimRandom_legible (legible : s.Legible) (keyed : s.Keyed) {ends : Instant}
    (granted : leaseEnd now lease = .ok ends) (choice : Nat) :
    ((∀ row ∈ s.secondary, row.isDue now.millis = false) ∧
      s.claimRandom choice now lease = (.ok none, s)) ∨
    ∃ row ∈ s.secondary, row.isDue now.millis = true ∧ ∃ work, row.work = .ok work ∧
      s.claimRandom choice now lease =
        (.ok (some work), s.setSecondaryLease row.branch row.key ends.millis) := by
  obtain ⟨works, read, picked⟩ := pick_legible legible now choice
  rcases picked with ⟨none, nothing⟩ | ⟨row, member, due, work, same, picked⟩
  · refine .inl ⟨nothing, ?_⟩
    simp only [claimRandom, claimAmong, read, none]
  · simp only [claimRandom, claimAmong, read, picked]
    obtain ⟨branch, key⟩ := key_of_work same
    rcases leaseCandidate_legible legible keyed granted member branch key with
      ⟨free, _⟩ | ⟨_, leased, whole, taken⟩
    · exact absurd (due.symm.trans free) Bool.noConfusion
    · exact .inr ⟨row, member, due, leased, whole, taken⟩

theorem inCalendar_eq_false {c : StoreCall} {e : StoreError} (asked : c.lease? = some (now, lease))
    (beyond : leaseEnd now lease = .error e) : c.inCalendar = false := by
  rw [StoreCall.inCalendar, asked, Option.any_some, beyond]
  rfl

/-- A secondary claim that leases the row of a work that is due, or finds that there is none. -/
theorem claimStep_secondary {c : StoreCall} {ends : Instant} {stale : Int}
    {claim : Except StoreError (Option SecondaryWork) × Store} (queue : c.queue = .secondary)
    (performed : s.perform c = answering .secondaryWork claim)
    (shown : ∀ work, c.leased? (.ok (.secondaryWork (some work))) =
      some (.secondary work.branch work.grouping.bytes))
    (running : now.millis ≤ ends.millis)
    (result : ((∀ row ∈ s.secondary, row.isDue now.millis = false) ∧ claim = (.ok none, s)) ∨
      ∃ row ∈ s.secondary, row.isDue now.millis = true ∧ ∃ work, row.work = .ok work ∧
        claim = (.ok (some work), s.setSecondaryLease row.branch row.key ends.millis)) :
    s.ClaimStep now.millis stale c := by
  rcases result with ⟨none, rfl⟩ | ⟨row, member, due, work, read, rfl⟩
  · apply ClaimStep.nothing
    · rw [queue]
      exact dueKeys_secondary_eq_nil none
    · rw [performed, StoreCall.nothing, queue]
      rfl
  · have own : .secondary row.branch row.key ∈ s.dueKeys now.millis stale c.queue := by
      rw [queue]
      exact mem_dueKeys_secondary member due
    refine .leased own running ?_ ?_
    · obtain ⟨branch, key⟩ := key_of_work read
      rw [Leases, performed, ← branch, ← key]
      exact shown work
    · rw [performed]
      rfl

theorem Reached.claimStep (reached : s.Reached) (cutoff : staleCutoff now staleness = .ok stale)
    {c : StoreCall} (claim : c.ClaimsAt now staleness) :
    s.ClaimStep now.millis stale.millis c := by
  have legible := reached.legible
  have keyed := reached.keyed
  cases claim with
  | @primary lease forward =>
    cases granted : leaseEnd now lease with
    | error e =>
      refine .failed (e := e) (inCalendar_eq_false rfl granted) ?_
      simp only [Store.perform, claimPrimary, cutoff, granted]
      rfl
    | ok ends =>
      rcases claimPrimary_legible legible cutoff granted with
        ⟨none, answer⟩ | ⟨row, member, due, grouping, key, answer⟩
      · refine .nothing (dueKeys_primary_eq_nil none) ?_
        simp only [Store.perform, answer]
        rfl
      · have running := millis_le_of_leaseEnd forward granted
        refine .leased (mem_dueKeys_primary member due) running ?_ ?_
        · simp only [Leases, Store.perform, answer, ← key]
          rfl
        · simp only [Store.perform, answer]
          rfl
  | @oldest lease forward =>
    cases granted : leaseEnd now lease with
    | error e =>
      refine .failed (e := e) (inCalendar_eq_false rfl granted) ?_
      simp only [Store.perform, claimOldest, granted]
      rfl
    | ok ends =>
      exact claimStep_secondary rfl rfl (fun _ => rfl) (millis_le_of_leaseEnd forward granted)
        (claimOldest_legible legible granted)
  | @random lease choice forward =>
    cases granted : leaseEnd now lease with
    | ok ends =>
      exact claimStep_secondary rfl rfl (fun _ => rfl) (millis_le_of_leaseEnd forward granted)
        (claimRandom_legible legible keyed granted choice)
    | error e =>
      obtain ⟨works, read, picked⟩ := pick_legible legible now choice
      rcases picked with ⟨none, nothing⟩ | ⟨row, member, due, work, same, picked⟩
      · refine .nothing (dueKeys_secondary_eq_nil nothing) ?_
        simp only [Store.perform, claimRandom, claimAmong, read, none]
        rfl
      · refine .failed (e := e) (inCalendar_eq_false rfl granted) ?_
        have lost := leaseCandidate_refused (s := s) granted work
        simp only [Store.perform, claimRandom, claimAmong, read, picked, lost]
        rfl

end Claims

/-- The rows that calls lease, in the order of the calls. -/
def won (s : Store) : List StoreCall → List RowKey
  | [] => []
  | c :: cs => (c.leased? (s.perform c).1).toList ++ won (s.perform c).2 cs

namespace ClaimStep

variable {s : Store} {now stale : Int} {c : StoreCall}

theorem mem_dueKeys (step : s.ClaimStep now stale c) {key : RowKey} (won : s.Leases c key) :
    key ∈ s.dueKeys now stale c.queue := by
  cases step with
  | nothing none answer =>
    rw [Leases, answer, c.leased?_nothing] at won
    cases won
  | leased due running own written =>
    cases own.symm.trans won
    exact due
  | failed beyond answer =>
    rw [Leases, answer, StoreCall.leased?_error] at won
    cases won

/-- Only the row that was leased is not due any more. -/
theorem dueKeys (step : s.ClaimStep now stale c) (source : Source) :
    (s.perform c).2.dueKeys now stale source =
      (s.dueKeys now stale source).filter fun key => key ∉ (c.leased? (s.perform c).1).toList := by
  cases step with
  | nothing none answer =>
    rw [answer, c.leased?_nothing]
    simp
  | leased due running won written =>
    rw [written, dueKeys_setLease running, won]
    simp
  | failed beyond answer =>
    rw [answer, StoreCall.leased?_error]
    simp

/-- A claim with a lease that can be stored takes a row off the queue as long as it has one. -/
theorem length_dueKeys (step : s.ClaimStep now stale c) (lasting : c.inCalendar = true) :
    ((s.perform c).2.dueKeys now stale c.queue).length ≤
      (s.dueKeys now stale c.queue).length - 1 := by
  have kept := step.dueKeys c.queue
  cases step with
  | nothing none answer =>
    rw [answer, none]
    exact Nat.zero_le _
  | leased due running won written =>
    rw [kept, won]
    apply Nat.le_sub_one_of_lt
    exact List.length_filter_lt_length_iff_exists.mpr ⟨_, due, by simp⟩
  | failed beyond answer => exact absurd (lasting.symm.trans beyond) Bool.noConfusion

theorem none_of_nothing (step : s.ClaimStep now stale c)
    (found : (s.perform c).1 = .ok c.nothing) : s.dueKeys now stale c.queue = [] := by
  cases step with
  | nothing none answer => exact none
  | leased due running won written =>
    rw [Leases, found, c.leased?_nothing] at won
    cases won
  | failed beyond answer =>
    rw [answer] at found
    cases found

end ClaimStep

/-! Claims one after the other at one moment. -/

namespace Reached

variable {s : Store} {now stale : Instant} {staleness : Span} {claims : List StoreCall}

theorem dueKeys_after (reached : s.Reached) (cutoff : staleCutoff now staleness = .ok stale)
    (all : ∀ c ∈ claims, c.ClaimsAt now staleness) (source : Source) :
    (s.after claims).dueKeys now.millis stale.millis source =
      (s.dueKeys now.millis stale.millis source).filter fun key => key ∉ s.won claims := by
  induction claims generalizing s with
  | nil => simp [Store.after, won]
  | cons c claims ih =>
    have step := reached.claimStep cutoff (all c List.mem_cons_self)
    rw [Store.after, ih (reached.perform c) fun d member => all d (List.mem_cons_of_mem c member),
      step.dueKeys, List.filter_filter]
    apply List.filter_congr
    intro key _
    rw [won, ← Bool.decide_and, decide_eq_decide, List.mem_append, not_or, and_comm]

/-- Where nothing is due after claims, they won every row that was due. -/
theorem mem_won_of_none (reached : s.Reached) (cutoff : staleCutoff now staleness = .ok stale)
    (all : ∀ c ∈ claims, c.ClaimsAt now staleness) {source : Source}
    (none : (s.after claims).dueKeys now.millis stale.millis source = []) {key : RowKey}
    (due : key ∈ s.dueKeys now.millis stale.millis source) : key ∈ s.won claims := by
  rw [reached.dueKeys_after cutoff all] at none
  simpa using List.filter_eq_nil_iff.mp none key due

/-- A row that claims won was due before them. -/
theorem due_of_won (reached : s.Reached) (cutoff : staleCutoff now staleness = .ok stale)
    (all : ∀ c ∈ claims, c.ClaimsAt now staleness) {key : RowKey} (taken : key ∈ s.won claims) :
    ∃ source, key ∈ s.dueKeys now.millis stale.millis source := by
  induction claims generalizing s with
  | nil => cases taken
  | cons c claims ih =>
    have step := reached.claimStep cutoff (all c List.mem_cons_self)
    rcases List.mem_append.mp taken with own | later
    · exact ⟨c.queue, step.mem_dueKeys (Option.mem_toList.mp own)⟩
    · obtain ⟨source, due⟩ := ih (reached.perform c)
        (fun d member => all d (List.mem_cons_of_mem c member)) later
      rw [step.dueKeys] at due
      exact ⟨source, List.mem_of_mem_filter due⟩

/-- No row is won twice. -/
theorem nodup_won (reached : s.Reached) (cutoff : staleCutoff now staleness = .ok stale)
    (all : ∀ c ∈ claims, c.ClaimsAt now staleness) : (s.won claims).Nodup := by
  induction claims generalizing s with
  | nil => exact List.nodup_nil
  | cons c claims ih =>
    have step := reached.claimStep cutoff (all c List.mem_cons_self)
    have rest : ∀ d ∈ claims, d.ClaimsAt now staleness :=
      fun d member => all d (List.mem_cons_of_mem c member)
    apply List.Nodup.append (Option.toList_nodup _) (ih (reached.perform c) rest)
    intro key own later
    obtain ⟨source, due⟩ := (reached.perform c).due_of_won cutoff rest later
    rw [step.dueKeys] at due
    exact of_decide_eq_true (List.mem_filter.mp due).2 own

/-- So many claims on a queue with leases that can be stored take so many rows off it. -/
theorem length_dueKeys_after (reached : s.Reached)
    (cutoff : staleCutoff now staleness = .ok stale)
    (all : ∀ c ∈ claims, c.ClaimsAt now staleness) (source : Source) :
    ((s.after claims).dueKeys now.millis stale.millis source).length ≤
      (s.dueKeys now.millis stale.millis source).length -
        claims.countP fun c => c.queue = source && c.inCalendar := by
  induction claims generalizing s with
  | nil => exact Nat.le_refl _
  | cons c claims ih =>
    have step := reached.claimStep cutoff (all c List.mem_cons_self)
    have rest := ih (reached.perform c) fun d member => all d (List.mem_cons_of_mem c member)
    rw [List.countP_cons]
    -- A claim that counts takes a row off its queue. No other claim adds one.
    split
    · rename_i own
      obtain ⟨queue, lasting⟩ := (Bool.and_eq_true _ _).mp own
      have one := step.length_dueKeys lasting
      rw [of_decide_eq_true queue] at one
      exact Nat.le_trans rest (by omega)
    · have same : ((s.perform c).2.dueKeys now.millis stale.millis source).length ≤
          (s.dueKeys now.millis stale.millis source).length := by
        rw [step.dueKeys]
        exact List.length_filter_le _ _
      exact Nat.le_trans rest (by omega)

end Reached

/-- A while after the last lease that calls asked for, everything that is left is due. Claims made
then return every row with something left, each once, before they find nothing. -/
theorem crashed_work_heals {calls : List StoreCall} {last now stale : Instant}
    {length staleness : Span} (within : ∀ c ∈ calls, c.LeasesBy last length)
    (late : last.nanos + length.nanos + 1000000 < now.nanos)
    (begun : Instant.epoch.nanos + 1000000 < now.nanos)
    (cutoff : staleCutoff now staleness = .ok stale) :
    let s := empty.after calls
    (∀ row ∈ s.primary, row.calculated < stale.millis →
      row.isDue now.millis stale.millis = true) ∧
    (∀ row ∈ s.secondary, ∀ digests, readDigests row.digests = .ok digests → digests ≠ [] →
      row.calculated < row.updated → row.isDue? now.millis = some true) ∧
    ∀ claims, (∀ c ∈ claims, c.ClaimsAt now staleness) →
      (s.won claims).Nodup ∧
      (∀ before c later, claims = before ++ c :: later →
        (c.inCalendar = true → ((s.after before).perform c).1 = .ok c.nothing ∨
          ∃ key, s.Pending stale.millis c.queue key ∧ key ∉ s.won before ∧
            (s.after before).Leases c key) ∧
        (((s.after before).perform c).1 = .ok c.nothing →
          ∀ key, s.Pending stale.millis c.queue key → key ∈ s.won before)) ∧
      ∀ source, (s.dueKeys now.millis stale.millis source).length ≤
          claims.countP (fun c => c.queue = source && c.inCalendar) →
        ∀ key, s.Pending stale.millis source key → key ∈ s.won claims := by
  intro s
  have reached : s.Reached := ⟨calls, rfl⟩
  have leased : s.LeasedBy (lastLease last length) := (leasedBy_empty _).after within
  have ended : lastLease last length < now.millis := lastLease_lt_millis late begun
  have pending : ∀ source key, s.Pending stale.millis source key ↔
      key ∈ s.dueKeys now.millis stale.millis source :=
    fun _ _ => leased.pending_iff reached.legible ended
  refine ⟨fun row => leased.isDue_primary ended, ?_, ?_⟩
  · intro row member digests read filled newer
    exact leased.isDue?_secondary reached.legible ended member read filled newer
  intro claims all
  refine ⟨reached.nodup_won cutoff all, ?_, ?_⟩
  · rintro before c later rfl
    have earlier : ∀ d ∈ before, d.ClaimsAt now staleness :=
      fun d member => all d (List.mem_append_left _ member)
    have step := (reached.after before).claimStep cutoff
      (all c (List.mem_append_right before List.mem_cons_self))
    constructor
    · intro lasting
      cases step with
      | nothing none answer => exact .inl (congrArg Prod.fst answer)
      | failed beyond answer => exact absurd (lasting.symm.trans beyond) Bool.noConfusion
      | leased due running won written =>
        -- What is due to this claim is what the claims before it did not win.
        rw [reached.dueKeys_after cutoff earlier] at due
        obtain ⟨was, free⟩ := List.mem_filter.mp due
        exact .inr ⟨_, (pending _ _).mpr was, of_decide_eq_true free, won⟩
    · intro found key left
      exact reached.mem_won_of_none cutoff earlier (step.none_of_nothing found)
        ((pending _ _).mp left)
  · intro source enough key left
    have short := reached.length_dueKeys_after cutoff all source
    have none : (s.after claims).dueKeys now.millis stale.millis source = [] :=
      List.length_eq_zero_iff.mp (by omega)
    exact reached.mem_won_of_none cutoff all none ((pending _ _).mp left)

/-- Both units are claimed and neither is ever completed. -/
def abandoned : List StoreCall :=
  [.ensurePrimary [soleGrouping], .upsertSecondary soleWork (.atMillis 50000),
    tenMinuteClaim (.atMillis 100000), .claimOldest (.atMillis 100000) (.ofSeconds 600)]

def secondRound (now : Instant) : List StoreCall :=
  [tenMinuteClaim now, .claimRandom 3 now (.ofSeconds 600), tenMinuteClaim now]

/-- At the moment when both leases end nothing is due yet. -/
theorem crashed_work_heals_abandoned :
    (∀ c ∈ abandoned, c.LeasesBy (.atMillis 100000) (.ofSeconds 600)) ∧
    (Instant.atMillis 100000).nanos + (Span.ofSeconds 600).nanos + 1000000 <
      (Instant.atMillis 700002).nanos ∧
    Instant.epoch.nanos + 1000000 < (Instant.atMillis 700002).nanos ∧
    staleCutoff (.atMillis 700002) (.ofSeconds 60) = .ok (.atMillis 640002) ∧
    (empty.after abandoned).won (secondRound (.atMillis 700000)) = [] ∧
    (empty.after abandoned).won (secondRound (.atMillis 700002)) =
      [.primary soleGrouping.bytes, .secondary "review" soleGrouping.bytes] ∧
    ∀ source key, (empty.after abandoned).Pending (Instant.atMillis 640002).millis source key →
      key ∈ (empty.after abandoned).won (secondRound (.atMillis 700002)) := by
  have within : ∀ c ∈ abandoned, c.LeasesBy (.atMillis 100000) (.ofSeconds 600) := by
    simp [abandoned, tenMinuteClaim, StoreCall.LeasesBy, StoreCall.lease?, Instant.le_iff_nanos]
  have late : (Instant.atMillis 100000).nanos + (Span.ofSeconds 600).nanos + 1000000 <
      (Instant.atMillis 700002).nanos := by decide
  have begun : Instant.epoch.nanos + 1000000 < (Instant.atMillis 700002).nanos := by decide
  have cutoff : staleCutoff (.atMillis 700002) (.ofSeconds 60) = .ok (.atMillis 640002) := by rfl
  have claims : ∀ c ∈ secondRound (.atMillis 700002),
      c.ClaimsAt (.atMillis 700002) (.ofSeconds 60) := by
    have forward : 0 ≤ (Span.ofSeconds 600).nanos := by decide
    simp only [secondRound, List.forall_mem_cons]
    exact ⟨.primary forward, .random 3 forward, .primary forward, List.forall_mem_nil _⟩
  have healed := crashed_work_heals within late begun cutoff
  refine ⟨within, late, begun, cutoff, by decide +kernel, by decide +kernel, ?_⟩
  intro source
  apply (healed.2.2 _ claims).2.2 source
  cases source <;> decide +kernel

end Store

end LeaseQueue
