import LeaseQueue.Proofs.Store.Agreement
/-! Claims that workers make one after the other at one moment. They win the rows in line, one each,
whichever of the two claims of review-branch work they make. -/
namespace LeaseQueue.Store

section Served

variable {ρ α : Type} {c : StoreCall} {line : Store → List ρ} {serve : Store → ρ → Store}
  {kind : Option α → StoreAnswer} {claim : Store → Except StoreError (Option α) × Store}
  {returns : ρ → α → Prop}

theorem eq_of_answering (distinct : Function.Injective kind)
    {outcome : Except StoreError (Option α) × Store} {won? : Option α} {next : Store}
    (answered : answering kind outcome = (.ok (kind won?), next)) : outcome = (.ok won?, next) := by
  rcases outcome with ⟨result, after⟩
  cases result with
  | error e => cases answered
  | ok own? =>
    obtain ⟨same, rfl⟩ := Prod.mk.inj answered
    obtain rfl := distinct (Except.ok.inj same)
    rfl

/-- Where nothing is to be won, nobody wins. -/
theorem winnings_idle {s : Store} (idle : claim s = (.ok none, s)) (workers : Nat) :
    winnings claim workers s = ([], s) := by
  induction workers with
  | zero => rfl
  | succ workers ih =>
    rw [winnings, idle]
    exact ih

/-- The winners take the rows of a line in turn, and leave the store as the same calls do. -/
theorem Serves.wins (distinct : Function.Injective kind)
    (calls : ∀ s : Store, s.perform c = answering kind (claim s))
    (serves : Serves c line serve (kind none) fun row answer =>
      ∃ won, returns row won ∧ answer = kind (some won))
    {s : Store} (reached : s.Reached) (workers : Nat) :
    List.Forall₂ returns ((line s).take workers) (winnings claim workers s).1 ∧
      (winnings claim workers s).2 = s.after (.replicate workers c) ∧
      line (s.after (.replicate workers c)) = (line s).drop workers := by
  induction workers generalizing s with
  | zero => exact ⟨.nil, rfl, rfl⟩
  | succ workers ih =>
    rw [List.replicate_succ, after, winnings]
    cases waiting : line s with
    | nil =>
      have idle := serves.idle s reached waiting
      have claimed := eq_of_answering distinct ((calls s).symm.trans idle)
      obtain ⟨won, left, shorter⟩ := ih reached
      rw [waiting, List.take_nil] at won
      rw [waiting, List.drop_nil] at shorter
      simp only [idle, claimed]
      exact ⟨won, left, shorter⟩
    | cons row rest =>
      obtain ⟨served, _, ⟨own, returned, rfl⟩, busy⟩ := serves.busy s reached row rest waiting
      have claimed := eq_of_answering distinct ((calls s).symm.trans busy)
      have onward := reached.perform c
      rw [busy] at onward
      obtain ⟨won, left, shorter⟩ := ih onward
      rw [served] at won shorter
      simp only [busy, claimed]
      exact ⟨.cons returned won, left, shorter⟩

end Served

section Claims

variable {s : Store} {now stale ends : Instant} {staleness lease : Span}

/-! Workers that claim win the first rows in line, of which no other row that is due is older. -/

theorem wins_claimPrimary (reached : s.Reached) (forward : 0 ≤ lease.nanos)
    (cutoff : staleCutoff now staleness = .ok stale) (granted : leaseEnd now lease = .ok ends)
    (workers : Nat) :
    let line := s.primaryLine now.millis stale.millis
    let calls := List.replicate workers (StoreCall.claimPrimary now staleness lease)
    let outcome := winnings (·.claimPrimary now staleness lease) workers s
    List.Forall₂ (fun row won => won.bytes = row.key) (line.take workers) outcome.1 ∧
      outcome.2 = s.after calls ∧
      (s.after calls).primaryLine now.millis stale.millis = line.drop workers :=
  (serves_claimPrimary (millis_le_of_leaseEnd forward granted) cutoff granted).wins
    (fun _ _ => StoreAnswer.primaryWork.inj) (fun _ => rfl) reached workers

theorem wins_claimOldest (reached : s.Reached) (forward : 0 ≤ lease.nanos)
    (granted : leaseEnd now lease = .ok ends) (workers : Nat) :
    let line := s.secondaryLine now.millis
    let calls := List.replicate workers (StoreCall.claimOldest now lease)
    let outcome := winnings (·.claimOldest now lease) workers s
    List.Forall₂ (fun row won => row.work = .ok won) (line.take workers) outcome.1 ∧
      outcome.2 = s.after calls ∧ (s.after calls).secondaryLine now.millis = line.drop workers :=
  (serves_claimOldest (millis_le_of_leaseEnd forward granted) granted).wins
    (fun _ _ => StoreAnswer.secondaryWork.inj) (fun _ => rfl) reached workers

/-- A random claim that picks the first candidate is a claim of the oldest row. -/
theorem claimRandom_first (reached : s.Reached) (granted : leaseEnd now lease = .ok ends) :
    s.claimRandom 0 now lease = s.claimOldest now lease := by
  by_cases empty : s.secondaryLine now.millis = []
  · rw [claimOldest_idle reached granted empty, claimRandom_idle reached empty]
  · obtain ⟨works, read, listed⟩ := reached.legible.candidates_eq now
    have filled : works ≠ [] :=
      List.ne_nil_of_length_pos (read.length_eq ▸ List.length_pos_of_ne_nil empty)
    have first := claimRandom_takes reached granted read (listed candidateCount) filled 0
    rw [Nat.zero_mod] at first
    exact first.eq (claimOldest_takes reached granted read empty)

/-- Workers that pick the first candidate win what workers do that claim the oldest row. -/
theorem winnings_claimRandom (reached : s.Reached) (granted : leaseEnd now lease = .ok ends)
    (workers : Nat) :
    winnings (·.claimRandom 0 now lease) workers s =
      winnings (·.claimOldest now lease) workers s := by
  induction workers generalizing s with
  | zero => rfl
  | succ workers ih =>
    have onward := reached.perform (.claimOldest now lease)
    rw [winnings, winnings, claimRandom_first reached granted]
    rcases claimOldest_legible reached.legible granted with ⟨_, idle⟩ | ⟨row, _, _, work, _, won⟩
    · simp only [idle, ih reached]
    · rw [perform, answering, won] at onward
      simp only [won, ih onward]

/-- Claims of the first candidate until nothing is due win what so many claims of the oldest row
do. -/
theorem claimAll_eq_winnings (reached : s.Reached) (granted : leaseEnd now lease = .ok ends)
    (limit : Nat) :
    let outcome := winnings (·.claimOldest now lease) limit s
    s.claimAll now lease limit = (.ok outcome.1, outcome.2) := by
  induction limit generalizing s with
  | zero => rfl
  | succ limit ih =>
    have onward := reached.perform (.claimOldest now lease)
    rw [claimAll, claimRandom_first reached granted, winnings]
    rcases claimOldest_legible reached.legible granted with ⟨_, idle⟩ | ⟨row, _, _, work, _, won⟩
    · have stays : winnings (·.claimOldest now lease) limit s = ([], s) := winnings_idle idle limit
      simp only [idle, stays]
    · rw [perform, answering, won] at onward
      simp only [won, ih onward]
      rfl

/-- Claims until nothing is due return each row that is due, the oldest first, and leave none. -/
theorem claimAll_drains (reached : s.Reached) (forward : 0 ≤ lease.nanos)
    (granted : leaseEnd now lease = .ok ends) {limit : Nat} (enough : s.secondary.length ≤ limit) :
    ∃ works next, s.claimAll now lease limit = (.ok works, next) ∧
      List.Forall₂ (fun row work => row.work = .ok work) (s.secondaryLine now.millis) works ∧
      next.secondaryLine now.millis = [] := by
  have all : (s.secondaryLine now.millis).length ≤ limit := by
    rw [secondaryLine, length_inLine]
    exact Nat.le_trans List.countP_le_length enough
  obtain ⟨won, left, shorter⟩ := wins_claimOldest reached forward granted limit
  rw [List.take_of_length_le all] at won
  rw [List.drop_of_length_le all, ← left] at shorter
  exact ⟨_, _, claimAll_eq_winnings reached granted limit, won, shorter⟩

end Claims

end LeaseQueue.Store
