import LeaseQueue.Proofs.Results
import LeaseQueue.Proofs.Store.History
import LeaseQueue.Proofs.Time.Millis
/-! What each claim can do to the store. It grants a lease on a due row, or it leaves the store as
it was and has no work to show. -/
namespace LeaseQueue

/-- An answer in which something is observed had it, where errors and nothing show nothing. -/
theorem answer_of_some {α β : Type} {observe : Except StoreError StoreAnswer → Option β}
    {result : Except StoreError (Option α)} {kind : Option α → StoreAnswer} {b : β}
    (won : observe (result.map kind) = some b) (failed : ∀ e, observe (.error e) = none)
    (nothing : observe (.ok (kind none)) = none) :
    ∃ a, result = .ok (some a) ∧ observe (.ok (kind (some a))) = some b := by
  cases result with
  | error e => exact absurd ((failed e).symm.trans won) nofun
  | ok a? =>
    cases a? with
    | none => exact absurd (nothing.symm.trans won) nofun
    | some a => exact ⟨a, rfl, won⟩

theorem PrimaryRow.isDue_iff {now stale : Int} {row : PrimaryRow} :
    row.isDue now stale = true ↔ row.leaseEnds < now ∧ row.calculated < stale := by
  simp [PrimaryRow.isDue]

theorem SecondaryRow.isDue?_eq_true_iff {now : Int} {row : SecondaryRow} :
    row.isDue? now = some true ↔ row.leaseEnds < now ∧ row.calculated < row.updated ∧
      ∃ length, Json.Lenient.arrayLength? row.digests = some length ∧ 0 < length := by
  unfold SecondaryRow.isDue?
  split
  · rename_i h
    simp [h]
  · rename_i h
    simp only [Option.some.injEq, Bool.false_eq_true, false_iff]
    exact fun due => h ⟨due.1, due.2.1⟩

theorem SecondaryRow.hasKey_iff {branch : String} {key : List UInt8} {row : SecondaryRow} :
    row.hasKey branch key = true ↔ row.branch = branch ∧ row.key = key := by
  simp [SecondaryRow.hasKey]

theorem SecondaryRow.hasKey_other {b branch : String} {k key : List UInt8} {row : SecondaryRow}
    (other : ¬ (b = branch ∧ k = key)) (own : row.hasKey branch key = true) :
    row.hasKey b k = false := by
  apply Bool.eq_false_iff.mpr
  intro same
  obtain ⟨ownBranch, ownKey⟩ := hasKey_iff.mp own
  obtain ⟨sameBranch, sameKey⟩ := hasKey_iff.mp same
  exact other ⟨sameBranch.symm.trans ownBranch, sameKey.symm.trans ownKey⟩

theorem GroupingId.bytes_inj {a b : GroupingId} : a.bytes = b.bytes ↔ a = b := by
  constructor
  · intro same
    cases a
    cases b
    cases same
    rfl
  · intro same
    rw [same]

namespace Store

theorem mem_leases_primary {s : Store} {row : PrimaryRow} (member : row ∈ s.primary) :
    row.leaseEnds ∈ s.leases (.primary row.key) :=
  List.mem_map.mpr ⟨row, List.mem_filter.mpr ⟨member, decide_eq_true rfl⟩, rfl⟩

theorem mem_leases_secondary {s : Store} {row : SecondaryRow} {branch : String} {key : List UInt8}
    (member : row ∈ s.secondary) (own : row.hasKey branch key = true) :
    row.leaseEnds ∈ s.leases (.secondary branch key) :=
  List.mem_map.mpr ⟨row, List.mem_filter.mpr ⟨member, own⟩, rfl⟩

/-- The rows that a scan finds are rows of the table, and due. -/
theorem mem_firstDue {now : Int} {limit : Nat} {rows found : List SecondaryRow}
    (scan : firstDue now limit rows = .ok found) :
    ∀ row ∈ found, row ∈ rows ∧ row.isDue? now = some true := by
  fun_induction firstDue now limit rows generalizing found with
  | case1 => cases scan; simp
  | case2 => cases scan; simp
  | case3 => cases scan
  | case4 limit row rest due ih =>
    obtain ⟨tail, more, rfl⟩ := exists_of_map_eq_ok scan
    intro other member
    rcases List.mem_cons.mp member with rfl | member
    · exact ⟨List.mem_cons_self, due⟩
    · have h := ih more other member
      exact ⟨List.mem_cons_of_mem _ h.1, h.2⟩
  | case5 limit row rest due ih =>
    intro other member
    have h := ih scan other member
    exact ⟨List.mem_cons_of_mem _ h.1, h.2⟩

theorem claimPrimary_cases (s : Store) (now : Instant) (staleness lease : Span) :
    (∃ row stale ends, staleCutoff now staleness = .ok stale ∧ leaseEnd now lease = .ok ends ∧
      s.primaryByAge.find? (PrimaryRow.isDue now.millis stale.millis) = some row ∧
      s.claimPrimary now staleness lease =
        ((readId row.key).map some, s.setPrimaryLease row.key ends.millis)) ∨
    ((∀ grouping, (s.claimPrimary now staleness lease).1 ≠ .ok (some grouping)) ∧
      (s.claimPrimary now staleness lease).2 = s) := by
  unfold claimPrimary
  split
  · exact .inr ⟨nofun, rfl⟩
  · rename_i stale cutoff
    split
    · exact .inr ⟨nofun, rfl⟩
    · rename_i ends granted
      split
      · exact .inr ⟨nofun, rfl⟩
      · rename_i row found
        exact .inl ⟨row, stale, ends, cutoff, granted, found, rfl⟩

theorem claimOldest_cases (s : Store) (now : Instant) (lease : Span) :
    (∃ row rest ends, leaseEnd now lease = .ok ends ∧
      firstDue now.millis 1 s.secondaryByAge = .ok (row :: rest) ∧
      s.claimOldest now lease =
        (row.work.map some, s.setSecondaryLease row.branch row.key ends.millis)) ∨
    ((∀ work, (s.claimOldest now lease).1 ≠ .ok (some work)) ∧
      (s.claimOldest now lease).2 = s) := by
  unfold claimOldest
  split
  · exact .inr ⟨nofun, rfl⟩
  · rename_i ends granted
    split
    · exact .inr ⟨nofun, rfl⟩
    · exact .inr ⟨nofun, rfl⟩
    · rename_i row rest found
      exact .inl ⟨row, rest, ends, granted, found, rfl⟩

theorem leaseSecondary_cases (s : Store) (branch : String) (grouping : GroupingId) (now : Instant)
    (lease : Span) :
    (∃ row ends, leaseEnd now lease = .ok ends ∧
      s.secondary.find? (SecondaryRow.hasKey branch grouping.bytes) = some row ∧
      row.isDue? now.millis = some true ∧
      s.leaseSecondary branch grouping now lease =
        ((readDigests row.digests).map some,
          s.setSecondaryLease branch grouping.bytes ends.millis)) ∨
    ((∀ digests, (s.leaseSecondary branch grouping now lease).1 ≠ .ok (some digests)) ∧
      (s.leaseSecondary branch grouping now lease).2 = s) := by
  unfold leaseSecondary
  split
  · exact .inr ⟨nofun, rfl⟩
  · rename_i ends granted
    split
    · exact .inr ⟨nofun, rfl⟩
    · rename_i row found
      split
      · exact .inr ⟨nofun, rfl⟩
      · exact .inr ⟨nofun, rfl⟩
      · rename_i due
        exact .inl ⟨row, ends, granted, found, due, rfl⟩

/-- A candidate is leased as its row is, and keeps its branch and grouping. -/
theorem leaseCandidate_eq (s : Store) (work : SecondaryWork) (now : Instant) (lease : Span) :
    s.leaseCandidate work now lease =
      ((s.leaseSecondary work.branch work.grouping now lease).1.map
          fun digests? => digests?.map fun digests => { work with digests },
        (s.leaseSecondary work.branch work.grouping now lease).2) := by
  unfold leaseCandidate
  split
  all_goals rename_i h; rw [h]; rfl

theorem leaseCandidate_refused {s : Store} {now : Instant} {lease : Span} {cause : StoreError}
    (refused : leaseEnd now lease = .error cause) (work : SecondaryWork) :
    s.leaseCandidate work now lease = (.error cause, s) := by
  rw [leaseCandidate_eq]
  unfold leaseSecondary
  simp only [refused]
  rfl

/-- A random claim leases one of the candidates it read, or it has none. -/
theorem claimRandom_cases (s : Store) (choice : Nat) (now : Instant) (lease : Span) :
    (∃ works work, s.candidates now candidateCount = .ok works ∧ pick choice works = some work ∧
      s.claimRandom choice now lease = s.leaseCandidate work now lease) ∨
    ((∀ work, (s.claimRandom choice now lease).1 ≠ .ok (some work)) ∧
      (s.claimRandom choice now lease).2 = s) := by
  unfold claimRandom claimAmong
  split
  · exact .inr ⟨nofun, rfl⟩
  · rename_i works read
    split
    · exact .inr ⟨nofun, rfl⟩
    · rename_i work picked
      exact .inl ⟨works, work, read, picked, rfl⟩

/-! Each claim as a grant, or as nothing. -/

theorem claimPrimary_grants (s : Store) (now : Instant) (staleness lease : Span) :
    (∃ key ends, leaseEnd now lease = .ok ends ∧
      (s.claimPrimary now staleness lease).1 = (readId key).map some ∧
      Grant s (.primary key) now ends (s.claimPrimary now staleness lease).2) ∨
    ((∀ grouping, (s.claimPrimary now staleness lease).1 ≠ .ok (some grouping)) ∧
      (s.claimPrimary now staleness lease).2 = s) := by
  refine (s.claimPrimary_cases now staleness lease).imp_left ?_
  rintro ⟨row, stale, ends, _, granted, found, eq⟩
  have member : row ∈ s.primary := List.mem_mergeSort.mp (List.mem_of_find?_eq_some found)
  have due := PrimaryRow.isDue_iff.mp (List.find?_some found)
  rw [eq]
  exact ⟨row.key, ends, granted, rfl, ⟨_, mem_leases_primary member, due.1⟩, rfl⟩

theorem claimOldest_grants (s : Store) (now : Instant) (lease : Span) :
    (∃ (row : SecondaryRow) (ends : Instant), leaseEnd now lease = .ok ends ∧
      (s.claimOldest now lease).1 = row.work.map some ∧
      Grant s (.secondary row.branch row.key) now ends (s.claimOldest now lease).2) ∨
    ((∀ work, (s.claimOldest now lease).1 ≠ .ok (some work)) ∧
      (s.claimOldest now lease).2 = s) := by
  refine (s.claimOldest_cases now lease).imp_left ?_
  rintro ⟨row, rest, ends, granted, found, eq⟩
  obtain ⟨member, due⟩ := mem_firstDue found row List.mem_cons_self
  have own : row.hasKey row.branch row.key = true := SecondaryRow.hasKey_iff.mpr ⟨rfl, rfl⟩
  have ended := (SecondaryRow.isDue?_eq_true_iff.mp due).1
  rw [eq]
  exact ⟨row, ends, granted, rfl,
    ⟨_, mem_leases_secondary (List.mem_mergeSort.mp member) own, ended⟩, rfl⟩

theorem leaseSecondary_grants (s : Store) (branch : String) (grouping : GroupingId)
    (now : Instant) (lease : Span) :
    (∃ ends, leaseEnd now lease = .ok ends ∧
      Grant s (.secondary branch grouping.bytes) now ends
        (s.leaseSecondary branch grouping now lease).2) ∨
    ((∀ digests, (s.leaseSecondary branch grouping now lease).1 ≠ .ok (some digests)) ∧
      (s.leaseSecondary branch grouping now lease).2 = s) := by
  refine (s.leaseSecondary_cases branch grouping now lease).imp_left ?_
  rintro ⟨row, ends, granted, found, due, eq⟩
  have member := List.mem_of_find?_eq_some found
  have own := List.find?_some found
  have ended := (SecondaryRow.isDue?_eq_true_iff.mp due).1
  rw [eq]
  exact ⟨ends, granted, ⟨_, mem_leases_secondary member own, ended⟩, rfl⟩

/-- A call that asks for a lease grants it on one row, or it leaves the store as it was. -/
theorem perform_grants (s : Store) {c : StoreCall} {now : Instant} {lease : Span}
    (asked : c.lease? = some (now, lease)) :
    (∃ key ends, leaseEnd now lease = .ok ends ∧ Grant s key now ends (s.perform c).2) ∨
      (s.perform c).2 = s := by
  cases c with
  | claimPrimary now staleness lease =>
    cases asked
    rcases s.claimPrimary_grants now staleness lease with
      ⟨key, ends, granted, _, grant⟩ | ⟨_, same⟩
    · exact .inl ⟨.primary key, ends, granted, grant⟩
    · exact .inr same
  | claimOldest now lease =>
    cases asked
    rcases s.claimOldest_grants now lease with ⟨row, ends, granted, _, grant⟩ | ⟨_, same⟩
    · exact .inl ⟨.secondary row.branch row.key, ends, granted, grant⟩
    · exact .inr same
  | leaseSecondary branch grouping now lease =>
    cases asked
    rcases s.leaseSecondary_grants branch grouping now lease with
      ⟨ends, granted, grant⟩ | ⟨_, same⟩
    · exact .inl ⟨.secondary branch grouping.bytes, ends, granted, grant⟩
    · exact .inr same
  | claimRandom choice now lease =>
    cases asked
    simp only [perform, answering]
    rcases s.claimRandom_cases choice now lease with ⟨_, work, _, _, eq⟩ | ⟨_, same⟩
    · rw [eq, leaseCandidate_eq]
      rcases s.leaseSecondary_grants work.branch work.grouping now lease with
        ⟨ends, granted, grant⟩ | ⟨_, same⟩
      · exact .inl ⟨.secondary work.branch work.grouping.bytes, ends, granted, grant⟩
      · exact .inr same
    · exact .inr same
  | _ => cases asked

theorem bytes_of_readId {key : List UInt8} {grouping : GroupingId}
    (read : readId key = .ok grouping) : grouping.bytes = key := by
  unfold readId GroupingId.ofBytes at read
  split at read
  · cases read; rfl
  · cases read

/-- What a row is read as has its branch, its key and its digests. -/
theorem parts_of_work {row : SecondaryRow} {work : SecondaryWork} (read : row.work = .ok work) :
    work.branch = row.branch ∧ work.grouping.bytes = row.key ∧
      readDigests row.digests = .ok work.digests := by
  unfold SecondaryRow.work at read
  cases id : readId row.key with
  | error e => rw [id] at read; cases read
  | ok grouping =>
    cases digests : readDigests row.digests with
    | error e => rw [id, digests] at read; cases read
    | ok digests =>
      rw [id, digests] at read
      cases read
      exact ⟨rfl, bytes_of_readId id, rfl⟩

theorem key_of_work {row : SecondaryRow} {work : SecondaryWork} (read : row.work = .ok work) :
    work.branch = row.branch ∧ work.grouping.bytes = row.key := by
  obtain ⟨branch, key, _⟩ := parts_of_work read
  exact ⟨branch, key⟩

/-! A claim that was won was granted a lease on the row that it returns. -/

theorem claimPrimary_won {s : Store} {now : Instant} {staleness lease : Span}
    {grouping : GroupingId} (won : (s.claimPrimary now staleness lease).1 = .ok (some grouping)) :
    ∃ ends, leaseEnd now lease = .ok ends ∧
      Grant s (.primary grouping.bytes) now ends (s.claimPrimary now staleness lease).2 := by
  rcases s.claimPrimary_grants now staleness lease with ⟨key, ends, granted, eq, grant⟩ | ⟨none, _⟩
  · rw [eq] at won
    obtain ⟨id, read, same⟩ := exists_of_map_eq_ok won
    cases same
    rw [← bytes_of_readId read] at grant
    exact ⟨ends, granted, grant⟩
  · exact absurd won (none grouping)

theorem claimOldest_won {s : Store} {now : Instant} {lease : Span} {work : SecondaryWork}
    (won : (s.claimOldest now lease).1 = .ok (some work)) :
    ∃ ends, leaseEnd now lease = .ok ends ∧
      Grant s (.secondary work.branch work.grouping.bytes) now ends
        (s.claimOldest now lease).2 := by
  rcases s.claimOldest_grants now lease with ⟨row, ends, granted, eq, grant⟩ | ⟨none, _⟩
  · rw [eq] at won
    obtain ⟨read, hr, same⟩ := exists_of_map_eq_ok won
    cases same
    obtain ⟨branch, key⟩ := key_of_work hr
    rw [← branch, ← key] at grant
    exact ⟨ends, granted, grant⟩
  · exact absurd won (none work)

theorem leaseSecondary_won {s : Store} {branch : String} {grouping : GroupingId} {now : Instant}
    {lease : Span} {digests : List Digest}
    (won : (s.leaseSecondary branch grouping now lease).1 = .ok (some digests)) :
    ∃ ends, leaseEnd now lease = .ok ends ∧
      Grant s (.secondary branch grouping.bytes) now ends
        (s.leaseSecondary branch grouping now lease).2 := by
  rcases s.leaseSecondary_grants branch grouping now lease with ⟨ends, granted, grant⟩ | ⟨none, _⟩
  · exact ⟨ends, granted, grant⟩
  · exact absurd won (none digests)

theorem leaseCandidate_won {s : Store} {candidate work : SecondaryWork} {now : Instant}
    {lease : Span} (won : (s.leaseCandidate candidate now lease).1 = .ok (some work)) :
    ∃ ends, leaseEnd now lease = .ok ends ∧
      Grant s (.secondary work.branch work.grouping.bytes) now ends
        (s.leaseCandidate candidate now lease).2 := by
  rw [leaseCandidate_eq] at won ⊢
  obtain ⟨digests?, leased, same⟩ := exists_of_map_eq_ok won
  cases digests? with
  | none => cases same
  | some digests =>
    cases same
    exact leaseSecondary_won leased

theorem claimRandom_won {s : Store} {choice : Nat} {now : Instant} {lease : Span}
    {work : SecondaryWork} (won : (s.claimRandom choice now lease).1 = .ok (some work)) :
    ∃ ends, leaseEnd now lease = .ok ends ∧
      Grant s (.secondary work.branch work.grouping.bytes) now ends
        (s.claimRandom choice now lease).2 := by
  rcases s.claimRandom_cases choice now lease with ⟨_, candidate, _, _, eq⟩ | ⟨none, _⟩
  · rw [eq] at won ⊢
    exact leaseCandidate_won won
  · exact absurd won (none work)

end Store

end LeaseQueue
