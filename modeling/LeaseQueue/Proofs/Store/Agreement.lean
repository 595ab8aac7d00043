import LeaseQueue.Proofs.Store.Candidates
/-! The two claims of review-branch work against each other. They find the same rows due, in the same
order: one takes the first of them, the other one any of the first fifty. -/
namespace LeaseQueue

section Rows

variable {α : Type} {rows : List α} {age : α → Int} {due : α → Bool}

/-- A row comes before another one if it was calculated earlier, or at the same time and stands
before it in the table. -/
def Ahead (age : α → Int) (rows : List α) (a b : α) : Prop :=
  age a < age b ∨ age a = age b ∧ ∃ i j : Nat, i < j ∧ rows[i]? = some a ∧ rows[j]? = some b

/-- The line keeps the order of the table among rows of one age. -/
theorem ahead_inLine (age : α → Int) (due : α → Bool) (rows : List α) :
    (inLine age due rows).Pairwise (Ahead age rows) := by
  let older (a b : α) : Bool := decide (age a ≤ age b)
  have sorted : (rows.zipIdx.mergeSort (List.zipIdxLE older)).Pairwise
      fun a b => List.zipIdxLE older a b = true := by
    apply List.pairwise_mergeSort
    · exact List.zipIdxLE_trans (by simp only [older, decide_eq_true_eq]; omega)
    · exact List.zipIdxLE_total (by simp only [older, Bool.or_eq_true, decide_eq_true_eq]; omega)
  have apart : (rows.zipIdx.mergeSort (List.zipIdxLE older)).Pairwise fun a b => a ≠ b := by
    have places : (rows.zipIdx.map Prod.snd).Nodup := by
      rw [List.zipIdx_map_snd]
      exact List.nodup_range'
    exact (List.mergeSort_perm _ _).nodup_iff.mpr places.of_map
  unfold inLine
  apply List.Pairwise.filter
  rw [← List.mergeSort_zipIdx, List.pairwise_map]
  apply (sorted.and apart).imp_of_mem
  rintro ⟨a, i⟩ ⟨b, j⟩ first second ⟨ordered, different⟩
  have foundA := List.mem_zipIdx_iff_getElem?.mp (List.mem_mergeSort.mp first)
  have foundB := List.mem_zipIdx_iff_getElem?.mp (List.mem_mergeSort.mp second)
  obtain ⟨ascending, earlier | ordered⟩ : age a ≤ age b ∧ (age a < age b ∨ i ≤ j) := by
    simpa [List.zipIdxLE, older] using ordered
  · exact .inl earlier
  · have places : i ≠ j := by
      rintro rfl
      exact different (Prod.ext (Option.some.inj (foundA.symm.trans foundB)) rfl)
    rcases Int.lt_or_eq_of_le ascending with earlier | tied
    · exact .inl earlier
    · exact .inr ⟨tied, i, j, Nat.lt_of_le_of_ne ordered places, foundA, foundB⟩

end Rows

namespace Store

/-- The rows that may be leased at a moment, the oldest first. -/
structure InOrder (s : Store) (now : Int) (line : List SecondaryRow) : Prop where
  eligible : ∀ row, row ∈ line ↔ row ∈ s.secondary ∧ row.leaseEnds < now ∧
    row.calculated < row.updated ∧ ∃ digests, readDigests row.digests = .ok digests ∧ digests ≠ []
  ordered : line.Pairwise (Ahead (·.calculated) s.secondary)
  distinct : line.Nodup

/-- What a claim does that leases and returns the row in a place of a line. -/
def Takes (s : Store) (ends : Instant) (rows : List SecondaryRow) (works : List SecondaryWork)
    (place : Nat) (outcome : Except StoreError (Option SecondaryWork) × Store) : Prop :=
  ∃ row work, rows[place]? = some row ∧ works[place]? = some work ∧
    outcome = (.ok (some work), { s with
      secondary := s.secondary.map fun other =>
        if other = row then { other with leaseEnds := ends.millis } else other })

theorem Reached.inOrder {s : Store} (reached : s.Reached) (now : Int) :
    s.InOrder now (s.secondaryLine now) := by
  constructor
  case eligible =>
    intro row
    refine mem_inLine.trans (and_congr_right fun member => ?_)
    exact reached.legible.isDue_iff member now
  case ordered => exact ahead_inLine _ _ _
  case distinct => exact (nodup_inLine reached.keyed.secondary).of_map

theorem setSecondaryLease_of_mem {s : Store} (keyed : s.Keyed) {row : SecondaryRow}
    (member : row ∈ s.secondary) (ends : Int) :
    s.setSecondaryLease row.branch row.key ends = { s with
      secondary := s.secondary.map fun other =>
        if other = row then { other with leaseEnds := ends } else other } := by
  unfold setSecondaryLease
  congr 1
  apply List.map_congr_left
  intro other among
  have own : other.hasKey row.branch row.key = true ↔ other = row := by
    rw [SecondaryRow.hasKey_iff]
    constructor
    · rintro ⟨branch, key⟩
      exact List.inj_on_of_nodup_map keyed.secondary among member (Prod.ext branch key)
    · rintro rfl
      exact ⟨rfl, rfl⟩
  simp only [own]

/-- What takes one place of a line is determined. -/
theorem Takes.eq {s : Store} {ends : Instant} {rows : List SecondaryRow}
    {works : List SecondaryWork} {place : Nat}
    {one other : Except StoreError (Option SecondaryWork) × Store}
    (takes : s.Takes ends rows works place one) (also : s.Takes ends rows works place other) :
    one = other := by
  obtain ⟨row, work, rowFound, workFound, rfl⟩ := takes
  obtain ⟨_, _, sameRow, sameWork, rfl⟩ := also
  cases rowFound.symm.trans sameRow
  cases workFound.symm.trans sameWork
  rfl

/-! What each claim does, by the line. -/

section Claims

variable {s : Store} {now ends : Instant} {lease : Span} {works : List SecondaryWork}

theorem claimOldest_idle (reached : s.Reached) (granted : leaseEnd now lease = .ok ends)
    (empty : s.secondaryLine now.millis = []) : s.claimOldest now lease = (.ok none, s) := by
  rcases claimOldest_legible reached.legible granted with ⟨_, idle⟩ | ⟨row, member, due, _⟩
  · exact idle
  · have waiting : row ∈ s.secondaryLine now.millis := mem_inLine.mpr ⟨member, due⟩
    rw [empty] at waiting
    cases waiting

theorem claimRandom_idle (reached : s.Reached) (empty : s.secondaryLine now.millis = [])
    (choice : Nat) : s.claimRandom choice now lease = (.ok none, s) := by
  obtain ⟨works, read, listed⟩ := reached.legible.candidates_eq now
  rw [empty, List.forall₂_nil_left_iff] at read
  rw [claimRandom, listed, read, List.take_nil]
  rfl

theorem candidates_prefix (listed : ∀ limit, s.candidates now limit =
      .ok (works.take (s.bounded limit))) (few : works.length ≤ s.secondary.length)
    {fewer more : Nat} (order : fewer ≤ more) :
    ∃ first rest, s.candidates now fewer = .ok first ∧
      s.candidates now more = .ok (first ++ rest) := by
  have longer : works.take (s.bounded fewer) <+: works.take (s.bounded more) := by
    by_cases limited : more ≤ maxLimit
    · have both : fewer ≤ maxLimit := Nat.le_trans order limited
      rw [bounded, bounded, if_pos limited, if_pos both]
      exact List.take_prefix_take_left order
    · rw [bounded.eq_def s more, if_neg limited, List.take_of_length_le few]
      exact List.take_prefix _ _
  obtain ⟨rest, same⟩ := longer
  exact ⟨_, rest, listed fewer, by rw [listed more, same]⟩

/-- A candidate that is leased right after it was read is taken from its place in line. -/
theorem takes_of_candidate (reached : s.Reached) (granted : leaseEnd now lease = .ok ends)
    (read : List.Forall₂ (fun row work => row.work = .ok work) (s.secondaryLine now.millis) works)
    {place : Nat} {work : SecondaryWork} (found : works[place]? = some work) :
    s.Takes ends (s.secondaryLine now.millis) works place (s.leaseCandidate work now lease) := by
  obtain ⟨inside, same⟩ := List.getElem?_eq_some_iff.mp found
  have within : place < (s.secondaryLine now.millis).length := read.length_eq ▸ inside
  have own := read.get within inside
  rw [List.get_eq_getElem, List.get_eq_getElem, same] at own
  have waiting := mem_inLine.mp (List.getElem_mem within)
  obtain ⟨branch, key⟩ := key_of_work own
  rcases leaseCandidate_legible reached.legible reached.keyed granted waiting.1 branch key with
    ⟨idle, _⟩ | ⟨_, leased, again, outcome⟩
  · cases idle.symm.trans waiting.2
  · obtain rfl := Except.ok.inj (own.symm.trans again)
    refine ⟨_, work, List.getElem?_eq_getElem within, found, ?_⟩
    rw [outcome, setSecondaryLease_of_mem reached.keyed waiting.1]

theorem claimOldest_takes (reached : s.Reached) (granted : leaseEnd now lease = .ok ends)
    (read : List.Forall₂ (fun row work => row.work = .ok work) (s.secondaryLine now.millis) works)
    (waiting : s.secondaryLine now.millis ≠ []) :
    s.Takes ends (s.secondaryLine now.millis) works 0 (s.claimOldest now lease) := by
  have sorted : ∀ row ∈ s.secondaryByAge, row.Legible :=
    fun row member => reached.legible.secondary row (List.mem_mergeSort.mp member)
  have scan : firstDue now.millis 1 s.secondaryByAge = .ok ((s.secondaryLine now.millis).take 1) :=
    firstDue_legible sorted now.millis 1
  cases line : s.secondaryLine now.millis with
  | nil => exact absurd line waiting
  | cons row rest =>
    rw [line] at read scan
    obtain ⟨work, more, own, _, rfl⟩ := List.forall₂_cons_left_iff.mp read
    have member : row ∈ s.secondaryLine now.millis := line ▸ List.mem_cons_self
    refine ⟨row, work, rfl, rfl, ?_⟩
    rw [← setSecondaryLease_of_mem reached.keyed (mem_inLine.mp member).1]
    simp only [claimOldest, granted, scan, List.take_succ_cons, List.take_zero, own]
    rfl

theorem claimRandom_takes (reached : s.Reached) (granted : leaseEnd now lease = .ok ends)
    (read : List.Forall₂ (fun row work => row.work = .ok work) (s.secondaryLine now.millis) works)
    (listed : s.candidates now candidateCount = .ok (works.take 50)) (filled : works ≠ [])
    (choice : Nat) :
    s.Takes ends (s.secondaryLine now.millis) works (choice % min 50 works.length)
      (s.claimRandom choice now lease) := by
  have positive := List.length_pos_of_ne_nil filled
  have inside : choice % min 50 works.length < min 50 works.length := Nat.mod_lt _ (by omega)
  obtain ⟨work, found⟩ : ∃ work, works[choice % min 50 works.length]? = some work :=
    ⟨_, List.getElem?_eq_getElem (by omega)⟩
  have picked : pick choice (works.take 50) = some work := by
    rw [pick, List.length_take, List.getElem?_take_of_lt (by omega), found]
  rw [claimRandom, listed]
  simp only [claimAmong, picked]
  exact takes_of_candidate reached granted read found

end Claims

/-- In a store that nobody else uses, the candidates are the first rows that may be leased, the oldest
first; one claim leases the first of them, the other one any of the first fifty. Both find nothing
exactly if there are none, and change nothing but the lease of the row that they return. -/
theorem secondary_claims_agree {s : Store} (reached : s.Reached) {now ends : Instant} {lease : Span}
    (granted : leaseEnd now lease = .ok ends) :
    ∃ line works, s.InOrder now.millis line ∧
      List.Forall₂ (fun row work => row.work = .ok work) line works ∧
      (∀ number, number ≤ maxLimit ∨ s.secondary.length ≤ number →
        s.candidates now number = .ok (works.take number)) ∧
      (∀ fewer more, fewer ≤ more → ∃ first rest, s.candidates now fewer = .ok first ∧
        s.candidates now more = .ok (first ++ rest)) ∧
      (line = [] → s.claimOldest now lease = (.ok none, s) ∧
        ∀ choice, s.claimRandom choice now lease = (.ok none, s)) ∧
      (line ≠ [] → s.Takes ends line works 0 (s.claimOldest now lease) ∧
        (∀ choice, ∃ place < 50, s.Takes ends line works place (s.claimRandom choice now lease)) ∧
        ∀ place < 50, place < line.length →
          ∃ choice, s.Takes ends line works place (s.claimRandom choice now lease)) := by
  obtain ⟨works, read, listed⟩ := reached.legible.candidates_eq now
  have few : works.length ≤ s.secondary.length := by
    rw [← read.length_eq, secondaryLine, length_inLine]
    exact List.countP_le_length
  have fifty : s.candidates now candidateCount = .ok (works.take 50) := listed candidateCount
  refine ⟨s.secondaryLine now.millis, works, reached.inOrder now.millis, read, ?_,
    fun fewer more order => candidates_prefix listed few order, ?_, ?_⟩
  · intro number fits
    rw [listed, bounded]
    split
    · rfl
    · have all : s.secondary.length ≤ number := fits.resolve_left ‹_›
      rw [List.take_of_length_le few, List.take_of_length_le (Nat.le_trans few all)]
  · intro empty
    exact ⟨claimOldest_idle reached granted empty, claimRandom_idle reached empty⟩
  · intro waiting
    have positive : 0 < works.length := read.length_eq ▸ List.length_pos_of_ne_nil waiting
    have taken := claimRandom_takes reached granted read fifty (List.ne_nil_of_length_pos positive)
    refine ⟨claimOldest_takes reached granted read waiting, fun choice => ?_, ?_⟩
    · have inside : choice % min 50 works.length < min 50 works.length := Nat.mod_lt _ (by omega)
      exact ⟨_, by omega, taken choice⟩
    · intro place first within
      have own : place % min 50 works.length = place :=
        Nat.mod_eq_of_lt (by rw [← read.length_eq]; omega)
      have this := taken place
      rw [own] at this
      exact ⟨place, this⟩

/-- Two rows of one age, between them one that has no digests, and one that is leased. -/
def tiedRows : Store := empty.after
  [.upsertSecondary ⟨"leased", soleGrouping, [⟨"aa"⟩]⟩ (.atMillis 1000),
    .claimOldest (.atMillis 1500) (.ofSeconds 600),
    .upsertSecondary ⟨"first", soleGrouping, [⟨"bb"⟩]⟩ (.atMillis 1000),
    .upsertSecondary ⟨"none", soleGrouping, []⟩ (.atMillis 1000),
    .upsertSecondary ⟨"second", soleGrouping, [⟨"cc"⟩]⟩ (.atMillis 1000)]

/-- Of two rows of one age the claim of the oldest takes the first, and the random one takes the
second for some choice. -/
theorem secondary_claims_agree_ties :
    tiedRows.Reached ∧ leaseEnd (.atMillis 2000) (.ofSeconds 600) = .ok (.atMillis 602000) ∧
    ∃ line works, tiedRows.InOrder 2000 line ∧
      works = [⟨"first", soleGrouping, [⟨"bb"⟩]⟩, ⟨"second", soleGrouping, [⟨"cc"⟩]⟩] ∧
      tiedRows.Takes (.atMillis 602000) line works 0
        (tiedRows.claimOldest (.atMillis 2000) (.ofSeconds 600)) ∧
      ∃ choice, tiedRows.Takes (.atMillis 602000) line works 1
        (tiedRows.claimRandom choice (.atMillis 2000) (.ofSeconds 600)) := by
  have reached : tiedRows.Reached := ⟨_, rfl⟩
  have granted : leaseEnd (.atMillis 2000) (.ofSeconds 600) = .ok (.atMillis 602000) := rfl
  obtain ⟨line, works, ordered, read, listed, _, _, served⟩ :=
    secondary_claims_agree reached granted
  have all : tiedRows.candidates (.atMillis 2000) 4 =
      .ok [⟨"first", soleGrouping, [⟨"bb"⟩]⟩, ⟨"second", soleGrouping, [⟨"cc"⟩]⟩] := by
    have sorted : tiedRows.secondaryByAge = tiedRows.secondary :=
      List.mergeSort_of_pairwise (by decide +kernel)
    rw [candidates, sorted]
    decide +kernel
  have four := Except.ok.inj ((listed 4 (.inl (by decide))).symm.trans all)
  have length : works.length = 2 := by
    have taken := congrArg List.length four
    rw [List.length_take] at taken
    simp only [List.length_cons, List.length_nil] at taken
    omega
  rw [List.take_of_length_le (by omega)] at four
  have two : line.length = 2 := read.length_eq.trans length
  obtain ⟨oldest, _, random⟩ := served (List.ne_nil_of_length_pos (by omega))
  exact ⟨reached, granted, line, works, ordered, four, oldest, random 1 (by omega) (by omega)⟩

end Store

end LeaseQueue
