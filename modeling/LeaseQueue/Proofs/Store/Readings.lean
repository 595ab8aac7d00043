import LeaseQueue.Proofs.Store.Agreement
import LeaseQueue.Proofs.Store.Drift
import LeaseQueue.Proofs.Store.Failures
/-! Digests as they are read after they were stored. Whatever they contain, each reader of the row
finds the digests of its last upload, and the database counts them as it should. -/
namespace LeaseQueue.Store

variable {s : Store} {row : SecondaryRow} {work : SecondaryWork} {works : List SecondaryWork}

theorem work_of_digests (own : row.hasKey work.branch work.grouping.bytes = true)
    (held : row.digests = Digest.encodeList work.digests) : row.work = .ok work := by
  obtain ⟨branch, key⟩ := SecondaryRow.hasKey_iff.mp own
  simp only [SecondaryRow.work, key, readId_bytes, held, readDigests_encodeList, branch]
  rfl

theorem Keyed.eq_of_work (keyed : s.Keyed) (member : row ∈ s.secondary) (own : row.work = .ok work)
    {other : SecondaryRow} (among : other ∈ s.secondary) {read : SecondaryWork}
    (reads : other.work = .ok read) (branch : read.branch = work.branch)
    (grouping : read.grouping = work.grouping) : other = row := by
  obtain ⟨rowBranch, rowKey⟩ := key_of_work own
  obtain ⟨otherBranch, otherKey⟩ := key_of_work reads
  apply List.inj_on_of_nodup_map keyed.secondary among member
  simp [secondaryKey, ← rowBranch, ← otherBranch, ← rowKey, ← otherKey, branch, grouping]

section Line

variable {now : Int}
  (read : List.Forall₂ (fun row work => row.work = .ok work) (s.secondaryLine now) works)

include read

theorem exists_row_at {place : Nat} {other : SecondaryWork} (found : works[place]? = some other) :
    ∃ row ∈ s.secondary, (s.secondaryLine now)[place]? = some row ∧ row.work = .ok other := by
  obtain ⟨inside, rfl⟩ := List.getElem?_eq_some_iff.mp found
  have within : place < (s.secondaryLine now).length := read.length_eq.symm ▸ inside
  have reads := read.get within inside
  rw [List.get_eq_getElem, List.get_eq_getElem] at reads
  exact ⟨_, (mem_inLine.mp (List.getElem_mem within)).1, List.getElem?_eq_getElem within, reads⟩

/-- A work stands among those that were read in the place of its row. -/
theorem place_iff (keyed : s.Keyed) (member : row ∈ s.secondary) (own : row.work = .ok work)
    (place : Nat) : works[place]? = some work ↔ (s.secondaryLine now)[place]? = some row := by
  constructor
  · intro found
    obtain ⟨other, among, there, reads⟩ := exists_row_at read found
    rw [there, keyed.eq_of_work member own among reads rfl rfl]
  · intro found
    obtain ⟨within, rfl⟩ := List.getElem?_eq_some_iff.mp found
    have inside : place < works.length := read.length_eq ▸ within
    have reads := read.get within inside
    rw [List.get_eq_getElem, List.get_eq_getElem] at reads
    rw [List.getElem?_eq_getElem inside, Except.ok.inj (reads.symm.trans own)]

theorem eq_of_key (keyed : s.Keyed) (member : row ∈ s.secondary) (own : row.work = .ok work)
    {other : SecondaryWork} (among : other ∈ works) (branch : other.branch = work.branch)
    (grouping : other.grouping = work.grouping) : other = work := by
  obtain ⟨place, found⟩ := List.mem_iff_getElem?.mp among
  obtain ⟨source, inside, _, reads⟩ := exists_row_at read found
  rw [keyed.eq_of_work member own inside reads branch grouping] at reads
  exact Except.ok.inj (reads.symm.trans own)

end Line

theorem Legible.claimOldest_fst (legible : s.Legible) {now ends : Instant} {lease : Span}
    (granted : leaseEnd now lease = .ok ends)
    (read : List.Forall₂ (fun row work => row.work = .ok work) (s.secondaryLine now.millis) works) :
    (s.claimOldest now lease).1 = .ok works.head? := by
  have sorted : ∀ row ∈ s.secondaryByAge, row.Legible :=
    fun row member => legible.secondary row (List.mem_mergeSort.mp member)
  have scan : firstDue now.millis 1 s.secondaryByAge = .ok ((s.secondaryLine now.millis).take 1) :=
    firstDue_legible sorted now.millis 1
  simp only [claimOldest, granted, scan]
  generalize s.secondaryLine now.millis = line at read
  cases read with
  | nil => rfl
  | cons own _ =>
    simp only [List.take_succ_cons, List.take_zero, own]
    rfl

/-- What the readers of a store make of a row that holds a unit of work. -/
structure Shows (s : Store) (row : SecondaryRow) (work : SecondaryWork) : Prop where
  key : row.hasKey work.branch work.grouping.bytes = true
  decoded : Digest.decodeList row.digests = .ok work.digests
  counted : ∃ length, Json.Lenient.arrayLength? row.digests = some length ∧
    (0 < length ↔ work.digests ≠ [])
  due_iff : ∀ now, row.isDue now = true ↔
    row.leaseEnds < now ∧ row.calculated < row.updated ∧ work.digests ≠ []
  snapshot : ∃ snapshot, s.secondaryRow work.branch work.grouping = .ok (some snapshot) ∧
    snapshot.digests = work.digests
  leased : ∀ now lease ends, leaseEnd now lease = .ok ends →
    (s.leaseSecondary work.branch work.grouping now lease).1 =
      .ok (if row.isDue now.millis = true then some work.digests else none)
  claimed : ∀ now lease ends, leaseEnd now lease = .ok ends →
    ∃ won?, (s.claimOldest now lease).1 = .ok won? ∧
      (won? = some work ↔ (s.secondaryLine now.millis).head? = some row) ∧
      ∀ won, won? = some won → won.branch = work.branch → won.grouping = work.grouping → won = work
  listed : ∀ now limit, ∃ works, s.candidates now limit = .ok works ∧
    (∀ place : Nat, works[place]? = some work ↔
      ((s.secondaryLine now.millis).take (s.bounded limit))[place]? = some row) ∧
    ∀ other ∈ works, other.branch = work.branch → other.grouping = work.grouping → other = work

theorem Reached.shows (reached : s.Reached) (member : row ∈ s.secondary)
    (key : row.hasKey work.branch work.grouping.bytes = true)
    (held : row.digests = Digest.encodeList work.digests) : s.Shows row work := by
  have own := work_of_digests key held
  have keyed := reached.keyed
  have legible := reached.legible
  obtain ⟨branch, bytes⟩ := SecondaryRow.hasKey_iff.mp key
  have found : s.secondary.find? (SecondaryRow.hasKey work.branch work.grouping.bytes) = some row := by
    rw [← branch, ← bytes]
    exact find?_secondary keyed member
  have digests : readDigests row.digests = .ok work.digests := held ▸ readDigests_encodeList _
  constructor
  case key => exact key
  case decoded => rw [held, Digest.decodeList_encodeList]
  case counted =>
    rw [held]
    exact ⟨_, Digest.arrayLength?_encodeList _, List.length_pos_iff⟩
  case due_iff =>
    intro now
    rw [legible.isDue_iff member now]
    simp [digests]
  case snapshot =>
    obtain ⟨exact, rfl⟩ := legible.secondary row member
    unfold secondaryRow
    rw [found]
    simp only [digests]
    simp only [ExactSecondary.stored, readTime_millis]
    exact ⟨_, rfl, rfl⟩
  case leased =>
    intro now lease ends granted
    unfold leaseSecondary
    simp only [granted, found, (legible.secondary row member).isDue?]
    cases row.isDue now.millis with
    | false => rfl
    | true =>
      simp only [digests]
      rfl
  case claimed =>
    intro now lease ends granted
    obtain ⟨works, read, _⟩ := legible.candidates_eq now
    refine ⟨works.head?, legible.claimOldest_fst granted read, ?_, ?_⟩
    · rw [List.head?_eq_getElem?, List.head?_eq_getElem?]
      exact place_iff read keyed member own 0
    · intro won first
      exact eq_of_key read keyed member own (List.mem_of_head? first)
  case listed =>
    intro now limit
    obtain ⟨works, read, listed⟩ := legible.candidates_eq now
    refine ⟨_, listed limit, ?_, ?_⟩
    · intro place
      simp only [List.getElem?_take]
      split
      · exact place_iff read keyed member own place
      · simp
    · intro other among
      exact eq_of_key read keyed member own (List.mem_of_mem_take among)

/-- However work goes on after an upload, the digests of the upload are read back as they were given,
until the next upload to the row or the end of its branch. -/
theorem digests_survive (before later : List StoreCall) (work : SecondaryWork) (updated : Instant)
    (unchanged : ∀ c ∈ later, c.uploads work.branch work.grouping.bytes = false)
    (kept : ∀ c ∈ later, c.retires (.secondary work.branch work.grouping.bytes) = false) :
    let s := empty.after (before ++ .upsertSecondary work updated :: later)
    (∃ row ∈ s.secondary, s.Shows row work) ∧
      ∀ c reason, (s.perform c).1 ≠ .error (.invalidRow reason) := by
  intro s
  have reached : s.Reached := ⟨_, rfl⟩
  -- The upload leaves a row that carries the digests, and what follows may only lease or complete it.
  have carried : s.Carries work.branch work.grouping ⟨work.digests, updated⟩ := by
    change (empty.after (before ++ .upsertSecondary work updated :: later)).Carries _ _ _
    rw [after_append]
    exact (carries_upsertSecondary _ _ _ _ _).after unchanged kept
  obtain ⟨row, member, key⟩ := carried.exists_row
  constructor
  · exact ⟨row, member, reached.shows member key (carried.row member key).1⟩
  · intro c reason failed
    obtain ⟨⟨sum, other⟩, _⟩ := (failsIff_after _ c).refused _ failed
    cases other

def awkwardWork : SecondaryWork :=
  ⟨"\"\n", soleGrouping, [⟨""⟩, ⟨"\"\\/"⟩, ⟨"\x00\x1f\x7f\t"⟩, ⟨"𝄞"⟩, ⟨"𝄞"⟩, ⟨"\uffff"⟩]⟩

/-- Neither an earlier upload nor the completion in between shows in what is read. -/
theorem digests_survive_awkward :
    let before := [.upsertSecondary { awkwardWork with digests := [] } (.atMillis 5)]
    let later := [.completeSecondary awkwardWork.branch soleGrouping .latest,
      .claimOldest .earliest (.ofSeconds 600)]
    let s := empty.after (before ++ .upsertSecondary awkwardWork .earliest :: later)
    (∃ row ∈ s.secondary, s.Shows row awkwardWork) ∧
      ∀ c reason, (s.perform c).1 ≠ .error (.invalidRow reason) :=
  digests_survive _ _ awkwardWork .earliest (by decide) (by decide)

end LeaseQueue.Store
