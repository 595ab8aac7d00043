import LeaseQueue.Proofs.Store.Columns
import LeaseQueue.Proofs.Store.Oldest
import Mathlib.Data.List.Induction
/-! Candidates that are leased some time after they were read. Whatever is done to their rows
meanwhile, a lease goes by the row as it is then, and it returns the digests that the row has then. -/
namespace LeaseQueue

namespace StoreCall

theorem upload?_eq_some_iff {c : StoreCall} {branch : String} {grouping : GroupingId}
    {upload : Upload} :
    c.upload? (.secondary branch grouping.bytes) = some upload ↔
      c = .upsertSecondary ⟨branch, grouping, upload.digests⟩ upload.updated := by
  constructor
  · intro uploads
    cases c with
    | upsertSecondary work updated =>
      by_cases own : work.branch = branch ∧ work.grouping.bytes = grouping.bytes
      · rw [upload?, if_pos own] at uploads
        obtain ⟨rfl, same⟩ := own
        obtain rfl := GroupingId.bytes_inj.mp same
        cases uploads
        rfl
      · rw [upload?, if_neg own] at uploads
        cases uploads
    | _ => cases uploads
  · rintro rfl
    exact if_pos ⟨rfl, rfl⟩

end StoreCall

namespace Store

/-! Reading candidates. -/

theorem mapM_work_iff {rows : List SecondaryRow} {works : List SecondaryWork} :
    rows.mapM SecondaryRow.work = .ok works ↔
      List.Forall₂ (fun row work => row.work = .ok work) rows works := by
  induction rows generalizing works with
  | nil =>
    rw [List.forall₂_nil_left_iff]
    exact ⟨fun read => (Except.ok.inj read).symm, fun none => none ▸ rfl⟩
  | cons row rows ih =>
    rw [List.forall₂_cons_left_iff, List.mapM_cons]
    constructor
    · intro read
      cases first : row.work with
      | error e => rw [first] at read; cases read
      | ok work =>
        cases rest : rows.mapM SecondaryRow.work with
        | error e => rw [first, rest] at read; cases read
        | ok more =>
          rw [first, rest] at read
          exact ⟨work, more, rfl, ih.mp rest, (Except.ok.inj read).symm⟩
    · rintro ⟨work, more, first, rest, rfl⟩
      rw [first, ih.mpr rest]
      rfl

/-- How many rows a limit lets a query return. -/
def bounded (s : Store) (limit : Nat) : Nat :=
  if limit ≤ maxLimit then limit else s.secondary.length

/-- The candidates are the first rows in line, each as it is read. -/
theorem Legible.candidates_eq {s : Store} (legible : s.Legible) (now : Instant) :
    ∃ works, List.Forall₂ (fun row work => row.work = .ok work) (s.secondaryLine now.millis) works ∧
      ∀ limit, s.candidates now limit = .ok (works.take (s.bounded limit)) := by
  have sorted : ∀ row ∈ s.secondaryByAge, row.Legible :=
    fun row member => legible.secondary row (List.mem_mergeSort.mp member)
  have waiting : ∀ row ∈ s.secondaryLine now.millis, row.Legible :=
    fun row member => legible.secondary row (mem_inLine.mp member).1
  obtain ⟨works, read, _⟩ := mapM_work waiting
  refine ⟨works, mapM_work_iff.mp read, fun limit => ?_⟩
  unfold candidates
  simp only [firstDue_legible sorted]
  exact mapM_work_iff.mpr (List.forall₂_take _ (mapM_work_iff.mp read))

theorem pick_of_ne_nil {works : List SecondaryWork} (filled : works ≠ []) (choice : Nat) :
    ∃ work ∈ works, pick choice works = some work := by
  obtain ⟨work, picked⟩ := Option.ne_none_iff_exists'.mp (mt pick_eq_none_iff.mp filled)
  exact ⟨work, List.mem_of_getElem? picked, picked⟩

/-! The upload that a row holds. -/

/-- A row that holds digests has them from the last upload to it, and its branch has not been
retired since. -/
theorem exists_last_upload {calls : List StoreCall} {key : RowKey} {row : WorkRow}
    {held : String × Int} (found : (empty.after calls).row? key = some row)
    (holds : row.upload? = some held) :
    ∃ earlier c later upload, calls = earlier ++ c :: later ∧ c.upload? key = some upload ∧
      held = upload.columns ∧ ∀ d ∈ later, d.upload? key = none ∧ d.retires key = false := by
  induction calls using List.reverseRecOn generalizing row with
  | nil => cases key <;> cases found
  | append_singleton calls c ih =>
    have reached : (empty.after calls).Reached := ⟨calls, rfl⟩
    rw [after_append] at found
    change ((empty.after calls).perform c).2.row? key = some row at found
    rw [reached.row?_perform] at found
    split at found
    · cases found
    · rename_i kept
      obtain ⟨before, present, rfl⟩ := Option.map_eq_some_iff.mp found
      cases uploads : c.upload? key with
      | some upload =>
        refine ⟨calls, c, [], upload, rfl, uploads, ?_, List.forall_mem_nil _⟩
        rw [WorkRow.written, uploads] at holds
        exact (Option.some.inj holds).symm
      | none =>
        -- The call did not write these columns, so an earlier one did.
        rw [WorkRow.written, uploads] at holds
        have earlier : (empty.after calls).row? key = some before := by
          cases had : (empty.after calls).row? key with
          | some row => rw [had] at present; exact present
          | none =>
            rw [had, Option.none_or] at present
            split at present
            · cases present; cases holds
            · cases present
        obtain ⟨first, d, later, upload, rfl, own, same, since⟩ := ih earlier holds
        refine ⟨first, d, later ++ [c], upload, by simp, own, same, ?_⟩
        intro other member
        rcases List.mem_append.mp member with among | last
        · exact since other among
        · rw [List.mem_singleton.mp last]
          exact ⟨uploads, Bool.eq_false_iff.mpr kept⟩

theorem row?_of_mem {s : Store} (keyed : s.Keyed) {row : SecondaryRow} (member : row ∈ s.secondary) :
    s.row? (.secondary row.branch row.key) = some row.columns := by
  rw [row?, find?_secondary keyed member]
  rfl

theorem row?_setLease_eq (s : Store) (own key : RowKey) (ends : Instant) :
    (s.setLease own ends.millis).row? key = (s.row? key).map fun row =>
      if key = own then { row with leaseEnds := ends.millis } else row := by
  rw [row?_setLease]
  apply Option.map_congr
  intro row _
  by_cases mine : key = own
  · simp [mine, WorkRow.written]
  · simp [mine, Ne.symm mine, WorkRow.written]

/-! Leasing a candidate. -/

/-- The row that a candidate was read from is there, with digests newer than its last calculation and
a lease that has ended. -/
def Eligible (s : Store) (candidate : SecondaryWork) (now : Int) : Prop :=
  ∃ row ∈ s.secondary, row.hasKey candidate.branch candidate.grouping.bytes = true ∧
    row.leaseEnds < now ∧ row.calculated < row.updated ∧
      ∃ digests, readDigests row.digests = .ok digests ∧ digests ≠ []

/-- What leasing a candidate after some calls has won, and the store after it. -/
structure CandidateLeased (calls : List StoreCall) (candidate : SecondaryWork) (ends : Instant)
    (won : SecondaryWork) (next : Store) : Prop where
  branch : won.branch = candidate.branch
  grouping : won.grouping = candidate.grouping
  present : ∃ row ∈ (empty.after calls).secondary,
    row.hasKey candidate.branch candidate.grouping.bytes = true ∧
      readDigests row.digests = .ok won.digests
  filled : won.digests ≠ []
  last : ∃ earlier updated later, calls = earlier ++ .upsertSecondary won updated :: later ∧
    ∀ c ∈ later, let key := RowKey.secondary candidate.branch candidate.grouping.bytes
      c.upload? key = none ∧ c.retires key = false
  leased : ∀ key, next.row? key = ((empty.after calls).row? key).map fun row =>
    if key = .secondary candidate.branch candidate.grouping.bytes then
      { row with leaseEnds := ends.millis }
    else row
  groupings : next.groupings = (empty.after calls).groupings

section Lease

variable {s : Store} {now ends : Instant} {lease : Span} {candidate : SecondaryWork}

theorem leaseCandidate_missing (granted : leaseEnd now lease = .ok ends)
    (missing : s.secondary.find? (SecondaryRow.hasKey candidate.branch candidate.grouping.bytes) =
      none) : s.leaseCandidate candidate now lease = (.ok none, s) := by
  rw [leaseCandidate_eq]
  unfold leaseSecondary
  simp only [granted, missing]
  rfl

theorem candidateLeased_of_due (calls : List StoreCall) {row : SecondaryRow}
    (member : row ∈ (empty.after calls).secondary)
    (own : row.hasKey candidate.branch candidate.grouping.bytes = true)
    (due : row.isDue now.millis = true) {won : SecondaryWork} (read : row.work = .ok won) :
    CandidateLeased calls candidate ends won
      ((empty.after calls).setSecondaryLease row.branch row.key ends.millis) := by
  have reached : (empty.after calls).Reached := ⟨calls, rfl⟩
  obtain ⟨branch, key⟩ := SecondaryRow.hasKey_iff.mp own
  obtain ⟨wonBranch, wonKey⟩ := key_of_work read
  have grouping : won.grouping = candidate.grouping := GroupingId.bytes_inj.mp (wonKey.trans key)
  obtain ⟨exact, rfl⟩ := reached.legible.secondary row member
  cases exact.stored_work.symm.trans read
  have digests : readDigests exact.stored.digests = .ok exact.work.digests :=
    readDigests_encodeList exact.digests
  have found := row?_of_mem reached.keyed member
  rw [branch, key] at found
  obtain ⟨earlier, c, later, upload, split, uploads, held, since⟩ := exists_last_upload found rfl
  constructor
  case branch => exact wonBranch.trans branch
  case grouping => exact grouping
  case present => exact ⟨_, member, own, digests⟩
  case filled => exact (reached.legible.secondary _ member).digests_ne_nil due read
  case last =>
    refine ⟨earlier, upload.updated, later, ?_, since⟩
    -- Equal texts are read as equal digests.
    have same : exact.digests = upload.digests := by
      have read : readDigests exact.stored.digests = .ok upload.digests := by
        rw [(Prod.mk.inj held).1]
        exact readDigests_encodeList upload.digests
      exact Except.ok.inj (digests.symm.trans read)
    rw [split, StoreCall.upload?_eq_some_iff.mp uploads, ← same, ← grouping, ← branch]
    rfl
  case leased =>
    intro key'
    rw [← branch, ← key]
    exact row?_setLease_eq _ (.secondary exact.stored.branch exact.stored.key) key' ends
  case groupings => rfl

theorem Reached.eligible_iff (reached : s.Reached) {now : Int} :
    s.Eligible candidate now ↔ ∃ row ∈ s.secondary,
      row.hasKey candidate.branch candidate.grouping.bytes = true ∧ row.isDue now = true := by
  constructor
  · rintro ⟨row, member, own, eligible⟩
    exact ⟨row, member, own, (reached.legible.isDue_iff member now).mpr eligible⟩
  · rintro ⟨row, member, own, due⟩
    exact ⟨row, member, own, (reached.legible.isDue_iff member now).mp due⟩

/-- A candidate is leased exactly if it is eligible. -/
theorem Reached.leaseCandidate_cases (reached : s.Reached) (granted : leaseEnd now lease = .ok ends)
    (candidate : SecondaryWork) :
    (s.Eligible candidate now.millis ∧ ∃ row ∈ s.secondary,
      row.hasKey candidate.branch candidate.grouping.bytes = true ∧ row.isDue now.millis = true ∧
        ∃ won, row.work = .ok won ∧ s.leaseCandidate candidate now lease =
          (.ok (some won), s.setSecondaryLease row.branch row.key ends.millis)) ∨
    (¬ s.Eligible candidate now.millis ∧ s.leaseCandidate candidate now lease = (.ok none, s)) := by
  cases found : s.secondary.find?
      (SecondaryRow.hasKey candidate.branch candidate.grouping.bytes) with
  | none =>
    refine .inr ⟨?_, leaseCandidate_missing granted found⟩
    rintro ⟨row, member, own, _⟩
    exact List.find?_eq_none.mp found row member own
  | some row =>
    have member := List.mem_of_find?_eq_some found
    have own := List.find?_some found
    obtain ⟨branch, key⟩ := SecondaryRow.hasKey_iff.mp own
    rcases leaseCandidate_legible reached.legible reached.keyed granted member branch.symm
        key.symm with ⟨idle, same⟩ | ⟨due, won, read, same⟩
    · refine .inr ⟨?_, same⟩
      rw [reached.eligible_iff]
      rintro ⟨other, among, mine, due⟩
      -- No other row has the key.
      have first := find?_secondary reached.keyed among
      obtain ⟨otherBranch, otherKey⟩ := SecondaryRow.hasKey_iff.mp mine
      rw [otherBranch, otherKey, found] at first
      rw [Option.some.inj first, due] at idle
      cases idle
    · exact .inl ⟨reached.eligible_iff.mpr ⟨row, member, own, due⟩, row, member, own, due, won,
        read, same⟩

/-- A candidate is leased as its row is at the lease, and only if it is due at the moment at which
the candidate was read; otherwise the lease changes nothing. -/
theorem candidate_leased_as_row_is (before between : List StoreCall) (now : Instant) (limit : Nat)
    (lease : Span) :
    ∃ works, (empty.after before).candidates now limit = .ok works ∧ ∀ choice,
      let s := empty.after (before ++ between)
      let claim := s.claimAmong works choice now lease
      (works = [] → claim = (.ok none, s)) ∧
      (works ≠ [] → ∃ work ∈ works, pick choice works = some work ∧
        (now.add? lease = none → claim =
          (.error (.timestampOutOfRange (now.written ++ " + lease of " ++ lease.written)), s)) ∧
        ∀ ends, now.add? lease = some ends →
          (s.Eligible work now.millis ∧ ∃ won next, claim = (.ok (some won), next) ∧
            CandidateLeased (before ++ between) work ends won next) ∨
          (¬ s.Eligible work now.millis ∧ claim = (.ok none, s))) := by
  obtain ⟨works, _, listed⟩ := (legible_after before).candidates_eq now
  refine ⟨_, listed limit, fun choice => ⟨?_, ?_⟩⟩
  · intro empty
    rw [claimAmong, pick_eq_none_iff.mpr empty]
  · intro filled
    obtain ⟨work, member, picked⟩ := pick_of_ne_nil filled choice
    refine ⟨work, member, picked, ?_, ?_⟩
    · intro beyond
      rw [claimAmong, picked]
      exact leaseCandidate_refused (by rw [leaseEnd, beyond]) work
    · intro ends representable
      have granted : leaseEnd now lease = .ok ends := by rw [leaseEnd, representable]
      have reached : (empty.after (before ++ between)).Reached := ⟨before ++ between, rfl⟩
      simp only [claimAmong, picked]
      rcases reached.leaseCandidate_cases granted work with
        ⟨eligible, row, present, own, due, won, read, same⟩ | lost
      · exact .inl ⟨eligible, won, _, same, candidateLeased_of_due _ present own due read⟩
      · exact .inr lost

end Lease

/-- A lease that ends beyond the calendar is refused even where its row is no longer due. -/
theorem candidate_lease_beyond_calendar :
    let before := [StoreCall.upsertSecondary soleWork (.atMillis 1000)]
    let between := [StoreCall.completeSecondary "review" soleGrouping (.atMillis 1000)]
    (empty.after before).candidates (.atMillis 2000) candidateCount = .ok [soleWork] ∧
    ¬ (empty.after (before ++ between)).Eligible soleWork 2000 ∧
    ((empty.after (before ++ between)).claimAmong [soleWork] 0 (.atMillis 2000)
      (.ofSeconds 9000000000000)).1 = .error (.timestampOutOfRange
        "1970-01-01 00:00:02 UTC + lease of PT9000000000000S") := by
  refine ⟨by decide +kernel, ?_, by decide +kernel⟩
  rintro ⟨row, member, _, _, drifted, _⟩
  have only : (empty.after [StoreCall.upsertSecondary soleWork (.atMillis 1000),
      StoreCall.completeSecondary "review" soleGrouping (.atMillis 1000)]).secondary =
      [⟨"review", soleGrouping.bytes, Digest.encodeList [⟨"aa"⟩], 1000, 1000, 0⟩] := by
    decide +kernel
  have same := List.mem_singleton.mp (only ▸ member)
  rw [same] at drifted
  exact absurd drifted (by decide)

end Store

end LeaseQueue
