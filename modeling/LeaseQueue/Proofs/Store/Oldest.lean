import LeaseQueue.Proofs.Store.Leases
import LeaseQueue.Proofs.Store.Legible
/-! The order of claims. At one moment, claims one after the other return the rows that are due, each
once and the one calculated longest ago first, and then nothing. -/
namespace LeaseQueue

section Rows

variable {α κ : Type} {rows : List α} {age : α → Int} {due : α → Bool} {key : α → κ}

/-- The rows that are due, in the order in which claims find them. -/
def inLine (age : α → Int) (due : α → Bool) (rows : List α) : List α :=
  (rows.mergeSort fun a b => decide (age a ≤ age b)).filter due

/-- As many rows that are due as there are, up to a number, of which no other one is older. -/
structure Oldest (age : α → Int) (due : α → Bool) (rows : List α) (number : Nat)
    (won : List α) : Prop where
  length : won.length = min number (rows.countP due)
  distinct : won.Nodup
  eligible : ∀ row ∈ won, row ∈ rows ∧ due row = true
  ordered : won.Pairwise fun earlier later => age earlier ≤ age later
  oldest : ∀ row ∈ won, ∀ other ∈ rows, due other = true → other ∉ won → age row ≤ age other

theorem mem_inLine {row : α} : row ∈ inLine age due rows ↔ row ∈ rows ∧ due row = true := by
  simp [inLine]

theorem length_inLine : (inLine age due rows).length = rows.countP due := by
  rw [inLine, List.countP_eq_length_filter]
  exact ((List.mergeSort_perm rows _).filter due).length_eq

theorem ordered_inLine : (inLine age due rows).Pairwise fun a b => age a ≤ age b := by
  have sorted : (rows.mergeSort fun a b => decide (age a ≤ age b)).Pairwise
      fun a b => decide (age a ≤ age b) = true :=
    List.pairwise_mergeSort (by simp only [decide_eq_true_eq]; omega)
      (by simp only [Bool.or_eq_true, decide_eq_true_eq]; omega) rows
  exact (sorted.imp of_decide_eq_true).filter due

theorem nodup_inLine (unique : (rows.map key).Nodup) : ((inLine age due rows).map key).Nodup := by
  have sorted : ((rows.mergeSort fun a b => decide (age a ≤ age b)).map key).Nodup :=
    ((List.mergeSort_perm rows _).map key).nodup_iff.mpr unique
  exact sorted.sublist (List.filter_sublist.map key)

theorem oldest_take (unique : (rows.map key).Nodup) (number : Nat) :
    Oldest age due rows number ((inLine age due rows).take number) := by
  refine ⟨?_, ?_, ?_, ?_, ?_⟩
  · rw [List.length_take, length_inLine]
  · exact (nodup_inLine unique).of_map.sublist (List.take_sublist _ _)
  · exact fun row member => mem_inLine.mp (List.mem_of_mem_take member)
  · exact ordered_inLine.sublist (List.take_sublist _ _)
  · intro row member other among ready absent
    -- What is due and is not among the first stands behind them.
    have present : other ∈ inLine age due rows := mem_inLine.mpr ⟨among, ready⟩
    have order : (inLine age due rows).Pairwise fun a b => age a ≤ age b := ordered_inLine
    rw [← List.take_append_drop number (inLine age due rows)] at present order
    have behind := (List.mem_append.mp present).resolve_left absent
    exact (List.pairwise_append.mp order).2.2 row member other behind

/-- A rewriting after which the first row in line is not due any more and all others are as before. -/
theorem inLine_rewritten {f : α → α} {first : α} {rest : List α} (unique : (rows.map key).Nodup)
    (line : inLine age due rows = first :: rest) (aged : ∀ row, age (f row) = age row)
    (served : ∀ row, key row = key first → due (f row) = false)
    (others : ∀ row, key row ≠ key first → f row = row) : inLine age due (rows.map f) = rest := by
  have sorted : (rows.map f).mergeSort (fun a b => decide (age a ≤ age b)) =
      (rows.mergeSort fun a b => decide (age a ≤ age b)).map f := by
    refine (List.map_mergeSort ?_).symm
    intro a _ b _
    rw [aged, aged]
  have apart : ∀ row ∈ rest, key row ≠ key first := by
    have distinct : ((inLine age due rows).map key).Nodup := nodup_inLine unique
    rw [line, List.map_cons, List.nodup_cons] at distinct
    intro row member same
    exact distinct.1 (List.mem_map.mpr ⟨row, member, same⟩)
  classical
  have still : ∀ row, (due ∘ f) row = (decide (key row ≠ key first) && due row) := by
    intro row
    by_cases own : key row = key first
    · simp [served row own, own]
    · simp [others row own, own]
  have left : (rows.mergeSort fun a b => decide (age a ≤ age b)).filter (due ∘ f) = rest := by
    rw [funext still, ← List.filter_filter]
    change (inLine age due rows).filter _ = rest
    rw [line, List.filter_cons_of_neg (by simp), List.filter_eq_self]
    intro row member
    simpa using apart row member
  rw [inLine, sorted, List.filter_map, left]
  calc rest.map f = rest.map id := List.map_congr_left fun row member => others row (apart row member)
    _ = rest := List.map_id rest

end Rows

namespace Store

def primaryLine (s : Store) (now stale : Int) : List PrimaryRow :=
  inLine (·.calculated) (PrimaryRow.isDue now stale) s.primary

def secondaryLine (s : Store) (now : Int) : List SecondaryRow :=
  inLine (·.calculated) (SecondaryRow.isDue now) s.secondary

/-! Serving the first row in line, and many of them. -/

section Served

variable {s : Store} {now stale ends : Int}

theorem oldest_primaryLine (keyed : s.Keyed) (now stale : Int) (number : Nat) :
    Oldest (·.calculated) (PrimaryRow.isDue now stale) s.primary number
      ((s.primaryLine now stale).take number) := oldest_take keyed.primary number

theorem oldest_secondaryLine (keyed : s.Keyed) (now : Int) (number : Nat) :
    Oldest (·.calculated) (SecondaryRow.isDue now) s.secondary number
      ((s.secondaryLine now).take number) := oldest_take keyed.secondary number

theorem primaryLine_served (keyed : s.Keyed) (running : now ≤ ends) {row : PrimaryRow}
    {rest : List PrimaryRow} (line : s.primaryLine now stale = row :: rest) :
    (s.setPrimaryLease row.key ends).primaryLine now stale = rest := by
  apply inLine_rewritten keyed.primary line
  · intro other
    split <;> rfl
  · intro other own
    rw [if_pos own]
    exact PrimaryRow.isDue_false_of_leased running
  · intro other apart
    exact if_neg apart

theorem secondaryLine_served (keyed : s.Keyed) (running : now ≤ ends) {row : SecondaryRow}
    {rest : List SecondaryRow} (line : s.secondaryLine now = row :: rest) :
    (s.setSecondaryLease row.branch row.key ends).secondaryLine now = rest := by
  have own_iff : ∀ other : SecondaryRow,
      other.hasKey row.branch row.key = true ↔ secondaryKey other = secondaryKey row := by
    intro other
    rw [SecondaryRow.hasKey_iff, secondaryKey, secondaryKey, Prod.mk.injEq]
  apply inLine_rewritten keyed.secondary line
  · intro other
    split <;> rfl
  · intro other own
    rw [if_pos ((own_iff other).mpr own)]
    exact SecondaryRow.isDue_false_of_leased running
  · intro other apart
    exact if_neg fun own => apart ((own_iff other).mp own)

theorem foldl_setPrimaryLease (won : List PrimaryRow) (s : Store) (ends : Int) :
    won.foldl (fun s row => s.setPrimaryLease row.key ends) s =
      { s with
        primary := s.primary.map fun row =>
          if row.key ∈ won.map (·.key) then { row with leaseEnds := ends } else row } := by
  induction won generalizing s with
  | nil => simp
  | cons first won ih =>
    rw [List.foldl_cons, ih]
    simp only [setPrimaryLease, List.map_map]
    congr 2
    funext row
    by_cases own : row.key = first.key <;> simp [own]

theorem foldl_setSecondaryLease (won : List SecondaryRow) (s : Store) (ends : Int) :
    won.foldl (fun s row => s.setSecondaryLease row.branch row.key ends) s =
      { s with
        secondary := s.secondary.map fun row =>
          if secondaryKey row ∈ won.map secondaryKey then { row with leaseEnds := ends }
          else row } := by
  induction won generalizing s with
  | nil => simp
  | cons first won ih =>
    rw [List.foldl_cons, ih]
    simp only [setSecondaryLease, List.map_map]
    congr 2
    funext row
    by_cases own : row.branch = first.branch ∧ row.key = first.key
    · simp [SecondaryRow.hasKey, secondaryKey, own]
    · simp [SecondaryRow.hasKey, secondaryKey, own]

/-- Where keys are unique, a row that has the key of one of some rows is one of them. -/
theorem key_mem_iff {α κ : Type} {rows won : List α} {key : α → κ} (unique : (rows.map key).Nodup)
    (among : ∀ row ∈ won, row ∈ rows) {row : α} (member : row ∈ rows) :
    key row ∈ won.map key ↔ row ∈ won := by
  constructor
  · intro found
    obtain ⟨other, taken, same⟩ := List.mem_map.mp found
    rwa [List.inj_on_of_nodup_map unique member (among other taken) same.symm]
  · exact List.mem_map_of_mem

end Served

/-! Claims that return the rows of a line in turn. -/

/-- A call that serves the first row of a line, and does nothing where the line is empty. -/
structure Serves {ρ : Type} (c : StoreCall) (line : Store → List ρ) (serve : Store → ρ → Store)
    (nothing : StoreAnswer) (returns : ρ → StoreAnswer → Prop) : Prop where
  idle : ∀ s : Store, s.Reached → line s = [] → s.perform c = (.ok nothing, s)
  busy : ∀ s : Store, s.Reached → ∀ row rest, line s = row :: rest →
    line (serve s row) = rest ∧
      ∃ answer, returns row answer ∧ s.perform c = (.ok answer, serve s row)

theorem Serves.run {ρ : Type} {c : StoreCall} {line : Store → List ρ} {serve : Store → ρ → Store}
    {nothing : StoreAnswer} {returns : ρ → StoreAnswer → Prop}
    (serves : Serves c line serve nothing returns) {s : Store} (reached : s.Reached)
    (number : Nat) :
    (∃ answers, List.Forall₂ returns ((line s).take number) answers ∧
      s.answers (.replicate number c) = answers.map .ok ++
        .replicate (number - (line s).length) (.ok nothing)) ∧
      s.after (.replicate number c) = ((line s).take number).foldl serve s := by
  induction number generalizing s with
  | zero => exact ⟨⟨[], by simp [answers]⟩, by simp [after]⟩
  | succ number ih =>
    have next := ih (reached.perform c)
    rw [List.replicate_succ, answers, after]
    cases waiting : line s with
    | nil =>
      have same := serves.idle s reached waiting
      rw [same, waiting] at next
      obtain ⟨⟨answers, matched, rest⟩, stays⟩ := next
      rw [List.take_nil, List.forall₂_nil_left_iff] at matched
      rw [same, stays, rest, matched]
      exact ⟨⟨[], by simp [List.replicate_succ]⟩, by simp⟩
    | cons row rest =>
      obtain ⟨shorter, answer, returned, same⟩ := serves.busy s reached row rest waiting
      rw [same] at next ⊢
      rw [shorter] at next
      obtain ⟨⟨answers, matched, more⟩, ends⟩ := next
      refine ⟨⟨answer :: answers, ?_, ?_⟩, ?_⟩
      · exact .cons returned matched
      · simp [more]
      · simp [ends]

section Claims

variable {now stale ends : Instant} {staleness lease : Span}

theorem serves_claimPrimary (running : now.millis ≤ ends.millis)
    (cutoff : staleCutoff now staleness = .ok stale) (granted : leaseEnd now lease = .ok ends) :
    Serves (.claimPrimary now staleness lease)
      (fun s => s.primaryLine now.millis stale.millis)
      (fun s row => s.setPrimaryLease row.key ends.millis) (.primaryWork none)
      fun row answer => ∃ grouping : GroupingId, grouping.bytes = row.key ∧
        answer = .primaryWork (some grouping) := by
  have found : ∀ s : Store, s.primaryByAge.find? (PrimaryRow.isDue now.millis stale.millis) =
      (s.primaryLine now.millis stale.millis).head? := fun s => List.head?_filter.symm
  constructor
  · intro s _ line
    simp only [perform, claimPrimary, cutoff, granted, found, line]
    rfl
  · intro s reached row rest line
    refine ⟨primaryLine_served reached.keyed running line, ?_⟩
    have member : row ∈ s.primaryLine now.millis stale.millis := line ▸ List.mem_cons_self
    obtain ⟨exact, same⟩ := reached.legible.primary row (mem_inLine.mp member).1
    have key : exact.grouping.bytes = row.key := by rw [← same]; rfl
    refine ⟨_, ⟨exact.grouping, key, rfl⟩, ?_⟩
    simp only [perform, claimPrimary, cutoff, granted, found, line, List.head?_cons]
    rw [← key, readId_bytes]
    rfl

theorem serves_claimOldest (running : now.millis ≤ ends.millis)
    (granted : leaseEnd now lease = .ok ends) :
    Serves (.claimOldest now lease) (fun s => s.secondaryLine now.millis)
      (fun s row => s.setSecondaryLease row.branch row.key ends.millis) (.secondaryWork none)
      fun row answer => ∃ work : SecondaryWork, row.work = .ok work ∧
        answer = .secondaryWork (some work) := by
  have found : ∀ s : Store, s.Reached → firstDue now.millis 1 s.secondaryByAge =
      .ok ((s.secondaryLine now.millis).take 1) := by
    intro s reached
    exact firstDue_legible (fun row member =>
      reached.legible.secondary row (List.mem_mergeSort.mp member)) now.millis 1
  constructor
  · intro s reached line
    simp only [perform, claimOldest, granted, found s reached, line]
    rfl
  · intro s reached row rest line
    refine ⟨secondaryLine_served reached.keyed running line, ?_⟩
    have member : row ∈ s.secondaryLine now.millis := line ▸ List.mem_cons_self
    obtain ⟨work, read, _⟩ := (reached.legible.secondary row (mem_inLine.mp member).1).work
    refine ⟨_, ⟨work, read, rfl⟩, ?_⟩
    simp only [perform, claimOldest, granted, found s reached, line, List.take_succ_cons,
      List.take_zero, read]
    rfl

end Claims

/-- A row of review-branch work is due once its lease has ended, if its digests are newer than its
last calculation and there are any. -/
theorem Legible.isDue_iff {s : Store} (legible : s.Legible) {row : SecondaryRow}
    (member : row ∈ s.secondary) (now : Int) :
    row.isDue now = true ↔ row.leaseEnds < now ∧ row.calculated < row.updated ∧
      ∃ digests, readDigests row.digests = .ok digests ∧ digests ≠ [] := by
  obtain ⟨exact, rfl⟩ := legible.secondary row member
  have read : readDigests exact.stored.digests = .ok exact.digests :=
    readDigests_encodeList exact.digests
  have filled : (∃ digests, readDigests exact.stored.digests = .ok digests ∧ digests ≠ []) ↔
      exact.digests ≠ [] := by simp [read]
  rw [SecondaryRow.isDue_iff, exact.stored_isDue?, Option.some.injEq,
    ExactSecondary.isDueStored_iff, filled]
  rfl

/-- Claims at one moment return the oldest rows that are due, in the order of their calculations, and
nothing when there are no more. They change only the leases of the rows that they return. -/
theorem claims_return_oldest {s : Store} (reached : s.Reached) {now ends : Instant} {lease : Span}
    (forward : 0 ≤ lease.nanos) (granted : leaseEnd now lease = .ok ends) (number : Nat) :
    (∀ staleness stale, staleCutoff now staleness = .ok stale →
      let claims := List.replicate number (StoreCall.claimPrimary now staleness lease)
      ∃ won answers,
        Oldest (·.calculated) (PrimaryRow.isDue now.millis stale.millis) s.primary number won ∧
        List.Forall₂ (fun row answer => ∃ grouping : GroupingId, grouping.bytes = row.key ∧
          answer = .primaryWork (some grouping)) won answers ∧
        s.answers claims =
          answers.map .ok ++ .replicate (number - won.length) (.ok (.primaryWork none)) ∧
        s.after claims = { s with
          primary := s.primary.map fun row =>
            if row ∈ won then { row with leaseEnds := ends.millis } else row }) ∧
    (let claims := List.replicate number (StoreCall.claimOldest now lease)
      ∃ won answers,
        Oldest (·.calculated) (SecondaryRow.isDue now.millis) s.secondary number won ∧
        List.Forall₂ (fun row answer => ∃ work : SecondaryWork, work.branch = row.branch ∧
          work.grouping.bytes = row.key ∧ readDigests row.digests = .ok work.digests ∧
          answer = .secondaryWork (some work)) won answers ∧
        s.answers claims =
          answers.map .ok ++ .replicate (number - won.length) (.ok (.secondaryWork none)) ∧
        s.after claims = { s with
          secondary := s.secondary.map fun row =>
            if row ∈ won then { row with leaseEnds := ends.millis } else row }) ∧
    (∀ stale, ∀ row ∈ s.primary, row.isDue now.millis stale = true ↔
      row.leaseEnds < now.millis ∧ row.calculated < stale) ∧
    ∀ row ∈ s.secondary, row.isDue now.millis = true ↔
      row.leaseEnds < now.millis ∧ row.calculated < row.updated ∧
        ∃ digests, readDigests row.digests = .ok digests ∧ digests ≠ [] := by
  have running := millis_le_of_leaseEnd forward granted
  have keyed := reached.keyed
  have remaining : ∀ {α : Type} (line : List α),
      number - (line.take number).length = number - line.length := by
    intro α line
    rw [List.length_take]
    omega
  refine ⟨?_, ?_, ?_, ?_⟩
  · intro staleness stale cutoff claims
    obtain ⟨⟨answers, matched, answered⟩, leased⟩ :=
      (serves_claimPrimary running cutoff granted).run reached number
    have oldest := oldest_primaryLine keyed now.millis stale.millis number
    refine ⟨_, answers, oldest, matched, ?_, ?_⟩
    · rw [answered, remaining]
    · rw [leased, foldl_setPrimaryLease]
      congr 1
      apply List.map_congr_left
      intro row member
      have own := key_mem_iff keyed.primary (fun row won => (oldest.eligible row won).1) member
      simp only [own]
  · intro claims
    obtain ⟨⟨answers, matched, answered⟩, leased⟩ :=
      (serves_claimOldest running granted).run reached number
    have oldest := oldest_secondaryLine keyed now.millis number
    refine ⟨_, answers, oldest, matched.imp ?_, ?_, ?_⟩
    · rintro row _ ⟨work, read, rfl⟩
      obtain ⟨branch, key, digests⟩ := parts_of_work read
      exact ⟨work, branch, key, digests, rfl⟩
    · rw [answered, remaining]
    · rw [leased, foldl_setSecondaryLease]
      congr 1
      apply List.map_congr_left
      intro row member
      have own := key_mem_iff keyed.secondary (fun row won => (oldest.eligible row won).1) member
      simp only [own]
  · exact fun stale row _ => PrimaryRow.isDue_iff
  · exact fun row member => reached.legible.isDue_iff member now.millis

def otherGrouping : GroupingId := ⟨List.replicate 16 2, rfl⟩

/-- Two rows, of which the first one in the table was calculated last. -/
def calculatedBoth : Store := empty.after
  [.ensurePrimary [soleGrouping, otherGrouping], .completePrimary soleGrouping (.atMillis 90000),
    .completePrimary otherGrouping (.atMillis 80000)]

/-- The older row is returned first, and leases that end at once still keep both from being returned
twice at one moment. -/
theorem claims_return_oldest_empty_leases :
    let claims := List.replicate 3
      (StoreCall.claimPrimary (.atMillis 200000) (.ofSeconds 60) (.ofSeconds 0))
    calculatedBoth.answers claims =
        [.ok (.primaryWork (some otherGrouping)), .ok (.primaryWork (some soleGrouping)),
          .ok (.primaryWork none)] ∧
      calculatedBoth.after claims = { calculatedBoth with
        primary := calculatedBoth.primary.map fun row => { row with leaseEnds := 200000 } } := by
  have reached : calculatedBoth.Reached := ⟨_, rfl⟩
  have granted : leaseEnd (.atMillis 200000) (.ofSeconds 0) = .ok (.atMillis 200000) := rfl
  have drained := claims_return_oldest reached (by decide) granted 3
  obtain ⟨won, answers, oldest, matched, answered, leased⟩ :=
    drained.1 (.ofSeconds 60) (.atMillis 140000) rfl
  have rows : calculatedBoth.primary =
      [⟨soleGrouping.bytes, 90000, 0⟩, ⟨otherGrouping.bytes, 80000, 0⟩] := by decide +kernel
  have length : won.length = 2 := oldest.length.trans (by decide +kernel)
  obtain ⟨first, second, rfl⟩ := List.length_eq_two.mp length
  have order : first = ⟨otherGrouping.bytes, 80000, 0⟩ ∧ second = ⟨soleGrouping.bytes, 90000, 0⟩ := by
    have one := (oldest.eligible first (by simp)).1
    have two := (oldest.eligible second (by simp)).1
    have distinct := oldest.distinct
    have ordered := oldest.ordered
    rw [rows] at one two
    simp only [List.mem_cons, List.not_mem_nil, or_false] at one two
    rcases one with rfl | rfl <;> rcases two with rfl | rfl
    · simp at distinct
    · simp at ordered
    · exact ⟨rfl, rfl⟩
    · simp at distinct
  obtain ⟨rfl, rfl⟩ := order
  refine ⟨?_, ?_⟩
  · obtain ⟨_, _, ⟨older, olderKey, rfl⟩, rest, rfl⟩ := List.forall₂_cons_left_iff.mp matched
    obtain ⟨_, _, ⟨newer, newerKey, rfl⟩, none, rfl⟩ := List.forall₂_cons_left_iff.mp rest
    obtain rfl := List.forall₂_nil_left_iff.mp none
    rw [GroupingId.bytes_inj.mp olderKey, GroupingId.bytes_inj.mp newerKey] at answered
    exact answered
  · rw [leased]
    rfl

end Store

end LeaseQueue
