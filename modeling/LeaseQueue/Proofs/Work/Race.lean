import LeaseQueue.Proofs.Store.Legible
import LeaseQueue.Proofs.Work.Fleet
/-! Workers that race for review-branch work at one moment, each with one claim. The steps of their
claims interleave in any order. A row has one winner at most, and only a lost row makes a loser. -/
namespace LeaseQueue

/-- How a worker takes part: how it claims, and a lease that can be granted at that moment. -/
structure Racer (now : Instant) where
  mode : Contention
  lease : Span
  ends : Instant
  granted : leaseEnd now lease = .ok ends
  forward : 0 ≤ lease.nanos

/-- How far a claim has come. -/
inductive RaceStage where
  | waiting
  | picked (work : SecondaryWork)
  | ended (result : Except StoreError (Option SecondaryWork))

structure Runner (now : Instant) extends Racer now where
  stage : RaceStage

/-- A step of one of the workers. Its choice matters where it picks among candidates. -/
structure RaceMove where
  worker : Nat
  choice : Nat

structure Race (now : Instant) where
  store : Store
  runners : List (Runner now)

def Contention.claimSteps : Contention → Nat
  | .low => 1
  | .high => 2

def RaceStage.ofCandidates (choice : Nat) : Except StoreError (List SecondaryWork) → RaceStage
  | .error e => .ended (.error e)
  | .ok works =>
    match Store.pick choice works with
    | none => .ended (.ok none)
    | some work => .picked work

def RaceStage.result? : RaceStage → Option (Except StoreError (Option SecondaryWork))
  | .ended result => some result
  | _ => none

variable {now : Instant}

/-- One step of a claim: the whole of it, or the reading of candidates or the lease of one. -/
def Racer.step (racer : Racer now) (choice : Nat) (s : Store) : RaceStage → RaceStage × Store
  | .waiting =>
    match racer.mode with
    | .low =>
      let (result, s) := s.claimOldest now racer.lease
      (.ended result, s)
    | .high => (.ofCandidates choice (s.candidates now Store.candidateCount), s)
  | .picked work =>
    let (result, s) := s.leaseCandidate work now racer.lease
    (.ended result, s)
  | .ended result => (.ended result, s)

/-- With nobody in between, the two steps of a claim are a random claim. -/
theorem Racer.step_step (racer : Racer now) (high : racer.mode = .high) (choice again : Nat)
    (s : Store) :
    racer.step again (racer.step choice s .waiting).2 (racer.step choice s .waiting).1 =
      (.ended (s.claimRandom choice now racer.lease).1,
        (s.claimRandom choice now racer.lease).2) := by
  unfold Store.claimRandom Store.claimAmong
  simp only [step, high]
  cases s.candidates now Store.candidateCount with
  | error e => rfl
  | ok works =>
    simp only [RaceStage.ofCandidates]
    cases Store.pick choice works with
    | none => rfl
    | some work => rfl

namespace Runner

/-- How many further steps the claim takes at most. -/
def stepsLeft (runner : Runner now) : Nat :=
  match runner.stage with
  | .waiting => runner.mode.claimSteps
  | .picked _ => 1
  | .ended _ => 0

def hasWon (runner : Runner now) (row : SecondaryRow) : Bool :=
  match runner.stage with
  | .ended (.ok (some work)) => row.hasKey work.branch work.grouping.bytes
  | _ => false

theorem hasWon_iff {runner : Runner now} {row : SecondaryRow} :
    runner.hasWon row = true ↔
      ∃ work, runner.stage = .ended (.ok (some work)) ∧
        row.hasKey work.branch work.grouping.bytes = true := by
  unfold hasWon
  split
  · rename_i work stage
    constructor
    · intro own
      exact ⟨work, stage, own⟩
    · rintro ⟨other, same, own⟩
      rw [stage] at same
      cases same
      exact own
  · rename_i lost
    constructor
    · intro won
      cases won
    · rintro ⟨work, stage, _⟩
      exact absurd stage (lost work)

theorem hasWon_eq_false {runner : Runner now}
    (unwon : ∀ work, runner.stage ≠ .ended (.ok (some work))) (row : SecondaryRow) :
    runner.hasWon row = false := by
  apply Bool.eq_false_iff.mpr
  intro won
  obtain ⟨work, stage, _⟩ := hasWon_iff.mp won
  exact unwon work stage

/-- Rows of one key are won together. -/
theorem hasWon_congr {row other : SecondaryRow}
    (same : row.hasKey other.branch other.key = true) (runner : Runner now) :
    runner.hasWon row = runner.hasWon other := by
  obtain ⟨branch, key⟩ := SecondaryRow.hasKey_iff.mp same
  unfold hasWon SecondaryRow.hasKey
  rw [branch, key]

theorem ended_of_stepsLeft {runner : Runner now} (none : runner.stepsLeft = 0) :
    ∃ result, runner.stage = .ended result := by
  unfold stepsLeft at none
  cases stage : runner.stage with
  | waiting =>
    rw [stage] at none
    cases mode : runner.mode <;> simp [mode, Contention.claimSteps] at none
  | picked work =>
    rw [stage] at none
    cases none
  | ended result => exact ⟨result, rfl⟩

end Runner

namespace Race

def start (s : Store) (racers : List (Racer now)) : Race now :=
  ⟨s, racers.map fun racer => ⟨racer, .waiting⟩⟩

/-- The race after a worker came to a stage. -/
def put (race : Race now) (i : Nat) (runner : Runner now) (stage : RaceStage) (store : Store) :
    Race now :=
  { store, runners := race.runners.set i { runner with stage } }

def move (race : Race now) (m : RaceMove) : Race now :=
  match race.runners[m.worker]? with
  | none => race
  | some runner =>
    let (stage, store) := runner.step m.choice race.store runner.stage
    race.put m.worker runner stage store

def run (race : Race now) : List RaceMove → Race now
  | [] => race
  | m :: moves => (race.move m).run moves

/-- What a worker's claim came to. -/
def result? (race : Race now) (i : Nat) : Option (Except StoreError (Option SecondaryWork)) :=
  race.runners[i]?.bind fun runner => runner.stage.result?

/-- A row with the lease of the worker that has won it, if one has. -/
def leased (race : Race now) (row : SecondaryRow) : SecondaryRow :=
  match race.runners.find? fun runner => runner.hasWon row with
  | some runner => { row with leaseEnds := runner.ends.millis }
  | none => row

theorem result?_eq_some {race : Race now} {i : Nat}
    {result : Except StoreError (Option SecondaryWork)} :
    race.result? i = some result ↔
      ∃ runner, race.runners[i]? = some runner ∧ runner.stage = .ended result := by
  unfold result?
  rw [Option.bind_eq_some_iff]
  apply exists_congr
  intro runner
  apply and_congr_right
  intro _
  cases stage : runner.stage <;> simp [RaceStage.result?]

theorem run_append (race : Race now) (earlier later : List RaceMove) :
    race.run (earlier ++ later) = (race.run earlier).run later := by
  induction earlier generalizing race with
  | nil => rfl
  | cons m moves ih => exact ih (race.move m)

/-! What a step can do. -/

/-- The stages that a worker goes through, with what they do to the store. -/
inductive Follows (racer : Racer now) (s : Store) : RaceStage → RaceStage → Store → Prop
  | rests (result : Except StoreError (Option SecondaryWork)) :
    Follows racer s (.ended result) (.ended result) s
  | picks (row : SecondaryRow) (work : SecondaryWork) (high : racer.mode = .high)
    (member : row ∈ s.secondary) (due : row.isDue now.millis = true) (read : row.work = .ok work) :
    Follows racer s .waiting (.picked work) s
  | idles (nothing : ∀ row ∈ s.secondary, row.isDue now.millis = false) :
    Follows racer s .waiting (.ended (.ok none)) s
  | loses (row : SecondaryRow) (work : SecondaryWork) (member : row ∈ s.secondary)
    (branch : work.branch = row.branch) (key : work.grouping.bytes = row.key)
    (gone : row.isDue now.millis = false) :
    Follows racer s (.picked work) (.ended (.ok none)) s
  | wins (stage : RaceStage) (row : SecondaryRow) (work : SecondaryWork)
    (running : stage.result? = none) (member : row ∈ s.secondary)
    (due : row.isDue now.millis = true) (read : row.work = .ok work) :
    Follows racer s stage (.ended (.ok (some work)))
      (s.setSecondaryLease row.branch row.key racer.ends.millis)

theorem step_follows (racer : Racer now) (choice : Nat) {s : Store} (legible : s.Legible)
    (keyed : s.Keyed) {stage : RaceStage}
    (present : ∀ work, stage = .picked work →
      ∃ row ∈ s.secondary, work.branch = row.branch ∧ work.grouping.bytes = row.key) :
    Follows racer s stage (racer.step choice s stage).1 (racer.step choice s stage).2 := by
  cases stage with
  | ended result => exact .rests result
  | waiting =>
    cases mode : racer.mode with
    | low =>
      simp only [Racer.step, mode]
      rcases Store.claimOldest_legible legible racer.granted with
        ⟨nothing, claim⟩ | ⟨row, member, due, work, read, claim⟩
      · rw [claim]
        exact .idles nothing
      · rw [claim]
        exact .wins _ row work rfl member due read
    | high =>
      simp only [Racer.step, mode]
      obtain ⟨works, seen, picked⟩ := Store.pick_legible legible now choice
      rw [seen]
      rcases picked with ⟨none, nothing⟩ | ⟨row, member, due, work, read, picked⟩
      · simp only [RaceStage.ofCandidates, none]
        exact .idles nothing
      · simp only [RaceStage.ofCandidates, picked]
        exact .picks row work mode member due read
  | picked work =>
    obtain ⟨row, member, branch, key⟩ := present work rfl
    simp only [Racer.step]
    rcases Store.leaseCandidate_legible legible keyed racer.granted member branch key with
      ⟨gone, claim⟩ | ⟨due, leased, read, claim⟩
    · rw [claim]
      exact .loses row work member branch key gone
    · rw [claim]
      exact .wins _ row leased rfl member due read


/-! What holds at every moment of a race. -/

/-- The rows of a race are those of its start, each seen `through` the leases that were won. -/
structure Shown (start : Store) (race : Race now) (through : SecondaryRow → SecondaryRow) : Prop where
  store : race.store = { start with secondary := start.secondary.map through }
  unwon : ∀ row ∈ start.secondary, (∀ runner ∈ race.runners, runner.hasWon row = false) →
    through row = row
  won : ∀ row ∈ start.secondary, ∀ runner ∈ race.runners, runner.hasWon row = true →
    through row = { row with leaseEnds := runner.ends.millis }

structure Sound (start : Store) (race : Race now) : Prop where
  keyed : start.Keyed
  legible : race.store.Legible
  shown : ∃ through, Shown start race through
  candidate : ∀ runner ∈ race.runners, ∀ work, runner.stage = .picked work →
    ∃ row ∈ start.secondary, row.isDue now.millis = true ∧ row.work = .ok work
  winner : ∀ runner ∈ race.runners, ∀ work, runner.stage = .ended (.ok (some work)) →
    ∃ row ∈ start.secondary, row.isDue now.millis = true ∧ row.work = .ok work
  loser : ∀ runner ∈ race.runners, runner.stage = .ended (.ok none) →
    ∀ row ∈ start.secondary, row.isDue now.millis = true →
      ∃ other ∈ race.runners, ∃ work, other.stage = .ended (.ok (some work))
  sole : ∀ (i j : Nat) (one other : Runner now) (row : SecondaryRow),
    race.runners[i]? = some one → race.runners[j]? = some other →
    one.hasWon row = true → other.hasWon row = true → i = j
  unfailed : ∀ runner ∈ race.runners, ∀ e, runner.stage ≠ .ended (.error e)

namespace Shown

variable {start : Store} {race : Race now} {through : SecondaryRow → SecondaryRow}

/-- A row is as it was, or it is leased by a worker that has won it. -/
theorem cases (shown : Shown start race through) {row : SecondaryRow}
    (member : row ∈ start.secondary) :
    ((∀ runner ∈ race.runners, runner.hasWon row = false) ∧ through row = row) ∨
    ∃ runner ∈ race.runners, runner.hasWon row = true ∧
      through row = { row with leaseEnds := runner.ends.millis } := by
  by_cases won : ∃ runner ∈ race.runners, runner.hasWon row = true
  · obtain ⟨runner, own, won⟩ := won
    exact .inr ⟨runner, own, won, shown.won row member runner own won⟩
  · have unwon : ∀ runner ∈ race.runners, runner.hasWon row = false := by
      intro runner own
      exact Bool.eq_false_iff.mpr fun mine => won ⟨runner, own, mine⟩
    exact .inl ⟨unwon, shown.unwon row member unwon⟩

theorem key (shown : Shown start race through) {row : SecondaryRow}
    (member : row ∈ start.secondary) :
    (through row).branch = row.branch ∧ (through row).key = row.key := by
  rcases shown.cases member with ⟨_, same⟩ | ⟨runner, _, _, same⟩
  · rw [same]
    exact ⟨rfl, rfl⟩
  · rw [same]
    exact ⟨rfl, rfl⟩

/-- A row that is due has not been won. -/
theorem unwon_of_due (shown : Shown start race through) {row : SecondaryRow}
    (member : row ∈ start.secondary) (due : (through row).isDue now.millis = true) :
    (∀ runner ∈ race.runners, runner.hasWon row = false) ∧ through row = row := by
  rcases shown.cases member with same | ⟨runner, own, _, same⟩
  · exact same
  · have later := millis_le_of_leaseEnd runner.forward runner.granted
    rw [same, SecondaryRow.isDue_false_of_leased later] at due
    cases due

/-- A row that was due and is not any more has been won. -/
theorem won_of_gone (shown : Shown start race through) {row : SecondaryRow}
    (member : row ∈ start.secondary) (due : row.isDue now.millis = true)
    (gone : (through row).isDue now.millis = false) :
    ∃ runner ∈ race.runners, ∃ work, runner.stage = .ended (.ok (some work)) := by
  rcases shown.cases member with ⟨_, same⟩ | ⟨runner, own, won, _⟩
  · rw [same, due] at gone
    cases gone
  · obtain ⟨work, stage, _⟩ := Runner.hasWon_iff.mp won
    exact ⟨runner, own, work, stage⟩

end Shown

namespace Sound

variable {start : Store} {race : Race now}

theorem keyed_store (sound : Sound start race) : race.store.Keyed := by
  obtain ⟨through, shown⟩ := sound.shown
  have keys : (start.secondary.map through).map Store.secondaryKey =
      start.secondary.map Store.secondaryKey := by
    rw [List.map_map]
    apply List.map_congr_left
    intro row member
    obtain ⟨branch, key⟩ := shown.key member
    exact Prod.ext branch key
  rw [shown.store]
  exact ⟨sound.keyed.primary, keys ▸ sound.keyed.secondary⟩

/-- The row of a candidate is still there, leased or not. -/
theorem present (sound : Sound start race) {runner : Runner now} (member : runner ∈ race.runners)
    (work : SecondaryWork) (stage : runner.stage = .picked work) :
    ∃ row ∈ race.store.secondary, work.branch = row.branch ∧ work.grouping.bytes = row.key := by
  obtain ⟨through, shown⟩ := sound.shown
  obtain ⟨row, own, _, read⟩ := sound.candidate runner member work stage
  obtain ⟨branch, key⟩ := Store.key_of_work read
  obtain ⟨sameBranch, sameKey⟩ := shown.key own
  refine ⟨through row, ?_, branch.trans sameBranch.symm, key.trans sameKey.symm⟩
  rw [shown.store]
  exact List.mem_map_of_mem own

end Sound

theorem mem_put {race : Race now} {i : Nat} {runner other : Runner now} {stage : RaceStage}
    {store : Store} (member : other ∈ (race.put i runner stage store).runners) :
    other = { runner with stage } ∨ other ∈ race.runners := by
  exact (List.mem_or_eq_of_mem_set member).symm

theorem put_self {race : Race now} {i : Nat} {runner : Runner now}
    (found : race.runners[i]? = some runner) (stage : RaceStage) (store : Store) :
    (race.put i runner stage store).runners[i]? = some { runner with stage } := by
  obtain ⟨inside, _⟩ := List.getElem?_eq_some_iff.mp found
  exact List.getElem?_set_self inside

/-- A worker that has ended stays so where another one moves. -/
theorem mem_put_of_ended {race : Race now} {i : Nat} {runner other : Runner now}
    {next : RaceStage} {store : Store} (found : race.runners[i]? = some runner)
    (running : runner.stage.result? = none) (member : other ∈ race.runners)
    {result : Except StoreError (Option SecondaryWork)} (ended : other.stage = .ended result) :
    other ∈ (race.put i runner next store).runners := by
  obtain ⟨j, found'⟩ := List.mem_iff_getElem?.mp member
  have different : i ≠ j := by
    rintro rfl
    cases found.symm.trans found'
    rw [ended] at running
    cases running
  apply List.mem_iff_getElem?.mpr
  refine ⟨j, ?_⟩
  unfold put
  rw [List.getElem?_set_ne different, found']

theorem unwon_of_put {race : Race now} {i : Nat} {runner : Runner now} {next : RaceStage}
    {store : Store} {row : SecondaryRow} (found : race.runners[i]? = some runner)
    (running : runner.stage.result? = none)
    (nobody : ∀ other ∈ (race.put i runner next store).runners, other.hasWon row = false) :
    ∀ other ∈ race.runners, other.hasWon row = false := by
  intro other member
  apply Bool.eq_false_iff.mpr
  intro won
  obtain ⟨work, stage, _⟩ := Runner.hasWon_iff.mp won
  have still := nobody other (mem_put_of_ended found running member stage)
  rw [won] at still
  cases still

/-- The rows after a worker has won one that nobody had won. -/
theorem Shown.win {start : Store} {race : Race now} {i : Nat} {runner : Runner now}
    {through : SecondaryRow → SecondaryRow} (shown : Shown start race through)
    (keyed : start.Keyed) (found : race.runners[i]? = some runner)
    (running : runner.stage.result? = none) {row : SecondaryRow} (member : row ∈ start.secondary)
    (same : through row = row) (nobody : ∀ other ∈ race.runners, other.hasWon row = false)
    {work : SecondaryWork}
    (mine : ∀ other, Runner.hasWon { runner with stage := .ended (.ok (some work)) } other =
      other.hasKey row.branch row.key) :
    Shown start (race.put i runner (.ended (.ok (some work)))
        (race.store.setSecondaryLease row.branch row.key runner.ends.millis))
      fun other => if other.hasKey row.branch row.key then
        { other with leaseEnds := runner.ends.millis } else through other := by
  constructor
  case store =>
    unfold put Store.setSecondaryLease
    simp only [shown.store, List.map_map]
    congr 1
    apply List.map_congr_left
    intro other own
    simp only [Function.comp_apply]
    have sameKey : (through other).hasKey row.branch row.key = other.hasKey row.branch row.key := by
      obtain ⟨branch, key⟩ := shown.key own
      unfold SecondaryRow.hasKey
      rw [branch, key]
    rw [sameKey]
    split
    · rename_i leasedNow
      rw [keyed.eq_of_hasKey own member leasedNow, same]
    · rfl
  case unwon =>
    intro other own unwon
    have notMine : other.hasKey row.branch row.key = false := by
      rw [← mine]
      exact unwon _ (List.mem_of_getElem? (put_self found _ _))
    rw [notMine]
    exact shown.unwon other own (unwon_of_put found running unwon)
  case won =>
    intro other own winner present won
    rcases mem_put present with rfl | earlier
    · rw [mine] at won
      rw [if_pos won]
    · have notMine : other.hasKey row.branch row.key = false := by
        apply Bool.eq_false_iff.mpr
        intro leasedNow
        rw [Runner.hasWon_congr leasedNow, nobody winner earlier] at won
        cases won
      rw [notMine]
      exact shown.won other own winner earlier won

namespace Sound

variable {start : Store} {race : Race now} {i : Nat} {runner : Runner now}

/-- A worker that comes to a stage without a win changes nothing that was won. -/
theorem put_unwon (sound : Sound start race) (found : race.runners[i]? = some runner)
    (running : runner.stage.result? = none) {next : RaceStage}
    (unwon : ∀ work, next ≠ .ended (.ok (some work))) (unfailed : ∀ e, next ≠ .ended (.error e))
    (candidate : ∀ work, next = .picked work →
      ∃ row ∈ start.secondary, row.isDue now.millis = true ∧ row.work = .ok work)
    (loser : next = .ended (.ok none) → ∀ row ∈ start.secondary, row.isDue now.millis = true →
      ∃ other ∈ race.runners, ∃ work, other.stage = .ended (.ok (some work))) :
    Sound start (race.put i runner next race.store) := by
  have lost : ∀ row, Runner.hasWon { runner with stage := next } row = false :=
    Runner.hasWon_eq_false unwon
  constructor
  case keyed => exact sound.keyed
  case legible => exact sound.legible
  case shown =>
    obtain ⟨through, shown⟩ := sound.shown
    refine ⟨through, shown.store, ?_, ?_⟩
    · intro row member nobody
      exact shown.unwon row member (unwon_of_put found running nobody)
    · intro row member other own won
      rcases mem_put own with rfl | before
      · rw [lost row] at won
        cases won
      · exact shown.won row member other before won
  case candidate =>
    intro other own work stage
    rcases mem_put own with rfl | before
    · exact candidate work stage
    · exact sound.candidate other before work stage
  case winner =>
    intro other own work stage
    rcases mem_put own with rfl | before
    · exact absurd stage (unwon work)
    · exact sound.winner other before work stage
  case loser =>
    intro other own stage row member due
    have winner : ∃ winner ∈ race.runners, ∃ work, winner.stage = .ended (.ok (some work)) := by
      rcases mem_put own with rfl | before
      · exact loser stage row member due
      · exact sound.loser other before stage row member due
    obtain ⟨winner, before, work, won⟩ := winner
    exact ⟨winner, mem_put_of_ended found running before won, work, won⟩
  case sole =>
    intro j k one other row foundOne foundOther wonOne wonOther
    rcases getElem?_set_cases foundOne with ⟨_, rfl⟩ | ⟨_, beforeOne⟩
    · rw [lost row] at wonOne
      cases wonOne
    · rcases getElem?_set_cases foundOther with ⟨_, rfl⟩ | ⟨_, beforeOther⟩
      · rw [lost row] at wonOther
        cases wonOther
      · exact sound.sole j k one other row beforeOne beforeOther wonOne wonOther
  case unfailed =>
    intro other own e stage
    rcases mem_put own with rfl | before
    · exact unfailed e stage
    · exact sound.unfailed other before e stage

/-- A worker wins a row that was due at the start and that nobody has won. -/
theorem put_won (sound : Sound start race) (found : race.runners[i]? = some runner)
    (running : runner.stage.result? = none) {row : SecondaryRow} {work : SecondaryWork}
    (member : row ∈ race.store.secondary) (due : row.isDue now.millis = true)
    (read : row.work = .ok work) :
    Sound start (race.put i runner (.ended (.ok (some work)))
      (race.store.setSecondaryLease row.branch row.key runner.ends.millis)) := by
  obtain ⟨through, shown⟩ := sound.shown
  obtain ⟨before, own, rfl⟩ : ∃ before ∈ start.secondary, through before = row := by
    rw [shown.store] at member
    exact List.mem_map.mp member
  obtain ⟨unwon, same⟩ := shown.unwon_of_due own due
  rw [same] at due read ⊢
  obtain ⟨branch, key⟩ := Store.key_of_work read
  have mine : ∀ row, Runner.hasWon { runner with stage := .ended (.ok (some work)) } row =
      row.hasKey before.branch before.key := by
    intro row
    rw [← branch, ← key]
    rfl
  have free : ∀ other ∈ race.runners, ∀ row, row.hasKey before.branch before.key = true →
      other.hasWon row = false := by
    intro other present row sameKey
    rw [Runner.hasWon_congr sameKey, unwon other present]
  constructor
  case keyed => exact sound.keyed
  case legible => exact sound.legible.setSecondaryLease before.branch before.key runner.ends
  case shown => exact ⟨_, shown.win sound.keyed found running own same unwon mine⟩
  case candidate =>
    intro other present candidate stage
    rcases mem_put present with rfl | earlier
    · cases stage
    · exact sound.candidate other earlier candidate stage
  case winner =>
    intro other present won stage
    rcases mem_put present with rfl | earlier
    · cases stage
      exact ⟨before, own, due, read⟩
    · exact sound.winner other earlier won stage
  case loser =>
    intro _ _ _ _ _ _
    exact ⟨_, List.mem_of_getElem? (put_self found _ _), work, rfl⟩
  case sole =>
    intro j k one other row foundOne foundOther wonOne wonOther
    rcases getElem?_set_cases foundOne with ⟨rfl, rfl⟩ | ⟨_, beforeOne⟩
    · rcases getElem?_set_cases foundOther with ⟨rfl, _⟩ | ⟨_, beforeOther⟩
      · rfl
      · rw [mine] at wonOne
        rw [free other (List.mem_of_getElem? beforeOther) row wonOne] at wonOther
        cases wonOther
    · rcases getElem?_set_cases foundOther with ⟨rfl, rfl⟩ | ⟨_, beforeOther⟩
      · rw [mine] at wonOther
        rw [free one (List.mem_of_getElem? beforeOne) row wonOther] at wonOne
        cases wonOne
      · exact sound.sole j k one other row beforeOne beforeOther wonOne wonOther
  case unfailed =>
    intro other present e stage
    rcases mem_put present with rfl | earlier
    · cases stage
    · exact sound.unfailed other earlier e stage

theorem put (sound : Sound start race) (found : race.runners[i]? = some runner) {next : RaceStage}
    {store : Store} (follows : Follows runner.toRacer race.store runner.stage next store) :
    Sound start (race.put i runner next store) := by
  obtain ⟨through, shown⟩ := sound.shown
  have member := List.mem_of_getElem? found
  have earlier : ∀ row ∈ race.store.secondary,
      ∃ before ∈ start.secondary, through before = row := by
    intro row present
    rw [shown.store] at present
    exact List.mem_map.mp present
  generalize atStage : runner.stage = stage at follows
  cases follows with
  | rests result =>
    have same : race.put i runner (.ended result) race.store = race := by
      obtain ⟨inside, rfl⟩ := List.getElem?_eq_some_iff.mp found
      unfold Race.put
      rw [← atStage, List.set_getElem_self inside]
    rw [same]
    exact sound
  | picks row work _ present due read =>
    obtain ⟨before, own, rfl⟩ := earlier row present
    obtain ⟨_, same⟩ := shown.unwon_of_due own due
    rw [same] at due read
    refine sound.put_unwon found (by rw [atStage]; rfl) nofun nofun ?_ nofun
    rintro _ ⟨⟩
    exact ⟨before, own, due, read⟩
  | idles nothing =>
    refine sound.put_unwon found (by rw [atStage]; rfl) nofun nofun nofun ?_
    intro _ row own due
    apply shown.won_of_gone own due
    apply nothing
    rw [shown.store]
    exact List.mem_map_of_mem own
  | loses row work present branch key gone =>
    refine sound.put_unwon found (by rw [atStage]; rfl) nofun nofun nofun ?_
    intro _ _ _ _
    obtain ⟨before, own, due, read⟩ := sound.candidate runner member work atStage
    obtain ⟨after, ownAfter, rfl⟩ := earlier row present
    obtain ⟨workBranch, workKey⟩ := Store.key_of_work read
    obtain ⟨sameBranch, sameKey⟩ := shown.key ownAfter
    have same : after = before := by
      apply sound.keyed.eq_of_hasKey ownAfter own
      exact SecondaryRow.hasKey_iff.mpr ⟨sameBranch.symm.trans (branch.symm.trans workBranch),
        sameKey.symm.trans (key.symm.trans workKey)⟩
    rw [same] at gone
    exact shown.won_of_gone own due gone
  | wins _ row work running present due read =>
    exact sound.put_won found (atStage ▸ running) present due read

theorem follows (sound : Sound start race) (found : race.runners[i]? = some runner)
    (choice : Nat) :
    Follows runner.toRacer race.store runner.stage
      (runner.step choice race.store runner.stage).1
      (runner.step choice race.store runner.stage).2 := by
  apply step_follows runner.toRacer choice sound.legible sound.keyed_store
  exact sound.present (List.mem_of_getElem? found)

theorem move (sound : Sound start race) (m : RaceMove) : Sound start (race.move m) := by
  unfold Race.move
  cases found : race.runners[m.worker]? with
  | none => exact sound
  | some runner => exact sound.put found (sound.follows found m.choice)

theorem run (sound : Sound start race) (moves : List RaceMove) : Sound start (race.run moves) := by
  induction moves generalizing race with
  | nil => exact sound
  | cons m moves ih => exact ih (sound.move m)

end Sound

theorem stage_start {s : Store} {racers : List (Racer now)} {runner : Runner now}
    (member : runner ∈ (start s racers).runners) : runner.stage = .waiting := by
  obtain ⟨racer, _, rfl⟩ := List.mem_map.mp member
  rfl

theorem sound_start {s : Store} (keyed : s.Keyed) (legible : s.Legible)
    (racers : List (Racer now)) : Sound s (start s racers) := by
  have unwon : ∀ runner ∈ (start s racers).runners, ∀ row, runner.hasWon row = false := by
    intro runner member
    apply Runner.hasWon_eq_false
    intro work
    rw [stage_start member]
    nofun
  constructor
  case keyed => exact keyed
  case legible => exact legible
  case shown =>
    refine ⟨id, ?_, fun _ _ _ => rfl, ?_⟩
    · rw [List.map_id]
      rfl
    · intro row _ runner member won
      rw [unwon runner member row] at won
      cases won
  case candidate =>
    intro runner member work stage
    cases (stage_start member).symm.trans stage
  case winner =>
    intro runner member work stage
    cases (stage_start member).symm.trans stage
  case loser =>
    intro runner member stage
    cases (stage_start member).symm.trans stage
  case sole =>
    intro i j one other row found _ won
    rw [unwon one (List.mem_of_getElem? found) row] at won
    cases won
  case unfailed =>
    intro runner member e stage
    cases (stage_start member).symm.trans stage

/-! How a claim comes to its end, and what it does to the store. -/

theorem Follows.stepsLeft {runner : Runner now} {s store : Store} {next : RaceStage}
    (follows : Follows runner.toRacer s runner.stage next store) :
    Runner.stepsLeft { runner with stage := next } ≤ runner.stepsLeft - 1 := by
  unfold Runner.stepsLeft
  generalize runner.stage = stage at follows
  cases follows with
  | picks _ _ high => simp [high, Contention.claimSteps]
  | rests | idles | loses | wins => exact Nat.zero_le _

theorem Follows.store {racer : Racer now} {s store : Store} {stage next : RaceStage}
    (follows : Follows racer s stage next store) :
    store = s ∨ ∃ work, next = .ended (.ok (some work)) := by
  cases follows with
  | wins _ _ work => exact .inr ⟨work, rfl⟩
  | rests | picks | idles | loses => exact .inl rfl

section Progress

variable {start : Store} {race : Race now} {i : Nat}

theorem stepsLeft_move (sound : Sound start race) {runner : Runner now}
    (found : race.runners[i]? = some runner) (m : RaceMove) :
    ∃ later, (race.move m).runners[i]? = some later ∧
      later.stepsLeft ≤ runner.stepsLeft - if m.worker = i then 1 else 0 := by
  unfold Race.move
  cases moved : race.runners[m.worker]? with
  | none =>
    have other : m.worker ≠ i := by
      rintro rfl
      cases found.symm.trans moved
    rw [if_neg other]
    exact ⟨runner, found, Nat.le_refl _⟩
  | some mover =>
    by_cases own : m.worker = i
    · subst own
      cases found.symm.trans moved
      rw [if_pos rfl]
      exact ⟨_, put_self found _ _, (sound.follows found m.choice).stepsLeft⟩
    · rw [if_neg own]
      refine ⟨runner, ?_, Nat.le_refl _⟩
      exact (List.getElem?_set_ne own).trans found

theorem stepsLeft_run (sound : Sound start race) {runner : Runner now}
    (found : race.runners[i]? = some runner) (moves : List RaceMove) :
    ∃ later, (race.run moves).runners[i]? = some later ∧
      later.stepsLeft ≤ runner.stepsLeft - moves.countP (·.worker = i) := by
  induction moves generalizing race runner with
  | nil => exact ⟨runner, found, Nat.le_refl _⟩
  | cons m moves ih =>
    obtain ⟨next, foundNext, one⟩ := stepsLeft_move sound found m
    obtain ⟨later, foundLater, rest⟩ := ih (sound.move m) foundNext
    refine ⟨later, foundLater, ?_⟩
    rw [List.countP_cons]
    simp only [decide_eq_true_eq]
    omega

theorem result?_move {m : RaceMove} {result : Except StoreError (Option SecondaryWork)}
    (ended : race.result? i = some result) : (race.move m).result? i = some result := by
  obtain ⟨runner, found, stage⟩ := result?_eq_some.mp ended
  unfold Race.move
  cases moved : race.runners[m.worker]? with
  | none => exact ended
  | some mover =>
    apply result?_eq_some.mpr
    by_cases own : m.worker = i
    · subst own
      cases found.symm.trans moved
      refine ⟨_, put_self found _ _, ?_⟩
      simp only [stage]
    · exact ⟨runner, (List.getElem?_set_ne own).trans found, stage⟩

theorem result?_run {result : Except StoreError (Option SecondaryWork)}
    (ended : race.result? i = some result) (moves : List RaceMove) :
    (race.run moves).result? i = some result := by
  induction moves generalizing race with
  | nil => exact ended
  | cons m moves ih => exact ih (result?_move ended)

/-- A step that changes the store wins a row. -/
theorem store_move (sound : Sound start race) (m : RaceMove) :
    (race.move m).store = race.store ∨
      ∃ work, (race.move m).result? m.worker = some (.ok (some work)) := by
  unfold Race.move
  cases found : race.runners[m.worker]? with
  | none => exact .inl rfl
  | some runner =>
    rcases (sound.follows found m.choice).store with same | ⟨work, won⟩
    · exact .inl same
    · exact .inr ⟨work, result?_eq_some.mpr ⟨_, put_self found _ _, won⟩⟩

end Progress

namespace Sound

variable {start : Store} {race : Race now}

theorem won (sound : Sound start race) {i : Nat} {work : SecondaryWork}
    (won : race.result? i = some (.ok (some work))) :
    ∃ row ∈ start.secondary, row.isDue now.millis = true ∧ row.work = .ok work := by
  obtain ⟨runner, found, stage⟩ := result?_eq_some.mp won
  exact sound.winner runner (List.mem_of_getElem? found) work stage

theorem sole_winner (sound : Sound start race) {i j : Nat} {one other : SecondaryWork}
    (wonOne : race.result? i = some (.ok (some one)))
    (wonOther : race.result? j = some (.ok (some other))) (branch : one.branch = other.branch)
    (grouping : one.grouping = other.grouping) : i = j := by
  obtain ⟨row, _, _, read⟩ := sound.won wonOne
  obtain ⟨rowBranch, rowKey⟩ := Store.key_of_work read
  obtain ⟨runnerOne, foundOne, stageOne⟩ := result?_eq_some.mp wonOne
  obtain ⟨runnerOther, foundOther, stageOther⟩ := result?_eq_some.mp wonOther
  apply sound.sole i j runnerOne runnerOther row foundOne foundOther
  · exact Runner.hasWon_iff.mpr
      ⟨one, stageOne, SecondaryRow.hasKey_iff.mpr ⟨rowBranch.symm, rowKey.symm⟩⟩
  · apply Runner.hasWon_iff.mpr
    refine ⟨other, stageOther, ?_⟩
    rw [← branch, ← grouping]
    exact SecondaryRow.hasKey_iff.mpr ⟨rowBranch.symm, rowKey.symm⟩

/-- The leases that were won are all that is new. -/
theorem store_eq (sound : Sound start race) :
    race.store = { start with secondary := start.secondary.map race.leased } := by
  obtain ⟨through, shown⟩ := sound.shown
  rw [shown.store]
  congr 1
  apply List.map_congr_left
  intro row member
  unfold leased
  cases found : race.runners.find? fun runner => runner.hasWon row with
  | none =>
    apply shown.unwon row member
    intro runner present
    exact Bool.eq_false_iff.mpr (List.find?_eq_none.mp found runner present)
  | some runner =>
    have mine : runner.hasWon row = true :=
      List.find?_some (p := fun runner : Runner now => runner.hasWon row) found
    exact shown.won row member runner (List.mem_of_find?_eq_some found) mine

/-- Nobody ends without a row as long as no row is won and one is due. -/
theorem someone_wins (sound : Sound start race) (finished : ∃ i, (race.result? i).isSome = true)
    (due : ∃ row ∈ start.secondary, row.isDue now.millis = true) :
    ∃ i work, race.result? i = some (.ok (some work)) := by
  obtain ⟨i, ended⟩ := finished
  obtain ⟨row, member, due⟩ := due
  obtain ⟨result, ended⟩ := Option.isSome_iff_exists.mp ended
  obtain ⟨runner, found, stage⟩ := result?_eq_some.mp ended
  have present := List.mem_of_getElem? found
  cases result with
  | error e => exact absurd stage (sound.unfailed runner present e)
  | ok work? =>
    cases work? with
    | some work => exact ⟨i, work, ended⟩
    | none =>
      obtain ⟨winner, among, work, won⟩ := sound.loser runner present stage row member due
      obtain ⟨j, foundWinner⟩ := List.mem_iff_getElem?.mp among
      exact ⟨j, work, result?_eq_some.mpr ⟨winner, foundWinner, won⟩⟩

/-- The only row that is due goes to one worker. -/
theorem only_row (sound : Sound start race) (finished : ∃ i, (race.result? i).isSome = true)
    {row : SecondaryRow}
    (only : start.secondary.filter (SecondaryRow.isDue now.millis) = [row]) :
    ∃ i work, row.work = .ok work ∧
      ∀ j other, race.result? j = some (.ok (some other)) ↔ j = i ∧ other = work := by
  have own : row ∈ start.secondary.filter (SecondaryRow.isDue now.millis) :=
    only ▸ List.mem_singleton_self row
  obtain ⟨member, due⟩ := List.mem_filter.mp own
  have read : ∀ {j other}, race.result? j = some (.ok (some other)) → row.work = .ok other := by
    intro j other won
    obtain ⟨otherRow, otherMember, otherDue, read⟩ := sound.won won
    have same : otherRow ∈ [row] := only ▸ List.mem_filter.mpr ⟨otherMember, otherDue⟩
    rw [← List.mem_singleton.mp same]
    exact read
  obtain ⟨i, work, won⟩ := sound.someone_wins finished ⟨row, member, due⟩
  refine ⟨i, work, read won, ?_⟩
  intro j other
  constructor
  · intro wonOther
    cases (read won).symm.trans (read wonOther)
    exact ⟨sound.sole_winner wonOther won rfl rfl, rfl⟩
  · rintro ⟨rfl, rfl⟩
    exact won

end Sound

/-- At every moment of a race, each row that was won was due at the start and has one winner.
Workers that do not win get nothing and change nothing: the leases of the winners are all that is
new in the store. Where a row was due somebody wins, and exactly one worker if it was the only
one. -/
theorem single_winner (calls : List StoreCall) (racers : List (Racer now))
    (moves : List RaceMove) :
    let origin := Store.empty.after calls
    let race := (start origin racers).run moves
    (∀ i e, race.result? i ≠ some (.error e)) ∧
    (∀ i work, race.result? i = some (.ok (some work)) →
      ∃ row ∈ origin.secondary, row.isDue now.millis = true ∧ row.work = .ok work) ∧
    (∀ i j one other, race.result? i = some (.ok (some one)) →
      race.result? j = some (.ok (some other)) →
      one.branch = other.branch → one.grouping = other.grouping → i = j) ∧
    (∀ earlier m later, moves = earlier ++ m :: later →
      (∀ work, race.result? m.worker ≠ some (.ok (some work))) →
      ((start origin racers).run (earlier ++ [m])).store =
        ((start origin racers).run earlier).store) ∧
    race.store = { origin with secondary := origin.secondary.map race.leased } ∧
    (∀ i racer, racers[i]? = some racer →
      racer.mode.claimSteps ≤ moves.countP (·.worker = i) → (race.result? i).isSome = true) ∧
    ((∃ i, (race.result? i).isSome = true) →
      (∃ row ∈ origin.secondary, row.isDue now.millis = true) →
      ∃ i work, race.result? i = some (.ok (some work))) ∧
    (∀ row, (∃ i, (race.result? i).isSome = true) →
      origin.secondary.filter (SecondaryRow.isDue now.millis) = [row] →
      ∃ i work, row.work = .ok work ∧
        ∀ j other, race.result? j = some (.ok (some other)) ↔ j = i ∧ other = work) := by
  intro origin race
  have initial : Sound origin (start origin racers) :=
    sound_start (Store.keyed_empty.after calls) (Store.legible_after calls) racers
  have sound : Sound origin race := initial.run moves
  refine ⟨?_, fun _ _ => sound.won, fun _ _ _ _ => sound.sole_winner, ?_, sound.store_eq, ?_,
    sound.someone_wins, fun _ finished => sound.only_row finished⟩
  · intro i e failed
    obtain ⟨runner, found, stage⟩ := result?_eq_some.mp failed
    exact sound.unfailed runner (List.mem_of_getElem? found) e stage
  · rintro earlier m later rfl unwon
    rw [run_append]
    rcases store_move (initial.run earlier) m with same | ⟨work, won⟩
    · exact same
    · have still : race.result? m.worker = some (.ok (some work)) := by
        unfold race
        rw [run_append]
        exact result?_run won later
      exact absurd still (unwon work)
  · intro i racer entered enough
    have found : (start origin racers).runners[i]? = some ⟨racer, .waiting⟩ := by
      unfold start
      rw [List.getElem?_map, entered]
      rfl
    obtain ⟨runner, foundLater, left⟩ := stepsLeft_run initial found moves
    have none : runner.stepsLeft = 0 := by
      unfold Runner.stepsLeft at left ⊢
      simp only at left
      omega
    obtain ⟨result, stage⟩ := Runner.ended_of_stepsLeft none
    rw [result?_eq_some.mpr ⟨runner, foundLater, stage⟩]
    rfl

def racer (mode : Contention) : Racer (.atMillis 100000) where
  mode
  lease := .ofSeconds 600
  ends := .atMillis 700000
  granted := rfl
  forward := by decide

/-- A worker reads the only candidate, another one claims its row, and the first one comes late. -/
def overtaking : List RaceMove := [⟨0, 7⟩, ⟨1, 0⟩, ⟨0, 0⟩]

theorem single_winner_overtaking :
    let origin := Store.empty.after [.upsertSecondary Store.soleWork (.atMillis 50000)]
    let race := (start origin [racer .high, racer .low]).run overtaking
    race.result? 0 = some (.ok none) ∧ race.result? 1 = some (.ok (some Store.soleWork)) ∧
      race.store = { origin with
        secondary := origin.secondary.map fun row => { row with leaseEnds := 700000 } } ∧
      ∃ i, ∀ j other, race.result? j = some (.ok (some other)) ↔ j = i ∧ other = Store.soleWork := by
  intro origin race
  obtain ⟨_, _, _, _, leased, finishes, _, only⟩ := single_winner
    [.upsertSecondary Store.soleWork (.atMillis 50000)] [racer .high, racer .low] overtaking
  have due : origin.secondary.filter (SecondaryRow.isDue (Instant.atMillis 100000).millis) =
      [⟨"review", Store.soleGrouping.bytes, Digest.encodeList [⟨"aa"⟩], 50000, 0, 0⟩] := by
    decide +kernel
  have finished : (race.result? 0).isSome = true := finishes 0 (racer .high) rfl (by decide)
  obtain ⟨i, work, read, sole⟩ := only _ ⟨0, finished⟩ due
  have same : SecondaryRow.work
      ⟨"review", Store.soleGrouping.bytes, Digest.encodeList [⟨"aa"⟩], 50000, 0, 0⟩ =
      .ok Store.soleWork := by
    decide +kernel
  obtain rfl := Except.ok.inj (same.symm.trans read)
  have rows : origin.secondary.map race.leased =
      origin.secondary.map fun row => { row with leaseEnds := 700000 } := by
    decide +kernel
  exact ⟨by decide +kernel, by decide +kernel, rows ▸ leased, i, sole⟩

end Race

end LeaseQueue
