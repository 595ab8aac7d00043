import LeaseQueue.Proofs.Work.Race
/-! Races in which nobody is interrupted: each worker makes all steps of its claim before the next
one begins. Such a race is so many claims one after the other. -/
namespace LeaseQueue

variable {now : Instant}

/-- The whole claim of a worker, with what it picks among candidates. -/
def Racer.claim (racer : Racer now) (choice : Nat) (s : Store) :
    Except StoreError (Option SecondaryWork) × Store :=
  match racer.mode with
  | .low => s.claimOldest now racer.lease
  | .high => s.claimRandom choice now racer.lease

/-- The work that a worker has won, if its claim has ended with some. -/
def Runner.won? (runner : Runner now) : Option SecondaryWork :=
  match runner.stage with
  | .ended (.ok work?) => work?
  | _ => none

namespace Race

/-- The steps of so many workers from the first one on, those of each in a row. -/
def inTurn (racer : Racer now) (choice first workers : Nat) : List RaceMove :=
  (List.range' first workers).flatMap fun i => .replicate racer.mode.claimSteps ⟨i, choice⟩

variable {race : Race now} {racer : Racer now} {i : Nat}

theorem put_put (runner : Runner now) (stage later : RaceStage) (store last : Store) :
    (race.put i runner stage store).put i { runner with stage } later last =
      race.put i runner later last := by
  unfold put
  simp only [List.set_set]

theorem move_of_found {m : RaceMove} {runner : Runner now}
    (found : race.runners[m.worker]? = some runner) :
    race.move m = race.put m.worker runner (runner.step m.choice race.store runner.stage).1
      (runner.step m.choice race.store runner.stage).2 := by
  unfold move
  rw [found]

/-- All steps of a claim in a row are the claim. -/
theorem run_turn (found : race.runners[i]? = some ⟨racer, .waiting⟩) (choice : Nat) :
    race.run (.replicate racer.mode.claimSteps ⟨i, choice⟩) =
      race.put i ⟨racer, .waiting⟩ (.ended (racer.claim choice race.store).1)
        (racer.claim choice race.store).2 := by
  unfold Racer.claim
  cases mode : racer.mode with
  | low =>
    change race.move ⟨i, choice⟩ = _
    rw [move_of_found found]
    simp only [Racer.step, mode]
  | high =>
    change (race.move ⟨i, choice⟩).move ⟨i, choice⟩ = _
    let picked := racer.step choice race.store .waiting
    have first : race.move ⟨i, choice⟩ = race.put i ⟨racer, .waiting⟩ picked.1 picked.2 :=
      move_of_found found
    have second : (race.put i ⟨racer, .waiting⟩ picked.1 picked.2).move ⟨i, choice⟩ =
        race.put i ⟨racer, .waiting⟩ (racer.step choice picked.2 picked.1).1
          (racer.step choice picked.2 picked.1).2 :=
      (move_of_found (put_self found picked.1 picked.2)).trans (put_put _ _ _ _ _)
    have both := racer.step_step mode choice choice race.store
    rw [first, second, both]

theorem run_inTurn (racer : Racer now) (choice : Nat) {ended : List (Runner now)} {workers : Nat}
    (runners : race.runners = ended ++ .replicate workers ⟨racer, .waiting⟩) :
    let outcome := Store.winnings (racer.claim choice) workers race.store
    let last := race.run (inTurn racer choice ended.length workers)
    last.runners.filterMap Runner.won? = ended.filterMap Runner.won? ++ outcome.1 ∧
      last.store = outcome.2 := by
  induction workers generalizing race ended with
  | zero =>
    refine ⟨?_, rfl⟩
    change race.runners.filterMap Runner.won? = _
    rw [runners, List.replicate_zero, List.append_nil, Store.winnings, List.append_nil]
  | succ workers ih =>
    have found : race.runners[ended.length]? = some ⟨racer, .waiting⟩ := by
      rw [runners, List.replicate_succ, List.getElem?_append_right (Nat.le_refl _), Nat.sub_self]
      rfl
    rcases claimed : racer.claim choice race.store with ⟨result, store⟩
    have turn := run_turn found choice
    rw [claimed] at turn
    let winner : Runner now := { toRacer := racer, stage := .ended result }
    have onward : (race.put ended.length ⟨racer, .waiting⟩ (.ended result) store).runners =
        (ended ++ [winner]) ++ .replicate workers ⟨racer, .waiting⟩ := by
      rw [put, runners, List.set_append_right _ _ (Nat.le_refl _), Nat.sub_self,
        List.replicate_succ, List.set_cons_zero, List.append_assoc]
      rfl
    obtain ⟨won, left⟩ := ih onward
    rw [List.length_append, List.length_singleton] at won left
    have split : inTurn racer choice ended.length (workers + 1) =
        .replicate racer.mode.claimSteps ⟨ended.length, choice⟩ ++
          inTurn racer choice (ended.length + 1) workers := by
      rw [inTurn, List.range'_succ, List.flatMap_cons, inTurn]
    rw [split, run_append, turn, Store.winnings, claimed]
    simp only [won, left, List.filterMap_append, List.append_assoc]
    rcases result with e | _ | work
    · exact ⟨rfl, rfl⟩
    · exact ⟨rfl, rfl⟩
    · exact ⟨rfl, rfl⟩

/-- A race of equal workers that claim one after the other is won as their claims are. -/
theorem winnings_eq_race (s : Store) (racer : Racer now) (choice workers : Nat) :
    let race := (start s (.replicate workers racer)).run (inTurn racer choice 0 workers)
    Store.winnings (racer.claim choice) workers s =
      (race.runners.filterMap Runner.won?, race.store) := by
  intro race
  have runners : (start s (.replicate workers racer)).runners =
      [] ++ .replicate workers ⟨racer, .waiting⟩ := List.map_replicate
  obtain ⟨won, left⟩ := run_inTurn racer choice runners
  exact (Prod.ext won left).symm

end Race

end LeaseQueue
