import LeaseQueue.Proofs.Poller.Errand
import LeaseQueue.Proofs.Poller.Runs
/-! A polling loop over a claimer at a clock that stands still. Before it first sleeps it claims each
row that is due once, and each queue says once that it has no work, when it has none. -/
namespace LeaseQueue

/-- An attempt that was made, with the rows that it claimed. -/
structure Visit where
  source : Source
  attempt : Attempt
  claims : List RowKey

/-- A worker at its world, with the attempts that it has made, the latest first. -/
structure Shift where
  world : World
  visits : List Visit

namespace Shift

def claims (s : Shift) : List RowKey := s.visits.flatMap (·.claims)

def visitsTo (s : Shift) (source : Source) : List Visit :=
  s.visits.filter fun visit => visit.source = source

/-- A queue had no work at the last attempt on it, and at none before. -/
def Exhausted (s : Shift) (source : Source) : Prop :=
  ∃ last earlier, s.visitsTo source = last :: earlier ∧ last.attempt = .noWork ∧
    ∀ visit ∈ earlier, visit.attempt ≠ .noWork

theorem visitsTo_own (s : Shift) (w : World) {visit : Visit} {source : Source}
    (own : visit.source = source) :
    visitsTo ⟨w, visit :: s.visits⟩ source = visit :: s.visitsTo source :=
  List.filter_cons_of_pos (decide_eq_true own)

theorem visitsTo_other (s : Shift) (w : World) {visit : Visit} {source : Source}
    (other : source ≠ visit.source) :
    visitsTo ⟨w, visit :: s.visits⟩ source = s.visitsTo source :=
  List.filter_cons_of_neg (by simpa using other.symm)

/-- The surroundings of a polling loop over the units of a claimer, the nth attempt having the nth
fate. The clock is that of the world, which nothing moves. -/
def surroundings (settings : ClaimerSettings) (fates : Nat → Fate) : Surroundings Shift where
  tick := Duration.timerTick
  tick_pos := Duration.timerTick_pos
  clock _ s := (s.world.clock, s)
  attempt source _ s :=
    let fate := fates s.visits.length
    let errand := Errand.whole settings source fate s.world
    ((errand.attempt, fate.took),
      ⟨errand.world, ⟨source, errand.attempt, errand.claims⟩ :: s.visits⟩)

end Shift

namespace Store

/-- The keys of all rows that are due. -/
def due (s : Store) (now stale : Instant) : List RowKey :=
  s.dueKeys now.millis stale.millis .primary ++ s.dueKeys now.millis stale.millis .secondary

variable {now stale : Instant}

theorem Keyed.nodup_due {s : Store} (keyed : s.Keyed) (now stale : Instant) :
    (s.due now stale).Nodup := by
  apply List.Nodup.append (keyed.nodup_dueKeys _ _ _) (keyed.nodup_dueKeys _ _ _)
  intro key first second
  have apart : Source.secondary ≠ .primary := nofun
  exact notMem_dueKeys_other apart first s second

theorem Taken.mem_due {before after : Store} {source : Source} {key : RowKey}
    (taken : before.Taken after now stale source key) : key ∈ before.due now stale := by
  cases source with
  | primary => exact List.mem_append_left _ taken.due
  | secondary => exact List.mem_append_right _ taken.due

/-- What was due is the row that was taken and what is due after it. -/
theorem Taken.perm {before after : Store} {source : Source} {key : RowKey} (keyed : before.Keyed)
    (taken : before.Taken after now stale source key) :
    (key :: after.due now stale).Perm (before.due now stale) := by
  have left : after.due now stale = (before.due now stale).erase key := by
    have others : (fun k : RowKey => decide (k ≠ key)) = fun k => k != key := by
      funext k
      by_cases own : k = key <;> simp [own]
    rw [(keyed.nodup_due now stale).erase_eq_filter, Store.due, Store.due, taken.left, taken.left,
      List.filter_append, others]
  rw [left]
  exact (List.perm_cons_erase taken.mem_due).symm

end Store

/-- What holds of a polling loop until it sleeps. Every attempt takes a row off those that are due
or shuts a queue, so `paid` tells how many attempts are left. -/
structure Draining (start : Store) (now stale : Instant) (l : PollLoop Shift) : Prop where
  running : l.result = none
  awake : ∀ time, .slept time ∉ l.events
  patient : 1000000 ≤ l.poller.settings.sleep.nanos
  frozen : l.state.world.Frozen now
  made : l.attempts = l.state.visits.length
  claimed : (l.state.claims ++ l.state.world.store.due now stale).Perm (start.due now stale)
  paid : l.attempts + (l.state.world.store.due now stale).length + l.poller.ready now =
    (start.due now stale).length + 2
  ready : ∀ source, l.poller.timer source ≤ now →
    ∀ visit ∈ l.state.visitsTo source, visit.attempt ≠ .noWork
  shut : ∀ source, ¬ l.poller.timer source ≤ now →
    l.state.world.store.dueKeys now.millis stale.millis source = [] ∧ l.state.Exhausted source

/-- A loop after an attempt that ended at `time`. -/
def PollLoop.visited (l : PollLoop Shift) (p : Poller) (source : Source) (e : Errand) (time : Nat) :
    PollLoop Shift :=
  { poller := p.record source e.attempt e.world.clock
    state := ⟨e.world, ⟨source, e.attempt, e.claims⟩ :: l.state.visits⟩
    time
    busy := true
    attempts := l.attempts + 1
    events := .finished e.attempt source time :: .started source l.time :: l.events
    result := none }

section Iteration

variable {settings : ClaimerSettings} {fates : Nat → Fate} {l : PollLoop Shift}
  {drawn : Draw × Generator}

theorem PollLoop.iterateBy_visited {source : Source} (running : l.result = none)
    (chosen : (l.poller.nextBy drawn l.state.world.clock).1 = some source) :
    let fate := fates l.state.visits.length
    l.iterateBy (Shift.surroundings settings fates) .never drawn =
      l.visited (l.poller.nextBy drawn l.state.world.clock).2 source
        (Errand.whole settings source fate l.state.world) (l.time + fate.took) := by
  rw [PollLoop.iterateBy_never running]
  simp only [Shift.surroundings, chosen, PollLoop.attempt, Cancellation.during, Cancellation.never,
    Option.filter_none, running]
  rfl

theorem PollLoop.events_iterateBy_sleep (running : l.result = none)
    (chosen : (l.poller.nextBy drawn l.state.world.clock).1 = none) :
    let later := (l.poller.nextBy drawn l.state.world.clock).2
    let woken := l.time + later.settings.sleep.ticks Duration.timerTick
    (l.iterateBy (Shift.surroundings settings fates) .never drawn).events =
      .woke woken :: .slept l.time :: l.events := by
  rw [PollLoop.iterateBy_never running]
  simp only [Shift.surroundings, chosen, PollLoop.sleep, Cancellation.during, Cancellation.never,
    Option.filter_none]

end Iteration

namespace Draining

variable {start : Store} {now stale : Instant} {l : PollLoop Shift} {p : Poller}
  {source : Source} {e : Errand} {w : World}

theorem awake_visited (draining : Draining start now stale l) (time : Nat) :
    ∀ since, .slept since ∉ (l.visited p source e time).events := by
  intro since member
  rcases List.mem_cons.mp member with same | member
  · cases same
  rcases List.mem_cons.mp member with same | member
  · cases same
  · exact draining.awake since member

/-- An attempt that found nothing shuts its queue. -/
theorem idles (draining : Draining start now stale l)
    (timers : ∀ source, p.timer source = l.poller.timer source)
    (sleep : p.settings.sleep = l.poller.settings.sleep) (inside : now < Instant.latest)
    (was : l.poller.timer source ≤ now) (kept : e.world.Frozen now) (idle : e.attempt = .noWork)
    (unclaimed : e.claims = []) (same : e.world.store = l.state.world.store)
    (nothing : l.state.world.store.dueKeys now.millis stale.millis source = []) (time : Nat) :
    Draining start now stale (l.visited p source e time) := by
  have patient : 1000000 ≤ p.settings.sleep.nanos := sleep ▸ draining.patient
  have back : ¬ p.backOff now ≤ now := Poller.lt_backOff patient inside
  have own : (l.visited p source e time).poller.timer source = p.backOff now := by
    rw [PollLoop.visited, idle, kept.clock, Poller.timer_record_noWork]
  have others : ∀ other, other ≠ source →
      (l.visited p source e time).poller.timer other = l.poller.timer other := by
    intro other apart
    rw [PollLoop.visited, Poller.timer_record_other apart, timers]
  refine ⟨rfl, draining.awake_visited time, ?_, kept, ?_, ?_, ?_, ?_, ?_⟩
  · rw [PollLoop.visited, Poller.settings_record]
    exact patient
  · exact congrArg Nat.succ draining.made
  · rw [PollLoop.visited, Shift.claims, List.flatMap_cons, unclaimed, List.nil_append, same]
    exact draining.claimed
  · have ready := Poller.ready_congr timers now
    have shuts := Poller.ready_record_noWork (timers source ▸ was) back
    have paid := draining.paid
    simp only [PollLoop.visited, idle, kept.clock, same]
    omega
  · intro other ready
    by_cases apart : other = source
    · subst apart
      rw [own] at ready
      exact absurd ready back
    · rw [others other apart] at ready
      rw [PollLoop.visited, Shift.visitsTo_other _ _ apart]
      exact draining.ready other ready
  · intro other shut
    by_cases apart : other = source
    · subst apart
      refine ⟨same ▸ nothing, _, _, Shift.visitsTo_own _ _ rfl, idle, draining.ready other was⟩
    · rw [others other apart] at shut
      obtain ⟨none, exhausted⟩ := draining.shut other shut
      refine ⟨same ▸ none, ?_⟩
      rw [PollLoop.visited, Shift.Exhausted, Shift.visitsTo_other _ _ apart]
      exact exhausted

/-- An attempt that took a row leaves the timers alone. -/
theorem takes (draining : Draining start now stale l)
    (timers : ∀ source, p.timer source = l.poller.timer source)
    (sleep : p.settings.sleep = l.poller.settings.sleep) (was : l.poller.timer source ≤ now)
    (kept : e.world.Frozen now) (tried : e.attempt ≠ .noWork) {key : RowKey}
    (claim : e.claims = [key])
    (taken : l.state.world.store.Taken e.world.store now stale source key) (time : Nat) :
    Draining start now stale (l.visited p source e time) := by
  have poller : (l.visited p source e time).poller = p := Poller.record_of_tried source tried
  have perm := taken.perm draining.frozen.reached.keyed
  refine ⟨rfl, draining.awake_visited time, ?_, kept, ?_, ?_, ?_, ?_, ?_⟩
  · rw [poller, sleep]
    exact draining.patient
  · exact congrArg Nat.succ draining.made
  · have claims : (l.visited p source e time).state.claims = key :: l.state.claims := by
      rw [PollLoop.visited, Shift.claims, List.flatMap_cons, claim]
      rfl
    rw [claims]
    have moved : (key :: l.state.claims ++ e.world.store.due now stale).Perm
        (l.state.claims ++ key :: e.world.store.due now stale) := List.perm_middle.symm
    exact moved.trans ((perm.append_left _).trans draining.claimed)
  · have ready := Poller.ready_congr timers now
    have fewer := perm.length_eq
    have paid := draining.paid
    rw [List.length_cons] at fewer
    rw [poller]
    simp only [PollLoop.visited]
    omega
  · intro other ready
    rw [poller, timers] at ready
    by_cases own : source = other
    · intro visit member
      rw [PollLoop.visited, Shift.visitsTo_own _ _ own] at member
      rcases List.mem_cons.mp member with rfl | member
      · exact tried
      · exact draining.ready other ready visit member
    · rw [PollLoop.visited, Shift.visitsTo_other _ _ (Ne.symm own)]
      exact draining.ready other ready
  · intro other shut
    rw [poller, timers] at shut
    have apart : other ≠ source := by
      rintro rfl
      exact shut was
    obtain ⟨none, exhausted⟩ := draining.shut other shut
    constructor
    · have left := taken.left other
      rw [none, List.filter_nil] at left
      exact left
    · rw [PollLoop.visited, Shift.Exhausted, Shift.visitsTo_other _ _ apart]
      exact exhausted

theorem over_iff (draining : Draining start now stale l) :
    l.attempts = (start.due now stale).length + 2 ↔ ∀ source, ¬ l.poller.timer source ≤ now := by
  have paid := draining.paid
  rw [← Poller.ready_eq_zero_iff]
  constructor
  · intro all
    omega
  · intro none
    have shut := Poller.ready_eq_zero_iff.mp none
    have nothing : l.state.world.store.due now stale = [] := by
      rw [Store.due, (draining.shut .primary (shut .primary)).1,
        (draining.shut .secondary (shut .secondary)).1]
      rfl
    rw [none, nothing, List.length_nil] at paid
    exact paid

/-- What was claimed once both queues are known to be empty. -/
theorem claims_perm (draining : Draining start now stale l)
    (finished : l.attempts = (start.due now stale).length + 2) :
    l.state.claims.Perm (start.due now stale) := by
  have paid := draining.paid
  have nothing : l.state.world.store.due now stale = [] := List.length_eq_zero_iff.mp (by omega)
  have claimed := draining.claimed
  rw [nothing, List.append_nil] at claimed
  exact claimed

theorem initial (frozen : w.Frozen now) (late : Instant.epoch ≤ now) {pacing : PollerSettings}
    (interval : 1000000 ≤ pacing.sleep.nanos) (generator : Generator) :
    Draining w.store now stale (.start (.start pacing generator) ⟨w, []⟩) := by
  have timers : ∀ source, (Poller.start pacing generator).timer source ≤ now := by
    intro source
    cases source <;> exact late
  refine ⟨rfl, nofun, interval, frozen, rfl, List.Perm.refl _, ?_, nofun, ?_⟩
  · have ready : (Poller.start pacing generator).ready now = 2 := by
      rw [Poller.ready, if_pos (timers .primary), if_pos (timers .secondary)]
    simp only [PollLoop.start, ready]
    omega
  · intro source shut
    exact absurd (timers source) shut

section Steps

variable {ends : Instant} {settings : ClaimerSettings}
  (granted : leaseEnd now settings.lease.toSpan = .ok ends)
  (cutoff : staleCutoff now settings.staleness.toSpan = .ok stale)
  (inside : now < Instant.latest)

include granted cutoff inside

/-- As long as a queue is ready, an iteration is an attempt. -/
theorem step (draining : Draining start now stale l) (fates : Nat → Fate)
    (drawn : Draw × Generator) (more : l.attempts < (start.due now stale).length + 2) :
    let next := l.iterateBy (Shift.surroundings settings fates) .never drawn
    Draining start now stale next ∧ next.attempts = l.attempts + 1 := by
  rcases Poller.nextBy_cases drawn l.poller now with ⟨source, was, chosen⟩ | ⟨shut, _⟩
  · have timers := fun source => Poller.timer_nextBy drawn l.poller l.state.world.clock source
    have sleep := congrArg PollerSettings.sleep
      (Poller.settings_nextBy drawn l.poller l.state.world.clock)
    rw [← draining.frozen.clock] at chosen
    simp only [PollLoop.iterateBy_visited draining.running chosen]
    refine ⟨?_, rfl⟩
    obtain ⟨kept, ⟨idle, unclaimed, same, nothing⟩ | ⟨key, tried, claim, taken⟩⟩ :=
      Errand.whole_cases granted cutoff source (fates l.state.visits.length) draining.frozen
    · exact draining.idles timers sleep inside was kept idle unclaimed same nothing _
    · exact draining.takes timers sleep was kept tried claim taken _
  · exact absurd (draining.over_iff.mpr shut) (Nat.ne_of_lt more)

theorem drawing (draining : Draining start now stale l) (fresh : l.attempts = 0)
    (fates : Nat → Fate) (draws : Nat → Draw × Generator) {n : Nat}
    (within : n ≤ (start.due now stale).length + 2) :
    let later := l.drawing (Shift.surroundings settings fates) .never draws n
    Draining start now stale later ∧ later.attempts = n := by
  induction n with
  | zero => exact ⟨draining, fresh⟩
  | succ n ih =>
    obtain ⟨before, made⟩ := ih (Nat.le_of_succ_le within)
    have more : (l.drawing (Shift.surroundings settings fates) .never draws n).attempts <
        (start.due now stale).length + 2 := by omega
    obtain ⟨next, one⟩ := before.step granted cutoff inside fates (draws n) more
    exact ⟨next, one.trans (congrArg Nat.succ made)⟩

end Steps

end Draining

namespace Shift

/-- A polling loop at a clock that stands still, over any store that calls have filled and whatever
fails: it makes one attempt for each row that is due and one more on each queue, and then it
sleeps. These attempts claim each row that is due once and no other, and each queue has no work at
the last attempt on it only. -/
theorem drains_before_sleep (calls : List StoreCall) (w : World) {now ends stale : Instant}
    (settings : ClaimerSettings) (pacing : PollerSettings) (generator : Generator)
    (fates : Nat → Fate) (filled : w.store = Store.empty.after calls) (frozen : w.clock = now)
    (late : Instant.epoch ≤ now) (granted : leaseEnd now settings.lease.toSpan = .ok ends)
    (cutoff : staleCutoff now settings.staleness.toSpan = .ok stale)
    (positive : 0 < settings.lease.toSpan.nanos ∨ now < Instant.latest)
    (interval : 1000000 ≤ pacing.sleep.nanos) :
    let primary := w.store.dueKeys now.millis stale.millis .primary
    let secondary := w.store.dueKeys now.millis stale.millis .secondary
    let total := primary.length + secondary.length + 2
    let start : PollLoop Shift := .start (.start pacing generator) ⟨w, []⟩
    let loop := fun draws => start.drawing (surroundings settings fates) .never draws
    (∀ draws,
      (∀ n ≤ total, (loop draws n).result = none ∧ (loop draws n).attempts = n ∧
        (loop draws n).state.visits.length = n ∧ ∀ time, .slept time ∉ (loop draws n).events) ∧
      (∃ woken, (loop draws (total + 1)).events =
        .woke woken :: .slept (loop draws total).time :: (loop draws total).events) ∧
      (loop draws total).state.claims.Nodup ∧
      (∀ key, key ∈ (loop draws total).state.claims ↔ key ∈ primary ∨ key ∈ secondary) ∧
      ∀ source, (loop draws total).state.Exhausted source) ∧
    ∃ own, ∀ n, start.run (surroundings settings fates) .never n = loop own n := by
  intro primary secondary total start loop
  -- Only at the last moment of the calendar could a back-off end as it begins.
  have inside : now < Instant.latest := by
    rcases positive with long | early
    · have sum := leaseEnd_eq_ok_iff.mp granted
      have bound := ends.le_latest
      rw [Instant.lt_iff_nanos]
      change now.nanos < latestNanos
      omega
    · exact early
  have still : w.Frozen now := ⟨frozen, calls, filled.symm⟩
  have initial : Draining w.store now stale start := .initial still late interval generator
  have all : total = (w.store.due now stale).length + 2 := by
    rw [Store.due, List.length_append]
  have along : ∀ draws, ∀ n ≤ total,
      Draining w.store now stale (loop draws n) ∧ (loop draws n).attempts = n :=
    fun draws n within => initial.drawing granted cutoff inside rfl fates draws (all ▸ within)
  refine ⟨?_, start.run_eq_drawing _ _⟩
  intro draws
  -- After so many attempts nothing is left to claim and both queues are shut.
  obtain ⟨draining, made⟩ := along draws total (Nat.le_refl total)
  have finished := made.trans all
  have shut := draining.over_iff.mp finished
  have perm := draining.claims_perm finished
  refine ⟨?_, ?_, ?_, ?_, ?_⟩
  · intro n within
    obtain ⟨before, made⟩ := along draws n within
    exact ⟨before.running, made, before.made.symm.trans made, before.awake⟩
  · rcases Poller.nextBy_cases (draws total) (loop draws total).poller now with
      ⟨source, ready, _⟩ | ⟨_, chosen⟩
    · exact absurd ready (shut source)
    · rw [← draining.frozen.clock] at chosen
      exact ⟨_, PollLoop.events_iterateBy_sleep draining.running chosen⟩
  · exact perm.nodup_iff.mpr (still.reached.keyed.nodup_due now stale)
  · intro key
    exact perm.mem_iff.trans List.mem_append
  · exact fun source => (draining.shut source (shut source)).2

/-- A world with one row that is due in each queue. -/
def soleRows : World :=
  { Fleet.soleWorld with
    store := Store.empty.after
      [.ensurePrimary [Store.soleGrouping], .upsertSecondary Store.soleWork (.atMillis 50000)]
    clock := .atMillis 100000 }

/-- An attempt that fails as soon as it holds work. -/
def failing : Fate where
  choice := 0
  answer := ⟨⟨0⟩, .ok ()⟩
  failure _ := some (.deadlineExceeded ClaimerSettings.default.lease)
  took := 0

theorem drains_failing_rows :
    let start : PollLoop Shift := .start (.start .default (.ofSeed 0)) ⟨soleRows, []⟩
    let loop := fun n => start.run (surroundings .default fun _ => failing) .never n
    (loop 4).attempts = 4 ∧ (∀ time, .slept time ∉ (loop 4).events) ∧
      (∃ woken, (loop 5).events = .woke woken :: .slept (loop 4).time :: (loop 4).events) ∧
      ∀ key, key ∈ (loop 4).state.claims ↔
        key = .primary Store.soleGrouping.bytes ∨
          key = .secondary "review" Store.soleGrouping.bytes := by
  have cutoff : staleCutoff soleRows.clock ClaimerSettings.default.staleness.toSpan =
      .ok (.atMillis 40000) := by decide +kernel
  have granted : leaseEnd soleRows.clock ClaimerSettings.default.lease.toSpan =
      .ok (.atMillis 700000) := by decide +kernel
  have primary : soleRows.store.dueKeys soleRows.clock.millis (Instant.atMillis 40000).millis
      .primary = [.primary Store.soleGrouping.bytes] := by decide +kernel
  have secondary : soleRows.store.dueKeys soleRows.clock.millis (Instant.atMillis 40000).millis
      .secondary = [.secondary "review" Store.soleGrouping.bytes] := by decide +kernel
  obtain ⟨drained, own, drawn⟩ := drains_before_sleep
    [.ensurePrimary [Store.soleGrouping], .upsertSecondary Store.soleWork (.atMillis 50000)]
    soleRows .default .default (.ofSeed 0) (fun _ => failing) rfl rfl (by decide) granted cutoff
    (.inl (by decide)) (by decide)
  obtain ⟨tries, sleeps, _, claims, _⟩ := drained own
  simp only [primary, secondary, List.length_singleton, List.mem_singleton] at tries sleeps claims
  obtain ⟨_, made, _, awake⟩ := tries 4 (Nat.le_refl 4)
  intro start loop
  have same : ∀ n, loop n =
      start.drawing (surroundings .default fun _ => failing) .never own n := drawn
  refine ⟨?_, ?_, ?_, ?_⟩
  · rw [same]
    exact made
  · intro time
    rw [same]
    exact awake time
  · rw [same, same]
    exact sleeps
  · intro key
    rw [same]
    exact claims key

end Shift

end LeaseQueue
