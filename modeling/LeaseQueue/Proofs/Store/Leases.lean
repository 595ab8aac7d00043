import LeaseQueue.Proofs.Store.Keys
/-! Leases exclude each other whatever clocks the workers read. The bound that a granted lease sets
is kept by every later operation, and a further lease needs a moment after it. -/
namespace LeaseQueue.Store

theorem leasedTo_of_leases {s next : Store} {key : RowKey} {bound : Int}
    (same : next.leases key = s.leases key) (held : s.LeasedTo key bound) :
    next.LeasedTo key bound := by
  rw [LeasedTo, same]
  exact held

theorem leasedTo_perform {s : Store} {c : StoreCall} {key : RowKey} {bound : Int}
    (held : s.LeasedTo key bound) (kept : c.retires key = false) (forward : c.LeasesForward) :
    (s.perform c).2.LeasedTo key bound := by
  cases asked : c.lease? with
  | some asking =>
    rcases s.perform_grants asked with ⟨_, _, granted, grant⟩ | same
    · exact grant.keeps (millis_le_of_leaseEnd (forward _ _ asked) granted) held
    · rw [same]; exact held
  | none =>
    cases c with
    | claimPrimary | claimOldest | claimRandom | leaseSecondary => cases asked
    | completePrimary grouping now =>
      exact leasedTo_of_leases (leases_completePrimary s grouping now key) held
    | completeSecondary branch grouping now =>
      exact leasedTo_of_leases (leases_completeSecondary s branch grouping now key) held
    | ensurePrimary groupings =>
      exact leasedTo_of_leases (leases_ensurePrimary s groupings key held.1) held
    | upsertSecondary work updated =>
      exact leasedTo_of_leases
        (leases_upsertSecondary s work.branch work.grouping work.digests updated key held.1) held
    | retireBranch branch => exact leasedTo_of_leases (leases_retireBranch s branch key kept) held
    | putGrouping grouping params =>
      refine leasedTo_of_leases ?_ held
      simp only [perform, putGrouping]
      cases key <;> split <;> rfl
    | groupingParams | primaryRow | secondaryRow | candidates => exact held

theorem leasedTo_after {s : Store} {cs : List StoreCall} {key : RowKey} {bound : Int}
    (held : s.LeasedTo key bound) (kept : ∀ c ∈ cs, c.retires key = false)
    (forward : ∀ c ∈ cs, c.LeasesForward) : (s.after cs).LeasedTo key bound := by
  induction cs generalizing s with
  | nil => exact held
  | cons c cs ih =>
    have one := leasedTo_perform held (kept c List.mem_cons_self) (forward c List.mem_cons_self)
    exact ih one (fun d member => kept d (List.mem_cons_of_mem _ member))
      (fun d member => forward d (List.mem_cons_of_mem _ member))

/-- A call that leases a row was granted its lease. -/
theorem grant_of_leases {s : Store} {c : StoreCall} {key : RowKey} (won : s.Leases c key) :
    ∃ now lease ends, c.lease? = some (now, lease) ∧ leaseEnd now lease = .ok ends ∧
      Grant s key now ends (s.perform c).2 := by
  cases c with
  | claimPrimary now staleness lease =>
    obtain ⟨grouping, answer, same⟩ := answer_of_some won (fun _ => rfl) rfl
    cases same
    exact ⟨now, lease, (claimPrimary_won answer).imp fun _ h => ⟨rfl, h⟩⟩
  | claimOldest now lease =>
    obtain ⟨work, answer, same⟩ := answer_of_some won (fun _ => rfl) rfl
    cases same
    exact ⟨now, lease, (claimOldest_won answer).imp fun _ h => ⟨rfl, h⟩⟩
  | claimRandom choice now lease =>
    obtain ⟨work, answer, same⟩ := answer_of_some won (fun _ => rfl) rfl
    cases same
    exact ⟨now, lease, (claimRandom_won answer).imp fun _ h => ⟨rfl, h⟩⟩
  | leaseSecondary branch grouping now lease =>
    obtain ⟨digests, answer, same⟩ := answer_of_some won (fun _ => rfl) rfl
    cases same
    exact ⟨now, lease, (leaseSecondary_won answer).imp fun _ h => ⟨rfl, h⟩⟩
  | _ => cases won

/-- While a row exists, its lease never ends earlier than it did. Two leases of the row, however far
apart and whatever clocks they were taken by, are further apart than the first one is long. -/
theorem leases_exclude (before between : List StoreCall) (key : RowKey)
    (kept : ∀ c ∈ between, c.retires key = false) (forward : ∀ c ∈ between, c.LeasesForward) :
    (∀ ends, (empty.after before).leaseEnds? key = some ends →
      ∃ later, (empty.after (before ++ between)).leaseEnds? key = some later ∧ ends ≤ later) ∧
    (∀ first second now₁ lease₁ now₂ lease₂,
      first.lease? = some (now₁, lease₁) → second.lease? = some (now₂, lease₂) →
      (empty.after before).Leases first key →
      (empty.after (before ++ first :: between)).Leases second key →
      now₁.nanos + lease₁.nanos < now₂.nanos) := by
  constructor
  · intro ends found
    have held := (keyed_empty.after before).leasedTo found
    rw [after_append]
    exact (leasedTo_after held kept forward).leaseEnds?
  · intro first second now₁ lease₁ now₂ lease₂ time₁ time₂ won₁ won₂
    rw [after_append] at won₂
    obtain ⟨_, _, ends₁, own₁, granted₁, grant₁⟩ := grant_of_leases won₁
    obtain ⟨_, _, ends₂, own₂, granted₂, grant₂⟩ := grant_of_leases won₂
    cases time₁.symm.trans own₁
    cases time₂.symm.trans own₂
    have held := leasedTo_after grant₁.leasedTo kept forward
    have order : ends₁ < now₂ := Instant.lt_of_millis_lt (grant₂.bound_lt held)
    rw [Instant.lt_iff_nanos, leaseEnd_eq_ok_iff.mp granted₁] at order
    exact order

def tenMinuteClaim (now : Instant) : StoreCall := .claimPrimary now (.ofSeconds 60) (.ofSeconds 600)

/-- Between two leases the work is completed by a clock that stands before the first of them. -/
theorem leases_exclude_slow_clock :
    (empty.after [.ensurePrimary [soleGrouping]]).Leases
      (tenMinuteClaim (.atMillis 100000)) (.primary soleGrouping.bytes) ∧
    (empty.after [.ensurePrimary [soleGrouping], tenMinuteClaim (.atMillis 100000),
        .completePrimary soleGrouping (.atMillis 50000)]).Leases
      (tenMinuteClaim (.atMillis 700001)) (.primary soleGrouping.bytes) ∧
    (Instant.atMillis 100000).nanos + (Span.ofSeconds 600).nanos <
      (Instant.atMillis 700001).nanos := by
  have won₁ : (empty.after [.ensurePrimary [soleGrouping]]).Leases
      (tenMinuteClaim (.atMillis 100000)) (.primary soleGrouping.bytes) := by
    unfold Leases; decide +kernel
  have won₂ : (empty.after [.ensurePrimary [soleGrouping], tenMinuteClaim (.atMillis 100000),
        .completePrimary soleGrouping (.atMillis 50000)]).Leases
      (tenMinuteClaim (.atMillis 700001)) (.primary soleGrouping.bytes) := by
    unfold Leases; decide +kernel
  refine ⟨won₁, won₂, ?_⟩
  have exclusion := leases_exclude [.ensurePrimary [soleGrouping]]
    [.completePrimary soleGrouping (.atMillis 50000)]
    (.primary soleGrouping.bytes) (by simp [StoreCall.retires])
    (by simp [StoreCall.LeasesForward, StoreCall.lease?])
  exact exclusion.2 _ _ _ _ _ _ rfl rfl won₁ won₂

end LeaseQueue.Store
