import Hearth.Pools.LeaseSpec

/-!
# The invariant of the pool document

What holds of `pool.json` between any two lease operations: session directories
tell the seats apart, a seat is busy exactly when it is leased, lease ids are
distinct, and a mechanical v3 pool neither shares a control session between two
occupied seats nor exceeds the attempt limit of its broker.

Operations that only clear seats preserve all of it, whatever they clear
(`PoolInvariant.clears`); taking a seat preserves it because checkout looks before
it takes (`PoolInvariant.takes`).
-/

namespace Hearth.Pools

open Hearth.Library

variable {host : Host} {before after : Pool} {may : Seat → Prop}

/-- The ids of the leases in force. -/
def leaseIds (pool : Pool) : List String :=
  pool.sessions.filterMap fun item => item.lease.map Lease.leaseId

/-- The control sessions of the seats that are busy or leased. -/
def takenControls (host : Host) (pool : Pool) : List (Except PoolError String) :=
  (pool.sessions.filter Seat.occupied).map (physicalControlSession host)

/-- The invariant of the pool document. -/
structure PoolInvariant (host : Host) (pool : Pool) : Prop where
  dirs : (pool.sessions.map fun item => host.resolve item.sessionDir).Nodup
  leasedBusy : ∀ item ∈ pool.sessions, item.status = .busy ↔ item.lease.isSome
  distinctLeases : (leaseIds pool).Nodup
  controls : pool.executionTopology = .mechanicalBasisBrokerV3 → (takenControls host pool).Nodup
  limit : ∀ limit, brokerPoolAttemptLimit pool = .ok (some limit) →
    (pool.sessions.filter Seat.occupied).length ≤ limit

theorem PoolInvariant.sessionDirs (h : PoolInvariant host before) :
    (before.sessions.map Seat.sessionDir).Nodup := by
  refine List.Nodup.of_map host.resolve ?_
  rw [List.map_map]
  exact h.dirs

/-- Two seats of the pool with one session directory are one seat. -/
theorem PoolInvariant.eq_of_resolve (h : PoolInvariant host before) {item item' : Seat}
    (hmem : item ∈ before.sessions) (hmem' : item' ∈ before.sessions)
    (hdir : host.resolve item.sessionDir = host.resolve item'.sessionDir) : item = item' :=
  List.inj_on_of_nodup_map h.dirs hmem hmem' hdir

/-- Two leased seats of the pool with one lease id are one seat. -/
theorem PoolInvariant.eq_of_leaseId (h : PoolInvariant host before) {item item' : Seat}
    (hmem : item ∈ before.sessions) (hmem' : item' ∈ before.sessions) {leaseId : String}
    (hlease : item.lease.map Lease.leaseId = some leaseId)
    (hlease' : item'.lease.map Lease.leaseId = some leaseId) : item = item' :=
  eq_of_nodup_filterMap h.distinctLeases hmem hmem' hlease hlease'

theorem PoolInvariant.persist (h : PoolInvariant host before) (updatedUtc : String) :
    PoolInvariant host (persist before updatedUtc) :=
  ⟨h.dirs, h.leasedBusy, h.distinctLeases, h.controls, h.limit⟩

theorem SameGeneration.sameBroker (h : SameGeneration before after) : SameBroker before after :=
  ⟨h.engine, h.executionTopology, h.brokerRuntimeSha256⟩

theorem SameBroker.attemptLimit (h : SameBroker before after) :
    brokerPoolAttemptLimit after = brokerPoolAttemptLimit before := by
  simp only [brokerPoolAttemptLimit, h.executionTopology, h.brokerRuntimeSha256]

/-- Clearing seats preserves the invariant. -/
theorem PoolInvariant.clears (h : PoolInvariant host before) (hbroker : SameBroker before after)
    (hclears : List.Forall₂ (Clears may) before.sessions after.sessions) :
    PoolInvariant host after where
  dirs := by
    rw [map_eq_of_forall₂ (fun _ _ hclear => by rw [hclear.sessionDir]) hclears]
    exact h.dirs
  leasedBusy item hitem := by
    obtain ⟨origin, horigin, hclear⟩ := exists_mem_of_forall₂' hclears hitem
    rcases hclear.occupancy with ⟨hstatus, hlease⟩ | ⟨-, hstatus, hlease⟩
    · rw [hstatus, hlease]
      exact h.leasedBusy origin horigin
    · simp [hstatus, hlease]
  distinctLeases := by
    refine List.Nodup.sublist (filterMap_sublist_of_forall₂ (fun _ _ hclear => ?_) hclears) h.distinctLeases
    rcases hclear.lease with hlease | hlease
    · exact .inl (by rw [hlease]; rfl)
    · exact .inr (by rw [hlease])
  controls htopology :=
    (h.controls (hbroker.executionTopology.symm.trans htopology)).sublist
      (occupied_sublist host hclears)
  limit limit hlimit :=
    Nat.le_trans (occupied_length_le host hclears) (h.limit limit (hbroker.attemptLimit ▸ hlimit))

/-- A free seat of a sound pool carries no lease. -/
theorem PoolInvariant.not_occupied (h : PoolInvariant host before) {item : Seat}
    (hmem : item ∈ before.sessions) (hfree : item.free) : item.occupied = false := by
  have hbusy : item.status ≠ .busy := by
    rcases hfree with hstatus | hstatus <;> simp [hstatus]
  have hlease : ¬ item.lease.isSome := fun hsome => hbusy ((h.leasedBusy item hmem).mpr hsome)
  simp [Seat.occupied, hbusy, hlease]

/-- Taking a grantable seat under a fresh lease id preserves the invariant. -/
theorem PoolInvariant.take {first last : List Seat} {seat : Seat} {lease : Lease}
    (h : PoolInvariant host before) (hsame : SameGeneration before after)
    (hbefore : before.sessions = first ++ seat :: last)
    (hafter : after.sessions = first ++ takeSeat lease seat :: last)
    (hgrant : Grantable host before before.sessions seat)
    (hfresh : lease.leaseId ∉ leaseIds before) : PoolInvariant host after := by
  have hmem : seat ∈ before.sessions := by simp [hbefore]
  have hfree := h.not_occupied hmem hgrant.free
  have hbusy : (takeSeat lease seat).occupied = true := by simp [Seat.occupied, takeSeat]
  have hlease : seat.lease = none := by
    simp only [Seat.occupied, Bool.or_eq_false_iff] at hfree
    simpa using hfree.2
  have hocc : (before.sessions.filter Seat.occupied) =
      first.filter Seat.occupied ++ last.filter Seat.occupied := by
    simp [hbefore, hfree]
  have hocc' : (after.sessions.filter Seat.occupied) =
      first.filter Seat.occupied ++ takeSeat lease seat :: last.filter Seat.occupied := by
    simp [hafter, hbusy]
  refine ⟨?_, ?_, ?_, ?_, ?_⟩
  · have hdirs := h.dirs
    rw [hbefore] at hdirs
    rw [hafter]
    simpa [takeSeat] using hdirs
  · intro item hitem
    rw [hafter, List.mem_append, List.mem_cons] at hitem
    rcases hitem with hitem | rfl | hitem
    · exact h.leasedBusy item (by simp [hbefore, hitem])
    · simp [takeSeat]
    · exact h.leasedBusy item (by simp [hbefore, hitem])
  · have hids := h.distinctLeases
    unfold leaseIds at hids hfresh ⊢
    rw [hbefore, List.filterMap_append, List.filterMap_cons_none (by rw [hlease]; rfl)] at hids hfresh
    have htaken : (takeSeat lease seat).lease.map Lease.leaseId = some lease.leaseId := rfl
    rw [hafter, List.filterMap_append, List.filterMap_cons, htaken, List.nodup_middle,
      List.nodup_cons]
    exact ⟨hfresh, hids⟩
  · intro htopology
    have hv3 := hsame.executionTopology.symm.trans htopology
    have hcontrols := h.controls hv3
    have hnew := hgrant.control hv3
    unfold takenControls at hcontrols ⊢
    rw [hocc, List.map_append] at hcontrols hnew
    rw [hocc', List.map_append, List.map_cons, List.nodup_middle, List.nodup_cons]
    exact ⟨hnew, hcontrols⟩
  · intro limit hlimit
    have hroom := hgrant.limit limit (hsame.sameBroker.attemptLimit ▸ hlimit)
    rw [hocc, List.length_append] at hroom
    rw [hocc', List.length_append, List.length_cons]
    omega

/-- A whole checkout that hands out a seat preserves the invariant. -/
theorem PoolInvariant.takes {item : Seat} {lease : Lease} (h : PoolInvariant host before)
    (hsame : SameGeneration before after)
    (htakes : Takes may (Grantable host before) lease before.sessions after.sessions item)
    (hfresh : lease.leaseId ∉ leaseIds before) : PoolInvariant host after := by
  obtain ⟨first, seat, last, hclears, hgrant, -, hafter⟩ := htakes
  have hmiddle : PoolInvariant host { before with sessions := first ++ seat :: last } :=
    h.clears ⟨rfl, rfl, rfl⟩ hclears
  refine hmiddle.take ⟨hsame.status, hsame.engine, hsame.executionTopology,
    hsame.brokerRuntimeSha256⟩ rfl hafter
    ⟨hgrant.free, hgrant.limit, hgrant.control⟩ fun hmem => hfresh ?_
  refine (filterMap_sublist_of_forall₂ (fun _ _ hclear => ?_) hclears).subset hmem
  rcases hclear.lease with hlease | hlease
  · exact .inl (by rw [hlease]; rfl)
  · exact .inr (by rw [hlease])

/-! ## The locked transitions -/

/-- What `checkout_pool_seat_locked` leaves on disk. -/
theorem checkoutPoolSeatLocked_spec (h : PoolInvariant host before) (request : CheckoutRequest)
    (context : CheckoutContext) :
    SameGeneration before (checkoutPoolSeatLocked host before request context).1 ∧
      match (checkoutPoolSeatLocked host before request context).2 with
      | .error _ => List.Forall₂ (Clears (Seat.staleOrFree context.ownerAlive)) before.sessions
          (checkoutPoolSeatLocked host before request context).1.sessions
      | .ok item => before.status = .ready ∧ request.selectedLeaseId ∉ leaseIds before ∧
          Takes (Seat.staleOrFree context.ownerAlive) (Grantable host before) request.lease
            before.sessions (checkoutPoolSeatLocked host before request context).1.sessions item := by
  unfold checkoutPoolSeatLocked
  by_cases hempty : request.leaseId = some ""
  · rw [if_pos hempty]
    exact ⟨SameGeneration.refl _, forall₂_clears_refl _ _⟩
  rw [if_neg hempty]
  by_cases hcollision : before.sessions.any fun item =>
      item.lease.map Lease.leaseId = some request.selectedLeaseId
  · rw [if_pos hcollision]
    exact ⟨SameGeneration.refl _, forall₂_clears_refl _ _⟩
  rw [if_neg hcollision]
  have hfresh : request.selectedLeaseId ∉ leaseIds before := by
    intro hmem
    obtain ⟨item, hitem, hid⟩ := List.mem_filterMap.mp hmem
    exact hcollision (List.any_eq_true.mpr ⟨item, hitem, by simpa using hid⟩)
  obtain ⟨hsame, hcheckout⟩ :=
    checkoutWarmPoolSeat_spec host before context request.lease h.sessionDirs
  simp only
  generalize checkoutWarmPoolSeat host before context request.lease = checkout at hsame hcheckout ⊢
  have hpersist := hsame.trans (sameGeneration_persist checkout.1 context.updatedUtc)
  cases hresult : checkout.2 with
  | ok item =>
      rw [hresult] at hcheckout
      exact ⟨hpersist, hcheckout.1, hfresh, hcheckout.2⟩
  | error error =>
      rw [hresult] at hcheckout
      simp only
      by_cases hraised : error.isCheckoutError
      · rw [if_pos hraised]
        exact ⟨hpersist, hcheckout⟩
      · rw [if_neg hraised]
        exact ⟨SameGeneration.refl _, forall₂_clears_refl _ _⟩

/-- A pool that is not ready hands out no seat. -/
theorem checkoutPoolSeatLocked_of_not_ready {pool : Pool} (hstatus : pool.status ≠ .ready)
    (host : Host) (request : CheckoutRequest) (context : CheckoutContext) :
    (checkoutPoolSeatLocked host pool request context).1.status = pool.status ∧
      ∃ error, (checkoutPoolSeatLocked host pool request context).2 = .error error := by
  unfold checkoutPoolSeatLocked
  split
  · exact ⟨rfl, _, rfl⟩
  · split
    · exact ⟨rfl, _, rfl⟩
    · simp only [checkoutWarmPoolSeat, if_pos hstatus, PoolError.isCheckoutError, if_true]
      exact ⟨rfl, _, rfl⟩

/-- What `release_pool_seat_locked` leaves on disk when it does not raise. -/
theorem releasePoolSeatLocked_ok {session releasedUtc updatedUtc : String} {status : SeatStatus}
    {reason : Option String} {item : Seat} (hstatus : status ≠ .busy)
    (h : (releasePoolSeatLocked host before session status releasedUtc reason updatedUtc).2 =
      .ok item) :
    SameGeneration before
        (releasePoolSeatLocked host before session status releasedUtc reason updatedUtc).1 ∧
      List.Forall₂ (Clears (Seat.resolvesTo host session)) before.sessions
        (releasePoolSeatLocked host before session status releasedUtc reason
          updatedUtc).1.sessions := by
  obtain ⟨hsame, hclears⟩ :=
    releaseWarmPoolSeat_spec host before session hstatus releasedUtc reason
  unfold releasePoolSeatLocked persistUnlessRaised at h ⊢
  cases hresult : (releaseWarmPoolSeat host before session status releasedUtc reason).2 with
  | ok released => exact ⟨hsame.trans (sameGeneration_persist _ _), hclears⟩
  | error error => simp [hresult] at h

/-- A released seat has lost its lease. -/
theorem releasePoolSeatLocked_returned {session releasedUtc updatedUtc : String}
    {status : SeatStatus} {reason : Option String} {item seat : Seat}
    (hinv : PoolInvariant host before)
    (hpool : before.status = .ready ∨ (before.engine = .forkBasis ∧ before.status = .poisoned))
    (h : (releasePoolSeatLocked host before session status releasedUtc reason updatedUtc).2 =
      .ok item)
    (hmem : seat ∈ (releasePoolSeatLocked host before session status releasedUtc reason
      updatedUtc).1.sessions)
    (hdir : host.resolve seat.sessionDir = host.resolve session) : seat.lease = none := by
  unfold releasePoolSeatLocked persistUnlessRaised releaseWarmPoolSeat at h hmem
  cases hupdated : (updateFirst (fun item => host.resolve item.sessionDir = host.resolve session)
      (releaseSeat before status releasedUtc reason) before.sessions).2 with
  | none => simp [hupdated] at h
  | some released =>
      obtain ⟨first, found, last, hsessions, hfound, -, hafter⟩ := updateFirst_eq_some hupdated
      simp only [hupdated, persist_sessions, hafter] at hmem
      have hdirs := hinv.dirs
      rw [hsessions, List.map_append, List.map_cons, List.nodup_middle, List.nodup_cons] at hdirs
      have hfound' : host.resolve found.sessionDir = host.resolve session := by simpa using hfound
      have hother : ∀ other ∈ first ++ last, host.resolve other.sessionDir ≠ host.resolve session := by
        intro other hother heq
        refine hdirs.1 ?_
        rw [← List.map_append, hfound', ← heq]
        exact List.mem_map_of_mem hother
      rw [List.mem_append, List.mem_cons] at hmem
      rcases hmem with hmem | rfl | hmem
      · exact absurd hdir (hother seat (by simp [hmem]))
      · exact releaseSeat_lease hpool status releasedUtc reason found
      · exact absurd hdir (hother seat (by simp [hmem]))

/-- What a quarantine that does not raise leaves on disk. -/
structure Quarantined (isReleased : Seat → Bool) (reason utc : String) (before after : Pool) :
    Prop where
  broker : SameBroker before after
  engine : after.engine = .forkBasis
  status : after.status = .poisoned
  sessions : after.sessions = before.sessions.map (quarantineSeat isReleased reason utc)

theorem quarantined_of_persist {isReleased : Seat → Bool} {reason utc updatedUtc : String}
    {missing : PoolError} {item : Seat} (hengine : before.engine = .forkBasis)
    (h : (persistUnlessRaised before updatedUtc
      (quarantinePool before isReleased reason utc missing)).2 = .ok item) :
    Quarantined isReleased reason utc before (persistUnlessRaised before updatedUtc
      (quarantinePool before isReleased reason utc missing)).1 := by
  unfold persistUnlessRaised at h ⊢
  cases hresult : (quarantinePool before isReleased reason utc missing).2 with
  | ok released => exact ⟨⟨rfl, rfl, rfl⟩, hengine, rfl, rfl⟩
  | error error => simp [hresult] at h

theorem quarantineForkBasisLocked_ok {session reason utc updatedUtc : String} {item : Seat}
    (h : (quarantineForkBasisLocked host before session reason utc updatedUtc).2 = .ok item) :
    Quarantined (fun item => host.resolve item.sessionDir = host.resolve session) reason utc before
      (quarantineForkBasisLocked host before session reason utc updatedUtc).1 := by
  unfold quarantineForkBasisLocked quarantineForkBasisPool at h ⊢
  by_cases hengine : before.engine ≠ .forkBasis
  · simp [hengine, persistUnlessRaised] at h
  · rw [if_neg hengine] at h ⊢
    exact quarantined_of_persist (not_not.mp hengine) h

theorem quarantineForkBasisLeaseLocked_ok {leaseId reason utc updatedUtc : String} {item : Seat}
    (h : (quarantineForkBasisLeaseLocked before leaseId reason utc updatedUtc).2 = .ok item) :
    Quarantined (fun item => item.lease.map Lease.leaseId = some leaseId) reason utc before
      (quarantineForkBasisLeaseLocked before leaseId reason utc updatedUtc).1 := by
  unfold quarantineForkBasisLeaseLocked quarantineForkBasisLease at h ⊢
  by_cases hengine : before.engine ≠ .forkBasis
  · simp [hengine, persistUnlessRaised] at h
  · rw [if_neg hengine] at h ⊢
    exact quarantined_of_persist (not_not.mp hengine) h

/-- An operation that raised leaves the document as it was. -/
theorem persistUnlessRaised_error {result : Pool × Except PoolError Seat} {updatedUtc : String}
    {error : PoolError} (h : (persistUnlessRaised before updatedUtc result).2 = .error error) :
    (persistUnlessRaised before updatedUtc result).1 = before := by
  unfold persistUnlessRaised at h ⊢
  cases hresult : result.2 with
  | ok item => simp [hresult] at h
  | error error' => rfl

/-- Quarantine clears every seat but the active siblings. -/
theorem map_quarantineSeat_clears (isReleased : Seat → Bool) (reason utc : String)
    (sessions : List Seat) :
    List.Forall₂ (Clears fun seat => ¬ seat.activeSibling isReleased) sessions
      (sessions.map (quarantineSeat isReleased reason utc)) :=
  forall₂_map_self fun item _ => quarantineSeat_clears isReleased reason utc item

end Hearth.Pools
