import Hearth.Pools.Capacity
import Hearth.Pools.SeatIdentity

/-!
# Capacity and leases over whole runs

An expansion that changes the document appends seats that nobody has leased, on the control session of
a seat that was there.  What it appends is told from every older seat by its number: no seat of a pool
of `n` seats is in the directory of a logical seat beyond `n` (`Ahead`).
-/

namespace Hearth.Pools

open Hearth.Library

variable {Owner : Type} {host : Host} {pid : Owner → ℤ} {place : CapacityPlace}

/-! ## What an expansion does -/

theorem physicalBrokerCapacity_none {pool : Pool} (h : physicalBrokerCapacity host pool = .ok none) :
    pool.executionTopology = .other := by
  cases htopology : pool.executionTopology with
  | other => rfl
  | mechanicalBasisBrokerV3 => cases physicalBrokerCapacity_isSome h htopology

/-- An expansion leaves the document as it was, or appends seats to a pool that no mechanical broker
serves. -/
theorem ensureForkPoolLogicalCapacity_ok {before after : SizedPool} {target : ℕ} {utc : String}
    {report : CapacityReport}
    (h : ensureForkPoolLogicalCapacity host place before target utc = .ok (after, report)) :
    report.previousCapacity = before.pool.sessions.length ∧
    ((report.changed = false ∧ after = before) ∨
      (report.changed = true ∧ before.pool.engine = .forkBasis ∧ before.pool.status.expandable = true ∧
        before.pool.executionTopology = .other ∧ report.effectiveCapacity = after.pool.sessions.length ∧
        ∃ physical ∈ before.pool.sessions, physical.controlSessionDir.getD "" = "" ∧
          physical.sessionDir ≠ "" ∧
          (∀ worker ∈ newWorkers before.pool.sessions.length target,
            place.symlink (place.logicalSessionDir worker) = false) ∧
          after.pool = before.pool.withSeats ((newWorkers before.pool.sessions.length target).map
            (place.logicalSeat before.pool.status physical)) utc)) := by
  unfold ensureForkPoolLogicalCapacity at h
  simp only at h
  by_cases hzero : target = 0
  · rw [if_pos hzero] at h
    cases h
  rw [if_neg hzero] at h
  by_cases hengine : before.pool.engine ≠ .forkBasis
  · rw [if_pos hengine] at h
    cases h
  rw [if_neg hengine] at h
  by_cases hstatus : ¬ before.pool.status.expandable
  · rw [if_pos hstatus] at h
    cases h
  rw [if_neg hstatus] at h
  by_cases hempty : before.pool.sessions = []
  · rw [if_pos hempty] at h
    cases h
  rw [if_neg hempty] at h
  cases hcapacity : physicalBrokerCapacity host before.pool with
  | error error =>
      rw [hcapacity] at h
      cases h
  | ok capacity =>
      rw [hcapacity] at h
      cases capacity with
      | some physicalCapacity =>
          cases h
          exact ⟨rfl, .inl ⟨rfl, rfl⟩⟩
      | none =>
          simp only at h
          split at h
          · cases h
            exact ⟨rfl, .inl ⟨rfl, rfl⟩⟩
          · cases hphysical : physicalSession before.pool.sessions with
            | none =>
                rw [hphysical] at h
                cases h
            | some physical =>
                rw [hphysical] at h
                simp only at h
                split at h
                · cases h
                · rename_i hdir
                  split at h
                  · cases h
                  · split at h
                    · cases h
                    · rename_i hplain
                      cases h
                      refine ⟨rfl, .inr ⟨rfl, not_not.mp hengine, not_not.mp hstatus,
                        physicalBrokerCapacity_none hcapacity, rfl, physical, ?_, ?_, hdir, ?_, rfl⟩⟩
                      · exact List.mem_of_find?_eq_some hphysical
                      · simpa using List.find?_some hphysical
                      · simpa using hplain

theorem mem_newWorkers {current target worker : ℕ} :
    worker ∈ newWorkers current target ↔ current < worker ∧ worker ≤ target := by
  unfold newWorkers
  rw [List.mem_map]
  constructor
  · rintro ⟨offset, hoffset, rfl⟩
    have hlt := List.mem_range.mp hoffset
    omega
  · intro hbounds
    exact ⟨worker - (current + 1), List.mem_range.mpr (by omega), by omega⟩

theorem newWorkers_length (current target : ℕ) : (newWorkers current target).length = target - current := by
  simp [newWorkers]

theorem newWorkers_nodup (current target : ℕ) : (newWorkers current target).Nodup := by
  refine List.Nodup.map (fun _ _ h => ?_) List.nodup_range
  simpa using h

theorem logicalSeat_free (status : PoolStatus) (physical : Seat) (worker : ℕ) :
    (place.logicalSeat status physical worker).status ≠ .busy ∧
      (place.logicalSeat status physical worker).lease = none := by
  refine ⟨?_, rfl⟩
  unfold CapacityPlace.logicalSeat
  simp only
  split <;> exact SeatStatus.noConfusion

/-- A logical seat is served by the control session of the physical one. -/
theorem logicalSeat_control {physical : Seat} (hcontrol : physical.controlSessionDir.getD "" = "")
    (hdir : physical.sessionDir ≠ "") (status : PoolStatus) (worker : ℕ) :
    physicalControlSession host (place.logicalSeat status physical worker) =
      physicalControlSession host physical := by
  have hphysical : controlIdentity physical = physical.sessionDir := by
    unfold controlIdentity
    cases hoption : physical.controlSessionDir with
    | none => rfl
    | some control =>
        rw [hoption] at hcontrol
        exact if_pos hcontrol
  have hlogical : controlIdentity (place.logicalSeat status physical worker) = physical.sessionDir := by
    unfold controlIdentity CapacityPlace.logicalSeat
    exact if_neg hdir
  unfold physicalControlSession
  rw [hlogical, hphysical]

/-! ## The invariant -/

/-- A directory that is not a symbolic link is where its parent is, under its own name. -/
structure CapacityPlace.Plain (host : Host) (place : CapacityPlace) : Prop where
  resolve : ∀ worker, place.symlink (place.logicalSessionDir worker) = false →
    host.resolve (place.logicalSessionDir worker) =
      host.resolve (place.poolDir ++ "/sessions") ++ "/logical-seat-" ++ toString worker

/-- No seat is in the directory of a logical seat that is still to come. -/
def Ahead (host : Host) (place : CapacityPlace) (sessions : List Seat) : Prop :=
  ∀ item ∈ sessions, ∀ worker, sessions.length < worker →
    place.symlink (place.logicalSessionDir worker) = false →
      host.resolve item.sessionDir ≠ host.resolve (place.logicalSessionDir worker)

theorem toString_injective {first second : ℕ} (h : toString first = toString second) : first = second := by
  have hdigits := congrArg (fun text : String => Nat.ofDigitChars 10 text.toList 0) h
  simpa [Nat.toString_eq_ofList_toDigits] using hdigits

theorem CapacityPlace.Plain.injective (hplain : place.Plain host) {first second : ℕ}
    (hfirst : place.symlink (place.logicalSessionDir first) = false)
    (hsecond : place.symlink (place.logicalSessionDir second) = false)
    (h : host.resolve (place.logicalSessionDir first) = host.resolve (place.logicalSessionDir second)) :
    first = second := by
  rw [hplain.resolve first hfirst, hplain.resolve second hsecond] at h
  have hlists := congrArg String.toList h
  simp only [String.toList_append] at hlists
  exact toString_injective (String.toList_injective (List.append_cancel_left hlists))

/-- Vacant seats under new directories keep the invariant of a pool that no mechanical broker serves. -/
theorem PoolInvariant.append {pool : Pool} (h : PoolInvariant host pool) {added : List Seat} {utc : String}
    (htopology : pool.executionTopology = .other)
    (hvacant : ∀ item ∈ added, item.status ≠ .busy ∧ item.lease = none)
    (hdirs : (added.map fun item => host.resolve item.sessionDir).Nodup)
    (hnew : ∀ item ∈ pool.sessions, ∀ seat ∈ added,
      host.resolve item.sessionDir ≠ host.resolve seat.sessionDir) :
    PoolInvariant host (pool.withSeats added utc) where
  dirs := by
    rw [Pool.withSeats_sessions, List.map_append, List.nodup_append]
    refine ⟨h.dirs, hdirs, ?_⟩
    intro dir hdir other hother
    obtain ⟨item, hitem, rfl⟩ := List.mem_map.mp hdir
    obtain ⟨seat, hseat, rfl⟩ := List.mem_map.mp hother
    exact hnew item hitem seat hseat
  leasedBusy item hitem := by
    rcases List.mem_append.mp hitem with hold | hadded
    · exact h.leasedBusy item hold
    · simp [hvacant item hadded]
  distinctLeases := by
    have hnone : (added.filterMap fun item => item.lease.map Lease.leaseId) = [] :=
      List.filterMap_eq_nil_iff.mpr fun item hitem => by simp [(hvacant item hitem).2]
    unfold leaseIds
    rw [Pool.withSeats_sessions, List.filterMap_append, hnone, List.append_nil]
    exact h.distinctLeases
  controls hmechanical := by
    have hother : ExecutionTopology.other = .mechanicalBasisBrokerV3 := htopology.symm.trans hmechanical
    cases hother
  limit limit hlimit := by
    have hnone : brokerPoolAttemptLimit (pool.withSeats added utc) = .ok none := by
      unfold brokerPoolAttemptLimit Pool.withSeats
      rw [htopology]
    rw [hnone] at hlimit
    cases hlimit

/-- So do the leases of all owners. -/
theorem WorldInvariant.append {world : World Owner} (h : WorldInvariant host pid world) {added : List Seat}
    {utc : String} (hpool : PoolInvariant host (world.pool.withSeats added utc))
    (hvacant : ∀ item ∈ added, item.status ≠ .busy ∧ item.lease = none) :
    WorldInvariant host pid { world with pool := world.pool.withSeats added utc } where
  pool := hpool
  lifecycle := h.lifecycle.imp id (Or.imp id fun hnone item hitem => by
    rcases List.mem_append.mp hitem with hold | hadded
    · exact hnone item hold
    · exact (hvacant item hadded).2)
  holder item hitem lease hlease := by
    rcases List.mem_append.mp hitem with hold | hadded
    · exact h.holder item hold lease hlease
    · rw [(hvacant item hadded).2] at hlease
      cases hlease
  live owner holding hlive hheld := by
    obtain ⟨item, hitem, hown⟩ := h.live owner holding hlive hheld
    exact ⟨item, List.mem_append_left _ hitem, hown⟩
  exclusive := h.exclusive

/-- What holds in every state of a run that starts with the control sessions `controls`. -/
structure CapacityInvariant (host : Host) (pid : Owner → ℤ) (place : CapacityPlace)
    (controls : List (Except PoolError String)) (s : CapacityWorld Owner) : Prop where
  world : WorldInvariant host pid s.world
  ahead : Ahead host place s.world.pool.sessions
  control : ∀ item ∈ s.world.pool.sessions, physicalControlSession host item ∈ controls

section

variable {controls : List (Except PoolError String)} {s t : CapacityWorld Owner}

theorem physicalControlSession_congr {item other : Seat} (h : controlIdentity item = controlIdentity other) :
    physicalControlSession host item = physicalControlSession host other := by
  unfold physicalControlSession
  rw [h]

/-- An expansion keeps the invariant. -/
theorem CapacityInvariant.expand (h : CapacityInvariant host pid place controls s)
    (hplain : place.Plain host) {target : ℕ} {utc : String} {document : SizedPool} {report : CapacityReport}
    (hexpand : ensureForkPoolLogicalCapacity host place s.document target utc = .ok (document, report)) :
    CapacityInvariant host pid place controls (s.write document) := by
  obtain ⟨-, ⟨-, rfl⟩ | ⟨-, -, -, htopology, -, physical, hphysical, hcontrol, hdir, hsymlink, hpool⟩⟩ :=
    ensureForkPoolLogicalCapacity_ok hexpand
  · exact h
  change physical ∈ s.world.pool.sessions at hphysical
  change ∀ worker ∈ newWorkers s.world.pool.sessions.length target, _ at hsymlink
  change document.pool = s.world.pool.withSeats ((newWorkers s.world.pool.sessions.length target).map
    (place.logicalSeat s.world.pool.status physical)) utc at hpool
  have hvacant : ∀ item ∈ (newWorkers s.world.pool.sessions.length target).map
      (place.logicalSeat s.world.pool.status physical), item.status ≠ .busy ∧ item.lease = none := by
    intro item hitem
    obtain ⟨worker, -, rfl⟩ := List.mem_map.mp hitem
    exact logicalSeat_free _ physical worker
  have hdirs : (((newWorkers s.world.pool.sessions.length target).map
      (place.logicalSeat s.world.pool.status physical)).map fun item => host.resolve item.sessionDir).Nodup := by
    rw [List.map_map]
    refine (newWorkers_nodup _ _).map_on fun first hfirst second hsecond hsame => ?_
    exact hplain.injective (hsymlink first hfirst) (hsymlink second hsecond) hsame
  have hnew : ∀ item ∈ s.world.pool.sessions, ∀ seat ∈ (newWorkers s.world.pool.sessions.length target).map
      (place.logicalSeat s.world.pool.status physical),
      host.resolve item.sessionDir ≠ host.resolve seat.sessionDir := by
    intro item hitem seat hseat
    obtain ⟨worker, hworker, rfl⟩ := List.mem_map.mp hseat
    exact h.ahead item hitem worker (mem_newWorkers.mp hworker).1 (hsymlink worker hworker)
  have hworld := @WorldInvariant.append _ _ _ _ h.world _ utc (h.world.pool.append htopology hvacant hdirs hnew) hvacant
  rw [← hpool] at hworld
  refine ⟨hworld, ?_, ?_⟩
  · intro item hitem worker hworker hplainWorker
    change item ∈ document.pool.sessions at hitem
    change document.pool.sessions.length < worker at hworker
    rw [hpool, Pool.withSeats_sessions] at hitem hworker
    rw [List.length_append, List.length_map, newWorkers_length] at hworker
    rcases List.mem_append.mp hitem with hold | hadded
    · exact h.ahead item hold worker (by omega) hplainWorker
    · obtain ⟨other, hother, rfl⟩ := List.mem_map.mp hadded
      intro hsame
      have hequal := hplain.injective (hsymlink other hother) hplainWorker hsame
      have hbound := (mem_newWorkers.mp hother).2
      omega
  · intro item hitem
    change item ∈ document.pool.sessions at hitem
    rw [hpool, Pool.withSeats_sessions] at hitem
    rcases List.mem_append.mp hitem with hold | hadded
    · exact h.control item hold
    · obtain ⟨worker, -, rfl⟩ := List.mem_map.mp hadded
      rw [logicalSeat_control hcontrol hdir]
      exact h.control physical hphysical

variable [DecidableEq Owner]

/-- **The step lemma.** -/
theorem CapacityInvariant.step (h : CapacityInvariant host pid place controls s) (hplain : place.Plain host)
    {event : CapacityEvent Owner} (hstep : CapacityStep host pid place s event t) :
    CapacityInvariant host pid place controls t := by
  cases hstep with
  | @lease label after hstep =>
      have hseats := hstep.sameSeats h.world
      refine ⟨(Step.preserves h.world hstep).1, ?_, ?_⟩
      · intro item hitem worker hworker
        have hmem : item.sessionDir ∈ s.world.pool.sessions.map Seat.sessionDir := by
          rw [← hseats.dirs]
          exact List.mem_map_of_mem hitem
        obtain ⟨origin, horigin, hdir⟩ := List.mem_map.mp hmem
        have hlength := congrArg List.length hseats.dirs
        rw [List.length_map, List.length_map] at hlength
        rw [← hdir]
        exact h.ahead origin horigin worker (hlength ▸ hworker)
      · intro item hitem
        have hmem : controlIdentity item ∈ s.world.pool.sessions.map controlIdentity := by
          rw [← hseats.controls]
          exact List.mem_map_of_mem hitem
        obtain ⟨origin, horigin, hcontrol⟩ := List.mem_map.mp hmem
        rw [← physicalControlSession_congr hcontrol]
        exact h.control origin horigin
  | expand hexpand => exact h.expand hplain hexpand
  | refused hexpand => exact h

/-! ## Runs -/

omit [DecidableEq Owner] in
/-- A pool nobody has used yet, whose seats are not in the directories of logical seats to come. -/
structure CapacityWorld.Fresh (host : Host) (place : CapacityPlace) (s : CapacityWorld Owner) : Prop where
  world : s.world.Fresh host
  ahead : Ahead host place s.world.pool.sessions

theorem CapacityInvariant.run (hplain : place.Plain host) (hfresh : s.Fresh host place)
    {events : List (CapacityEvent Owner)} (hrun : Run (CapacityStep host pid place) s events t) :
    CapacityInvariant host pid place (s.world.pool.sessions.map (physicalControlSession host)) t :=
  hrun.preserves (fun _ _ _ h hstep => CapacityInvariant.step h hplain hstep)
    ⟨hfresh.world.invariant, hfresh.ahead, fun _ hitem => List.mem_map_of_mem hitem⟩

/-- **Capacity grows beside the leases.**  In every run of lease operations and expansions, in any
order: the lease invariants hold in every state; every seat is served by a control session that was
there at the start; and an expansion keeps every seat as it is, adds seats without a lease, and leaves
what the owners hold alone. -/
theorem capacity_grows_beside_leases (hplain : place.Plain host) (hfresh : s.Fresh host place)
    {events : List (CapacityEvent Owner)} (hrun : Run (CapacityStep host pid place) s events t) :
    WorldInvariant host pid t.world ∧
      (∀ item ∈ t.world.pool.sessions, ∃ origin ∈ s.world.pool.sessions,
        physicalControlSession host item = physicalControlSession host origin) ∧
      ∀ target answer u, CapacityStep host pid place t (.expand target answer) u →
        u.world.held = t.world.held ∧ ∃ added, u.world.pool.sessions = t.world.pool.sessions ++ added ∧
          ∀ item ∈ added, item.status ≠ .busy ∧ item.lease = none := by
  have h : CapacityInvariant host pid place _ t := .run hplain hfresh hrun
  refine ⟨h.world, fun item hitem => ?_, fun target answer u hstep => ?_⟩
  · obtain ⟨origin, horigin, hcontrol⟩ := List.mem_map.mp (h.control item hitem)
    exact ⟨origin, horigin, hcontrol.symm⟩
  · cases hstep with
    | refused hexpand => exact ⟨rfl, [], by simp, by simp⟩
    | @expand _ utc document report hexpand =>
        obtain ⟨-, ⟨-, rfl⟩ | ⟨-, -, -, -, -, physical, -, -, -, -, hpool⟩⟩ :=
          ensureForkPoolLogicalCapacity_ok hexpand
        · exact ⟨rfl, [], (List.append_nil _).symm, fun _ hitem => absurd hitem List.not_mem_nil⟩
        · refine ⟨rfl, _, congrArg Pool.sessions hpool, fun item hitem => ?_⟩
          obtain ⟨worker, -, rfl⟩ := List.mem_map.mp hitem
          exact logicalSeat_free _ physical worker

end

/-! ## One physical seat, two logical ones -/

/-- A seat of its own control session. -/
def soloSeat : Seat :=
  { aliasSeat "/pool/sessions/seat-1" with controlSessionDir := none }

/-- A pool of one physical seat. -/
def soloWorld : CapacityWorld ℕ where
  world :=
    { pool := { aliasPool .other with sessions := [soloSeat] }
      held := fun _ => none
      exited := fun _ => false }
  sizeRequested := none
  snapshotSizeRequested := none

/-- A pool directory without symbolic links. -/
def soloPlace : CapacityPlace where
  poolDir := "/pool"
  symlink := fun _ => false
  inside := fun _ => true

theorem soloPlace_plain : soloPlace.Plain plainHost where
  resolve worker _ := congrArg (· ++ toString worker) (by decide :
    "/pool" ++ "/sessions/logical-seat-" = "/pool" ++ "/sessions" ++ "/logical-seat-")

theorem soloWorld_fresh : soloWorld.Fresh plainHost soloPlace where
  world :=
    { dirs := List.nodup_singleton _
      vacant := by simp [soloWorld, soloSeat, aliasSeat]
      held := fun _ => rfl }
  ahead item hitem worker _ _ h := by
    obtain rfl := List.mem_singleton.mp hitem
    have hseventeenth := congrArg (fun text : String => text.toList[16]?) h
    simp [plainHost, soloPlace, soloSeat, aliasSeat, CapacityPlace.logicalSessionDir] at hseventeenth

/-- The document after an expansion to three seats. -/
def expandedSolo : SizedPool where
  pool := soloWorld.world.pool.withSeats ((newWorkers 1 3).map (soloPlace.logicalSeat .ready soloSeat)) "t0"
  sizeRequested := some 3
  snapshotSizeRequested := some 1

/-- Two owners take a seat each after the expansion; both seats are on the physical one. -/
theorem capacity_grows_beside_leases_solo : ∃ t : CapacityWorld ℕ,
    leaseIds t.world.pool = ["a", "b"] ∧ WorldInvariant plainHost Int.ofNat t.world ∧
      ∀ item ∈ t.world.pool.sessions,
        physicalControlSession plainHost item = .ok "/pool/sessions/seat-1" := by
  let expanded := soloWorld.write expandedSolo
  let first := expanded.world.receive 1 "a"
    (checkoutPoolSeatLocked plainHost expanded.world.pool (manualRequest "a" 1) quietContext)
  let second := first.receive 2 "b"
    (checkoutPoolSeatLocked plainHost first.pool (manualRequest "b" 2) quietContext)
  have hrun : Run (CapacityStep plainHost Int.ofNat soloPlace) soloWorld _ { expanded with world := second } :=
    .cons (@CapacityStep.expand _ _ _ _ _ soloWorld 3 "t0" expandedSolo ⟨true, 1, 3, 1⟩ rfl)
      (.cons (.lease (@Step.checkout _ _ _ _ _ 1 (manualRequest "a" 1) quietContext rfl rfl rfl
        fun _ _ _ => rfl)) (.cons (.lease (@Step.checkout _ _ _ _ _ 2 (manualRequest "b" 2) quietContext
          (by rfl) (by rfl) rfl fun _ _ _ => rfl)) (.nil _)))
  obtain ⟨hworld, hcontrols, -⟩ := capacity_grows_beside_leases soloPlace_plain soloWorld_fresh hrun
  refine ⟨_, by decide, hworld, fun item hitem => ?_⟩
  obtain ⟨origin, horigin, hsame⟩ := hcontrols item hitem
  obtain rfl := List.mem_singleton.mp horigin
  exact hsame

end Hearth.Pools
