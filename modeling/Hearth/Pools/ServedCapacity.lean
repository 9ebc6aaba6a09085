import Hearth.Pools.CapacityRuns

/-!
# A reported capacity is served

What an expansion answers is a promise: so many owners can hold a seat at once.  It is kept as long as
nobody quarantines the pool and every session answers its probe.  A checkout is then refused only when
every seat is leased to a process that is alive.

On such a pool the scan of a checkout is one `updateFirst`, as a release is; the rest is about that.
-/

namespace Hearth.Pools

open Hearth.Library

variable {Owner : Type} {host : Host} {pid : Owner → ℤ} {place : CapacityPlace}

/-! ## One pass over the seats -/

section

variable {found : Seat → Bool} {update : Seat → Seat} {sessions : List Seat}

theorem updateFirst_length : (updateFirst found update sessions).1.length = sessions.length := by
  induction sessions with
  | nil => rfl
  | cons head rest ih =>
      by_cases hfound : found head
      · simp [updateFirst, hfound]
      · simp [updateFirst, hfound, ih]

theorem updateFirst_isSome :
    (updateFirst found update sessions).2.isSome ↔ ∃ item ∈ sessions, found item := by
  induction sessions with
  | nil => simp [updateFirst]
  | cons head rest ih =>
      by_cases hfound : found head
      · simp [updateFirst, hfound]
      · simp [updateFirst, hfound, ih]

theorem updateFirst_eq_none (h : (updateFirst found update sessions).2 = none) :
    updateFirst found update sessions = (sessions, none) := by
  induction sessions with
  | nil => rfl
  | cons head rest ih =>
      by_cases hfound : found head
      · simp [updateFirst, hfound] at h
      · simp only [updateFirst, if_neg hfound] at h ⊢
        rw [ih h]

/-- Every seat afterwards is one from before, or an updated one. -/
theorem mem_updateFirst {item : Seat} (h : item ∈ (updateFirst found update sessions).1) :
    item ∈ sessions ∨ ∃ origin ∈ sessions, item = update origin := by
  cases hupdated : (updateFirst found update sessions).2 with
  | none =>
      rw [updateFirst_eq_none hupdated] at h
      exact .inl h
  | some updated =>
      obtain ⟨first, seat, last, hsessions, -, -, hafter⟩ := updateFirst_eq_some hupdated
      rw [hafter, List.mem_append, List.mem_cons] at h
      rw [hsessions]
      rcases h with hfirst | rfl | hlast
      · exact .inl (by simp [hfirst])
      · exact .inr ⟨seat, by simp, rfl⟩
      · exact .inl (by simp [hlast])

end

/-! ## Serving pools -/

/-- The seat is leased to a process that is alive. -/
def Seat.held (ownerAlive : ℤ → Bool) (item : Seat) : Bool :=
  (item.lease.bind Lease.ownerPid).any ownerAlive

/-- A seat that is free, or leased by a process; it has every preload of its pool. -/
def Seat.Serves (pool : Pool) (item : Seat) : Prop :=
  warmPoolMissingPreloads pool item = [] ∧ ((item.status = .idle ∧ item.lease = none) ∨
    (item.status = .busy ∧ ∃ lease ownerPid, item.lease = some lease ∧ lease.ownerPid = some ownerPid))

/-- A ready fork pool of such seats. -/
structure Serving (pool : Pool) : Prop where
  ready : pool.status = .ready
  engine : pool.engine = .forkBasis
  topology : pool.executionTopology = .other
  seats : ∀ item ∈ pool.sessions, item.Serves pool

variable {before after : Pool} {context : CheckoutContext} {lease : Lease}

theorem Seat.Serves.congr {item other : Seat} (h : item.Serves before)
    (hpreloads : after.preloads = before.preloads) (hloaded : other.loadedPreloads = item.loadedPreloads)
    (hstatus : other.status = item.status) (hlease : other.lease = item.lease) : other.Serves after := by
  unfold Seat.Serves at h ⊢
  unfold warmPoolMissingPreloads requiredPoolPreloads at h ⊢
  rw [hpreloads, hloaded, hstatus, hlease]
  exact h

/-- A serving seat that is put back serves. -/
theorem Seat.Serves.idle {item other : Seat} (h : item.Serves before)
    (hpreloads : after.preloads = before.preloads) (hloaded : other.loadedPreloads = item.loadedPreloads)
    (hstatus : other.status = .idle) (hlease : other.lease = none) : other.Serves after := by
  refine ⟨?_, .inl ⟨hstatus, hlease⟩⟩
  have hnone := h.1
  unfold warmPoolMissingPreloads requiredPoolPreloads at hnone ⊢
  rw [hpreloads, hloaded]
  exact hnone

theorem Seat.Serves.take {item : Seat} (h : item.Serves before) {ownerPid : ℤ}
    (hlease : lease.ownerPid = some ownerPid) : (takeSeat lease item).Serves before :=
  ⟨h.1, .inr ⟨rfl, lease, ownerPid, rfl, hlease⟩⟩

/-- A serving seat is free, or stale, or held. -/
theorem Seat.Serves.held_eq_false {item : Seat} (h : item.Serves before) {ownerAlive : ℤ → Bool} :
    item.held ownerAlive = false ↔ item.status = .idle ∨ item.stale ownerAlive := by
  rcases h.2 with ⟨hidle, hnone⟩ | ⟨hbusy, lease, ownerPid, hlease, hpid⟩
  · simp [Seat.held, hidle, hnone]
  · rw [Seat.stale_iff]
    simp [Seat.held, hbusy, hlease, hpid]

/-- `after` serves like `before`, on as many seats. -/
structure StillServes (before after : Pool) : Prop where
  serving : Serving after
  length : after.sessions.length = before.sessions.length

theorem StillServes.trans {last : Pool} (h : StillServes before after) (hlast : StillServes after last) :
    StillServes before last :=
  ⟨hlast.serving, hlast.length.trans h.length⟩

theorem Serving.persist (h : Serving before) (updatedUtc : String) :
    StillServes before (persist before updatedUtc) :=
  ⟨⟨h.ready, h.engine, h.topology, h.seats⟩, rfl⟩

/-- Other seats that serve, in the same pool. -/
theorem Serving.withSessions (h : Serving before) {sessions : List Seat}
    (hsessions : ∀ item ∈ sessions, item.Serves before) : Serving { before with sessions := sessions } :=
  ⟨h.ready, h.engine, h.topology, hsessions⟩

theorem Serving.reclaim (h : Serving before) (releasedUtc : String) (ownerAlive : ℤ → Bool) :
    StillServes before (reclaimStaleLeases before releasedUtc ownerAlive).1 := by
  refine ⟨⟨h.ready, h.engine, h.topology, fun item hitem => ?_⟩, List.length_map _⟩
  obtain ⟨origin, horigin, rfl⟩ := List.mem_map.mp hitem
  have hserves := h.seats origin horigin
  split
  · exact hserves.idle rfl rfl rfl rfl
  · exact hserves.congr rfl rfl rfl rfl

/-- Reclaim leaves a seat free exactly when one was free, or leased to nobody alive. -/
theorem exists_idle_reclaim (releasedUtc : String) (ownerAlive : ℤ → Bool) :
    (∃ item ∈ (reclaimStaleLeases before releasedUtc ownerAlive).1.sessions, item.status = .idle) ↔
      ∃ item ∈ before.sessions, item.status = .idle ∨ item.stale ownerAlive := by
  constructor
  · rintro ⟨item, hitem, hidle⟩
    obtain ⟨origin, horigin, rfl⟩ := List.mem_map.mp hitem
    split at hidle
    · rename_i hstale
      obtain ⟨row, hrow, -⟩ := List.mem_map.mp hstale.1
      obtain ⟨stale, hmem, hsome⟩ := mem_stalePoolLeases.mp hrow
      exact ⟨stale, hmem, .inr (Option.isSome_iff_exists.mpr ⟨row, hsome⟩)⟩
    · exact ⟨origin, horigin, .inl hidle⟩
  · rintro ⟨item, hitem, hfree⟩
    refine ⟨_, List.mem_map_of_mem hitem, ?_⟩
    split
    · rfl
    · rename_i hkept
      refine hfree.resolve_right fun hstale => hkept ⟨?_, (Seat.stale_iff.mp hstale).1⟩
      obtain ⟨row, hrow⟩ := Option.isSome_iff_exists.mp hstale
      rw [← (staleLease?_eq_some hrow).2.1]
      exact List.mem_map_of_mem (mem_stalePoolLeases.mpr ⟨item, hitem, hrow⟩)

theorem Seat.Serves.annotate {item : Seat} (h : item.Serves before) :
    (annotateSeat before item).Serves before ∧ (annotateSeat before item).status = item.status := by
  unfold annotateSeat
  simp only [h.1]
  exact ⟨h.congr rfl rfl rfl rfl, rfl⟩

theorem Serving.annotate (h : Serving before) :
    StillServes before (annotateWarmPoolBasisState before).1 := by
  refine ⟨h.withSessions fun item hitem => ?_, List.length_map _⟩
  obtain ⟨origin, horigin, rfl⟩ := List.mem_map.mp hitem
  exact (h.seats origin horigin).annotate.1

theorem Serving.exists_idle_annotate (h : Serving before) :
    (∃ item ∈ (annotateWarmPoolBasisState before).1.sessions, item.status = .idle) ↔
      ∃ item ∈ before.sessions, item.status = .idle := by
  constructor
  · rintro ⟨item, hitem, hidle⟩
    obtain ⟨origin, horigin, rfl⟩ := List.mem_map.mp hitem
    exact ⟨origin, horigin, (h.seats origin horigin).annotate.2.symm.trans hidle⟩
  · rintro ⟨item, hitem, hidle⟩
    exact ⟨_, List.mem_map_of_mem hitem, (h.seats item hitem).annotate.2.trans hidle⟩

/-! ## The checkout -/

/-- Where every seat has its preloads and its session is alive, the scan takes the first seat in the
wanted status. -/
theorem scanSeats_eq_updateFirst {blocked sessionAlive : Seat → Bool} (hblocked : ∀ item, blocked item = false)
    (halive : ∀ item, sessionAlive item = true) (wanted : SeatStatus) {sessions : List Seat}
    (hserves : ∀ item ∈ sessions, item.Serves before) :
    scanSeats before blocked sessionAlive lease wanted sessions =
      updateFirst (fun item => item.status = wanted) (takeSeat lease) sessions := by
  induction sessions with
  | nil => rfl
  | cons head rest ih =>
      have hrest := ih fun item hitem => hserves item (List.mem_cons_of_mem _ hitem)
      have hhead := (hserves head List.mem_cons_self).1
      by_cases hstatus : head.status = wanted
      · simp [scanSeats, updateFirst, hstatus, hblocked, halive, hhead]
      · simp [scanSeats, updateFirst, hstatus, hrest]

/-- The scan over the preferred statuses: no seat is dirty, so it is the pass over the idle seats. -/
theorem Serving.scanStatuses (h : Serving before) {blocked sessionAlive : Seat → Bool}
    (hblocked : ∀ item, blocked item = false) (halive : ∀ item, sessionAlive item = true)
    (allowDirty : Bool) :
    scanStatuses blocked sessionAlive lease before (preferredStatuses allowDirty) =
      let scanned := updateFirst (fun item => item.status = .idle) (takeSeat lease) before.sessions
      ({ before with sessions := scanned.1 }, scanned.2) := by
  have hscan : ∀ wanted, scanSeats before blocked sessionAlive lease wanted before.sessions =
      updateFirst (fun item => item.status = wanted) (takeSeat lease) before.sessions :=
    fun wanted => scanSeats_eq_updateFirst hblocked halive wanted h.seats
  have hdirty : (updateFirst (fun item => item.status = .dirty) (takeSeat lease) before.sessions).2 = none := by
    rw [← Option.not_isSome_iff_eq_none, updateFirst_isSome]
    rintro ⟨item, hitem, hfound⟩
    have hstatus : item.status = .dirty := of_decide_eq_true hfound
    rcases (h.seats item hitem).2 with ⟨hidle, -⟩ | ⟨hbusy, -⟩
    · exact SeatStatus.noConfusion (hidle.symm.trans hstatus)
    · exact SeatStatus.noConfusion (hbusy.symm.trans hstatus)
  cases hidle : (updateFirst (fun item => item.status = .idle) (takeSeat lease) before.sessions).2 with
  | some item => cases allowDirty <;> simp [preferredStatuses, Pools.scanStatuses, hscan, hidle]
  | none =>
      have hsame := updateFirst_eq_none hidle
      have hsame' := updateFirst_eq_none hdirty
      cases allowDirty <;> simp [preferredStatuses, Pools.scanStatuses, hscan, hsame, hsame']

/-- A checkout keeps the pool serving, and it succeeds exactly when some seat is free or stale. -/
theorem Serving.checkoutWarmPoolSeat (h : Serving before) (halive : ∀ item, context.sessionAlive item = true)
    {ownerPid : ℤ} (hlease : lease.ownerPid = some ownerPid) :
    StillServes before (checkoutWarmPoolSeat host before context lease).1 ∧
      ((∃ item, (checkoutWarmPoolSeat host before context lease).2 = .ok item) ↔
        ∃ item ∈ before.sessions, item.status = .idle ∨ item.stale context.ownerAlive) := by
  have hreclaimed := h.reclaim context.releasedUtc context.ownerAlive
  have hannotated := hreclaimed.serving.annotate
  have hfree := hreclaimed.serving.exists_idle_annotate
  rw [exists_idle_reclaim] at hfree
  rw [← hfree]
  unfold Pools.checkoutWarmPoolSeat
  rw [if_neg (not_not.mpr h.ready)]
  generalize hpool : (annotateWarmPoolBasisState (reclaimStaleLeases before context.releasedUtc
    context.ownerAlive).1).1 = annotated at hannotated hfree ⊢
  have hstill : StillServes before annotated := hreclaimed.trans hannotated
  have hlimit : brokerPoolAttemptLimit annotated = .ok none := by
    simp [brokerPoolAttemptLimit, hstill.serving.topology]
  have hcapacity : physicalBrokerCapacity host annotated = .ok none := by
    simp [physicalBrokerCapacity, hstill.serving.topology]
  simp only [hpool, hlimit, hcapacity, Option.any_none, Option.isSome_none, Bool.false_and,
    Bool.false_eq_true, if_false]
  rw [hstill.serving.scanStatuses (fun _ => rfl) halive]
  have hkept : StillServes before { annotated with
      sessions := (updateFirst (fun item => item.status = .idle) (takeSeat lease) annotated.sessions).1 } := by
    refine ⟨hstill.serving.withSessions fun item hitem => ?_, updateFirst_length.trans hstill.length⟩
    rcases mem_updateFirst hitem with hold | ⟨origin, horigin, rfl⟩
    · exact hstill.serving.seats item hold
    · exact (hstill.serving.seats origin horigin).take hlease
  have hsome : (updateFirst (fun item => item.status = .idle) (takeSeat lease) annotated.sessions).2.isSome ↔
      ∃ item ∈ annotated.sessions, item.status = .idle := by
    rw [updateFirst_isSome]
    simp
  rw [← hsome]
  cases htaken : (updateFirst (fun item => item.status = .idle) (takeSeat lease) annotated.sessions).2 with
  | some item => exact ⟨by simpa [htaken] using hkept, by simp⟩
  | none =>
      by_cases hrequired : requiredPoolPreloads { annotated with sessions := (updateFirst
          (fun item => item.status = .idle) (takeSeat lease) annotated.sessions).1 } ≠ []
      · simp only [if_pos hrequired]
        exact ⟨hkept, by simp⟩
      · simp only [if_neg hrequired]
        exact ⟨hkept, by simp⟩

/-- The locked checkout succeeds exactly when some seat is not held. -/
theorem Serving.checkout (h : Serving before) (request : CheckoutRequest)
    (halive : ∀ item, context.sessionAlive item = true) :
    StillServes before (checkoutPoolSeatLocked host before request context).1 ∧
      (request.leaseId ≠ some "" → request.selectedLeaseId ∉ leaseIds before →
        ((∃ item, (checkoutPoolSeatLocked host before request context).2 = .ok item) ↔
          before.sessions.countP (Seat.held context.ownerAlive) < before.sessions.length)) := by
  have hpid : request.lease.ownerPid = some request.ownerPid := rfl
  obtain ⟨hkept, hiff⟩ := @Serving.checkoutWarmPoolSeat host _ _ _ h halive _ hpid
  have hcount : (before.sessions.countP (Seat.held context.ownerAlive) < before.sessions.length) ↔
      ∃ item ∈ before.sessions, item.status = .idle ∨ item.stale context.ownerAlive := by
    have hlt : before.sessions.countP (Seat.held context.ownerAlive) < before.sessions.length ↔
        before.sessions.countP (Seat.held context.ownerAlive) ≠ before.sessions.length :=
      ⟨Nat.ne_of_lt, Nat.lt_of_le_of_ne List.countP_le_length⟩
    rw [hlt, ne_eq, List.countP_eq_length]
    constructor
    · intro hnotAll
      by_contra hnone
      refine hnotAll fun item hitem => ?_
      cases hheld : item.held context.ownerAlive with
      | true => rfl
      | false => exact absurd ⟨item, hitem, (h.seats item hitem).held_eq_false.mp hheld⟩ hnone
    · rintro ⟨item, hitem, hfree⟩ hall
      rw [← (h.seats item hitem).held_eq_false, hall item hitem] at hfree
      exact Bool.noConfusion hfree
  rw [hcount, ← hiff]
  unfold checkoutPoolSeatLocked
  by_cases hempty : request.leaseId = some ""
  · rw [if_pos hempty]
    exact ⟨⟨h, rfl⟩, fun hne => absurd hempty hne⟩
  rw [if_neg hempty]
  by_cases hcollision : before.sessions.any fun item =>
      item.lease.map Lease.leaseId = some request.selectedLeaseId
  · rw [if_pos hcollision]
    refine ⟨⟨h, rfl⟩, fun _ hfresh => absurd ?_ hfresh⟩
    obtain ⟨item, hitem, hid⟩ := List.any_eq_true.mp hcollision
    exact List.mem_filterMap.mpr ⟨item, hitem, of_decide_eq_true hid⟩
  rw [if_neg hcollision]
  simp only
  generalize Pools.checkoutWarmPoolSeat host before context request.lease = checkout at hkept hiff ⊢
  have hwritten := hkept.trans (hkept.serving.persist context.updatedUtc)
  cases hresult : checkout.2 with
  | ok item => exact ⟨hwritten, fun _ _ => by simp⟩
  | error error =>
      by_cases hraised : error.isCheckoutError
      · simp only [if_pos hraised]
        exact ⟨hwritten, fun _ _ => by simp⟩
      · simp only [if_neg hraised]
        exact ⟨⟨h, rfl⟩, fun _ _ => by simp⟩

/-! ## The other operations -/

/-- A seat given back serves again. -/
theorem Serving.release (h : Serving before) (session : String) (clean : Bool) (releasedUtc : String)
    (reason : Option String) (updatedUtc : String) :
    StillServes before (releasePoolSeatLocked host before session (returnedStatus clean) releasedUtc reason
      updatedUtc).1 := by
  have hseat : ∀ item ∈ before.sessions,
      (releaseSeat before (returnedStatus clean) releasedUtc reason item).Serves before := by
    intro item hitem
    unfold releaseSeat
    rw [if_neg (not_not.mpr h.ready)]
    exact (h.seats item hitem).idle rfl rfl (by cases clean <;> simp [returnedStatus, h.engine]) rfl
  unfold releasePoolSeatLocked persistUnlessRaised releaseWarmPoolSeat
  cases hupdated : (updateFirst (fun item => host.resolve item.sessionDir = host.resolve session)
      (releaseSeat before (returnedStatus clean) releasedUtc reason) before.sessions).2 with
  | none =>
      simp only [hupdated]
      exact ⟨h, rfl⟩
  | some item =>
      simp only [hupdated]
      refine ⟨⟨h.ready, h.engine, h.topology, fun item hitem => ?_⟩, updateFirst_length⟩
      rcases mem_updateFirst hitem with hold | ⟨origin, horigin, rfl⟩
      · exact h.seats item hold
      · exact hseat origin horigin

/-- An expansion keeps the pool serving; it answers no less than it was asked for, and no more than
there is. -/
theorem Serving.expand {before after : SizedPool} (h : Serving before.pool) {target : ℕ} {utc : String}
    {report : CapacityReport}
    (hexpand : ensureForkPoolLogicalCapacity host place before target utc = .ok (after, report)) :
    Serving after.pool ∧ before.pool.sessions.length ≤ after.pool.sessions.length := by
  obtain ⟨-, ⟨-, rfl⟩ | ⟨-, -, -, -, -, physical, hphysical, -, -, -, hpool⟩⟩ :=
    ensureForkPoolLogicalCapacity_ok hexpand
  · exact ⟨h, Nat.le_refl _⟩
  rw [hpool, Pool.withSeats_sessions, List.length_append]
  refine ⟨⟨h.ready, h.engine, h.topology, fun item hitem => ?_⟩, Nat.le_add_right _ _⟩
  rcases List.mem_append.mp hitem with hold | hadded
  · exact h.seats item hold
  · obtain ⟨worker, -, rfl⟩ := List.mem_map.mp hadded
    refine (h.seats physical hphysical).idle rfl rfl ?_ rfl
    unfold CapacityPlace.logicalSeat
    rw [h.ready]
    rfl

theorem ensureForkPoolLogicalCapacity_answer {before after : SizedPool} {target : ℕ} {utc : String}
    {report : CapacityReport} (htopology : before.pool.executionTopology = .other)
    (hexpand : ensureForkPoolLogicalCapacity host place before target utc = .ok (after, report)) :
    target ≤ report.effectiveCapacity ∧ report.effectiveCapacity ≤ after.pool.sessions.length := by
  obtain ⟨-, ⟨hsame, rfl⟩ | ⟨-, -, -, -, heffective, physical, -, -, -, -, hpool⟩⟩ :=
    ensureForkPoolLogicalCapacity_ok hexpand
  · have hcapacity : physicalBrokerCapacity host after.pool = .ok none := by
      simp [physicalBrokerCapacity, htopology]
    unfold ensureForkPoolLogicalCapacity at hexpand
    simp only [hcapacity] at hexpand
    split_ifs at hexpand with hzero hengine hstatus hempty hroom
    · cases hexpand
      exact ⟨Nat.le_min.mpr ⟨hroom.2, hroom.1⟩, Nat.min_le_right _ _⟩
    · cases hphysical : physicalSession after.pool.sessions with
      | none => rw [hphysical] at hexpand; cases hexpand
      | some physical =>
          rw [hphysical] at hexpand
          simp only at hexpand
          split_ifs at hexpand
          split at hexpand
          · cases hexpand
          · injection hexpand with hpair
            rw [← (Prod.mk.inj hpair).2] at hsame
            cases hsame
  · rw [heffective, hpool, Pool.withSeats_sessions, List.length_append, List.length_map, newWorkers_length]
    omega

/-! ## Runs -/

/-- No quarantine, and every session answers. -/
def CapacityEvent.Served : CapacityEvent Owner → Prop
  | .lease (.checkout _ _ context, _) => ∀ item, context.sessionAlive item = true
  | .lease (operation, _) => operation.isQuarantine = false
  | .expand _ _ => True

variable [DecidableEq Owner] {s t : CapacityWorld Owner}

/-- **The step lemma.** -/
theorem CapacityStep.serves (h : Serving s.world.pool) {event : CapacityEvent Owner} (hevent : event.Served)
    (hstep : CapacityStep host pid place s event t) :
    Serving t.world.pool ∧ s.world.pool.sessions.length ≤ t.world.pool.sessions.length := by
  cases hstep with
  | expand hexpand => exact h.expand hexpand
  | refused hexpand => exact ⟨h, Nat.le_refl _⟩
  | @lease label after hstep =>
      have hstill : StillServes s.world.pool after.pool := by
        cases hstep with
        | @checkout owner request context hlive hheld hpid htruthful =>
            rw [receive_pool]
            exact (h.checkout request hevent).1
        | @reclaim releasedUtc _ ownerAlive htruthful =>
            have hreclaimed := h.reclaim releasedUtc ownerAlive
            exact hreclaimed.trans (hreclaimed.serving.persist _)
        | release hlive hheld =>
            rw [giveBack_pool]
            exact h.release _ _ _ _ _
        | quarantine hlive hheld => exact Bool.noConfusion hevent
        | quarantineLease hlive hheld => exact Bool.noConfusion hevent
        | exit hlive => exact ⟨h, rfl⟩
      exact ⟨hstill.serving, Nat.le_of_eq hstill.length.symm⟩

/-- The run lemma. -/
theorem serves_of_run {events : List (CapacityEvent Owner)} (hevents : ∀ event ∈ events, event.Served)
    (hrun : Run (CapacityStep host pid place) s events t) (h : Serving s.world.pool) :
    Serving t.world.pool ∧ s.world.pool.sessions.length ≤ t.world.pool.sessions.length := by
  induction hrun with
  | nil s => exact ⟨h, Nat.le_refl _⟩
  | cons hstep _ ih =>
      obtain ⟨hserving, hlength⟩ := hstep.serves h (hevents _ List.mem_cons_self)
      obtain ⟨hlast, hlength'⟩ := ih (fun event hevent => hevents event (List.mem_cons_of_mem _ hevent)) hserving
      exact ⟨hlast, Nat.le_trans hlength hlength'⟩

theorem soloWorld_serving : Serving soloWorld.world.pool where
  ready := rfl
  engine := rfl
  topology := rfl
  seats item hitem := by
    obtain rfl := List.mem_singleton.mp hitem
    exact ⟨rfl, .inl ⟨rfl, rfl⟩⟩

/-- Owner 1 has taken a seat of the expanded pool. -/
def takenSolo : CapacityWorld ℕ :=
  let expanded := soloWorld.write expandedSolo
  let result := checkoutPoolSeatLocked plainHost expanded.world.pool (manualRequest "a" 1) quietContext
  { expanded with world := expanded.world.receive 1 "a" result }

end Hearth.Pools
