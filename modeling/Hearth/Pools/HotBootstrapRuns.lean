import Hearth.Pools.HotBootstrap
import Hearth.Pools.SeatIdentity

/-!
# The hot bootstrap settles its lease

What the call holds is told by three descriptions (`Vacant`, `Holds`, `Astray`), one of which is
true at every point in front of the finalization.  With the invariant of the pool the lease of the
call has exactly one row, so it is found again by its id, and its finalization is the release or the
quarantine of its seat, which leaves the seats of the other live owners alone.
-/

namespace Hearth.Pools

open Hearth.Library

variable {Owner : Type} {host : Host} {pid : Owner → ℤ} {call : HotCall Owner}

/-! ## What other owners do -/

section

variable [DecidableEq Owner] {world after : World Owner}

/-- Another owner's step leaves what `owner` holds alone. -/
theorem Step.held_other {label : Op Owner × Outcome} {owner : Owner}
    (hstep : Step host pid world label after) (hother : label.1.actor ≠ some owner) :
    after.held owner = world.held owner ∧ after.exited owner = world.exited owner := by
  have hne : ∀ {actor : Owner}, some actor ≠ some owner → owner ≠ actor :=
    fun hactor heq => hactor (congrArg some heq.symm)
  cases hstep with
  | checkout =>
      unfold World.receive
      split
      · exact ⟨Function.update_of_ne (hne hother) _ _, rfl⟩
      · exact ⟨rfl, rfl⟩
  | reclaim => exact ⟨rfl, rfl⟩
  | release | quarantine | quarantineLease =>
      unfold World.giveBack
      split
      · exact ⟨Function.update_of_ne (hne hother) _ _, rfl⟩
      · exact ⟨rfl, rfl⟩
  | exit => exact ⟨rfl, Function.update_of_ne (hne hother) _ _⟩

/-- What somebody holds behind a step was held before, or was asked for in it. -/
theorem Step.held_origin {label : Op Owner × Outcome} {owner : Owner} {holding : Holding}
    (hstep : Step host pid world label after) (hheld : after.held owner = some holding) :
    world.held owner = some holding ∨ ∃ request context, label.1 = .checkout owner request context ∧
      request.selectedLeaseId = holding.leaseId := by
  cases hstep with
  | @checkout actor request context =>
      unfold World.receive at hheld
      split at hheld
      · by_cases hsame : owner = actor
        · subst hsame
          simp only [Function.update_self, Option.some.injEq] at hheld
          exact .inr ⟨request, context, rfl, by rw [← hheld]⟩
        · simp only [Function.update_of_ne hsame] at hheld
          exact .inl hheld
      · exact .inl hheld
  | reclaim => exact .inl hheld
  | @release actor | @quarantine actor | @quarantineLease actor =>
      unfold World.giveBack at hheld
      split at hheld
      · by_cases hsame : owner = actor
        · subst hsame
          simp at hheld
        · simp only [Function.update_of_ne hsame] at hheld
          exact .inl hheld
      · exact .inl hheld
  | exit => exact .inl hheld

end

/-! ## The lease of the call -/

theorem eq_singleton_of_nodup {α : Type} {list : List α} {one : α} (hnodup : list.Nodup) (hmem : one ∈ list)
    (honly : ∀ other ∈ list, other = one) : list = [one] := by
  cases list with
  | nil => cases hmem
  | cons first rest =>
      have hfirst : first = one := honly first (.head _)
      have hrest : rest = [] := by
        refine List.eq_nil_iff_forall_not_mem.mpr fun other hother => ?_
        rw [honly other (.tail _ hother), ← hfirst] at hother
        exact (List.nodup_cons.mp hnodup).1 hother
      rw [hfirst, hrest]

theorem PoolInvariant.sessions_nodup {pool : Pool} (h : PoolInvariant host pool) : pool.sessions.Nodup :=
  List.Nodup.of_map _ h.dirs

theorem exists_updateFirst (found : Seat → Bool) (update : Seat → Seat) {sessions : List Seat} {item : Seat}
    (hmem : item ∈ sessions) (hfound : found item = true) :
    ∃ updated, (updateFirst found update sessions).2 = some updated := by
  induction sessions with
  | nil => cases hmem
  | cons first rest ih =>
      unfold updateFirst
      by_cases hfirst : found first = true
      · rw [if_pos hfirst]
        exact ⟨_, rfl⟩
      · rw [if_neg hfirst]
        rcases List.mem_cons.mp hmem with rfl | hrest
        · exact absurd hfound hfirst
        · exact ih hrest

/-- What is known of the call and its pool. -/
structure CallWorld (host : Host) (pid : Owner → ℤ) (call : HotCall Owner) (world : World Owner) : Prop where
  invariant : WorldInvariant host pid world
  engine : world.pool.engine = .forkBasis
  dirs : ∀ dir ∈ world.pool.sessions.map Seat.sessionDir, dir ≠ ""
  live : world.exited call.owner = false
  mine : ∀ holding, world.held call.owner = some holding → holding.leaseId = call.leaseId
  others : ∀ owner, owner ≠ call.owner → ∀ holding, world.held owner = some holding →
    holding.leaseId ≠ call.leaseId

namespace CallWorld

variable {world : World Owner} {holding : Holding}

/-- The one row of the lease. -/
theorem leaseMatches_eq (h : CallWorld host pid call world) (hheld : world.held call.owner = some holding) :
    ∃ item, leaseMatches world.pool call.leaseId = [item] ∧ item.sessionDir = holding.sessionDir ∧
      item ∈ world.pool.sessions := by
  obtain ⟨item, hmem, hdir, lease, hlease, hid, -⟩ := h.invariant.live call.owner holding h.live hheld
  have hleaseId : item.lease.map Lease.leaseId = some call.leaseId := by
    rw [hlease, Option.map_some, hid, h.mine holding hheld]
  refine ⟨item, ?_, hdir, hmem⟩
  refine eq_singleton_of_nodup (h.invariant.pool.sessions_nodup.filter _)
    (List.mem_filter.mpr ⟨hmem, by simpa using hleaseId⟩) fun other hother => ?_
  obtain ⟨hmem', hid'⟩ := List.mem_filter.mp hother
  exact h.invariant.pool.eq_of_leaseId hmem' hmem (by simpa using hid') hleaseId

/-- Nobody but the call has its lease id. -/
theorem leaseMatches_nil (h : CallWorld host pid call world) (hheld : world.held call.owner = none) :
    leaseMatches world.pool call.leaseId = [] := by
  refine List.filter_eq_nil_iff.mpr fun item hmem hid => ?_
  simp only [decide_eq_true_eq, Option.map_eq_some_iff] at hid
  obtain ⟨lease, hlease, hleaseId⟩ := hid
  obtain ⟨owner, howner⟩ := h.invariant.holder item hmem lease hlease
  by_cases hsame : owner = call.owner
  · rw [hsame, hheld] at howner
    cases howner
  · exact h.others owner hsame _ howner hleaseId

theorem sameSession_eq (h : CallWorld host pid call world) {item : Seat} (hmem : item ∈ world.pool.sessions) :
    sameSession host world.pool item.sessionDir = [item] := by
  refine eq_singleton_of_nodup (h.invariant.pool.sessions_nodup.filter _) (List.mem_filter.mpr ⟨hmem, ?_⟩) ?_
  · simpa using h.dirs _ (List.mem_map_of_mem hmem)
  · intro other hother
    obtain ⟨hmem', hsame⟩ := List.mem_filter.mp hother
    simp only [ne_eq, decide_eq_true_eq] at hsame
    exact h.invariant.pool.eq_of_resolve hmem' hmem hsame.2

/-- A lease whose seat the call does not know is found again by its id. -/
theorem sessionForLease_eq (h : CallWorld host pid call world) (hheld : world.held call.owner = some holding)
    (reason utc updatedUtc : String) :
    sessionForLease world.pool call.leaseId reason utc updatedUtc = (world.pool, .ok (some holding.sessionDir)) := by
  obtain ⟨item, hmatches, hdir, hmem⟩ := h.leaseMatches_eq hheld
  unfold sessionForLease
  rw [hmatches]
  change (if item.sessionDir ≠ "" then _ else _) = _
  rw [if_pos (h.dirs _ (List.mem_map_of_mem hmem)), hdir]

theorem sessionForLease_none (h : CallWorld host pid call world) (hheld : world.held call.owner = none)
    (reason utc updatedUtc : String) :
    sessionForLease world.pool call.leaseId reason utc updatedUtc = (world.pool, .ok none) := by
  unfold sessionForLease
  rw [h.leaseMatches_nil hheld]

/-- `_finalize_lease` gives back the seat of the call. -/
theorem finalizeLease_eq (h : CallWorld host pid call world) (hheld : world.held call.owner = some holding)
    (reusable : Bool) (reason utc updatedUtc : String) :
    finalizeLease host world.pool call.leaseId reusable reason utc updatedUtc =
      ((finalizeForkPoolSeatLocked host world.pool holding.sessionDir reusable reason utc updatedUtc).1,
        (finalizeForkPoolSeatLocked host world.pool holding.sessionDir reusable reason utc
          updatedUtc).2.mapError .pool) := by
  obtain ⟨item, hmatches, hdir, hmem⟩ := h.leaseMatches_eq hheld
  have hone : item.sessionDir ≠ "" ∧ (sameSession host world.pool item.sessionDir).length = 1 := by
    rw [h.sameSession_eq hmem]
    exact ⟨h.dirs _ (List.mem_map_of_mem hmem), rfl⟩
  unfold finalizeLease
  rw [hmatches]
  change (if item.sessionDir ≠ "" ∧ (sameSession host world.pool item.sessionDir).length = 1 then _ else _) = _
  rw [if_pos hone, hdir]

/-- The finalization of a seat that is held does not raise. -/
theorem finalize_ok (h : CallWorld host pid call world) (hheld : world.held call.owner = some holding)
    (reusable : Bool) (reason utc updatedUtc : String) :
    ∃ item, (finalizeForkPoolSeatLocked host world.pool holding.sessionDir reusable reason utc
      updatedUtc).2 = .ok item := by
  obtain ⟨item, hmem, hdir, -⟩ := h.invariant.live call.owner holding h.live hheld
  have hfound : (fun other : Seat => decide (host.resolve other.sessionDir = host.resolve holding.sessionDir))
      item = true := by
    simp [hdir]
  unfold finalizeForkPoolSeatLocked
  cases reusable with
  | true =>
      obtain ⟨updated, hupdated⟩ := exists_updateFirst
        (fun other => decide (host.resolve other.sessionDir = host.resolve holding.sessionDir))
        (releaseSeat world.pool .idle utc (some reason)) hmem hfound
      refine ⟨updated, ?_⟩
      simp [releasePoolSeatLocked, releaseWarmPoolSeat, persistUnlessRaised, hupdated]
  | false =>
      have hreleased : item ∈ world.pool.sessions.filter
          fun other => decide (host.resolve other.sessionDir = host.resolve holding.sessionDir) :=
        List.mem_filter.mpr ⟨hmem, hfound⟩
      obtain ⟨last, hlast⟩ : ∃ last, (world.pool.sessions.filter
          fun other => decide (host.resolve other.sessionDir = host.resolve holding.sessionDir)).getLast? =
          some last := by
        exact ⟨_, List.getLast?_eq_some_getLast (List.ne_nil_of_mem hreleased)⟩
      simp [quarantineForkBasisLocked, quarantineForkBasisPool, h.engine, quarantinePool,
        persistUnlessRaised, hlast]

end CallWorld

/-! ## What the call holds -/

/-- Nothing was persisted. -/
def Vacant (call : HotCall Owner) (s : HotState Owner) : Prop :=
  s.world.held call.owner = none ∧ s.session = none ∧ s.persisted = false

/-- The call knows the seat that is leased to it. -/
def Holds (call : HotCall Owner) (s : HotState Owner) : Prop :=
  (∃ holding, s.world.held call.owner = some holding ∧ s.session = some holding.sessionDir) ∧
    s.persisted = true ∧ s.mayHavePersisted = true

/-- The lease was persisted, and checkout did not return. -/
def Astray (call : HotCall Owner) (s : HotState Owner) : Prop :=
  (∃ holding, s.world.held call.owner = some holding) ∧ s.session = none ∧ s.persisted = true ∧
    s.mayHavePersisted = true

/-- The lease is settled, or was lost. -/
def Over (call : HotCall Owner) (s : HotState Owner) : Prop :=
  (s.lost = true ∧ s.settled = []) ∨
    (s.lost = false ∧ s.world.held call.owner = none ∧ s.settled.length = if s.persisted then 1 else 0)

/-- Nothing has been done about the lease. -/
def Unsettled (s : HotState Owner) : Prop :=
  s.settled = [] ∧ s.lost = false

/-- What holds where the call is. -/
def PointFacts (call : HotCall Owner) (s : HotState Owner) : HotPoint → Prop
  | .entering | .deferring | .checkingOut =>
      Unsettled s ∧ Vacant call s ∧ s.mayHavePersisted = true ∧ s.requestStarted = false
  | .arming => Unsettled s ∧ Holds call s ∧ s.requestStarted = false
  | .reading => Unsettled s ∧ Holds call s
  | .requesting | .probing => Unsettled s ∧ Holds call s ∧ s.requestStarted = true
  | .closing | .guarded | .settling => Unsettled s ∧ (Vacant call s ∨ Holds call s ∨ Astray call s)
  | .deciding => Unsettled s ∧ (Vacant call s ∨ Holds call s)
  | .finalizing reusable => Unsettled s ∧ Holds call s ∧ (reusable = true → s.Quiet)
  | .leaving | .ended => Over call s

/-- What holds in every state of a run. -/
structure HotFacts (host : Host) (pid : Owner → ℤ) (call : HotCall Owner) (s : HotState Owner) : Prop where
  world : CallWorld host pid call s.world
  child : s.child ≠ .unborn → s.dispatched = true
  request : s.dispatched = true → s.requestStarted = true
  response : s.response = some true → s.child = .gone
  seats : ∀ reusable ∈ s.settled, if reusable then s.Quiet else s.world.pool.status = .poisoned
  point : PointFacts call s s.point

/-! ## The steps -/

section

variable {s t : HotState Owner} {after : World Owner}

theorem Vacant.of_held (h : Vacant call s) (hheld : after.held call.owner = s.world.held call.owner) :
    Vacant call { s with world := after } :=
  ⟨hheld.trans h.1, h.2⟩

theorem Holds.of_held (h : Holds call s) (hheld : after.held call.owner = s.world.held call.owner) :
    Holds call { s with world := after } := by
  obtain ⟨⟨holding, hholding, hsession⟩, hrest⟩ := h
  exact ⟨⟨holding, hheld.trans hholding, hsession⟩, hrest⟩

theorem Astray.of_held (h : Astray call s) (hheld : after.held call.owner = s.world.held call.owner) :
    Astray call { s with world := after } := by
  obtain ⟨⟨holding, hholding⟩, hrest⟩ := h
  exact ⟨⟨holding, hheld.trans hholding⟩, hrest⟩

/-- What another owner does to the pool changes nothing of what the call holds. -/
theorem PointFacts.of_held {point : HotPoint} (h : PointFacts call s point)
    (hheld : after.held call.owner = s.world.held call.owner) :
    PointFacts call { s with world := after } point := by
  cases point with
  | entering | deferring | checkingOut => exact ⟨h.1, h.2.1.of_held hheld, h.2.2⟩
  | arming | requesting | probing => exact ⟨h.1, h.2.1.of_held hheld, h.2.2⟩
  | reading => exact ⟨h.1, h.2.of_held hheld⟩
  | closing | guarded | settling =>
      exact ⟨h.1, h.2.imp (·.of_held hheld) (Or.imp (·.of_held hheld) (·.of_held hheld))⟩
  | deciding => exact ⟨h.1, h.2.imp (·.of_held hheld) (·.of_held hheld)⟩
  | finalizing reusable => exact ⟨h.1, h.2.1.of_held hheld, h.2.2⟩
  | leaving | ended => exact h.imp id fun hover => ⟨hover.1, hheld.trans hover.2.1, hover.2.2⟩

/-- What the child does changes nothing of what the call holds. -/
theorem PointFacts.of_child {point : HotPoint} (h : PointFacts call s point) (child : HotChild)
    (hquiet : s.Quiet → HotState.Quiet { s with child }) : PointFacts call { s with child } point := by
  cases point with
  | finalizing reusable => exact ⟨h.1, h.2.1, fun hreusable => hquiet (h.2.2 hreusable)⟩
  | entering | deferring | checkingOut | arming | reading | requesting | closing | guarded | settling
  | deciding | probing | leaving | ended => exact h

variable [DecidableEq Owner]

namespace CallWorld

/-- A step of another owner keeps what is known of the call and its pool. -/
theorem other {world : World Owner} (h : CallWorld host pid call world) {label : Op Owner × Outcome}
    (hstep : Step host pid world label after) (hother : label.1.actor ≠ some call.owner)
    (hfresh : ∀ owner request context, label.1 = .checkout owner request context →
      request.selectedLeaseId ≠ call.leaseId) : CallWorld host pid call after := by
  obtain ⟨hheld, hexited⟩ := hstep.held_other hother
  have hseats := hstep.sameSeats h.invariant
  refine ⟨(Step.preserves h.invariant hstep).1, hseats.engine h.engine, ?_, hexited.trans h.live, ?_, ?_⟩
  · rw [hseats.dirs]
    exact h.dirs
  · rw [hheld]
    exact h.mine
  · intro owner howner holding hholding
    rcases hstep.held_origin hholding with hold | ⟨request, context, hlabel, hid⟩
    · exact h.others owner howner holding hold
    · exact hid ▸ hfresh owner request context hlabel

/-- The checkout of the call. -/
theorem checkout {world : World Owner} (h : CallWorld host pid call world)
    (hheld : world.held call.owner = none) {request : CheckoutRequest} (hasks : call.Asks pid request)
    {context : CheckoutContext} (htruthful : world.truthful pid context.ownerAlive) :
    CallWorld host pid call
      (world.receive call.owner call.leaseId (checkoutPoolSeatLocked host world.pool request context)) := by
  have hid : request.selectedLeaseId = call.leaseId := by
    unfold CheckoutRequest.selectedLeaseId
    rw [hasks.leaseId]
    rfl
  have hstep := @Step.checkout _ _ host pid world call.owner request context h.live hheld hasks.ownerPid htruthful
  rw [hid] at hstep
  have hseats := hstep.sameSeats h.invariant
  have hexited : (world.receive call.owner call.leaseId
      (checkoutPoolSeatLocked host world.pool request context)).exited = world.exited := by
    unfold World.receive
    split <;> rfl
  refine ⟨(Step.preserves h.invariant hstep).1, hseats.engine h.engine, ?_, ?_, ?_, ?_⟩
  · rw [hseats.dirs]
    exact h.dirs
  · rw [hexited]
    exact h.live
  · intro holding hholding
    rcases hstep.held_origin hholding with hold | ⟨other, otherContext, hlabel, hother⟩
    · exact h.mine holding hold
    · cases hlabel
      rw [← hother, hid]
  · intro owner howner holding hholding
    rcases hstep.held_origin hholding with hold | ⟨other, otherContext, hlabel, hother⟩
    · exact h.others owner howner holding hold
    · cases hlabel
      exact absurd rfl howner

/-- The finalization of the call is a release or a quarantine by its owner; a seat that is not given
back as reusable poisons the generation. -/
theorem finalize {world : World Owner} (h : CallWorld host pid call world) {holding : Holding}
    (hheld : world.held call.owner = some holding) (reusable : Bool) (reason utc updatedUtc : String) :
    ∃ item, (finalizeLease host world.pool call.leaseId reusable reason utc updatedUtc).2 = .ok item ∧
      CallWorld host pid call
        { world with
          pool := (finalizeLease host world.pool call.leaseId reusable reason utc updatedUtc).1
          held := Function.update world.held call.owner none } ∧
      (reusable = false →
        (finalizeLease host world.pool call.leaseId reusable reason utc updatedUtc).1.status = .poisoned) := by
  obtain ⟨item, hok⟩ := h.finalize_ok hheld reusable reason utc updatedUtc
  rw [h.finalizeLease_eq hheld]
  refine ⟨item, by rw [hok]; rfl, ?_⟩
  have hgiven : ∃ label, Step host pid world label
      (world.giveBack call.owner (finalizeForkPoolSeatLocked host world.pool holding.sessionDir reusable reason
        utc updatedUtc)) := by
    unfold finalizeForkPoolSeatLocked
    cases reusable with
    | true => exact ⟨_, @Step.release _ _ host pid world call.owner holding true utc updatedUtc (some reason)
        h.live hheld⟩
    | false => exact ⟨_, @Step.quarantine _ _ host pid world call.owner holding reason utc updatedUtc h.live hheld⟩
  obtain ⟨label, hstep⟩ := hgiven
  have hseats := hstep.sameSeats h.invariant
  have hinvariant := (Step.preserves h.invariant hstep).1
  rw [giveBack_pool] at hseats
  simp only [World.giveBack, hok] at hinvariant
  refine ⟨⟨hinvariant, hseats.engine h.engine, ?_, h.live, ?_, ?_⟩, fun hreusable => ?_⟩
  · rw [hseats.dirs]
    exact h.dirs
  · intro holding' hholding'
    simp at hholding'
  · intro owner howner holding' hholding'
    simp only [Function.update_of_ne howner] at hholding'
    exact h.others owner howner holding' hholding'
  · subst hreusable
    exact (quarantineForkBasisLocked_ok hok).status

end CallWorld

namespace HotFacts

omit [DecidableEq Owner] in
theorem goTo (h : HotFacts host pid call s) {point : HotPoint} (hpoint : PointFacts call s point) :
    HotFacts host pid call (s.goTo point) :=
  ⟨h.world, h.child, h.request, h.response, h.seats, hpoint⟩

theorem other (h : HotFacts host pid call s) {label : Op Owner × Outcome}
    (hstep : Step host pid s.world label after) (hother : label.1.actor ≠ some call.owner)
    (hfresh : ∀ owner request context, label.1 = .checkout owner request context →
      request.selectedLeaseId ≠ call.leaseId) : HotFacts host pid call { s with world := after } := by
  refine ⟨h.world.other hstep hother hfresh, h.child, h.request, h.response, fun reusable hmem => ?_,
    h.point.of_held (hstep.held_other hother).1⟩
  have hseat := h.seats reusable hmem
  cases reusable with
  | true => exact hseat
  | false => exact (Step.poisoned hseat hstep).1

omit [DecidableEq Owner] in
/-- The lease is not settled where a signal raises. -/
theorem signalled (h : HotFacts host pid call s) : HotFacts host pid call s.signalled := by
  have hpoint := h.point
  unfold HotState.signalled
  by_cases hlatched : s.latched = true
  · rw [if_pos hlatched]
    exact h
  rw [if_neg hlatched]
  by_cases hdeferred : s.deferred = true
  · rw [if_pos hdeferred]
    exact ⟨h.world, h.child, h.request, h.response, h.seats, h.point⟩
  rw [if_neg hdeferred]
  cases hs : s.point with
  | entering =>
      rw [hs] at hpoint
      obtain ⟨⟨hsettled, hlost⟩, ⟨hheld, -, hpersisted⟩, -⟩ := hpoint
      refine ⟨h.world, h.child, h.request, h.response, h.seats, .inr ⟨hlost, hheld, ?_⟩⟩
      simp only [hsettled, hpersisted]
      rfl
  | deferring =>
      rw [hs] at hpoint
      exact ⟨h.world, h.child, h.request, h.response, h.seats, hpoint.1, .inl hpoint.2.1⟩
  | arming | reading | requesting =>
      rw [hs] at hpoint
      obtain ⟨hunsettled, hholds⟩ := hpoint
      refine ⟨h.world, h.child, h.request, h.response, h.seats, ?_⟩
      first
        | exact ⟨hunsettled, .inr (.inl hholds)⟩
        | exact ⟨hunsettled, .inr (.inl hholds.1)⟩
  | guarded =>
      rw [hs] at hpoint
      exact ⟨h.world, h.child, h.request, h.response, h.seats, hpoint⟩
  | closing =>
      rw [hs] at hpoint
      exact ⟨h.world, h.child, h.request, h.response, h.seats, .inl ⟨rfl, hpoint.1.1⟩⟩
  | checkingOut | settling | deciding | probing | finalizing reusable | leaving | ended =>
      rw [hs] at hpoint
      exact ⟨h.world, h.child, h.request, h.response, h.seats, hpoint⟩

/-- What the call knows behind its checkout, whether or not it returned. -/
theorem checkedOut (h : HotFacts host pid call s) (hpoint : s.point = .checkingOut)
    {request : CheckoutRequest} (hasks : call.Asks pid request) {context : CheckoutContext}
    (htruthful : s.world.truthful pid context.ownerAlive) (returned : Bool) :
    HotFacts host pid call
      (s.checkedOut call (checkoutPoolSeatLocked host s.world.pool request context) returned) := by
  have hfacts := h.point
  rw [hpoint] at hfacts
  obtain ⟨hunsettled, ⟨hheld, hsession, hpersisted⟩, hmay, hstarted⟩ := hfacts
  have hworld := h.world.checkout hheld hasks htruthful
  have hseats : ∀ status : Pool, ∀ reusable ∈ s.settled,
      if reusable then s.Quiet else status.status = .poisoned := by
    intro status reusable hmem
    rw [hunsettled.1] at hmem
    cases hmem
  generalize checkoutPoolSeatLocked host s.world.pool request context = result at hworld ⊢
  unfold HotState.checkedOut
  unfold World.receive at hworld ⊢
  cases hresult : result.2 with
  | ok item =>
      simp only [hresult] at hworld ⊢
      have htaken : Function.update s.world.held call.owner (some ⟨item.sessionDir, call.leaseId⟩) call.owner =
          some ⟨item.sessionDir, call.leaseId⟩ := Function.update_self _ _ _
      cases returned with
      | true =>
          exact ⟨hworld, h.child, h.request, h.response, hseats _, hunsettled,
            ⟨⟨_, htaken, rfl⟩, rfl, hmay⟩, hstarted⟩
      | false =>
          exact ⟨hworld, h.child, h.request, h.response, hseats _, hunsettled,
            .inr (.inr ⟨⟨_, htaken⟩, hsession, rfl, hmay⟩)⟩
  | error error =>
      simp only [hresult] at hworld ⊢
      cases error with
      | _ =>
          exact ⟨hworld, h.child, h.request, h.response, hseats _, hunsettled,
            .inl ⟨hheld, hsession, hpersisted⟩⟩

omit [DecidableEq Owner] in
/-- A signal that was noted while it was deferred raises in `arm`. -/
theorem armed (h : HotFacts host pid call s) (hpoint : s.point = .arming) : HotFacts host pid call s.armed := by
  have hfacts := h.point
  rw [hpoint] at hfacts
  obtain ⟨hunsettled, hholds, -⟩ := hfacts
  unfold HotState.armed
  split
  · exact ⟨h.world, h.child, h.request, h.response, h.seats, hunsettled, .inr (.inl hholds)⟩
  · exact ⟨h.world, h.child, h.request, h.response, h.seats, hunsettled, hholds⟩

omit [DecidableEq Owner] in
/-- A lease that is astray is found again; nothing is found where nothing was persisted. -/
theorem recovered (h : HotFacts host pid call s) (hpoint : s.point = .settling) (hsession : s.session = none)
    (hmay : s.mayHavePersisted = true) (reason utc updatedUtc : String) :
    HotFacts host pid call
      (s.recovered (sessionForLease s.world.pool call.leaseId reason utc updatedUtc)) := by
  have hfacts := h.point
  rw [hpoint] at hfacts
  obtain ⟨hunsettled, ⟨hheld, -, hpersisted⟩ | ⟨⟨holding, -, hknown⟩, -⟩ | ⟨⟨holding, hheld⟩, -, hpersisted, -⟩⟩ := hfacts
  · rw [h.world.sessionForLease_none hheld]
    exact ⟨h.world, h.child, h.request, h.response, h.seats, hunsettled, .inl ⟨hheld, rfl, hpersisted⟩⟩
  · rw [hsession] at hknown
    cases hknown
  · rw [h.world.sessionForLease_eq hheld]
    exact ⟨h.world, h.child, h.request, h.response, h.seats, hunsettled,
      .inr ⟨⟨holding, hheld, rfl⟩, hpersisted, hmay⟩⟩

omit [DecidableEq Owner] in
/-- The decision what is to be done about the lease. -/
theorem decided (h : HotFacts host pid call s) (hpoint : s.point = .deciding) : HotFacts host pid call s.decided := by
  have hfacts := h.point
  rw [hpoint] at hfacts
  obtain ⟨hunsettled, hholds⟩ := hfacts
  unfold HotState.decided
  by_cases hknown : s.session.isSome ∧ s.mayHavePersisted
  · rw [if_pos hknown]
    have hown : Holds call s := hholds.resolve_left fun hvacant => by
      rw [hvacant.2.1] at hknown
      cases hknown.1
    split
    · rename_i hresponse
      exact h.goTo ⟨hunsettled, hown, fun _ => .inl (h.response hresponse)⟩
    · split
      · split
        · rename_i hstarted
          exact h.goTo ⟨hunsettled, hown, hstarted⟩
        · rename_i hstarted
          refine h.goTo ⟨hunsettled, hown, fun _ => .inr ?_⟩
          exact Bool.eq_false_iff.mpr fun hdispatched => hstarted (h.request hdispatched)
      · exact h.goTo ⟨hunsettled, hown, fun hreusable => Bool.noConfusion hreusable⟩
  · rw [if_neg hknown]
    refine h.goTo (.inr ?_)
    have hvacant : Vacant call s := hholds.resolve_right fun hown => hknown ?_
    · refine ⟨hunsettled.2, hvacant.1, ?_⟩
      rw [hunsettled.1, hvacant.2.2]
      rfl
    · obtain ⟨⟨holding, -, hsession⟩, -, hmay⟩ := hown
      exact ⟨by rw [hsession]; rfl, hmay⟩

/-- The finalization settles the lease once. -/
theorem finalized (h : HotFacts host pid call s) {reusable : Bool} (hpoint : s.point = .finalizing reusable)
    (reason utc updatedUtc : String) :
    HotFacts host pid call (s.finalized call reusable
      (finalizeLease host s.world.pool call.leaseId reusable reason utc updatedUtc)) := by
  have hfacts := h.point
  rw [hpoint] at hfacts
  obtain ⟨⟨hsettled, hlost⟩, ⟨⟨holding, hheld, -⟩, hpersisted, -⟩, hquiet⟩ := hfacts
  obtain ⟨item, hok, hworld, hpoisoned⟩ := h.world.finalize hheld reusable reason utc updatedUtc
  unfold HotState.finalized
  rw [hok]
  refine ⟨hworld, h.child, h.request, h.response, fun other hmem => ?_, .inr ⟨hlost, ?_, ?_⟩⟩
  · simp only [hsettled, List.nil_append] at hmem
    rw [List.mem_singleton.mp hmem]
    cases reusable with
    | true => exact hquiet rfl
    | false => exact hpoisoned rfl
  · exact Function.update_self _ _ _
  · simp only [hsettled, hpersisted]
    rfl

end HotFacts

/-- **The step lemma.** -/
theorem HotFacts.step (h : HotFacts host pid call s) {event : HotEvent Owner}
    (hstep : HotStep host pid call s event t) : HotFacts host pid call t := by
  have hfacts := h.point
  cases hstep with
  | other hstep hother hfresh => exact h.other hstep hother hfresh
  | signal => exact h.signalled
  | childStarts hdispatched hchild =>
      have hnot : ¬ s.Quiet := by
        rintro (hgone | hunsent)
        · rw [hchild] at hgone
          cases hgone
        · rw [hdispatched] at hunsent
          cases hunsent
      have hseats : ∀ reusable ∈ s.settled, if reusable then HotState.Quiet { s with child := .running }
          else s.world.pool.status = .poisoned := by
        intro reusable hmem
        have hseat := h.seats reusable hmem
        cases reusable with
        | true => exact absurd hseat hnot
        | false => exact hseat
      refine ⟨h.world, fun _ => hdispatched, h.request, fun hresponse => ?_, hseats,
        h.point.of_child .running fun hquiet => absurd hquiet hnot⟩
      have hgone := h.response hresponse
      rw [hchild] at hgone
      cases hgone
  | childEnds hchild =>
      have hseats : ∀ reusable ∈ s.settled, if reusable then HotState.Quiet { s with child := .gone }
          else s.world.pool.status = .poisoned := by
        intro reusable hmem
        have hseat := h.seats reusable hmem
        cases reusable with
        | true => exact .inl rfl
        | false => exact hseat
      refine ⟨h.world, fun _ => h.child ?_, h.request, fun _ => rfl, hseats, h.point.of_child .gone fun _ => .inl rfl⟩
      rw [hchild]
      exact HotChild.noConfusion
  | enter hpoint =>
      rw [hpoint] at hfacts
      exact h.goTo hfacts
  | defer hpoint =>
      rw [hpoint] at hfacts
      exact ⟨h.world, h.child, h.request, h.response, h.seats, hfacts⟩
  | checkout returned hpoint hasks htruthful => exact h.checkedOut hpoint hasks htruthful returned
  | checkoutFailed hpoint =>
      rw [hpoint] at hfacts
      exact h.goTo ⟨hfacts.1, .inl hfacts.2.1⟩
  | arm hpoint => exact h.armed hpoint
  | readFailed hpoint =>
      rw [hpoint] at hfacts
      exact h.goTo ⟨hfacts.1, .inr (.inl hfacts.2)⟩
  | start hpoint =>
      rw [hpoint] at hfacts
      exact ⟨h.world, h.child, fun _ => rfl, h.response, h.seats, hfacts.1, hfacts.2, rfl⟩
  | dispatch hpoint =>
      rw [hpoint] at hfacts
      obtain ⟨⟨hsettled, hlost⟩, hholds, hstarted⟩ := hfacts
      have hfacts : PointFacts call { s with dispatched := true } s.point := by
        rw [hpoint]
        exact ⟨⟨hsettled, hlost⟩, hholds, hstarted⟩
      refine ⟨h.world, fun _ => rfl, fun _ => hstarted, h.response, fun reusable hmem => ?_, hfacts⟩
      rw [hsettled] at hmem
      cases hmem
  | respond reusable hpoint hdispatched hproves =>
      rw [hpoint] at hfacts
      exact ⟨h.world, h.child, h.request, fun hresponse => hproves (Option.some.inj hresponse), h.seats, hfacts.1,
        .inr (.inl hfacts.2.1)⟩
  | requestFailed hpoint =>
      rw [hpoint] at hfacts
      exact h.goTo ⟨hfacts.1, .inr (.inl hfacts.2.1)⟩
  | guard hpoint =>
      rw [hpoint] at hfacts
      exact h.goTo hfacts
  | deferAgain hpoint =>
      rw [hpoint] at hfacts
      exact ⟨h.world, h.child, h.request, h.response, h.seats, hfacts⟩
  | recover hpoint hsession hpersisted => exact h.recovered hpoint hsession hpersisted _ _ _
  | recoverFailed hpoint hsession hpersisted =>
      rw [hpoint] at hfacts
      exact ⟨h.world, h.child, h.request, h.response, h.seats, .inl ⟨rfl, hfacts.1.1⟩⟩
  | known hpoint hknown =>
      rw [hpoint] at hfacts
      refine h.goTo ⟨hfacts.1, ?_⟩
      rcases hfacts.2 with hvacant | hholds | ⟨-, hsession, -, hmay⟩
      · exact .inl hvacant
      · exact .inr hholds
      · rw [hsession, hmay] at hknown
        exact hknown.elim (fun hne => absurd rfl hne) fun hfalse => Bool.noConfusion hfalse
  | decide hpoint => exact h.decided hpoint
  | probe quiescent hpoint hproves =>
      rw [hpoint] at hfacts
      exact h.goTo ⟨hfacts.1, hfacts.2.1, fun hquiet => .inl (hproves hquiet)⟩
  | finalize hpoint => exact h.finalized hpoint _ _ _
  | finalizeFailed hpoint =>
      rw [hpoint] at hfacts
      exact ⟨h.world, h.child, h.request, h.response, h.seats, .inl ⟨rfl, hfacts.1.1⟩⟩
  | leave hpoint =>
      rw [hpoint] at hfacts
      exact h.goTo hfacts

/-- The lease is lost only by a document that fails, or by a signal at `closing`. -/
theorem HotFacts.lost (h : HotFacts host pid call s) {event : HotEvent Owner}
    (hstep : SparedStep host pid call s event t) (hlost : s.lost = false) : t.lost = false := by
  obtain ⟨hstep, hdocument, hsignal⟩ := hstep
  have hfacts := h.point
  cases hstep with
  | signal =>
      unfold HotState.signalled
      split
      · exact hlost
      · split
        · exact hlost
        · split
          case h_6 hclosing => exact absurd hclosing (hsignal rfl)
          all_goals exact hlost
  | checkout returned =>
      unfold HotState.checkedOut
      split
      · split <;> exact hlost
      · exact hlost
      · exact hlost
  | arm =>
      unfold HotState.armed
      split <;> exact hlost
  | recover hpoint hsession hpersisted =>
      rw [hpoint] at hfacts
      unfold HotState.recovered
      rcases hfacts.2 with ⟨hheld, -⟩ | ⟨⟨holding, hheld, -⟩, -⟩ | ⟨⟨holding, hheld⟩, -⟩
      · rw [h.world.sessionForLease_none hheld]
        exact hlost
      · rw [h.world.sessionForLease_eq hheld]
        exact hlost
      · rw [h.world.sessionForLease_eq hheld]
        exact hlost
  | recoverFailed | finalizeFailed => exact absurd rfl hdocument
  | decide =>
      unfold HotState.decided HotState.goTo
      split
      · split
        · exact hlost
        · split
          · split <;> exact hlost
          · exact hlost
      · exact hlost
  | @finalize reusable reason utc updatedUtc hpoint =>
      rw [hpoint] at hfacts
      obtain ⟨-, ⟨⟨holding, hheld, -⟩, -⟩, -⟩ := hfacts
      obtain ⟨item, hok, -⟩ := h.world.finalize hheld reusable reason utc updatedUtc
      unfold HotState.finalized
      rw [hok]
      exact hlost
  | other | childStarts | childEnds | enter | defer | checkoutFailed | readFailed | start | dispatch | respond
  | requestFailed | guard | deferAgain | known | probe | leave => exact hlost

/-! ## Runs -/

omit [DecidableEq Owner] in
theorem HotFacts.settled_length (h : HotFacts host pid call s) : s.settled.length ≤ 1 := by
  have hfacts := h.point
  have hnone : Unsettled s → s.settled.length ≤ 1 := fun hunsettled => by simp [hunsettled.1]
  cases hs : s.point with
  | leaving | ended =>
      rw [hs] at hfacts
      rcases hfacts with ⟨-, hsettled⟩ | ⟨-, -, hlength⟩
      · simp [hsettled]
      · rw [hlength]
        split <;> simp
  | entering | deferring | checkingOut | arming | reading | requesting | closing | guarded | settling
  | deciding | probing | finalizing reusable =>
      rw [hs] at hfacts
      exact hnone hfacts.1

/-- The call is in front of its `try`, its lease id is fresh, and the pool has been used by others. -/
structure HotState.Starts (host : Host) (pid : Owner → ℤ) (call : HotCall Owner) (s : HotState Owner) :
    Prop where
  reached : ∃ start labels, start.Fresh host ∧ Run (Step host pid) start labels s.world
  engine : s.world.pool.engine = .forkBasis
  dirs : ∀ item ∈ s.world.pool.sessions, item.sessionDir ≠ ""
  live : s.world.exited call.owner = false
  held : s.world.held call.owner = none
  fresh : ∀ owner holding, s.world.held owner = some holding → holding.leaseId ≠ call.leaseId
  point : s.point = .entering
  session : s.session = none
  requestStarted : s.requestStarted = false
  mayHavePersisted : s.mayHavePersisted = true
  response : s.response = none
  dispatched : s.dispatched = false
  child : s.child = .unborn
  persisted : s.persisted = false
  settled : s.settled = []
  lost : s.lost = false

theorem HotState.Starts.facts (h : s.Starts host pid call) : HotFacts host pid call s := by
  obtain ⟨start, labels, hfresh, hrun⟩ := h.reached
  refine ⟨⟨Run.invariant hrun hfresh.invariant, h.engine, ?_, h.live, ?_, fun owner _ => h.fresh owner⟩,
    ?_, ?_, ?_, ?_, ?_⟩
  · intro dir hdir
    obtain ⟨item, hmem, rfl⟩ := List.mem_map.mp hdir
    exact h.dirs item hmem
  · simp [h.held]
  · simp [h.child]
  · simp [h.dispatched]
  · simp [h.response]
  · simp [h.settled]
  · rw [h.point]
    exact ⟨⟨h.settled, h.lost⟩, ⟨h.held, h.session, h.persisted⟩, h.mayHavePersisted, h.requestStarted⟩

end

/-! ### A signal during the checkout -/

theorem SparedStep.code [DecidableEq Owner] {s t : HotState Owner} (hstep : HotStep host pid call s .code t) :
    SparedStep host pid call s .code t :=
  ⟨hstep, by simp, by simp⟩

def sampleCall : HotCall ℕ := ⟨1, "hot"⟩

def sampleRequest : CheckoutRequest where
  agent := none
  leaseId := some "hot"
  token := ""
  ownerKind := "memory_first_bootstrap"
  ownerPid := 1
  ownerContextRun := none
  ownerCommand := some "prove --loop"
  leasedUtc := "t0"

/-- In front of the `try`, with a pool that nobody has used. -/
def sampleStart : HotState ℕ where
  world := aliasWorld .other
  point := .entering
  deferred := false
  latched := false
  interrupted := false
  session := none
  requestStarted := false
  mayHavePersisted := true
  response := none
  dispatched := false
  child := .unborn
  persisted := false
  settled := []
  lost := false

theorem starts_sampleStart : sampleStart.Starts plainHost Int.ofNat sampleCall where
  reached := ⟨_, _, aliasWorld_fresh .other, .nil _⟩
  engine := rfl
  dirs := by
    intro item hitem
    have hcases : item = aliasSeat "/pool/seat-1" ∨ item = aliasSeat "/pool/seat-2" := by
      simpa [sampleStart, aliasWorld, aliasPool] using hitem
    rcases hcases with rfl | rfl <;> decide
  live := rfl
  held := rfl
  fresh _ _ hheld := by cases hheld
  point := rfl
  session := rfl
  requestStarted := rfl
  mayHavePersisted := rfl
  response := rfl
  dispatched := rfl
  child := rfl
  persisted := rfl
  settled := rfl
  lost := rfl

/-- Behind the checkout. -/
def sampleTaken : HotState ℕ :=
  { sampleStart with deferred := true, point := .checkingOut }.checkedOut sampleCall
    (checkoutPoolSeatLocked plainHost sampleStart.world.pool sampleRequest quietContext) true

/-- Behind the finalization: the signal that came during the checkout was seen by `arm`, and no request
had been started. -/
def sampleFinalized : HotState ℕ :=
  let taken := { sampleTaken with
    deferred := true, latched := true, interrupted := true, point := .finalizing true }
  taken.finalized sampleCall true (finalizeLease plainHost taken.world.pool "hot" true "interrupted" "t1" "t1")

theorem run_sampleFinalized : Run (SparedStep plainHost Int.ofNat sampleCall) sampleStart
    [.code, .code, .code, .signal, .code, .code, .code, .code, .code, .code, .code]
    (sampleFinalized.goTo .ended) := by
  have hasks : sampleCall.Asks Int.ofNat sampleRequest := ⟨rfl, rfl, rfl, rfl⟩
  have hcheckout : HotStep plainHost Int.ofNat sampleCall
      { sampleStart with deferred := true, point := .checkingOut } .code sampleTaken :=
    .checkout true rfl hasks fun _ _ _ => rfl
  refine .cons (.code (.enter rfl)) (.cons (.code (.defer rfl)) (.cons (.code hcheckout) ?_))
  refine .cons ⟨.signal, by simp, fun _ => HotPoint.noConfusion⟩ ?_
  refine .cons (.code (.arm rfl)) (.cons (.code (.guard rfl)) (.cons (.code (.deferAgain rfl)) ?_))
  refine .cons (.code (.known rfl (.inl (Option.some_ne_none "/pool/seat-1")))) (.cons (.code (.decide rfl)) ?_)
  exact .cons (.code (.finalize rfl)) (.cons (.code (.leave rfl)) (.nil _))

end Hearth.Pools
