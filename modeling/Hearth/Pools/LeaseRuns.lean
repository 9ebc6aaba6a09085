import Hearth.Library.Transition
import Hearth.Pools.Owners
import Hearth.Pools.PoolInvariant

/-!
# Lease invariants over whole runs

The invariant relates the pool document to what its owners remember: every lease
belongs to an owner, a live owner's seat is leased to it, and no two live owners
hold one seat.  An operation may clear seats, but never one that a live owner
other than its actor holds (`World.protects`); with the invariant of the document
itself this carries over every run.
-/

namespace Hearth.Pools

open Hearth.Library

variable {Owner : Type}

/-- The lease that `owner` got when it was handed `item` under `holding`. -/
def OwnLease (pid : Owner → ℤ) (owner : Owner) (holding : Holding) (item : Seat) : Prop :=
  item.sessionDir = holding.sessionDir ∧ ∃ lease, item.lease = some lease ∧
    lease.leaseId = holding.leaseId ∧ lease.ownerPid = some (pid owner)

/-- The invariant of the whole system. -/
structure WorldInvariant (host : Host) (pid : Owner → ℤ) (world : World Owner) : Prop where
  pool : PoolInvariant host world.pool
  lifecycle : world.pool.status = .ready ∨
    (world.pool.engine = .forkBasis ∧ world.pool.status = .poisoned) ∨
      ∀ item ∈ world.pool.sessions, item.lease = none
  holder : ∀ item ∈ world.pool.sessions, ∀ lease, item.lease = some lease →
    ∃ owner, world.held owner = some ⟨item.sessionDir, lease.leaseId⟩
  live : ∀ owner holding, world.exited owner = false → world.held owner = some holding →
    ∃ item ∈ world.pool.sessions, OwnLease pid owner holding item
  exclusive : ∀ owner owner' holding holding', world.exited owner = false →
    world.exited owner' = false → world.held owner = some holding →
    world.held owner' = some holding' → holding.sessionDir = holding'.sessionDir → owner = owner'

/-- A seat held by a live owner other than `actor`. -/
def World.protects (world : World Owner) (actor : Option Owner) (item : Seat) : Prop :=
  ∃ owner holding, world.exited owner = false ∧ world.held owner = some holding ∧
    item.sessionDir = holding.sessionDir ∧ actor ≠ some owner

/-- `actor` leaves the seats of all other live owners as they are. -/
def World.Keeps (world : World Owner) (actor : Option Owner) (after : Pool) : Prop :=
  ∀ item ∈ world.pool.sessions, world.protects actor item →
    ∃ kept ∈ after.sessions, kept.sessionDir = item.sessionDir ∧ kept.status = item.status ∧
      kept.lease = item.lease

section

variable {host : Host} {pid : Owner → ℤ} {world : World Owner}

/-- The seat of a live owner. -/
theorem WorldInvariant.ownLease (h : WorldInvariant host pid world) {owner : Owner}
    {holding : Holding} (hlive : world.exited owner = false) (hheld : world.held owner = some holding)
    {item : Seat} (hmem : item ∈ world.pool.sessions)
    (hdir : host.resolve item.sessionDir = host.resolve holding.sessionDir) :
    OwnLease pid owner holding item := by
  obtain ⟨own, hown, hlease⟩ := h.live owner holding hlive hheld
  have hsame : item = own := h.pool.eq_of_resolve hmem hown (by rw [hdir, hlease.1])
  rwa [hsame]

/-- A seat that is leased to a live process is neither stale nor free. -/
theorem not_staleOrFree {owner : Owner} {holding : Holding} {item : Seat} {ownerAlive : ℤ → Bool}
    (hown : OwnLease pid owner holding item) (hbusy : item.status = .busy ↔ item.lease.isSome)
    (halive : ownerAlive (pid owner) = true) : ¬ item.staleOrFree ownerAlive := by
  obtain ⟨-, lease, hlease, -, hpid⟩ := hown
  have hstatus : item.status = .busy := hbusy.mpr (by simp [hlease])
  rintro (hstale | hfree)
  · obtain ⟨-, lease', ownerPid, hlease', hpid', hdead⟩ := Seat.stale_iff.mp hstale
    obtain rfl : lease = lease' := by simpa [hlease] using hlease'
    obtain rfl : pid owner = ownerPid := by simpa [hpid] using hpid'
    simp [halive] at hdead
  · simp [Seat.free, hstatus] at hfree

/-- Neither reclaim nor checkout may clear a live owner's seat. -/
theorem WorldInvariant.protected_of_truthful (h : WorldInvariant host pid world)
    {ownerAlive : ℤ → Bool} (htruthful : world.truthful pid ownerAlive) {actor : Option Owner}
    {item : Seat} (hmem : item ∈ world.pool.sessions) (hprotects : world.protects actor item) :
    ¬ item.staleOrFree ownerAlive := by
  obtain ⟨owner, holding, hlive, hheld, hdir, -⟩ := hprotects
  exact not_staleOrFree (h.ownLease hlive hheld hmem (by rw [hdir])) (h.pool.leasedBusy item hmem)
    (htruthful owner hlive (by simp [hheld]))

/-- The seat an owner gives back is not another live owner's. -/
theorem WorldInvariant.protected_of_resolves (h : WorldInvariant host pid world) {owner : Owner}
    {holding : Holding} (hlive : world.exited owner = false) (hheld : world.held owner = some holding)
    {item : Seat} (hmem : item ∈ world.pool.sessions)
    (hprotects : world.protects (some owner) item) :
    ¬ item.resolvesTo host holding.sessionDir := by
  intro hresolves
  obtain ⟨owner', holding', hlive', hheld', hdir, hne⟩ := hprotects
  have hown := h.ownLease hlive hheld hmem hresolves
  exact hne (congrArg some
    (h.exclusive owner owner' holding holding' hlive hlive' hheld hheld' (hown.1 ▸ hdir)))

/-- The lease an owner gives back is not another live owner's. -/
theorem WorldInvariant.protected_of_leaseId (h : WorldInvariant host pid world) {owner : Owner}
    {holding : Holding} (hlive : world.exited owner = false) (hheld : world.held owner = some holding)
    {item : Seat} (hmem : item ∈ world.pool.sessions)
    (hprotects : world.protects (some owner) item) :
    item.lease.map Lease.leaseId ≠ some holding.leaseId := by
  intro hid
  obtain ⟨own, hown, hdir, lease, hlease, hleaseId, -⟩ := h.live owner holding hlive hheld
  have hsame : item = own := h.pool.eq_of_leaseId hmem hown hid (by simp [hlease, hleaseId])
  exact h.protected_of_resolves hlive hheld hmem hprotects
    (by rw [Seat.resolvesTo, hsame, hdir])

/-- Another live owner's seat is an active sibling for quarantine. -/
theorem WorldInvariant.activeSibling (h : WorldInvariant host pid world) {actor : Option Owner}
    {isReleased : Seat → Bool} {item : Seat} (hmem : item ∈ world.pool.sessions)
    (hprotects : world.protects actor item) (hreleased : isReleased item = false) :
    item.activeSibling isReleased := by
  obtain ⟨owner, holding, hlive, hheld, hdir, -⟩ := hprotects
  obtain ⟨-, lease, hlease, -⟩ := h.ownLease hlive hheld hmem (by rw [hdir])
  have hsome : item.lease.isSome := by simp [hlease]
  exact ⟨(h.pool.leasedBusy item hmem).mpr hsome, hsome, by simp [hreleased]⟩

/-! ## What clearing preserves -/

theorem keeps_of_clears {actor : Option Owner} {may : Seat → Prop} {after : Pool}
    (hclears : List.Forall₂ (Clears may) world.pool.sessions after.sessions)
    (hmay : ∀ item ∈ world.pool.sessions, world.protects actor item → ¬ may item) :
    world.Keeps actor after := by
  intro item hmem hprotects
  obtain ⟨kept, hkept, hclear⟩ := exists_mem_of_forall₂ hclears hmem
  exact ⟨kept, hkept, hclear.sessionDir, hclear.eq_of_not (hmay item hmem hprotects)⟩

/-- A kept seat still witnesses its owner's lease. -/
theorem WorldInvariant.live_of_keeps (h : WorldInvariant host pid world) {actor : Option Owner}
    {after : Pool} (hkeeps : world.Keeps actor after) {owner : Owner} {holding : Holding}
    (hlive : world.exited owner = false) (hheld : world.held owner = some holding)
    (hactor : actor ≠ some owner) : ∃ item ∈ after.sessions, OwnLease pid owner holding item := by
  obtain ⟨item, hmem, hdir, lease, hlease, hrest⟩ := h.live owner holding hlive hheld
  obtain ⟨kept, hkept, hdir', -, hlease'⟩ :=
    hkeeps item hmem ⟨owner, holding, hlive, hheld, hdir, hactor⟩
  exact ⟨kept, hkept, hdir'.trans hdir, lease, hlease'.trans hlease, hrest⟩

/-- A lease that survives clearing was there before, on the same directory. -/
theorem lease_origin {may : Seat → Prop} {before after : List Seat}
    (hclears : List.Forall₂ (Clears may) before after) {item : Seat} (hmem : item ∈ after)
    {lease : Lease} (hlease : item.lease = some lease) :
    ∃ origin ∈ before, origin.sessionDir = item.sessionDir ∧ origin.lease = some lease := by
  obtain ⟨origin, horigin, hclear⟩ := exists_mem_of_forall₂' hclears hmem
  rcases hclear.lease with hnone | hsame
  · simp [hnone] at hlease
  · exact ⟨origin, horigin, hclear.sessionDir.symm, by rw [← hsame, hlease]⟩

/-- Clearing seats that no live owner holds preserves the invariant. -/
theorem WorldInvariant.clears (h : WorldInvariant host pid world) {may : Seat → Prop} {after : Pool}
    (hsame : SameGeneration world.pool after)
    (hclears : List.Forall₂ (Clears may) world.pool.sessions after.sessions)
    (hmay : ∀ item ∈ world.pool.sessions, world.protects none item → ¬ may item) :
    WorldInvariant host pid { world with pool := after } where
  pool := h.pool.clears hsame.sameBroker hclears
  lifecycle := by
    rw [hsame.status, hsame.engine]
    refine h.lifecycle.imp id (Or.imp id fun hnone item hitem => ?_)
    obtain ⟨origin, horigin, hclear⟩ := exists_mem_of_forall₂' hclears hitem
    rcases hclear.lease with hlease | hlease
    · exact hlease
    · rw [hlease, hnone origin horigin]
  holder item hitem lease hlease := by
    obtain ⟨origin, horigin, hdir, hlease'⟩ := lease_origin hclears hitem hlease
    obtain ⟨owner, howner⟩ := h.holder origin horigin lease hlease'
    exact ⟨owner, hdir ▸ howner⟩
  live _ _ hlive hheld := h.live_of_keeps (keeps_of_clears hclears hmay) hlive hheld (by simp)
  exclusive := h.exclusive

variable [DecidableEq Owner]

/-- An owner gives its seat back: its seat has lost the lease, and no other live
owner's seat was cleared. -/
theorem WorldInvariant.clears_giveBack (h : WorldInvariant host pid world) {may : Seat → Prop}
    {after : Pool} {owner : Owner} {holding : Holding} (hheld : world.held owner = some holding)
    (hbroker : SameBroker world.pool after)
    (hstatus : after.status = .ready ∨ (after.engine = .forkBasis ∧ after.status = .poisoned))
    (hclears : List.Forall₂ (Clears may) world.pool.sessions after.sessions)
    (hmay : ∀ item ∈ world.pool.sessions, world.protects (some owner) item → ¬ may item)
    (hreturned : ∀ item ∈ after.sessions, item.sessionDir = holding.sessionDir →
      item.lease.map Lease.leaseId ≠ some holding.leaseId) :
    WorldInvariant host pid
      { world with pool := after, held := Function.update world.held owner none } where
  pool := h.pool.clears hbroker hclears
  lifecycle := hstatus.imp id .inl
  holder item hitem lease hlease := by
    obtain ⟨origin, horigin, hdir, hlease'⟩ := lease_origin hclears hitem hlease
    obtain ⟨owner', howner'⟩ := h.holder origin horigin lease hlease'
    have hne : owner' ≠ owner := by
      rintro rfl
      rw [hheld, Option.some.injEq] at howner'
      refine hreturned item hitem ?_ ?_
      · rw [howner', hdir]
      · rw [howner', hlease]
        rfl
    refine ⟨owner', ?_⟩
    simp only [Function.update_of_ne hne, howner', hdir]
  live owner' holding' hlive hheld' := by
    have hne : owner' ≠ owner := by
      rintro rfl
      simp at hheld'
    simp only [Function.update_of_ne hne] at hheld'
    exact h.live_of_keeps (keeps_of_clears hclears hmay) hlive hheld'
      fun heq => hne (Option.some.inj heq).symm
  exclusive first second holding₁ holding₂ hlive₁ hlive₂ hheld₁ hheld₂ hdir := by
    have hne : ∀ {other : Owner} {held : Holding},
        Function.update world.held owner none other = some held → world.held other = some held := by
      intro other held hother
      by_cases hsame : other = owner
      · simp [hsame] at hother
      · rwa [Function.update_of_ne hsame] at hother
    exact h.exclusive first second holding₁ holding₂ hlive₁ hlive₂ (hne hheld₁) (hne hheld₂) hdir

/-! ## What taking a seat preserves -/

omit [DecidableEq Owner] in
/-- A seat that is not free survives the handing out of a free one. -/
theorem mem_after_take {first last : List Seat} {seat taken item : Seat} (hfree : seat.free)
    (hbusy : item.status = .busy) (hmem : item ∈ first ++ seat :: last) :
    item ∈ first ++ taken :: last := by
  have hne : item ≠ seat := by
    rintro rfl
    simp [Seat.free, hbusy] at hfree
  rw [List.mem_append, List.mem_cons] at hmem ⊢
  exact hmem.imp id (Or.imp (fun heq => absurd heq hne) id)

omit [DecidableEq Owner] in
/-- A checkout keeps every seat it may not clear. -/
theorem WorldInvariant.keeps_of_takes (h : WorldInvariant host pid world) {may : Seat → Prop}
    {suitable : List Seat → Seat → Prop} (hsuitable : ∀ middle seat, suitable middle seat → seat.free)
    {lease : Lease} {after : Pool} {item : Seat} {actor : Option Owner}
    (htakes : Takes may suitable lease world.pool.sessions after.sessions item)
    (hmay : ∀ item ∈ world.pool.sessions, world.protects actor item → ¬ may item) :
    world.Keeps actor after := by
  obtain ⟨first, seat, last, hclears, hseat, -, hafter⟩ := htakes
  intro held hmem hprotects
  obtain ⟨kept, hkept, hclear⟩ := exists_mem_of_forall₂ hclears hmem
  have hsame := hclear.eq_of_not (hmay held hmem hprotects)
  obtain ⟨owner, holding, hlive, hheld, hdir, -⟩ := hprotects
  obtain ⟨-, ownLease, hlease, -⟩ := h.ownLease hlive hheld hmem (by rw [hdir])
  have hbusy : kept.status = .busy := by
    rw [hsame.1]
    exact (h.pool.leasedBusy held hmem).mpr (by simp [hlease])
  refine ⟨kept, ?_, hclear.sessionDir, hsame⟩
  rw [hafter]
  exact mem_after_take (hsuitable _ _ hseat) hbusy hkept

/-- Handing out a grantable seat preserves the invariant. -/
theorem WorldInvariant.takes (h : WorldInvariant host pid world) {may : Seat → Prop} {lease : Lease}
    {after : Pool} {item : Seat} {owner : Owner} (hheld : world.held owner = none)
    (hpid : lease.ownerPid = some (pid owner)) (hready : world.pool.status = .ready)
    (hsame : SameGeneration world.pool after)
    (htakes : Takes may (Grantable host world.pool) lease world.pool.sessions after.sessions item)
    (hfresh : lease.leaseId ∉ leaseIds world.pool)
    (hmay : ∀ item ∈ world.pool.sessions, world.protects none item → ¬ may item) :
    WorldInvariant host pid
      { world with
        pool := after
        held := Function.update world.held owner (some ⟨item.sessionDir, lease.leaseId⟩) } := by
  have hkeeps := h.keeps_of_takes (fun _ _ hgrant => hgrant.free) htakes hmay
  have hpool := h.pool.takes hsame htakes hfresh
  obtain ⟨first, seat, last, hclears, hgrant, rfl, hafter⟩ := htakes
  have hother : ∀ other holding, world.held other = some holding → other ≠ owner := by
    rintro other holding hother rfl
    simp [hheld] at hother
  have htaken : takeSeat lease seat ∈ after.sessions := by simp [hafter]
  -- The seat was free, so the seat of a live owner is another one.
  have hvacant : ∀ other holding, world.exited other = false → world.held other = some holding →
      holding.sessionDir ≠ seat.sessionDir := by
    intro other holding hlive hholding heq
    obtain ⟨own, hown, hdir, ownLease, hlease, hid, -⟩ :=
      h.live_of_keeps hkeeps hlive hholding (by simp)
    have hsameSeat : own = takeSeat lease seat :=
      hpool.eq_of_resolve hown htaken (by rw [hdir, heq]; rfl)
    obtain rfl : lease = ownLease := by simpa [hsameSeat, takeSeat] using hlease
    obtain ⟨before, hbefore, -, beforeLease, hbeforeLease, hbeforeId, -⟩ :=
      h.live other holding hlive hholding
    exact hfresh (List.mem_filterMap.mpr ⟨before, hbefore, by simp [hbeforeLease, hbeforeId, hid]⟩)
  refine ⟨hpool, .inl (hsame.status.trans hready), ?_, ?_, ?_⟩
  · intro found hfound foundLease hfoundLease
    have hfound' : found ∈ first ++ takeSeat lease seat :: last := hafter ▸ hfound
    rw [List.mem_append, List.mem_cons] at hfound'
    rcases hfound' with hmem | rfl | hmem
    · obtain ⟨origin, horigin, hdir, hlease⟩ :=
        lease_origin hclears (by simp [hmem]) hfoundLease
      obtain ⟨other, hholding⟩ := h.holder origin horigin foundLease hlease
      exact ⟨other, by simp only [Function.update_of_ne (hother _ _ hholding), hholding, hdir]⟩
    · obtain rfl : lease = foundLease := by simpa [takeSeat] using hfoundLease
      exact ⟨owner, by simp⟩
    · obtain ⟨origin, horigin, hdir, hlease⟩ :=
        lease_origin hclears (by simp [hmem]) hfoundLease
      obtain ⟨other, hholding⟩ := h.holder origin horigin foundLease hlease
      exact ⟨other, by simp only [Function.update_of_ne (hother _ _ hholding), hholding, hdir]⟩
  · intro other holding hlive hholding
    by_cases hsameOwner : other = owner
    · simp only [hsameOwner, Function.update_self, Option.some.injEq] at hholding
      subst hholding hsameOwner
      exact ⟨takeSeat lease seat, htaken, rfl, lease, rfl, rfl, hpid⟩
    · simp only [Function.update_of_ne hsameOwner] at hholding
      exact h.live_of_keeps hkeeps hlive hholding (by simp)
  · intro one two holding₁ holding₂ hlive₁ hlive₂ hheld₁ hheld₂ hdir
    by_cases hone : one = owner
    · by_cases htwo : two = owner
      · rw [hone, htwo]
      · simp only [hone, Function.update_self, Option.some.injEq] at hheld₁
        simp only [Function.update_of_ne htwo] at hheld₂
        exact absurd (hdir.symm.trans (congrArg Holding.sessionDir hheld₁.symm))
          (hvacant two holding₂ hlive₂ hheld₂)
    · by_cases htwo : two = owner
      · simp only [htwo, Function.update_self, Option.some.injEq] at hheld₂
        simp only [Function.update_of_ne hone] at hheld₁
        exact absurd (hdir.trans (congrArg Holding.sessionDir hheld₂.symm))
          (hvacant one holding₁ hlive₁ hheld₁)
      · simp only [Function.update_of_ne hone] at hheld₁
        simp only [Function.update_of_ne htwo] at hheld₂
        exact h.exclusive one two holding₁ holding₂ hlive₁ hlive₂ hheld₁ hheld₂ hdir

/-! ## One step -/

/-- Whoever is alive after an exit was alive before it. -/
theorem exited_of_update {exited : Owner → Bool} {owner other : Owner}
    (h : Function.update exited owner true other = false) : exited other = false := by
  by_cases hsame : other = owner
  · simp [hsame] at h
  · rwa [Function.update_of_ne hsame] at h

/-- Giving back a seat preserves the invariant: release. -/
theorem WorldInvariant.release (h : WorldInvariant host pid world) {owner : Owner}
    {holding : Holding} (hlive : world.exited owner = false) (hheld : world.held owner = some holding)
    (clean : Bool) (releasedUtc updatedUtc : String) (reason : Option String) :
    WorldInvariant host pid (world.giveBack owner (releasePoolSeatLocked host world.pool
        holding.sessionDir (returnedStatus clean) releasedUtc reason updatedUtc)) ∧
      world.Keeps (some owner) (releasePoolSeatLocked host world.pool holding.sessionDir
        (returnedStatus clean) releasedUtc reason updatedUtc).1 := by
  have hstatus : returnedStatus clean ≠ .busy := by cases clean <;> simp [returnedStatus]
  cases hresult : (releasePoolSeatLocked host world.pool holding.sessionDir (returnedStatus clean)
      releasedUtc reason updatedUtc).2 with
  | error error =>
      simp only [World.giveBack, hresult]
      unfold releasePoolSeatLocked at hresult ⊢
      rw [persistUnlessRaised_error hresult]
      exact ⟨h, fun item hmem _ => ⟨item, hmem, rfl, rfl, rfl⟩⟩
  | ok released =>
      obtain ⟨hsame, hclears⟩ := releasePoolSeatLocked_ok hstatus hresult
      have hmay : ∀ item ∈ world.pool.sessions, world.protects (some owner) item →
          ¬ item.resolvesTo host holding.sessionDir :=
        fun item hmem => h.protected_of_resolves hlive hheld hmem
      -- A leased pool is ready or a quarantined fork basis, so the lease goes.
      have hpool : world.pool.status = .ready ∨
          (world.pool.engine = .forkBasis ∧ world.pool.status = .poisoned) := by
        rcases h.lifecycle with hready | hpoisoned | hnone
        · exact .inl hready
        · exact .inr hpoisoned
        · obtain ⟨own, hown, -, lease, hlease, -⟩ := h.live owner holding hlive hheld
          simp [hnone own hown] at hlease
      simp only [World.giveBack, hresult]
      refine ⟨h.clears_giveBack hheld hsame.sameBroker ?_ hclears hmay ?_,
        keeps_of_clears hclears hmay⟩
      · rwa [hsame.status, hsame.engine]
      · intro seat hmem hdir
        rw [releasePoolSeatLocked_returned h.pool hpool hresult hmem (by rw [hdir])]
        simp

/-- Giving back a seat preserves the invariant: both quarantines. -/
theorem WorldInvariant.quarantined (h : WorldInvariant host pid world) {owner : Owner}
    {holding : Holding} (hlive : world.exited owner = false) (hheld : world.held owner = some holding)
    {isReleased : Seat → Bool} {reason utc : String} {after : Pool}
    (hquarantined : Quarantined isReleased reason utc world.pool after)
    (hown : ∀ item ∈ world.pool.sessions, OwnLease pid owner holding item → isReleased item)
    (hothers : ∀ item ∈ world.pool.sessions, world.protects (some owner) item →
      isReleased item = false) :
    WorldInvariant host pid
        { world with pool := after, held := Function.update world.held owner none } ∧
      world.Keeps (some owner) after := by
  have hclears : List.Forall₂ (Clears fun seat => ¬ seat.activeSibling isReleased)
      world.pool.sessions after.sessions := by
    rw [hquarantined.sessions]
    exact map_quarantineSeat_clears isReleased reason utc world.pool.sessions
  have hmay : ∀ item ∈ world.pool.sessions, world.protects (some owner) item →
      ¬ ¬ item.activeSibling isReleased :=
    fun item hmem hprotects => not_not_intro
      (h.activeSibling hmem hprotects (hothers item hmem hprotects))
  refine ⟨h.clears_giveBack hheld hquarantined.broker
    (.inr ⟨hquarantined.engine, hquarantined.status⟩) hclears hmay ?_,
    keeps_of_clears hclears hmay⟩
  intro item hmem hdir
  rw [hquarantined.sessions] at hmem
  obtain ⟨origin, horigin, rfl⟩ := List.mem_map.mp hmem
  have horiginDir : (quarantineSeat isReleased reason utc origin).sessionDir = origin.sessionDir :=
    (quarantineSeat_clears isReleased reason utc origin).sessionDir
  have hreleased := hown origin horigin
    (h.ownLease hlive hheld horigin (by rw [← horiginDir, hdir]))
  rw [quarantineSeat_lease hreleased]
  simp

/-- **The step lemma.**  A step preserves the invariant and leaves the seats of all
other live owners alone. -/
theorem Step.preserves {label : Op Owner × Outcome} {world' : World Owner}
    (h : WorldInvariant host pid world) (hstep : Step host pid world label world') :
    WorldInvariant host pid world' ∧ world.Keeps label.1.actor world'.pool := by
  cases hstep with
  | @checkout owner request context hlive hheld hpid htruthful =>
      obtain ⟨hsame, hspec⟩ := checkoutPoolSeatLocked_spec h.pool request context
      generalize checkoutPoolSeatLocked host world.pool request context = result at hsame hspec ⊢
      have hmay : ∀ actor : Option Owner, ∀ item ∈ world.pool.sessions, world.protects actor item →
          ¬ item.staleOrFree context.ownerAlive :=
        fun actor item hmem => h.protected_of_truthful htruthful hmem
      cases hresult : result.2 with
      | error error =>
          rw [hresult] at hspec
          simp only [World.receive, hresult]
          exact ⟨h.clears hsame hspec (hmay none), keeps_of_clears hspec (hmay _)⟩
      | ok item =>
          rw [hresult] at hspec
          obtain ⟨hready, hfresh, htakes⟩ := hspec
          simp only [World.receive, hresult]
          have hrequest : request.lease.ownerPid = some (pid owner) := by
            rw [← hpid]
            rfl
          exact ⟨h.takes hheld hrequest hready hsame htakes hfresh (hmay none),
            h.keeps_of_takes (fun _ _ hgrant => hgrant.free) htakes (hmay _)⟩
  | @reclaim releasedUtc updatedUtc ownerAlive htruthful =>
      obtain ⟨hsame, hclears⟩ :=
        reclaimStaleLeases_spec world.pool releasedUtc ownerAlive h.pool.sessionDirs
      have hmay : ∀ actor : Option Owner, ∀ item ∈ world.pool.sessions, world.protects actor item →
          ¬ item.stale ownerAlive :=
        fun actor item hmem hprotects hstale =>
          h.protected_of_truthful htruthful hmem hprotects (.inl hstale)
      exact ⟨h.clears (hsame.trans (sameGeneration_persist _ updatedUtc)) hclears (hmay none),
        keeps_of_clears hclears (hmay _)⟩
  | release hlive hheld => 
      obtain ⟨hinv, hkeeps⟩ := h.release hlive hheld _ _ _ _
      refine ⟨hinv, ?_⟩
      unfold World.giveBack
      split <;> exact hkeeps
  | @quarantine owner holding reason quarantinedUtc updatedUtc hlive hheld =>
      cases hresult : (quarantineForkBasisLocked host world.pool holding.sessionDir reason
          quarantinedUtc updatedUtc).2 with
      | error error =>
          simp only [World.giveBack, hresult]
          unfold quarantineForkBasisLocked at hresult ⊢
          rw [persistUnlessRaised_error hresult]
          exact ⟨h, fun item hmem _ => ⟨item, hmem, rfl, rfl, rfl⟩⟩
      | ok released =>
          simp only [World.giveBack, hresult]
          refine h.quarantined hlive hheld (quarantineForkBasisLocked_ok hresult) ?_ ?_
          · intro item _ hown
            simp [hown.1]
          · intro item hmem hprotects
            simpa [Seat.resolvesTo] using h.protected_of_resolves hlive hheld hmem hprotects
  | @quarantineLease owner holding reason quarantinedUtc updatedUtc hlive hheld =>
      cases hresult : (quarantineForkBasisLeaseLocked world.pool holding.leaseId reason
          quarantinedUtc updatedUtc).2 with
      | error error =>
          simp only [World.giveBack, hresult]
          unfold quarantineForkBasisLeaseLocked at hresult ⊢
          rw [persistUnlessRaised_error hresult]
          exact ⟨h, fun item hmem _ => ⟨item, hmem, rfl, rfl, rfl⟩⟩
      | ok released =>
          simp only [World.giveBack, hresult]
          refine h.quarantined hlive hheld (quarantineForkBasisLeaseLocked_ok hresult) ?_ ?_
          · rintro item - ⟨-, lease, hlease, hid, -⟩
            simp [hlease, hid]
          · intro item hmem hprotects
            simpa using h.protected_of_leaseId hlive hheld hmem hprotects
  | @exit owner hlive =>
      refine ⟨⟨h.pool, h.lifecycle, h.holder, ?_, ?_⟩,
        fun item hmem _ => ⟨item, hmem, rfl, rfl, rfl⟩⟩
      · intro other holding hother
        exact h.live other holding (exited_of_update hother)
      · intro one two holding₁ holding₂ hlive₁ hlive₂
        exact h.exclusive one two holding₁ holding₂ (exited_of_update hlive₁)
          (exited_of_update hlive₂)

/-! ## Quarantine is final -/

@[simp] theorem giveBack_pool (world : World Owner) (owner : Owner)
    (result : Pool × Except PoolError Seat) : (world.giveBack owner result).pool = result.1 := by
  unfold World.giveBack
  split <;> rfl

@[simp] theorem receive_pool (world : World Owner) (owner : Owner) (leaseId : String)
    (result : Pool × Except PoolError Seat) :
    (world.receive owner leaseId result).pool = result.1 := by
  unfold World.receive
  split <;> rfl

/-- A quarantine that does not raise poisons the generation. -/
theorem Step.quarantine_poisons {label : Op Owner × Outcome} {world' : World Owner} {item : Seat}
    (hstep : Step host pid world label world') (hquarantine : label.1.isQuarantine = true)
    (hok : label.2 = some (.ok item)) : world'.pool.status = .poisoned := by
  cases hstep with
  | checkout | reclaim | release | exit => simp [Op.isQuarantine] at hquarantine
  | quarantine hlive hheld =>
      simp only [Option.some.injEq] at hok
      rw [giveBack_pool]
      exact (quarantineForkBasisLocked_ok hok).status
  | quarantineLease hlive hheld =>
      simp only [Option.some.injEq] at hok
      rw [giveBack_pool]
      exact (quarantineForkBasisLeaseLocked_ok hok).status

/-- A poisoned generation stays poisoned and hands out no seat. -/
theorem Step.poisoned {label : Op Owner × Outcome} {world' : World Owner}
    (hpoisoned : world.pool.status = .poisoned) (hstep : Step host pid world label world') :
    world'.pool.status = .poisoned ∧
      (label.1.isCheckout = true → ∃ error, label.2 = some (.error error)) := by
  cases hstep with
  | @checkout owner request context =>
      have hready : world.pool.status ≠ .ready := by simp [hpoisoned]
      obtain ⟨hstatus, error, herror⟩ :=
        checkoutPoolSeatLocked_of_not_ready hready host request context
      rw [receive_pool]
      exact ⟨hstatus.trans hpoisoned, fun _ => ⟨error, congrArg some herror⟩⟩
  | reclaim => exact ⟨hpoisoned, by simp [Op.isCheckout]⟩
  | @release owner holding clean releasedUtc updatedUtc reason hlive hheld =>
      refine ⟨?_, by simp [Op.isCheckout]⟩
      rw [giveBack_pool]
      cases hresult : (releasePoolSeatLocked host world.pool holding.sessionDir
          (returnedStatus clean) releasedUtc reason updatedUtc).2 with
      | ok item =>
          have hbusy : returnedStatus clean ≠ .busy := by cases clean <;> simp [returnedStatus]
          rw [(releasePoolSeatLocked_ok hbusy hresult).1.status, hpoisoned]
      | error error =>
          unfold releasePoolSeatLocked at hresult ⊢
          rw [persistUnlessRaised_error hresult, hpoisoned]
  | @quarantine owner holding reason quarantinedUtc updatedUtc hlive hheld =>
      refine ⟨?_, by simp [Op.isCheckout]⟩
      rw [giveBack_pool]
      cases hresult : (quarantineForkBasisLocked host world.pool holding.sessionDir reason
          quarantinedUtc updatedUtc).2 with
      | ok item => exact (quarantineForkBasisLocked_ok hresult).status
      | error error =>
          unfold quarantineForkBasisLocked at hresult ⊢
          rw [persistUnlessRaised_error hresult, hpoisoned]
  | @quarantineLease owner holding reason quarantinedUtc updatedUtc hlive hheld =>
      refine ⟨?_, by simp [Op.isCheckout]⟩
      rw [giveBack_pool]
      cases hresult : (quarantineForkBasisLeaseLocked world.pool holding.leaseId reason
          quarantinedUtc updatedUtc).2 with
      | ok item => exact (quarantineForkBasisLeaseLocked_ok hresult).status
      | error error =>
          unfold quarantineForkBasisLeaseLocked at hresult ⊢
          rw [persistUnlessRaised_error hresult, hpoisoned]
  | exit => exact ⟨hpoisoned, by simp [Op.isCheckout]⟩

theorem Run.poisoned {labels : List (Op Owner × Outcome)} {world' : World Owner}
    (hrun : Run (Step host pid) world labels world') (hpoisoned : world.pool.status = .poisoned) :
    ∀ label ∈ labels, label.1.isCheckout = true → ∃ error, label.2 = some (.error error) := by
  induction hrun with
  | nil => simp
  | cons hstep _ ih =>
      obtain ⟨hstatus, hrefused⟩ := Step.poisoned hpoisoned hstep
      intro label hlabel hcheckout
      rcases List.mem_cons.mp hlabel with rfl | hlabel
      · exact hrefused hcheckout
      · exact ih hstatus label hlabel hcheckout

/-! ## Whole runs -/

omit [DecidableEq Owner] in
theorem World.Fresh.invariant (h : world.Fresh host) : WorldInvariant host pid world := by
  have hfree : world.pool.sessions.filter Seat.occupied = [] := by
    rw [List.filter_eq_nil_iff]
    intro item hmem
    simp [Seat.occupied, h.vacant item hmem]
  refine ⟨⟨h.dirs, ?_, ?_, ?_, ?_⟩, .inr (.inr fun item hmem => (h.vacant item hmem).2),
    ?_, ?_, ?_⟩
  · intro item hmem
    simp [h.vacant item hmem]
  · have hnone : leaseIds world.pool = [] := by
      refine List.filterMap_eq_nil_iff.mpr fun item hmem => ?_
      simp [(h.vacant item hmem).2]
    simp [hnone]
  · intro _
    simp [takenControls, hfree]
  · intro limit _
    simp [hfree]
  · intro item hmem lease hlease
    simp [(h.vacant item hmem).2] at hlease
  · intro owner holding _ hheld
    simp [h.held owner] at hheld
  · intro owner owner' holding holding' _ _ hheld
    simp [h.held owner] at hheld

/-- The invariant holds in every state of every run. -/
theorem Run.invariant {labels : List (Op Owner × Outcome)} {world' : World Owner}
    (hrun : Run (Step host pid) world labels world') (h : WorldInvariant host pid world) :
    WorldInvariant host pid world' :=
  hrun.preserves (fun _ _ _ hinv hstep => (Step.preserves hinv hstep).1) h

/-- **Leases over whole runs.**  In every state that a fresh pool reaches: the lease
ids in force are distinct; a mechanical v3 pool has at most one taken seat on each
physical control session, and no pool exceeds its attempt limit; a reclaim, whatever
it sees of the process table, frees only seats whose recorded owner it sees dead;
every lease belongs to an owner, and a further step leaves the leases of all live
owners but its actor in place.  After a quarantine no checkout succeeds. -/
theorem warm_pool_leases_hold {start : World Owner} {labels : List (Op Owner × Outcome)}
    (hfresh : start.Fresh host) (hrun : Run (Step host pid) start labels world) :
    (leaseIds world.pool).Nodup ∧
    (world.pool.executionTopology = .mechanicalBasisBrokerV3 →
      (takenControls host world.pool).Nodup) ∧
    (∀ limit, brokerPoolAttemptLimit world.pool = .ok (some limit) →
      (leaseIds world.pool).length ≤ limit) ∧
    (∀ (releasedUtc : String) (ownerAlive : ℤ → Bool),
      List.Forall₂ (fun before after : Seat =>
          (after.status = before.status ∧ after.lease = before.lease) ∨
          (before.status = .busy ∧ ∃ lease ownerPid, before.lease = some lease ∧
            lease.ownerPid = some ownerPid ∧ ownerAlive ownerPid = false))
        world.pool.sessions
        (reclaimStaleLeases world.pool releasedUtc ownerAlive).1.sessions) ∧
    (∀ item ∈ world.pool.sessions, ∀ lease, item.lease = some lease →
      ∃ owner, world.held owner = some ⟨item.sessionDir, lease.leaseId⟩) ∧
    (∀ label world', Step host pid world label world' →
      ∀ owner holding, world.exited owner = false → world.held owner = some holding →
        label.1.actor ≠ some owner →
        ∃ item ∈ world.pool.sessions, ∃ kept ∈ world'.pool.sessions,
          item.sessionDir = holding.sessionDir ∧ kept.sessionDir = holding.sessionDir ∧
          kept.status = .busy ∧ kept.lease = item.lease ∧
          ∃ lease, kept.lease = some lease ∧ lease.leaseId = holding.leaseId ∧
            lease.ownerPid = some (pid owner)) ∧
    (∀ first op item later, labels = first ++ (op, some (.ok item)) :: later →
      op.isQuarantine = true → ∀ label ∈ later, label.1.isCheckout = true →
        ∃ error, label.2 = some (.error error)) := by
  have hinv : WorldInvariant host pid world := Run.invariant hrun hfresh.invariant
  refine ⟨hinv.pool.distinctLeases, hinv.pool.controls, ?_, ?_, hinv.holder, ?_, ?_⟩
  · intro limit hlimit
    refine Nat.le_trans ?_ (hinv.pool.limit limit hlimit)
    have hlength : (leaseIds world.pool).length =
        (world.pool.sessions.filter fun item => item.lease.isSome).length := by
      unfold leaseIds
      rw [List.length_filterMap_eq_countP, ← List.countP_eq_length_filter]
      simp
    rw [hlength]
    refine List.Sublist.length_le (List.monotone_filter_right _ fun item hsome => ?_)
    simp only [Seat.occupied, Bool.or_eq_true]
    exact .inr hsome
  · intro releasedUtc ownerAlive
    refine (reclaimStaleLeases_spec world.pool releasedUtc ownerAlive hinv.pool.sessionDirs).2.imp ?_
    intro before after hclear
    exact hclear.occupancy.imp id fun hcleared => Seat.stale_iff.mp hcleared.1
  · intro label world' hstep owner holding hlive hheld hactor
    obtain ⟨item, hmem, hown⟩ := hinv.live owner holding hlive hheld
    obtain ⟨kept, hkept, hdir, hstatus, hlease⟩ := (Step.preserves hinv hstep).2 item hmem
      ⟨owner, holding, hlive, hheld, hown.1, hactor⟩
    obtain ⟨hitemDir, lease, hitemLease, hid, hpid⟩ := hown
    have hbusy : item.status = .busy := (hinv.pool.leasedBusy item hmem).mpr (by simp [hitemLease])
    exact ⟨item, hmem, kept, hkept, hitemDir, hdir.trans hitemDir, hstatus.trans hbusy, hlease,
      lease, hlease.trans hitemLease, hid, hpid⟩
  · rintro first op item later rfl hquarantine
    obtain ⟨_, -, hrest⟩ := hrun.split
    cases hrest with
    | cons hstep hlater => exact Run.poisoned hlater (hstep.quarantine_poisons hquarantine rfl)

end

/-! ## Two owners, concretely -/

/-- A free seat served by the control session `/pool/control`. -/
def aliasSeat (sessionDir : String) : Seat where
  sessionDir := sessionDir
  controlSessionDir := some "/pool/control"
  status := .idle
  lease := none
  loadedPreloads := []
  basisReady := none
  basisMissingPreloads := none
  releasedUtc := none
  releaseReason := none
  poolGenerationQuarantined := false
  poolGenerationPoisonReason := none
  releaseAfterLeaseStatus := none

/-- A ready fork-basis pool with two logical seats on one control session. -/
def aliasPool (executionTopology : ExecutionTopology) : Pool where
  status := .ready
  engine := .forkBasis
  executionTopology := executionTopology
  brokerRuntimeSha256 := none
  preloads := []
  sessions := [aliasSeat "/pool/seat-1", aliasSeat "/pool/seat-2"]
  poisonReason := none
  quarantinedUtc := none
  reclaimedLeases := []
  updatedUtc := none

/-- Owner `n` asks for a seat under the lease id `token`. -/
def manualRequest (token : String) (ownerPid : ℤ) : CheckoutRequest where
  agent := none
  leaseId := none
  token := token
  ownerKind := "manual"
  ownerPid := ownerPid
  ownerContextRun := none
  ownerCommand := none
  leasedUtc := "t0"

/-- Every process and every session is alive. -/
def quietContext : CheckoutContext where
  sessionAlive := fun _ => true
  ownerAlive := fun _ => true
  allowDirty := false
  releasedUtc := "t0"
  updatedUtc := "t0"

/-- A host without symbolic links. -/
def plainHost : Host := ⟨id⟩

/-- Nobody has taken a seat yet. -/
def aliasWorld (executionTopology : ExecutionTopology) : World ℕ where
  pool := aliasPool executionTopology
  held := fun _ => none
  exited := fun _ => false

theorem aliasWorld_fresh (executionTopology : ExecutionTopology) :
    (aliasWorld executionTopology).Fresh plainHost where
  dirs := by
    change ["/pool/seat-1", "/pool/seat-2"].Nodup
    decide
  vacant := by simp [aliasWorld, aliasPool, aliasSeat]
  held _ := rfl

/-- The world after owners 1 and 2 asked for a seat, in this order. -/
def twoCheckouts (executionTopology : ExecutionTopology) : World ℕ :=
  let first := (aliasWorld executionTopology).receive 1 "a"
    (checkoutPoolSeatLocked plainHost (aliasWorld executionTopology).pool (manualRequest "a" 1)
      quietContext)
  first.receive 2 "b" (checkoutPoolSeatLocked plainHost first.pool (manualRequest "b" 2) quietContext)

theorem twoCheckouts_run (executionTopology : ExecutionTopology) :
    ∃ labels, Run (Step plainHost Int.ofNat) (aliasWorld executionTopology) labels
      (twoCheckouts executionTopology) := by
  refine ⟨_, .cons (@Step.checkout _ _ _ _ _ 1 (manualRequest "a" 1) quietContext rfl rfl rfl
    fun _ _ _ => rfl) (.cons (@Step.checkout _ _ _ _ _ 2 (manualRequest "b" 2) quietContext
      ?_ ?_ rfl fun _ _ _ => rfl) (.nil _))⟩
  · cases executionTopology <;> rfl
  · cases executionTopology <;> rfl

/-- On a mechanical v3 pool the second checkout is refused. -/
theorem warm_pool_leases_hold_two_owners :
    leaseIds (twoCheckouts .mechanicalBasisBrokerV3).pool = ["a"] ∧
      (takenControls plainHost (twoCheckouts .mechanicalBasisBrokerV3).pool).Nodup := by
  obtain ⟨labels, hrun⟩ := twoCheckouts_run .mechanicalBasisBrokerV3
  exact ⟨by decide, (warm_pool_leases_hold (aliasWorld_fresh _) hrun).2.1 rfl⟩

/-- On any other pool the logical seats of one control session are leased together. -/
theorem control_session_shared :
    ¬ ∀ (start world : World ℕ) (labels : List (Op ℕ × Outcome)), start.Fresh plainHost →
      Run (Step plainHost Int.ofNat) start labels world →
      (takenControls plainHost world.pool).Nodup := by
  intro h
  obtain ⟨labels, hrun⟩ := twoCheckouts_run .other
  have hnodup := h _ _ labels (aliasWorld_fresh _) hrun
  have hshared : takenControls plainHost (twoCheckouts .other).pool =
      [.ok "/pool/control", .ok "/pool/control"] := by decide
  rw [hshared] at hnodup
  simp at hnodup

end Hearth.Pools
