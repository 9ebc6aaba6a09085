import Hearth.Library.Pointwise
import Hearth.Pools.SeatLifecycle

/-!
# What each lease operation can do to the seats

One lemma per operation, and nothing later unfolds an operation again.  All of
them are phrased with `Clears may`: a seat keeps its directories, and either
keeps its status and lease, or satisfied `may` and is afterwards neither busy nor
leased.  Reclaim clears stale seats, the basis annotation and the scan clear free
seats, release clears the seat it finds, quarantine clears every seat without an
active sibling lease.  Checkout additionally takes one free seat, in the middle
of the list (`Takes`).
-/

namespace Hearth.Pools

open Hearth.Library

/-- A seat keeps its identity and either keeps its occupancy or, if it satisfied
`may`, is cleared. -/
structure Clears (may : Seat → Prop) (before after : Seat) : Prop where
  sessionDir : after.sessionDir = before.sessionDir
  controlSessionDir : after.controlSessionDir = before.controlSessionDir
  occupancy : (after.status = before.status ∧ after.lease = before.lease) ∨
    (may before ∧ after.status ≠ .busy ∧ after.lease = none)

/-- The seats that a checkout may hand out or pass over. -/
def Seat.free (item : Seat) : Prop :=
  item.status = .idle ∨ item.status = .dirty

/-- The seats that reclaim returns to idle. -/
def Seat.stale (ownerAlive : ℤ → Bool) (item : Seat) : Prop :=
  (staleLease? ownerAlive item).isSome

namespace Clears

variable {may other : Seat → Prop} {before after : Seat}

theorem refl (may : Seat → Prop) (item : Seat) : Clears may item item :=
  ⟨rfl, rfl, .inl ⟨rfl, rfl⟩⟩

theorem mono (hmay : ∀ item, may item → other item) (h : Clears may before after) :
    Clears other before after :=
  ⟨h.sessionDir, h.controlSessionDir,
    h.occupancy.imp id fun hcleared => ⟨hmay _ hcleared.1, hcleared.2⟩⟩

/-- A seat that was not to be cleared keeps its status and its lease. -/
theorem eq_of_not (h : Clears may before after) (hnot : ¬ may before) :
    after.status = before.status ∧ after.lease = before.lease :=
  h.occupancy.resolve_right fun hcleared => hnot hcleared.1

/-- The lease of a seat is lost or kept, never replaced. -/
theorem lease (h : Clears may before after) : after.lease = none ∨ after.lease = before.lease :=
  h.occupancy.elim (fun hkept => .inr hkept.2) fun hcleared => .inl hcleared.2.2

/-- Clearing never occupies a seat. -/
theorem occupied (h : Clears may before after) (hafter : after.occupied) : before.occupied := by
  rcases h.occupancy with ⟨hstatus, hlease⟩ | ⟨-, hstatus, hlease⟩
  · simpa [Seat.occupied, hstatus, hlease] using hafter
  · simp [Seat.occupied, hstatus, hlease] at hafter

/-- Two operations in a row, for a `may` that reads status and lease only. -/
theorem trans (hmay : ∀ item item' : Seat, item'.status = item.status →
      item'.lease = item.lease → may item' → may item) {last : Seat}
    (h : Clears may before after) (h' : Clears may after last) : Clears may before last := by
  refine ⟨h'.sessionDir.trans h.sessionDir, h'.controlSessionDir.trans h.controlSessionDir, ?_⟩
  rcases h'.occupancy with ⟨hstatus, hlease⟩ | ⟨hafter, hcleared⟩
  · rw [hstatus, hlease]
    exact h.occupancy
  · rcases h.occupancy with ⟨hstatus, hlease⟩ | ⟨hbefore, -⟩
    · exact .inr ⟨hmay _ _ hstatus hlease hafter, hcleared⟩
    · exact .inr ⟨hbefore, hcleared⟩

theorem controlIdentity_eq (h : Clears may before after) :
    controlIdentity after = controlIdentity before := by
  simp [controlIdentity, h.sessionDir, h.controlSessionDir]

theorem physicalControlSession_eq (host : Host) (h : Clears may before after) :
    physicalControlSession host after = physicalControlSession host before := by
  simp [physicalControlSession, h.controlIdentity_eq]

end Clears

/-- Two operations in a row on a list of seats. -/
theorem forall₂_clears_trans {may : Seat → Prop} (hmay : ∀ item item' : Seat,
      item'.status = item.status → item'.lease = item.lease → may item' → may item)
    {first second third : List Seat} (h : List.Forall₂ (Clears may) first second)
    (h' : List.Forall₂ (Clears may) second third) : List.Forall₂ (Clears may) first third := by
  refine forall₂_trans ?_ h h'
  intro before middle after hbefore hafter
  exact Clears.trans hmay hbefore hafter

theorem forall₂_clears_refl (may : Seat → Prop) (sessions : List Seat) :
    List.Forall₂ (Clears may) sessions sessions :=
  List.forall₂_same.mpr fun item _ => Clears.refl may item

/-- The fields of the pool record that no lease operation but quarantine writes. -/
structure SameGeneration (before after : Pool) : Prop where
  status : after.status = before.status
  engine : after.engine = before.engine
  executionTopology : after.executionTopology = before.executionTopology
  brokerRuntimeSha256 : after.brokerRuntimeSha256 = before.brokerRuntimeSha256

theorem SameGeneration.refl (pool : Pool) : SameGeneration pool pool := ⟨rfl, rfl, rfl, rfl⟩

theorem SameGeneration.trans {first second third : Pool} (h : SameGeneration first second)
    (h' : SameGeneration second third) : SameGeneration first third :=
  ⟨h'.status.trans h.status, h'.engine.trans h.engine,
    h'.executionTopology.trans h.executionTopology,
    h'.brokerRuntimeSha256.trans h.brokerRuntimeSha256⟩

theorem sameGeneration_persist (pool : Pool) (updatedUtc : String) :
    SameGeneration pool (persist pool updatedUtc) := ⟨rfl, rfl, rfl, rfl⟩

@[simp] theorem persist_sessions (pool : Pool) (updatedUtc : String) :
    (persist pool updatedUtc).sessions = pool.sessions := rfl

/-! ## Reclaim and annotation -/

theorem mem_stalePoolLeases {pool : Pool} {ownerAlive : ℤ → Bool} {row : StaleLease} :
    row ∈ stalePoolLeases pool ownerAlive ↔
      ∃ item ∈ pool.sessions, staleLease? ownerAlive item = some row := by
  simp [stalePoolLeases, List.mem_filterMap]

/-- What makes a seat stale: it is busy and its lease names a dead process. -/
theorem staleLease?_eq_some {ownerAlive : ℤ → Bool} {item : Seat} {row : StaleLease}
    (h : staleLease? ownerAlive item = some row) :
    item.status = .busy ∧ row.sessionDir = item.sessionDir ∧
      ∃ lease, item.lease = some lease ∧ lease.ownerPid = some row.ownerPid ∧
        ownerAlive row.ownerPid = false := by
  unfold staleLease? at h
  split at h
  · rename_i hbusy
    refine ⟨hbusy, ?_⟩
    cases hlease : item.lease with
    | none => simp [hlease] at h
    | some lease =>
        cases hpid : lease.ownerPid with
        | none => simp [hlease, hpid] at h
        | some ownerPid =>
            cases halive : ownerAlive ownerPid with
            | true => simp [hlease, hpid, halive] at h
            | false =>
                simp only [hlease, hpid, halive, Bool.false_eq_true, if_false,
                  Option.some.injEq] at h
                subst h
                exact ⟨rfl, lease, rfl, hpid, halive⟩
  · simp at h

/-- The process recorded in a stale lease is dead. -/
theorem Seat.stale_iff {ownerAlive : ℤ → Bool} {item : Seat} :
    item.stale ownerAlive ↔ item.status = .busy ∧
      ∃ lease ownerPid, item.lease = some lease ∧ lease.ownerPid = some ownerPid ∧
        ownerAlive ownerPid = false := by
  constructor
  · intro h
    obtain ⟨row, hrow⟩ := Option.isSome_iff_exists.mp h
    obtain ⟨hbusy, -, lease, hlease, hpid, hdead⟩ := staleLease?_eq_some hrow
    exact ⟨hbusy, lease, row.ownerPid, hlease, hpid, hdead⟩
  · rintro ⟨hbusy, lease, ownerPid, hlease, hpid, hdead⟩
    simp [Seat.stale, staleLease?, hbusy, hlease, hpid, hdead]

/-- Reclaim clears the stale seats and no others, as long as the session
directories tell the seats apart. -/
theorem reclaimStaleLeases_spec (pool : Pool) (releasedUtc : String) (ownerAlive : ℤ → Bool)
    (hdirs : (pool.sessions.map Seat.sessionDir).Nodup) :
    SameGeneration pool (reclaimStaleLeases pool releasedUtc ownerAlive).1 ∧
      List.Forall₂ (Clears (Seat.stale ownerAlive)) pool.sessions
        (reclaimStaleLeases pool releasedUtc ownerAlive).1.sessions := by
  refine ⟨⟨rfl, rfl, rfl, rfl⟩, forall₂_map_self fun item hitem => ?_⟩
  split
  · rename_i h
    obtain ⟨hstale, hbusy⟩ := h
    obtain ⟨row, hrow, hdir⟩ := List.mem_map.mp hstale
    obtain ⟨other, hother, hsome⟩ := mem_stalePoolLeases.mp hrow
    have hsame : other = item := by
      refine List.inj_on_of_nodup_map hdirs hother hitem ?_
      rw [← (staleLease?_eq_some hsome).2.1, hdir]
    subst hsame
    exact ⟨rfl, rfl, .inr ⟨by simp [Seat.stale, hsome], by simp [reclaimSeat], rfl⟩⟩
  · exact Clears.refl _ _

theorem annotateSeat_clears (pool : Pool) (item : Seat) :
    Clears Seat.free item (annotateSeat pool item) := by
  by_cases h : warmPoolMissingPreloads pool item ≠ [] ∧
      (item.status = .idle ∨ item.status = .dirty)
  · simp only [annotateSeat, if_pos h]
    exact ⟨rfl, rfl, .inr ⟨h.2, by simp, rfl⟩⟩
  · simp only [annotateSeat, if_neg h]
    exact ⟨rfl, rfl, .inl ⟨rfl, rfl⟩⟩

theorem annotateWarmPoolBasisState_spec (pool : Pool) :
    SameGeneration pool (annotateWarmPoolBasisState pool).1 ∧
      List.Forall₂ (Clears Seat.free) pool.sessions
        (annotateWarmPoolBasisState pool).1.sessions :=
  ⟨⟨rfl, rfl, rfl, rfl⟩, forall₂_map_self fun item _ => annotateSeat_clears pool item⟩

/-! ## Checkout -/

/-- `Takes may suitable lease before after`: some seats satisfying `may` were
cleared, and then one suitable seat was handed out under `lease`. -/
def Takes (may : Seat → Prop) (suitable : List Seat → Seat → Prop) (lease : Lease)
    (before after : List Seat) (item : Seat) : Prop :=
  ∃ first seat last, List.Forall₂ (Clears may) before (first ++ seat :: last) ∧
    suitable (first ++ seat :: last) seat ∧ item = takeSeat lease seat ∧
    after = first ++ takeSeat lease seat :: last

/-- The outcome of a scan: seats were cleared, and possibly one was taken. -/
def ScanOutcome (may : Seat → Prop) (suitable : List Seat → Seat → Prop) (lease : Lease)
    (before after : List Seat) : Option Seat → Prop
  | none => List.Forall₂ (Clears may) before after
  | some item => Takes may suitable lease before after item

theorem ScanOutcome.cons {may : Seat → Prop} {suitable : Seat → Prop} {lease : Lease}
    {before after : List Seat} {taken : Option Seat} {seat changed : Seat}
    (hchanged : Clears may seat changed)
    (h : ScanOutcome may (fun _ => suitable) lease before after taken) :
    ScanOutcome may (fun _ => suitable) lease (seat :: before) (changed :: after) taken := by
  cases taken with
  | none => exact List.Forall₂.cons hchanged h
  | some item =>
      obtain ⟨first, found, last, hall, hsuitable, hitem, hafter⟩ := h
      exact ⟨changed :: first, found, last, List.Forall₂.cons hchanged hall, hsuitable, hitem,
        by rw [hafter]; rfl⟩

theorem ScanOutcome.after {may : Seat → Prop} {suitable : List Seat → Seat → Prop} {lease : Lease}
    {before middle after : List Seat} {taken : Option Seat}
    (hmay : ∀ item item' : Seat, item'.status = item.status → item'.lease = item.lease →
      may item' → may item)
    (hfirst : List.Forall₂ (Clears may) before middle)
    (h : ScanOutcome may suitable lease middle after taken) :
    ScanOutcome may suitable lease before after taken := by
  cases taken with
  | none => exact forall₂_clears_trans hmay hfirst h
  | some item =>
      obtain ⟨first, found, last, hall, hrest⟩ := h
      exact ⟨first, found, last, forall₂_clears_trans hmay hfirst hall, hrest⟩

theorem ScanOutcome.mono {may other : Seat → Prop} {suitable suitable' : List Seat → Seat → Prop}
    {lease : Lease} {before after : List Seat} {taken : Option Seat}
    (hmay : ∀ item, may item → other item)
    (hsuitable : ∀ middle seat, List.Forall₂ (Clears may) before middle → seat ∈ middle →
      suitable middle seat → suitable' middle seat)
    (h : ScanOutcome may suitable lease before after taken) :
    ScanOutcome other suitable' lease before after taken := by
  cases taken with
  | none => exact h.imp fun _ _ => Clears.mono hmay
  | some item =>
      obtain ⟨first, found, last, hall, hfound, hrest⟩ := h
      exact ⟨first, found, last, hall.imp fun _ _ => Clears.mono hmay,
        hsuitable _ _ hall (by simp) hfound, hrest⟩

theorem free_of_eq (item item' : Seat) (hstatus : item'.status = item.status)
    (_ : item'.lease = item.lease) (h : item'.free) : item.free := by
  unfold Seat.free at h ⊢
  rwa [hstatus] at h

theorem stale_of_eq {ownerAlive : ℤ → Bool} (item item' : Seat)
    (hstatus : item'.status = item.status) (hlease : item'.lease = item.lease)
    (h : item'.stale ownerAlive) : item.stale ownerAlive := by
  rw [Seat.stale_iff] at h ⊢
  rwa [hstatus, hlease] at h

/-- One pass of the scan clears free seats only, and hands out an unblocked seat
in the wanted status. -/
theorem scanSeats_spec (pool : Pool) (blocked sessionAlive : Seat → Bool) (lease : Lease)
    {wanted : SeatStatus} (hwanted : wanted = .idle ∨ wanted = .dirty) (sessions : List Seat) :
    ScanOutcome Seat.free (fun _ seat => seat.free ∧ ¬ blocked seat) lease sessions
      (scanSeats pool blocked sessionAlive lease wanted sessions).1
      (scanSeats pool blocked sessionAlive lease wanted sessions).2 := by
  induction sessions with
  | nil => exact .nil
  | cons head rest ih =>
      by_cases hskip : head.status ≠ wanted ∨ blocked head
      · simp only [scanSeats, if_pos hskip]
        exact ih.cons (Clears.refl _ _)
      · have hstatus : head.status = wanted := by
          by_contra hne
          exact hskip (.inl hne)
        have hfree : head.free := by
          unfold Seat.free
          rwa [hstatus]
        by_cases hmissing : warmPoolMissingPreloads pool head ≠ []
        · simp only [scanSeats, if_neg hskip, if_pos hmissing]
          exact ih.cons ⟨rfl, rfl, .inr ⟨hfree, by simp, rfl⟩⟩
        · by_cases halive : ¬ sessionAlive head
          · simp only [scanSeats, if_neg hskip, if_neg hmissing, if_pos halive]
            exact ih.cons ⟨rfl, rfl, .inr ⟨hfree, by simp, rfl⟩⟩
          · simp only [scanSeats, if_neg hskip, if_neg hmissing, if_neg halive]
            exact ⟨[], head, rest, forall₂_clears_refl _ _,
              ⟨hfree, fun hb => hskip (.inr hb)⟩, rfl, rfl⟩

theorem mem_preferredStatuses {allowDirty : Bool} {wanted : SeatStatus}
    (h : wanted ∈ preferredStatuses allowDirty) : wanted = .idle ∨ wanted = .dirty := by
  unfold preferredStatuses at h
  split at h
  · simpa using h
  · left
    simpa using h

/-- The scan over the preferred statuses. -/
theorem scanStatuses_spec (blocked sessionAlive : Seat → Bool) (lease : Lease)
    {statuses : List SeatStatus} (hstatuses : ∀ wanted ∈ statuses, wanted = .idle ∨ wanted = .dirty)
    (pool : Pool) :
    SameGeneration pool (scanStatuses blocked sessionAlive lease pool statuses).1 ∧
      ScanOutcome Seat.free (fun _ seat => seat.free ∧ ¬ blocked seat) lease pool.sessions
        (scanStatuses blocked sessionAlive lease pool statuses).1.sessions
        (scanStatuses blocked sessionAlive lease pool statuses).2 := by
  induction statuses generalizing pool with
  | nil =>
      exact ⟨SameGeneration.refl _, forall₂_clears_refl _ _⟩
  | cons wanted rest ih =>
      have hscan := scanSeats_spec pool blocked sessionAlive lease
        (hstatuses wanted (List.mem_cons_self ..)) pool.sessions
      cases htaken : (scanSeats pool blocked sessionAlive lease wanted pool.sessions).2 with
      | some item =>
          rw [htaken] at hscan
          simp only [scanStatuses, htaken]
          exact ⟨⟨rfl, rfl, rfl, rfl⟩, hscan⟩
      | none =>
          rw [htaken] at hscan
          simp only [scanStatuses, htaken]
          obtain ⟨hsame, hrest⟩ := ih (fun other hother =>
            hstatuses other (List.mem_cons_of_mem _ hother))
            { pool with
              sessions := (scanSeats pool blocked sessionAlive lease wanted pool.sessions).1 }
          exact ⟨⟨hsame.status, hsame.engine, hsame.executionTopology, hsame.brokerRuntimeSha256⟩,
            hrest.after free_of_eq hscan⟩

/-- The seats a checkout may clear: stale ones, and free ones it passes over. -/
def Seat.staleOrFree (ownerAlive : ℤ → Bool) (item : Seat) : Prop :=
  item.stale ownerAlive ∨ item.free

theorem staleOrFree_of_eq {ownerAlive : ℤ → Bool} (item item' : Seat)
    (hstatus : item'.status = item.status) (hlease : item'.lease = item.lease)
    (h : item'.staleOrFree ownerAlive) : item.staleOrFree ownerAlive :=
  h.imp (stale_of_eq item item' hstatus hlease) (free_of_eq item item' hstatus hlease)

/-- What checkout guarantees about the seat it hands out, against the seats as
they were just before: it is free, the attempt limit is not yet reached, and for a
mechanical v3 pool no occupied seat shares its control session. -/
structure Grantable (host : Host) (pool : Pool) (sessions : List Seat) (seat : Seat) : Prop where
  free : seat.free
  limit : ∀ limit, brokerPoolAttemptLimit pool = .ok (some limit) →
    (sessions.filter Seat.occupied).length < limit
  control : pool.executionTopology = .mechanicalBasisBrokerV3 →
    physicalControlSession host seat ∉
      (sessions.filter Seat.occupied).map (physicalControlSession host)

theorem brokerPoolAttemptLimit_eq {before after : Pool} (h : SameGeneration before after) :
    brokerPoolAttemptLimit after = brokerPoolAttemptLimit before := by
  simp only [brokerPoolAttemptLimit, h.executionTopology, h.brokerRuntimeSha256]

theorem physicalBrokerCapacity_isSome {host : Host} {pool : Pool} {capacity : Option ℕ}
    (h : physicalBrokerCapacity host pool = .ok capacity)
    (htopology : pool.executionTopology = .mechanicalBasisBrokerV3) : capacity.isSome := by
  simp only [physicalBrokerCapacity, htopology] at h
  cases hcontrols : pool.sessions.mapM (physicalControlSession host) with
  | error error => simp [hcontrols, bind, Except.bind] at h
  | ok controls =>
      cases hlimit : brokerPoolAttemptLimit pool with
      | error error => simp [hcontrols, hlimit, bind, Except.bind] at h
      | ok limit =>
          simp only [hcontrols, hlimit, bind, Except.bind, pure, Except.pure,
            Except.ok.injEq] at h
          subst h
          rfl

/-- Clearing seats only shrinks the occupied ones. -/
theorem occupied_sublist {may : Seat → Prop} {before after : List Seat} (host : Host)
    (h : List.Forall₂ (Clears may) before after) :
    ((after.filter Seat.occupied).map (physicalControlSession host)).Sublist
      ((before.filter Seat.occupied).map (physicalControlSession host)) := by
  have hview : ∀ sessions : List Seat,
      (sessions.filter Seat.occupied).map (physicalControlSession host) =
        sessions.filterMap fun item =>
          if item.occupied then some (physicalControlSession host item) else none := by
    intro sessions
    induction sessions with
    | nil => rfl
    | cons item rest ih => by_cases hitem : item.occupied <;> simp [hitem, ih]
  rw [hview, hview]
  refine filterMap_sublist_of_forall₂ (fun item item' hclear => ?_) h
  by_cases hafter : item'.occupied
  · exact .inr (by rw [if_pos hafter, if_pos (hclear.occupied hafter),
      hclear.physicalControlSession_eq])
  · exact .inl (if_neg hafter)

theorem occupied_length_le {may : Seat → Prop} {before after : List Seat} (host : Host)
    (h : List.Forall₂ (Clears may) before after) :
    (after.filter Seat.occupied).length ≤ (before.filter Seat.occupied).length := by
  simpa using (occupied_sublist host h).length_le

/-- The seats a checkout reclaims and annotates before it looks for one. -/
theorem annotated_spec (pool : Pool) (context : CheckoutContext)
    (hdirs : (pool.sessions.map Seat.sessionDir).Nodup) :
    SameGeneration pool (annotateWarmPoolBasisState
        (reclaimStaleLeases pool context.releasedUtc context.ownerAlive).1).1 ∧
      List.Forall₂ (Clears (Seat.staleOrFree context.ownerAlive)) pool.sessions
        (annotateWarmPoolBasisState
          (reclaimStaleLeases pool context.releasedUtc context.ownerAlive).1).1.sessions := by
  obtain ⟨hsame, hreclaim⟩ :=
    reclaimStaleLeases_spec pool context.releasedUtc context.ownerAlive hdirs
  obtain ⟨hsame', hannotate⟩ := annotateWarmPoolBasisState_spec
    (reclaimStaleLeases pool context.releasedUtc context.ownerAlive).1
  have hstale : ∀ item, Seat.stale context.ownerAlive item → item.staleOrFree context.ownerAlive :=
    fun _ => Or.inl
  have hfree : ∀ item, Seat.free item → item.staleOrFree context.ownerAlive := fun _ => Or.inr
  exact ⟨hsame.trans hsame', forall₂_clears_trans staleOrFree_of_eq
    (hreclaim.imp fun _ _ => Clears.mono hstale) (hannotate.imp fun _ _ => Clears.mono hfree)⟩

/-- **Checkout.**  It clears stale and free seats only; when it hands out a seat,
the pool is ready and the seat is grantable. -/
theorem checkoutWarmPoolSeat_spec (host : Host) (pool : Pool) (context : CheckoutContext)
    (lease : Lease) (hdirs : (pool.sessions.map Seat.sessionDir).Nodup) :
    SameGeneration pool (checkoutWarmPoolSeat host pool context lease).1 ∧
      match (checkoutWarmPoolSeat host pool context lease).2 with
      | .error _ => List.Forall₂ (Clears (Seat.staleOrFree context.ownerAlive)) pool.sessions
          (checkoutWarmPoolSeat host pool context lease).1.sessions
      | .ok item => pool.status = .ready ∧
          Takes (Seat.staleOrFree context.ownerAlive) (Grantable host pool) lease pool.sessions
            (checkoutWarmPoolSeat host pool context lease).1.sessions item := by
  unfold checkoutWarmPoolSeat
  by_cases hready : pool.status ≠ .ready
  · rw [if_pos hready]
    exact ⟨SameGeneration.refl _, forall₂_clears_refl _ _⟩
  rw [if_neg hready]
  obtain ⟨hsame, hclears⟩ := annotated_spec pool context hdirs
  generalize hannotated : (annotateWarmPoolBasisState
    (reclaimStaleLeases pool context.releasedUtc context.ownerAlive).1).1 = annotated at hsame hclears
  simp only [hannotated]
  cases hlimit : brokerPoolAttemptLimit annotated with
  | error error => exact ⟨hsame, hclears⟩
  | ok attemptLimit =>
  simp only
  by_cases hfull : attemptLimit.any fun limit =>
      decide (limit ≤ (annotated.sessions.filter Seat.occupied).length)
  · rw [if_pos hfull]
    exact ⟨hsame, hclears⟩
  rw [if_neg hfull]
  cases hcapacity : physicalBrokerCapacity host annotated with
  | error error => exact ⟨hsame, hclears⟩
  | ok physicalCapacity =>
  simp only
  obtain ⟨hsame', hscan⟩ := scanStatuses_spec
    (fun item => physicalCapacity.isSome &&
      (occupiedControls host annotated).contains (physicalControlSession host item))
    context.sessionAlive lease
    (fun wanted (hwanted : wanted ∈ preferredStatuses context.allowDirty) =>
      mem_preferredStatuses hwanted) annotated
  generalize scanStatuses _ context.sessionAlive lease annotated
    (preferredStatuses context.allowDirty) = scanned at hsame' hscan ⊢
  have hgrant : ScanOutcome (Seat.staleOrFree context.ownerAlive) (Grantable host pool) lease
      annotated.sessions scanned.1.sessions scanned.2 := by
    refine hscan.mono (fun _ => Or.inr) ?_
    rintro middle seat hmiddle - ⟨hfree, hblocked⟩
    refine ⟨hfree, fun limit hpool => ?_, fun htopology hmem => hblocked ?_⟩
    · rw [← brokerPoolAttemptLimit_eq hsame, hlimit] at hpool
      have hsome : attemptLimit = some limit := by simpa using hpool
      have hroom : (annotated.sessions.filter Seat.occupied).length < limit := by
        simpa [hsome] using hfull
      exact Nat.lt_of_le_of_lt (occupied_length_le host hmiddle) hroom
    · have hsome := physicalBrokerCapacity_isSome hcapacity (hsame.executionTopology.trans htopology)
      simpa [hsome, occupiedControls] using (occupied_sublist host hmiddle).subset hmem
  have hafter := hgrant.after staleOrFree_of_eq hclears
  cases htaken : scanned.2 with
  | some item =>
      rw [htaken] at hafter
      exact ⟨hsame.trans hsame', not_not.mp hready, hafter⟩
  | none =>
      rw [htaken] at hafter
      simp only
      split
      · exact ⟨hsame.trans hsame', hafter⟩
      · exact ⟨hsame.trans hsame', hafter⟩

/-! ## Release -/

/-- A release that found a seat changed that seat and no other. -/
theorem updateFirst_eq_some {found : Seat → Bool} {update : Seat → Seat} {sessions : List Seat}
    {item : Seat} (h : (updateFirst found update sessions).2 = some item) :
    ∃ first seat last, sessions = first ++ seat :: last ∧ found seat ∧ item = update seat ∧
      (updateFirst found update sessions).1 = first ++ update seat :: last := by
  induction sessions with
  | nil => simp [updateFirst] at h
  | cons head rest ih =>
      by_cases hfound : found head
      · simp only [updateFirst, if_pos hfound, Option.some.injEq] at h ⊢
        exact ⟨[], head, rest, rfl, hfound, h.symm, rfl⟩
      · simp only [updateFirst, if_neg hfound] at h ⊢
        obtain ⟨first, seat, last, hsessions, hseat, hitem, hafter⟩ := ih h
        exact ⟨head :: first, seat, last, by rw [hsessions]; rfl, hseat, hitem,
          by rw [hafter]; rfl⟩

/-- A seat that release finds in a pool which still owns its seats' states is
cleared, unless it is given the status busy. -/
theorem releaseSeat_clears (pool : Pool) {status : SeatStatus} (hstatus : status ≠ .busy)
    (releasedUtc : String) (reason : Option String) (item : Seat) :
    Clears (fun _ => True) item (releaseSeat pool status releasedUtc reason item) := by
  unfold releaseSeat
  by_cases hready : pool.status ≠ .ready
  · rw [if_pos hready]
    by_cases hpoisoned : pool.engine = .forkBasis ∧ pool.status = .poisoned
    · rw [if_pos hpoisoned]
      exact ⟨rfl, rfl, .inr ⟨trivial, by simp, rfl⟩⟩
    · rw [if_neg hpoisoned]
      exact ⟨rfl, rfl, .inl ⟨rfl, rfl⟩⟩
  · rw [if_neg hready]
    refine ⟨rfl, rfl, .inr ⟨trivial, ?_, rfl⟩⟩
    by_cases hcleaned : pool.engine = .forkBasis ∧ status = .dirty
    · simp [hcleaned]
    · simpa [hcleaned] using hstatus

/-- A pool hands a released seat's lease back if it is ready, or if it is a
quarantined fork basis. -/
theorem releaseSeat_lease {pool : Pool} (hpool : pool.status = .ready ∨
      (pool.engine = .forkBasis ∧ pool.status = .poisoned)) (status : SeatStatus)
    (releasedUtc : String) (reason : Option String) (item : Seat) :
    (releaseSeat pool status releasedUtc reason item).lease = none := by
  unfold releaseSeat
  by_cases hready : pool.status ≠ .ready
  · rw [if_pos hready, if_pos (hpool.resolve_left hready)]
  · rw [if_neg hready]

/-- The seats that a release of `session` may clear. -/
def Seat.resolvesTo (host : Host) (session : String) (item : Seat) : Prop :=
  host.resolve item.sessionDir = host.resolve session

/-- **Release.**  It touches one seat at most, and only one whose directory
resolves to the released session. -/
theorem releaseWarmPoolSeat_spec (host : Host) (pool : Pool) (session : String)
    {status : SeatStatus} (hstatus : status ≠ .busy) (releasedUtc : String)
    (reason : Option String) :
    SameGeneration pool (releaseWarmPoolSeat host pool session status releasedUtc reason).1 ∧
      List.Forall₂ (Clears (Seat.resolvesTo host session)) pool.sessions
        (releaseWarmPoolSeat host pool session status releasedUtc reason).1.sessions := by
  unfold releaseWarmPoolSeat
  cases hupdated : (updateFirst (fun item => host.resolve item.sessionDir = host.resolve session)
      (releaseSeat pool status releasedUtc reason) pool.sessions).2 with
  | none =>
      simp only [hupdated]
      exact ⟨SameGeneration.refl _, forall₂_clears_refl _ _⟩
  | some item =>
      simp only [hupdated]
      obtain ⟨first, seat, last, hsessions, hfound, -, hafter⟩ := updateFirst_eq_some hupdated
      refine ⟨⟨rfl, rfl, rfl, rfl⟩, ?_⟩
      rw [hafter, hsessions]
      refine List.rel_append (forall₂_clears_refl _ _)
        (List.Forall₂.cons ?_ (forall₂_clears_refl _ _))
      have hclears := releaseSeat_clears pool hstatus releasedUtc reason seat
      exact ⟨hclears.sessionDir, hclears.controlSessionDir,
        hclears.occupancy.imp id fun h => ⟨by simpa [Seat.resolvesTo] using hfound, h.2⟩⟩

/-! ## Quarantine -/

/-- The seats whose state quarantine leaves to their own release. -/
def Seat.activeSibling (isReleased : Seat → Bool) (item : Seat) : Prop :=
  item.status = .busy ∧ item.lease.isSome ∧ ¬ isReleased item

/-- **Quarantine.**  It clears every seat but the active siblings. -/
theorem quarantineSeat_clears (isReleased : Seat → Bool) (reason quarantinedUtc : String)
    (item : Seat) : Clears (fun seat => ¬ seat.activeSibling isReleased) item
      (quarantineSeat isReleased reason quarantinedUtc item) := by
  unfold quarantineSeat
  by_cases hactive : item.status = .busy ∧ item.lease.isSome ∧ ¬ isReleased item
  · simp only [if_pos hactive]
    exact ⟨rfl, rfl, .inl ⟨rfl, rfl⟩⟩
  · simp only [if_neg hactive]
    exact ⟨rfl, rfl, .inr ⟨hactive, by simp, rfl⟩⟩

/-- A released seat leaves quarantine without its lease. -/
theorem quarantineSeat_lease {isReleased : Seat → Bool} {item : Seat} (h : isReleased item)
    (reason quarantinedUtc : String) :
    (quarantineSeat isReleased reason quarantinedUtc item).lease = none := by
  simp [quarantineSeat, h]

/-- The fields of the pool record that no lease operation writes at all. -/
structure SameBroker (before after : Pool) : Prop where
  engine : after.engine = before.engine
  executionTopology : after.executionTopology = before.executionTopology
  brokerRuntimeSha256 : after.brokerRuntimeSha256 = before.brokerRuntimeSha256

end Hearth.Pools
