import Hearth.Broker.Children

/-!
# Orphans

A registered child belongs to the handler that read its pid, and that handler is active
from then on until it is finished.  While the reaper runs it holds the lock and no
attempt is active, so every child it terminates has a finished handler.
-/

namespace Hearth.Broker

open Hearth.Library

/-! ## One handler -/

/-- What is so of a handler and what it shares. -/
structure HandlerFacts (handler : ℕ) (attemptId : String) (shared : Shared) (phase : HandlerPhase) :
    Prop where
  owns : ∀ pid, phase.child = some pid → shared.spawnedBy pid = some handler
  spawned : ∀ pid, shared.spawnedBy pid = some handler →
    phase.child = some pid ∨ phase = .leaving ∨ phase = .finished
  active : phase.active = true → attemptId ∈ shared.activeAttemptIds
  locks : phase.locks = true → shared.lockHolder = some handler
  settled : ∀ pid, phase = .settled pid true → shared.process pid = .gone
  verified : ∀ pid, phase = .reporting pid true →
    shared.process pid = .gone ∧ ∀ child ∈ shared.children, child.pid ≠ pid

/-- What a step of a handler may do to what it shares. -/
structure HandlerEffect (handler : ℕ) (attemptId : String) (phase : HandlerPhase)
    (shared later : Shared) : Prop where
  spawned : ∀ pid owner, shared.spawnedBy pid = some owner → later.spawnedBy pid = some owner
  spawns : ∀ pid owner, later.spawnedBy pid = some owner →
    shared.spawnedBy pid = some owner ∨ owner = handler
  gone : ∀ pid, shared.process pid = .gone → later.process pid = .gone
  born : ∀ pid, later.process pid = .unborn →
    shared.process pid = .unborn ∧ later.spawnedBy pid = shared.spawnedBy pid
  registers : ∀ child ∈ later.children, child ∈ shared.children ∨ phase.child = some child.pid
  active : ∀ other ∈ shared.activeAttemptIds,
    other ∈ later.activeAttemptIds ∨ other = attemptId ∧ phase.active = true
  lock : ∀ other, other ≠ handler → shared.lockHolder = some other → later.lockHolder = some other

section

variable {handler : ℕ} {attemptId : String} {shared later : Shared} {phase next : HandlerPhase}

theorem HandlerEffect.refl : HandlerEffect handler attemptId phase shared shared :=
  ⟨fun _ _ h => h, fun _ _ h => .inl h, fun _ h => h, fun _ h => ⟨h, rfl⟩, fun _ h => .inl h,
    fun _ h => .inl h, fun _ _ h => h⟩

theorem HandlerEffect.unregister (pid : ℕ) :
    HandlerEffect handler attemptId phase shared (shared.unregister pid) := by
  refine ⟨fun _ _ h => h, fun _ _ h => .inl h, fun _ h => h, fun _ h => ⟨h, rfl⟩, ?_,
    fun _ h => .inl h, fun _ _ h => h⟩
  intro child hmem
  exact .inl (ActiveBrokerChildren.mem_unregister.mp hmem).1

theorem HandlerEffect.register {pid : ℕ} (hchild : phase.child = some pid) :
    HandlerEffect handler attemptId phase shared (shared.register ⟨attemptId, pid⟩) := by
  refine ⟨fun _ _ h => h, fun _ _ h => .inl h, fun _ h => h, fun _ h => ⟨h, rfl⟩, ?_,
    fun _ h => .inl h, fun _ _ h => h⟩
  intro child hmem
  rcases ActiveBrokerChildren.mem_register hmem with rfl | hold
  · exact .inr hchild
  · exact .inl hold

/-- The lock is given back by the one that has it. -/
theorem HandlerEffect.unlock (h : HandlerEffect handler attemptId phase shared later)
    (hlocks : shared.lockHolder = some handler) :
    HandlerEffect handler attemptId phase shared { later with lockHolder := none } := by
  refine ⟨h.spawned, h.spawns, h.gone, h.born, h.registers, h.active, ?_⟩
  intro other hother hheld
  rw [hlocks] at hheld
  cases hheld
  exact absurd rfl hother

theorem HandlerEffect.enter (h : HandlerEffect handler attemptId phase shared later) :
    HandlerEffect handler attemptId phase shared
      { later with activeAttemptIds := attemptId :: later.activeAttemptIds } :=
  ⟨h.spawned, h.spawns, h.gone, h.born, h.registers,
    fun other hmem => (h.active other hmem).imp (.tail _) id, h.lock⟩

theorem HandlerStep.effect (hstep : HandlerStep handler attemptId shared phase next later)
    (hfacts : HandlerFacts handler attemptId shared phase)
    (hborn : ∀ pid, shared.process pid = .unborn → shared.spawnedBy pid = none) :
    HandlerEffect handler attemptId phase shared later := by
  cases hstep with
  | duplicate | survey | unspawned | unidentified | unacknowledged | unowned | own | disown
  | disownedAlive | settle | unverified | fail | failedAlive => exact .refl
  | reap | disownedQuiescent | verify | verifyUnwritten | failedQuiescent => exact .unregister _
  | register | unwritten => exact .register rfl
  | activate => exact HandlerEffect.refl.enter
  | lock hfree hnone =>
      refine ⟨fun _ _ h => h, fun _ _ h => .inl h, fun _ h => h, fun _ h => ⟨h, rfl⟩,
        fun _ h => .inl h, fun _ h => .inl h, ?_⟩
      intro other _ hheld
      rw [hfree] at hheld
      cases hheld
  | reapUnwritten => exact (HandlerEffect.unregister _).unlock (hfacts.locks rfl)
  | survivor => exact HandlerEffect.refl.unlock (hfacts.locks rfl)
  | reaped => exact HandlerEffect.refl.enter.unlock (hfacts.locks rfl)
  | fork pid hunborn =>
      have hnone := hborn pid hunborn
      refine ⟨?_, ?_, ?_, ?_, fun _ h => .inl h, fun _ h => .inl h, fun _ _ h => h⟩
      · intro other owner hspawned
        show Function.update shared.spawnedBy pid (some handler) other = some owner
        rw [Function.update_of_ne]
        · exact hspawned
        · rintro rfl
          rw [hnone] at hspawned
          cases hspawned
      · intro other owner hspawned
        change Function.update shared.spawnedBy pid (some handler) other = some owner at hspawned
        by_cases heq : other = pid
        · subst heq
          rw [Function.update_self] at hspawned
          cases hspawned
          exact .inr rfl
        · rw [Function.update_of_ne heq] at hspawned
          exact .inl hspawned
      · intro other hgone
        show Function.update shared.process pid .forked other = .gone
        rw [Function.update_of_ne]
        · exact hgone
        · rintro rfl
          rw [hunborn] at hgone
          cases hgone
      · intro other hother
        change Function.update shared.process pid .forked other = .unborn at hother
        have hne : other ≠ pid := by
          rintro rfl
          rw [Function.update_self] at hother
          cases hother
        rw [Function.update_of_ne hne] at hother
        exact ⟨hother, Function.update_of_ne hne _ _⟩
  | acknowledge | report =>
      exact ⟨fun _ _ h => h, fun _ _ h => .inl h, fun _ h => h, fun _ h => ⟨h, rfl⟩,
        fun _ h => .inl h, fun _ h => .inl h, fun _ _ h => h⟩
  | leave hfree =>
      refine ⟨fun _ _ h => h, fun _ _ h => .inl h, fun _ h => h, fun _ h => ⟨h, rfl⟩,
        fun _ h => .inl h, ?_, fun _ _ h => h⟩
      intro other hmem
      by_cases heq : other = attemptId
      · exact .inr ⟨heq, rfl⟩
      · exact .inl (List.mem_filter.mpr ⟨hmem, by simpa using heq⟩)

/-- A handler with a child is active and does not hold the lock. -/
theorem HandlerPhase.active_of_child {pid : ℕ} (h : phase.child = some pid) :
    phase.active = true ∧ phase.locks = false := by
  cases phase <;> first | exact ⟨rfl, rfl⟩ | cases h

/-- A handler that has had no child still has had none. -/
theorem HandlerFacts.childless (h : HandlerFacts handler attemptId shared phase)
    (hphase : phase.child = none ∧ phase ≠ .leaving ∧ phase ≠ .finished)
    (hspawnedBy : later.spawnedBy = shared.spawnedBy) (hnext : next.child = none)
    (hactive : next.active = true → attemptId ∈ later.activeAttemptIds)
    (hlocks : next.locks = true → later.lockHolder = some handler) :
    HandlerFacts handler attemptId later next := by
  refine ⟨?_, ?_, hactive, hlocks, ?_, ?_⟩
  · intro pid hchild
    rw [hnext] at hchild
    cases hchild
  · intro pid hspawned
    rw [hspawnedBy] at hspawned
    rcases h.spawned pid hspawned with hchild | hleaving | hfinished
    · rw [hphase.1] at hchild
      cases hchild
    · exact absurd hleaving hphase.2.1
    · exact absurd hfinished hphase.2.2
  · rintro pid rfl
    cases hnext
  · rintro pid rfl
    cases hnext

/-- A handler goes on with its child, or leaves it. -/
theorem HandlerFacts.carry (h : HandlerFacts handler attemptId shared phase) {pid : ℕ}
    (hphase : phase.child = some pid) (hnext : next.child = some pid ∨ next = .leaving)
    (hspawnedBy : later.spawnedBy = shared.spawnedBy)
    (hids : later.activeAttemptIds = shared.activeAttemptIds)
    (hsettled : next = .settled pid true → later.process pid = .gone)
    (hverified : next = .reporting pid true →
      later.process pid = .gone ∧ ∀ child ∈ later.children, child.pid ≠ pid) :
    HandlerFacts handler attemptId later next := by
  have hactive := (HandlerPhase.active_of_child hphase).1
  have hchild : ∀ other, next.child = some other → other = pid := by
    intro other hother
    rcases hnext with hsome | rfl
    · rw [hsome] at hother
      cases hother
      rfl
    · cases hother
  refine ⟨?_, ?_, ?_, ?_, ?_, ?_⟩
  · intro other hother
    rw [hchild other hother, hspawnedBy]
    exact h.owns pid hphase
  · intro other hspawned
    rw [hspawnedBy] at hspawned
    rcases h.spawned other hspawned with hother | rfl | rfl
    · rw [hphase] at hother
      cases hother
      exact hnext.imp id .inl
    · cases hphase
    · cases hphase
  · intro _
    rw [hids]
    exact h.active hactive
  · intro hlocks
    rcases hnext with hsome | rfl
    · rw [(HandlerPhase.active_of_child hsome).2] at hlocks
      cases hlocks
    · cases hlocks
  · rintro other rfl
    rw [hchild other rfl] at hsettled ⊢
    exact hsettled rfl
  · rintro other rfl
    rw [hchild other rfl] at hverified ⊢
    exact hverified rfl

theorem HandlerPhase.child_of_serves {pid : ℕ} (h : phase.serves = some pid) :
    phase.child = some pid := by
  cases phase <;> first | exact h | cases h

/-- What is so of a handler afterwards. -/
theorem HandlerStep.facts (hstep : HandlerStep handler attemptId shared phase next later)
    (h : HandlerFacts handler attemptId shared phase) :
    HandlerFacts handler attemptId later next := by
  have hbegun : ∀ {phase : HandlerPhase}, phase.child = none → phase ≠ .leaving →
      phase ≠ .finished → phase.child = none ∧ phase ≠ .leaving ∧ phase ≠ .finished :=
    fun hchild hleaving hfinished => ⟨hchild, hleaving, hfinished⟩
  cases hstep with
  | duplicate | reapUnwritten | survivor =>
      exact h.childless (hbegun rfl nofun nofun) rfl rfl nofun nofun
  | activate | reaped =>
      exact h.childless (hbegun rfl nofun nofun) rfl rfl (fun _ => .head _) nofun
  | lock hfree hnone => exact h.childless (hbegun rfl nofun nofun) rfl rfl nofun (fun _ => rfl)
  | survey | reap =>
      exact h.childless (hbegun rfl nofun nofun) rfl rfl nofun (fun _ => h.locks rfl)
  | unspawned =>
      exact h.childless (hbegun rfl nofun nofun) rfl rfl (fun _ => h.active rfl) nofun
  | fork pid hunborn =>
      refine ⟨?_, ?_, fun _ => h.active rfl, nofun, nofun, nofun⟩
      · rintro other hother
        cases hother
        exact Function.update_self _ _ _
      · intro other hspawned
        change Function.update shared.spawnedBy pid (some handler) other = some handler at hspawned
        by_cases heq : other = pid
        · rw [heq]
          exact .inl rfl
        · rw [Function.update_of_ne heq] at hspawned
          rcases h.spawned other hspawned with hchild | hleaving | hfinished
          · cases hchild
          · cases hleaving
          · cases hfinished
  | unidentified | unwritten | disownedQuiescent | disownedAlive | report | failedQuiescent
  | failedAlive => exact h.carry rfl (.inr rfl) rfl rfl nofun nofun
  | register | acknowledge | unacknowledged | unowned | own | disown | verifyUnwritten
  | unverified => exact h.carry rfl (.inl rfl) rfl rfl nofun nofun
  | @settle pid quiescent hgone =>
      refine h.carry rfl (.inl rfl) rfl rfl ?_ nofun
      intro hsettled
      cases hsettled
      exact hgone rfl
  | @verify pid hgroup =>
      refine h.carry rfl (.inl rfl) rfl rfl nofun ?_
      intro _
      refine ⟨h.settled pid rfl, ?_⟩
      intro child hmem
      exact (ActiveBrokerChildren.mem_unregister.mp hmem).2
  | fail hserves =>
      exact h.carry (HandlerPhase.child_of_serves hserves) (.inl rfl) rfl rfl nofun nofun
  | leave hfree =>
      refine ⟨nofun, ?_, nofun, nofun, nofun, nofun⟩
      intro pid hspawned
      exact .inr (.inr rfl)

/-- Another handler's step leaves what is so of this one. -/
theorem HandlerEffect.facts {other : ℕ} {otherId : String} {otherPhase : HandlerPhase}
    (heffect : HandlerEffect handler attemptId phase shared later)
    (hother : HandlerFacts other otherId shared otherPhase) (hne : other ≠ handler)
    (hfacts : HandlerFacts handler attemptId shared phase)
    (hunique : otherPhase.active = true → phase.active = true → otherId = attemptId →
      other = handler) :
    HandlerFacts other otherId later otherPhase := by
  refine ⟨?_, ?_, ?_, ?_, ?_, ?_⟩
  · intro pid hchild
    exact heffect.spawned pid other (hother.owns pid hchild)
  · intro pid hspawned
    rcases heffect.spawns pid other hspawned with hold | heq
    · exact hother.spawned pid hold
    · exact absurd heq hne
  · intro hruns
    rcases heffect.active otherId (hother.active hruns) with hmem | ⟨heq, hactive⟩
    · exact hmem
    · exact absurd (hunique hruns hactive heq) hne
  · intro hlocks
    exact heffect.lock other hne (hother.locks hlocks)
  · intro pid hphase
    exact heffect.gone pid (hother.settled pid hphase)
  · intro pid hphase
    obtain ⟨hgone, hunregistered⟩ := hother.verified pid hphase
    refine ⟨heffect.gone pid hgone, ?_⟩
    intro child hmem
    rcases heffect.registers child hmem with hold | hchild
    · exact hunregistered child hold
    · -- The new child is the stepping handler's, and this pid is the other's.
      rintro rfl
      have howner := hfacts.owns _ hchild
      have hown := hother.owns child.pid (by rw [hphase]; rfl)
      rw [howner] at hown
      cases hown
      exact absurd rfl hne

/-- A handler becomes active only under an id that is not active. -/
theorem HandlerStep.activates (hstep : HandlerStep handler attemptId shared phase next later)
    (h : HandlerFacts handler attemptId shared phase)
    (hidle : shared.lockHolder ≠ none → shared.activeAttemptIds = [])
    (hphase : phase.active = false) (hnext : next.active = true) :
    attemptId ∉ shared.activeAttemptIds := by
  cases hstep with
  | activate hfree hnew hothers => exact hnew
  | reaped =>
      rw [hidle (by rw [h.locks rfl]; simp)]
      exact List.not_mem_nil
  | fail hserves =>
      rw [(HandlerPhase.active_of_child (HandlerPhase.child_of_serves hserves)).1] at hphase
      cases hphase
  | duplicate | lock | survey | reap | reapUnwritten | survivor | leave => cases hnext
  | unspawned | fork | unidentified | register | unwritten | acknowledge | unacknowledged | unowned
  | own | disown | disownedQuiescent | disownedAlive | settle | verify | verifyUnwritten
  | unverified | report | failedQuiescent | failedAlive => cases hphase

/-- Only where no attempt is active is the lock held over several steps. -/
theorem HandlerStep.idle (hstep : HandlerStep handler attemptId shared phase next later)
    (hidle : shared.lockHolder ≠ none → shared.activeAttemptIds = []) :
    later.lockHolder ≠ none → later.activeAttemptIds = [] := by
  cases hstep with
  | activate hfree | leave hfree =>
      intro hheld
      exact absurd hfree hheld
  | lock hfree hnone => exact fun _ => hnone
  | reapUnwritten | survivor | reaped =>
      intro hheld
      exact absurd rfl hheld
  | duplicate | survey | reap | unspawned | fork | unidentified | register | unwritten
  | acknowledge | unacknowledged | unowned | own | disown | disownedQuiescent | disownedAlive
  | settle | verify | verifyUnwritten | unverified | report | fail | failedQuiescent
  | failedAlive => exact hidle

/-- The orphans are those of the registry when the reaper surveys it. -/
theorem HandlerStep.reaps {orphans : List ChildRecord}
    (hstep : HandlerStep handler attemptId shared phase (.reaping orphans) later) :
    (phase = .admitting ∧ orphans = ActiveBrokerChildren.snapshot shared.children) ∨
      ∃ orphan, phase = .reaping (orphan :: orphans) := by
  cases hstep with
  | survey => exact .inl ⟨rfl, rfl⟩
  | reap => exact .inr ⟨_, rfl⟩

/-- A report is made of what the handler has verified. -/
theorem HandlerStep.reports (hstep : HandlerStep handler attemptId shared phase next later)
    {report : SeatReport} (hmem : report ∈ later.reports) :
    report ∈ shared.reports ∨ report.attemptId = attemptId ∧ next = .leaving ∧
      phase = .reporting report.pid report.seatReusable ∧
        later.process = shared.process ∧ later.children = shared.children := by
  cases hstep with
  | report =>
      rcases List.mem_cons.mp hmem with rfl | hold
      · exact .inr ⟨rfl, rfl, rfl, rfl, rfl⟩
      · exact .inl hold
  | duplicate | activate | lock | survey | reap | reapUnwritten | survivor | reaped | unspawned | fork
  | unidentified | register | unwritten | acknowledge | unacknowledged | unowned | own | disown
  | disownedQuiescent | disownedAlive | settle | verify | verifyUnwritten | unverified | fail
  | failedQuiescent | failedAlive | leave => exact .inl hmem

/-- A finished handler takes no step, and a leaving one finishes. -/
theorem HandlerStep.leaving (hstep : HandlerStep handler attemptId shared phase next later) :
    phase ≠ .finished ∧ (phase = .leaving → next = .finished) := by
  cases hstep with
  | fail hserves =>
      constructor
      · rintro rfl
        cases hserves
      · rintro rfl
        cases hserves
  | leave => exact ⟨nofun, fun _ => rfl⟩
  | duplicate | activate | lock | survey | reap | reapUnwritten | survivor | reaped | unspawned | fork
  | unidentified | register | unwritten | acknowledge | unacknowledged | unowned | own | disown
  | disownedQuiescent | disownedAlive | settle | verify | verifyUnwritten | unverified | report
  | failedQuiescent | failedAlive => exact ⟨nofun, nofun⟩

end

/-! ## All handlers -/

section

variable (attemptId : ℕ → String)

/-- A report is about the child of its attempt, and a reusable seat's child is gone. -/
structure ReportFacts (state : BrokerState) (report : SeatReport) : Prop where
  owner : ∃ handler, attemptId handler = report.attemptId ∧
    state.shared.spawnedBy report.pid = some handler ∧
    (state.phase handler = .leaving ∨ state.phase handler = .finished)
  reusable : report.seatReusable = true → state.shared.process report.pid = .gone ∧
    ∀ child ∈ state.shared.children, child.pid ≠ report.pid

/-- What is so of the handlers together. -/
structure OwnershipFacts (state : BrokerState) : Prop where
  handlers : ∀ handler,
    HandlerFacts handler (attemptId handler) state.shared (state.phase handler)
  unique : ∀ handler other, (state.phase handler).active = true →
    (state.phase other).active = true → attemptId handler = attemptId other → handler = other
  idle : state.shared.lockHolder ≠ none → state.shared.activeAttemptIds = []
  born : ∀ pid, state.shared.process pid = .unborn → state.shared.spawnedBy pid = none
  registry : ∀ child ∈ state.shared.children, ∃ owner,
    state.shared.spawnedBy child.pid = some owner
  orphans : ∀ handler orphans, state.phase handler = .reaping orphans → ∀ orphan ∈ orphans,
    ∃ owner, state.shared.spawnedBy orphan.pid = some owner ∧ state.phase owner = .finished
  reports : ∀ report ∈ state.shared.reports, ReportFacts attemptId state report

variable {attemptId : ℕ → String} {state : BrokerState} {shared : Shared}

theorem ownershipFacts_start : OwnershipFacts attemptId .start := by
  refine ⟨?_, nofun, fun _ => rfl, fun _ _ => rfl, nofun, nofun, nofun⟩
  intro handler
  exact ⟨nofun, nofun, nofun, nofun, nofun, nofun⟩

/-- What the processes and `run` may do to what the handlers share. -/
structure Undisturbed (shared later : Shared) : Prop where
  spawnedBy : later.spawnedBy = shared.spawnedBy
  activeAttemptIds : later.activeAttemptIds = shared.activeAttemptIds
  lockHolder : later.lockHolder = shared.lockHolder
  reports : later.reports = shared.reports
  gone : ∀ pid, shared.process pid = .gone → later.process pid = .gone
  born : ∀ pid, later.process pid = .unborn → shared.process pid = .unborn
  children : ∀ child ∈ later.children, child ∈ shared.children

theorem undisturbed_setProcess {pid : ℕ} {process : ChildProcess}
    (hgone : shared.process pid = .gone → process = .gone) (hborn : process ≠ .unborn) :
    Undisturbed shared (shared.setProcess pid process) := by
  refine ⟨rfl, rfl, rfl, rfl, ?_, ?_, fun _ h => h⟩
  · intro other hother
    change Function.update shared.process pid process other = .gone
    by_cases heq : other = pid
    · subst heq
      rw [Function.update_self]
      exact hgone hother
    · rwa [Function.update_of_ne heq]
  · intro other hother
    change Function.update shared.process pid process other = .unborn at hother
    by_cases heq : other = pid
    · subst heq
      rw [Function.update_self] at hother
      exact absurd hother hborn
    · rwa [Function.update_of_ne heq] at hother

theorem ProcessStep.undisturbed {pid : ℕ} {later : Shared} (hstep : ProcessStep shared pid later) :
    Undisturbed shared later := by
  cases hstep with
  | lead hforked =>
      refine undisturbed_setProcess ?_ nofun
      intro hgone
      rw [hforked] at hgone
      cases hgone
  | orphan hleading =>
      refine undisturbed_setProcess ?_ nofun
      intro hgone
      rw [hleading] at hgone
      cases hgone
  | die hborn => exact undisturbed_setProcess (fun _ => rfl) nofun

theorem SweepStep.undisturbed {later : Shared} (hstep : SweepStep shared later) :
    Undisturbed shared later := by
  cases hstep with
  | quiesced hsweep hgone =>
      refine ⟨rfl, rfl, rfl, rfl, fun _ h => h, fun _ h => h, ?_⟩
      intro child hmem
      exact (ActiveBrokerChildren.mem_unregister.mp hmem).1
  | stop | survey | unverified | finish =>
      exact ⟨rfl, rfl, rfl, rfl, fun _ h => h, fun _ h => h, fun _ h => h⟩

theorem Undisturbed.facts {later : Shared} (hkeep : Undisturbed state.shared later)
    (h : OwnershipFacts attemptId state) : OwnershipFacts attemptId { state with shared := later } := by
  refine ⟨?_, h.unique, ?_, ?_, ?_, ?_, ?_⟩
  · intro handler
    have hone := h.handlers handler
    refine ⟨?_, ?_, ?_, ?_, ?_, ?_⟩
    · rw [hkeep.spawnedBy]
      exact hone.owns
    · rw [hkeep.spawnedBy]
      exact hone.spawned
    · rw [hkeep.activeAttemptIds]
      exact hone.active
    · rw [hkeep.lockHolder]
      exact hone.locks
    · intro pid hphase
      exact hkeep.gone pid (hone.settled pid hphase)
    · intro pid hphase
      obtain ⟨hgone, hunregistered⟩ := hone.verified pid hphase
      exact ⟨hkeep.gone pid hgone, fun child hmem => hunregistered child (hkeep.children child hmem)⟩
  · rw [hkeep.lockHolder, hkeep.activeAttemptIds]
    exact h.idle
  · intro pid hunborn
    rw [hkeep.spawnedBy]
    exact h.born pid (hkeep.born pid hunborn)
  · intro child hmem
    rw [hkeep.spawnedBy]
    exact h.registry child (hkeep.children child hmem)
  · rw [hkeep.spawnedBy]
    exact h.orphans
  · intro report hmem
    rw [hkeep.reports] at hmem
    obtain ⟨howner, hreusable⟩ := h.reports report hmem
    rw [← hkeep.spawnedBy] at howner
    refine ⟨howner, ?_⟩
    intro hseat
    obtain ⟨hgone, hunregistered⟩ := hreusable hseat
    exact ⟨hkeep.gone _ hgone, fun child hchild => hunregistered child (hkeep.children child hchild)⟩

/-- While the reaper surveys the registry no attempt is active: the owner of every
registered child is finished. -/
theorem OwnershipFacts.finished_of_locked (h : OwnershipFacts attemptId state)
    (hheld : state.shared.lockHolder ≠ none) {child : ChildRecord}
    (hmem : child ∈ state.shared.children) :
    ∃ owner, state.shared.spawnedBy child.pid = some owner ∧ state.phase owner = .finished := by
  obtain ⟨owner, howner⟩ := h.registry child hmem
  refine ⟨owner, howner, ?_⟩
  have hone := h.handlers owner
  have hinactive : (state.phase owner).active = false := by
    cases hactive : (state.phase owner).active with
    | false => rfl
    | true =>
        have hid := hone.active hactive
        rw [h.idle hheld] at hid
        cases hid
  rcases hone.spawned child.pid howner with hchild | hleaving | hfinished
  · rw [(HandlerPhase.active_of_child hchild).1] at hinactive
    cases hinactive
  · rw [hleaving] at hinactive
    cases hinactive
  · exact hfinished

variable {handler : ℕ} {next : HandlerPhase} {later : Shared}

/-- What a step of a handler makes of the phases. -/
theorem update_phase (other : ℕ) :
    other = handler ∧ Function.update state.phase handler next other = next ∨
      other ≠ handler ∧ Function.update state.phase handler next other = state.phase other := by
  by_cases heq : other = handler
  · left
    rw [heq]
    exact ⟨rfl, Function.update_self _ _ _⟩
  · exact .inr ⟨heq, Function.update_of_ne heq _ _⟩

/-- An owner that is finished or leaving stays so. -/
theorem HandlerStep.done (hstep : HandlerStep handler (attemptId handler) state.shared
    (state.phase handler) next later) (owner : ℕ) :
    (state.phase owner = .finished → Function.update state.phase handler next owner = .finished) ∧
      (state.phase owner = .leaving → Function.update state.phase handler next owner = .leaving ∨
        Function.update state.phase handler next owner = .finished) := by
  obtain ⟨hfinished, hleaving⟩ := hstep.leaving
  rcases @update_phase state handler next owner with ⟨rfl, hupdate⟩ | ⟨-, hupdate⟩
  · rw [hupdate]
    exact ⟨fun h => absurd h hfinished, fun h => .inr (hleaving h)⟩
  · rw [hupdate]
    exact ⟨id, .inl⟩

/-- No two active handlers have one id: a handler is admitted only under a new id. -/
theorem OwnershipFacts.unique_step (h : OwnershipFacts attemptId state)
    (hstep : HandlerStep handler (attemptId handler) state.shared (state.phase handler) next later)
    (one other : ℕ) (hone : (Function.update state.phase handler next one).active = true)
    (hother : (Function.update state.phase handler next other).active = true)
    (hid : attemptId one = attemptId other) : one = other := by
  have hnew : ∀ others, others ≠ handler → (state.phase others).active = true →
      next.active = true → attemptId handler ≠ attemptId others := by
    intro others hne hactive hnext heq
    by_cases hphase : (state.phase handler).active = true
    · exact hne (h.unique others handler hactive hphase heq.symm)
    · have hfresh := hstep.activates (h.handlers handler) h.idle (by simpa using hphase) hnext
      rw [heq] at hfresh
      exact hfresh ((h.handlers others).active hactive)
  rcases @update_phase state handler next one with ⟨rfl, hupdate⟩ | ⟨hne, hupdate⟩
  · rcases @update_phase state one next other with ⟨rfl, -⟩ | ⟨hne', hupdate'⟩
    · rfl
    · rw [hupdate] at hone
      rw [hupdate'] at hother
      exact absurd hid (hnew other hne' hother hone)
  · rw [hupdate] at hone
    rcases @update_phase state handler next other with ⟨rfl, hupdate'⟩ | ⟨hne', hupdate'⟩
    · rw [hupdate'] at hother
      exact absurd hid.symm (hnew one hne hone hother)
    · rw [hupdate'] at hother
      exact h.unique one other hone hother hid

theorem OwnershipFacts.handlerStep (h : OwnershipFacts attemptId state)
    (hstep : HandlerStep handler (attemptId handler) state.shared (state.phase handler) next later) :
    OwnershipFacts attemptId ⟨Function.update state.phase handler next, later⟩ := by
  have hone := h.handlers handler
  have heffect := hstep.effect hone h.born
  refine ⟨?_, ?_, hstep.idle h.idle, ?_, ?_, ?_, ?_⟩
  · intro other
    dsimp only
    rcases @update_phase state handler next other with ⟨rfl, hupdate⟩ | ⟨hne, hupdate⟩
    · rw [hupdate]
      exact hstep.facts hone
    · rw [hupdate]
      exact heffect.facts (h.handlers other) hne hone (h.unique other handler)
  · exact h.unique_step hstep
  · intro pid hunborn
    obtain ⟨hold, hsame⟩ := heffect.born pid hunborn
    rw [hsame]
    exact h.born pid hold
  · intro child hmem
    rcases heffect.registers child hmem with hold | hchild
    · obtain ⟨owner, howner⟩ := h.registry child hold
      exact ⟨owner, heffect.spawned _ _ howner⟩
    · exact ⟨handler, heffect.spawned _ _ (hone.owns _ hchild)⟩
  · intro other orphans hphase orphan hmem
    have hold : ∃ owner, state.shared.spawnedBy orphan.pid = some owner ∧
        state.phase owner = .finished := by
      dsimp only at hphase
      rcases @update_phase state handler next other with ⟨rfl, hupdate⟩ | ⟨-, hupdate⟩
      · rw [hupdate] at hphase
        rw [hphase] at hstep
        rcases hstep.reaps with ⟨hadmitting, rfl⟩ | ⟨first, hreaping⟩
        · have hheld := hone.locks (by rw [hadmitting]; rfl)
          exact h.finished_of_locked (by simp [hheld]) (ActiveBrokerChildren.mem_snapshot.mp hmem)
        · exact h.orphans other _ hreaping orphan (.tail _ hmem)
      · rw [hupdate] at hphase
        exact h.orphans other orphans hphase orphan hmem
    obtain ⟨owner, howner, hfinished⟩ := hold
    exact ⟨owner, heffect.spawned _ _ howner, (hstep.done owner).1 hfinished⟩
  · intro report hmem
    rcases hstep.reports hmem with hold | ⟨hid, rfl, hphase, hprocess, hchildren⟩
    · obtain ⟨⟨owner, howned, hspawned, hdone⟩, hreusable⟩ := h.reports report hold
      refine ⟨⟨owner, howned, heffect.spawned _ _ hspawned, ?_⟩, ?_⟩
      · rcases hdone with hleaving | hfinished
        · exact (hstep.done owner).2 hleaving
        · exact .inr ((hstep.done owner).1 hfinished)
      · intro hseat
        obtain ⟨hgone, hunregistered⟩ := hreusable hseat
        refine ⟨heffect.gone _ hgone, ?_⟩
        intro child hchild
        rcases heffect.registers child hchild with hkept | hnew
        · exact hunregistered child hkept
        · -- A handler that registers a child has not left it.
          intro hpid
          have hregisters := hone.owns child.pid hnew
          rw [hpid, hspawned] at hregisters
          cases hregisters
          rcases hdone with hleaving | hfinished
          · rw [hleaving] at hnew
            cases hnew
          · rw [hfinished] at hnew
            cases hnew
    · refine ⟨⟨handler, hid.symm, ?_, .inl (Function.update_self _ _ _)⟩, ?_⟩
      · exact heffect.spawned _ _ (hone.owns report.pid (by rw [hphase]; rfl))
      · intro hseat
        rw [hseat] at hphase
        dsimp only
        rw [hprocess, hchildren]
        exact hone.verified report.pid hphase

theorem OwnershipFacts.step (h : OwnershipFacts attemptId state) {actor : Actor} {after : BrokerState}
    (hstep : BrokerStep attemptId state actor after) : OwnershipFacts attemptId after := by
  cases hstep with
  | process hstep => exact hstep.undisturbed.facts h
  | handler hstep => exact h.handlerStep hstep
  | main hstep => exact hstep.undisturbed.facts h

theorem ownershipFacts_of_run {labels : List Actor}
    (hrun : Run (BrokerStep attemptId) .start labels state) : OwnershipFacts attemptId state :=
  hrun.preserves (fun _ _ _ h hstep => h.step hstep) ownershipFacts_start

end

/-- **The reaper spares live handlers.**  In every state of every run: a child that the
reaper terminates has a finished handler, at most one handler is active for an attempt
id, and a seat that was reported reusable has a child that is gone and not registered. -/
theorem reaper_spares_live_handlers (attemptId : ℕ → String) {labels : List Actor}
    {state : BrokerState} (hrun : Run (BrokerStep attemptId) .start labels state) :
    (∀ handler orphan orphans, state.phase handler = .reaping (orphan :: orphans) →
      ∃ owner, state.shared.spawnedBy orphan.pid = some owner ∧ state.phase owner = .finished) ∧
    (∀ handler other, (state.phase handler).active = true → (state.phase other).active = true →
      attemptId handler = attemptId other → handler = other) ∧
    ∀ report ∈ state.shared.reports, report.seatReusable = true →
      (∃ handler, attemptId handler = report.attemptId ∧
        state.shared.spawnedBy report.pid = some handler) ∧
      state.shared.process report.pid = .gone ∧
        ∀ child ∈ state.shared.children, child.pid ≠ report.pid := by
  have hfacts := ownershipFacts_of_run hrun
  refine ⟨?_, hfacts.unique, ?_⟩
  · intro handler orphan orphans hphase
    exact hfacts.orphans handler _ hphase orphan (.head _)
  · intro report hmem hseat
    have hreport := hfacts.reports report hmem
    obtain ⟨handler, hid, hspawned, -⟩ := hreport.owner
    exact ⟨⟨handler, hid, hspawned⟩, hreport.reusable hseat⟩

/-- A registration that cannot be written leaves an orphan to the next handler. -/
theorem unwritten_orphan_run : ∃ labels state,
    Run (BrokerStep fun _ => "a-1") .start labels state ∧
      state.phase 1 = .reaping [⟨"a-1", 4711⟩] :=
  ⟨[.handler 0, .handler 0, .handler 0, .handler 0, .handler 0, .handler 0, .handler 1, .handler 1],
    _, .cons (.handler (.lock rfl rfl)) (.cons (.handler .survey) (.cons (.handler .reaped)
      (.cons (.handler (.fork 4711 rfl)) (.cons (.handler .unwritten) (.cons (.handler (.leave rfl))
        (.cons (.handler (.lock rfl (by decide))) (.cons (.handler .survey) (.nil _)))))))), rfl⟩

theorem reaper_spares_live_handlers_orphan : ∃ labels state,
    Run (BrokerStep fun _ => "a-1") .start labels state ∧
      state.phase 1 = .reaping [⟨"a-1", 4711⟩] ∧
      ∃ owner, state.shared.spawnedBy 4711 = some owner ∧ state.phase owner = .finished := by
  obtain ⟨labels, state, hrun, hphase⟩ := unwritten_orphan_run
  exact ⟨labels, state, hrun, hphase, (reaper_spares_live_handlers _ hrun).1 1 _ _ hphase⟩

end Hearth.Broker
