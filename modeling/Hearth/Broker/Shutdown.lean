import Hearth.Broker.Orphans

/-!
# Shutdown

`run` ends with a sweep over the registered children.  It leaves no child alive if every
child that was registered is in the registry when it is surveyed, and no other becomes
registered: that is what a gate between stopping and spawning gives, such as
`ForkSpawnGate`.  The broker has no such gate.  A handler that has read the pid of its
child when the sweep surveys the registry registers and acknowledges it afterwards.
-/

namespace Hearth.Broker

open Hearth.Library

/-- Whether a forked child is not yet registered and acknowledged. -/
def HandlerPhase.undeclared : HandlerPhase → Bool
  | .forked _ | .registered _ => true
  | _ => false

/-- Whether the sweep has surveyed the registry. -/
def SweepPhase.surveyed : SweepPhase → Bool
  | .sweeping _ | .swept => true
  | _ => false

/-- The steps of a broker whose shutdown is gated: the registry is surveyed while no
handler has an undeclared child, and no child is forked after that; the sweep goes on
from a child when it is gone; and a handler whose acknowledgement failed does not find
its child outside its own process group. -/
structure GatedStep (attemptId : ℕ → String) (state : BrokerState) (actor : Actor)
    (after : BrokerState) : Prop where
  step : BrokerStep attemptId state actor after
  survey : state.shared.sweep.surveyed = false → after.shared.sweep.surveyed = true →
    ∀ handler, (state.phase handler).undeclared = false
  fork : ∀ handler pid, state.phase handler = .spawning → after.phase handler = .forked pid →
    state.shared.sweep.surveyed = false
  quiesce : ∀ child children, state.shared.sweep = .sweeping (child :: children) →
    after.shared.sweep = .sweeping children → state.shared.process child.pid = .gone
  disown : ∀ handler pid, actor = .handler handler → state.phase handler = .disowned pid →
    state.shared.process pid ≠ .forked

/-! ## The children that were registered -/

/-- A child is accounted for by a list if it is gone or in the list. -/
def Accounted (shared : Shared) (children : List ChildRecord) : Prop :=
  ∀ pid ∈ shared.registered, shared.process pid = .gone ∨ ∃ child ∈ children, child.pid = pid

/-- What is so of the children that were registered. -/
structure ShutdownFacts (state : BrokerState) : Prop where
  registry : Accounted state.shared state.shared.children
  acknowledged : ∀ pid ∈ state.shared.acknowledged, pid ∈ state.shared.registered
  registered : ∀ handler pid, state.phase handler = .registered pid →
    pid ∈ state.shared.registered
  declared : state.shared.sweep.surveyed = true →
    ∀ handler, (state.phase handler).undeclared = false
  sweeping : ∀ children, state.shared.sweep = .sweeping children → Accounted state.shared children
  swept : state.shared.sweep = .swept → Accounted state.shared []

section

variable {attemptId : ℕ → String} {state after : BrokerState} {shared later : Shared}
  {children : List ChildRecord} {actor : Actor}

/-- Children stay accounted for while none is registered and none comes back. -/
theorem Accounted.mono (h : Accounted shared children)
    (hregistered : later.registered = shared.registered)
    (hgone : ∀ pid, shared.process pid = .gone → later.process pid = .gone) :
    Accounted later children := by
  intro pid hmem
  rw [hregistered] at hmem
  exact (h pid hmem).imp (hgone pid) id

/-- A child that is gone need not be in the list. -/
theorem Accounted.unregister (h : Accounted shared children) {pid : ℕ}
    (hgone : shared.process pid = .gone) :
    Accounted shared (ActiveBrokerChildren.unregister children pid) := by
  intro other hmem
  by_cases heq : other = pid
  · rw [heq]
    exact .inl hgone
  rcases h other hmem with hdead | ⟨child, hchild, hpid⟩
  · exact .inl hdead
  · refine .inr ⟨child, ActiveBrokerChildren.mem_unregister.mpr ⟨hchild, ?_⟩, hpid⟩
    rwa [hpid]

theorem Accounted.tail {child : ChildRecord} (h : Accounted shared (child :: children))
    (hgone : shared.process child.pid = .gone) : Accounted shared children := by
  intro pid hmem
  rcases h pid hmem with hdead | ⟨other, hother, hpid⟩
  · exact .inl hdead
  · cases hother with
    | head =>
        rw [← hpid]
        exact .inl hgone
    | tail _ hother => exact .inr ⟨other, hother, hpid⟩

theorem Accounted.register (h : Accounted shared shared.children) (record : ChildRecord) :
    Accounted (shared.register record) (shared.register record).children := by
  intro pid hmem
  by_cases heq : pid = record.pid
  · exact .inr ⟨record, ActiveBrokerChildren.mem_register_self _ _, heq.symm⟩
  rcases List.mem_cons.mp hmem with hnew | hold
  · exact absurd hnew heq
  rcases h pid hold with hdead | ⟨child, hchild, hpid⟩
  · exact .inl hdead
  · refine .inr ⟨child, ActiveBrokerChildren.mem_register_of_ne hchild ?_, hpid⟩
    rwa [hpid]

theorem Accounted.survey (h : Accounted shared shared.children) :
    Accounted shared (ActiveBrokerChildren.snapshot shared.children) := by
  intro pid hmem
  rcases h pid hmem with hdead | ⟨child, hchild, hpid⟩
  · exact .inl hdead
  · exact .inr ⟨child, ActiveBrokerChildren.mem_snapshot.mpr hchild, hpid⟩

theorem shutdownFacts_start : ShutdownFacts .start :=
  ⟨nofun, nofun, nofun, nofun, nofun, nofun⟩

variable {handler : ℕ} {id : String} {phase next : HandlerPhase}

/-- A handler registers the child that it has read, and nothing else. -/
theorem HandlerStep.registered (hstep : HandlerStep handler id shared phase next later) :
    later.registered = shared.registered ∧ (∀ pid, next ≠ .registered pid) ∨
      ∃ pid, phase = .forked pid ∧ later.registered = pid :: shared.registered ∧
        ∀ other, next = .registered other → other = pid := by
  cases hstep with
  | @register pid =>
      refine .inr ⟨pid, rfl, rfl, ?_⟩
      intro other hother
      cases hother
      rfl
  | @unwritten pid => exact .inr ⟨pid, rfl, rfl, nofun⟩
  | duplicate | activate | lock | survey | reap | reapUnwritten | survivor | reaped | unspawned | fork
  | unidentified | acknowledge | unacknowledged | unowned | own | disown | disownedQuiescent
  | disownedAlive | settle | verify | verifyUnwritten | unverified | report | fail | failedQuiescent
  | failedAlive | leave => exact .inl ⟨rfl, nofun⟩

/-- It acknowledges the child that it has registered. -/
theorem HandlerStep.acknowledged (hstep : HandlerStep handler id shared phase next later) :
    later.acknowledged = shared.acknowledged ∨
      ∃ pid, phase = .registered pid ∧ later.acknowledged = pid :: shared.acknowledged := by
  cases hstep with
  | @acknowledge pid => exact .inr ⟨pid, rfl, rfl⟩
  | duplicate | activate | lock | survey | reap | reapUnwritten | survivor | reaped | unspawned | fork
  | unidentified | register | unwritten | unacknowledged | unowned | own | disown
  | disownedQuiescent | disownedAlive | settle | verify | verifyUnwritten | unverified | report
  | fail | failedQuiescent | failedAlive | leave => exact .inl rfl

/-- A child becomes undeclared when it is forked. -/
theorem HandlerStep.undeclared (hstep : HandlerStep handler id shared phase next later)
    (hnext : next.undeclared = true) :
    (phase = .spawning ∧ ∃ pid, next = .forked pid) ∨ phase.undeclared = true := by
  cases hstep with
  | fork pid => exact .inl ⟨rfl, pid, rfl⟩
  | register => exact .inr rfl
  | duplicate | activate | lock | survey | reap | reapUnwritten | survivor | reaped | unspawned
  | unidentified | unwritten | acknowledge | unacknowledged | unowned | own | disown
  | disownedQuiescent | disownedAlive | settle | verify | verifyUnwritten | unverified | report
  | fail | failedQuiescent | failedAlive | leave => cases hnext

theorem HandlerStep.sweep (hstep : HandlerStep handler id shared phase next later) :
    later.sweep = shared.sweep := by
  cases hstep <;> rfl

/-- A handler unregisters children that are gone. -/
theorem HandlerStep.accounted (hstep : HandlerStep handler id shared phase next later)
    (hfacts : HandlerFacts handler id shared phase)
    (hborn : ∀ pid, shared.process pid = .unborn → shared.spawnedBy pid = none)
    (hdisown : ∀ pid, phase = .disowned pid → shared.process pid ≠ .forked)
    (h : Accounted shared shared.children) : Accounted later later.children := by
  have heffect := hstep.effect hfacts hborn
  cases hstep with
  | reap hgone | reapUnwritten hgone | failedQuiescent hgone => exact h.unregister hgone
  | verify hgroup | verifyUnwritten hgroup => exact h.unregister (hfacts.settled _ rfl)
  | @disownedQuiescent pid hgroup =>
      apply h.unregister
      have hforked := hdisown pid rfl
      have hspawned := hfacts.owns pid rfl
      cases hprocess : shared.process pid with
      | unborn =>
          rw [hborn pid hprocess] at hspawned
          cases hspawned
      | forked => exact absurd hprocess hforked
      | leading | orphaned =>
          rw [hprocess] at hgroup
          cases hgroup
      | gone => rfl
  | register | unwritten => exact h.register _
  | duplicate | activate | lock | survey | survivor | reaped | unspawned | fork | unidentified
  | acknowledge | unacknowledged | unowned | own | disown | disownedAlive | settle | unverified
  | report | fail | failedAlive | leave => exact h.mono rfl heffect.gone

theorem ShutdownFacts.handlerStep (h : ShutdownFacts state) (howned : OwnershipFacts attemptId state)
    (hstep : HandlerStep handler (attemptId handler) state.shared (state.phase handler) next later)
    (hfork : ∀ pid, state.phase handler = .spawning → next = .forked pid →
      state.shared.sweep.surveyed = false)
    (hdisown : ∀ pid, state.phase handler = .disowned pid → state.shared.process pid ≠ .forked) :
    ShutdownFacts ⟨Function.update state.phase handler next, later⟩ := by
  have hone := howned.handlers handler
  have heffect := hstep.effect hone howned.born
  have hregistered : ∀ pid ∈ state.shared.registered, pid ∈ later.registered := by
    intro pid hmem
    rcases hstep.registered with ⟨hsame, -⟩ | ⟨new, -, hcons, -⟩
    · rwa [hsame]
    · rw [hcons]
      exact .tail _ hmem
  -- Once the registry is surveyed nothing is registered.
  have hkept : state.shared.sweep.surveyed = true → later.registered = state.shared.registered := by
    intro hsurveyed
    rcases hstep.registered with ⟨hsame, -⟩ | ⟨pid, hforked, -, -⟩
    · exact hsame
    · have hdeclared := h.declared hsurveyed handler
      rw [hforked] at hdeclared
      cases hdeclared
  refine ⟨hstep.accounted hone howned.born hdisown h.registry, ?_, ?_, ?_, ?_, ?_⟩
  · intro pid hmem
    rcases hstep.acknowledged with hsame | ⟨new, hphase, hcons⟩
    · rw [hsame] at hmem
      exact hregistered pid (h.acknowledged pid hmem)
    · rw [hcons] at hmem
      rcases List.mem_cons.mp hmem with rfl | hold
      · exact hregistered pid (h.registered handler pid hphase)
      · exact hregistered pid (h.acknowledged pid hold)
  · intro other pid hphase
    dsimp only at hphase
    rcases @update_phase state handler next other with ⟨rfl, hupdate⟩ | ⟨-, hupdate⟩
    · rw [hupdate] at hphase
      rcases hstep.registered with ⟨-, hnot⟩ | ⟨new, -, hcons, honly⟩
      · exact absurd hphase (hnot pid)
      · rw [hcons, honly pid hphase]
        exact .head _
    · rw [hupdate] at hphase
      exact hregistered pid (h.registered other pid hphase)
  · intro hsurveyed other
    dsimp only at hsurveyed ⊢
    rw [hstep.sweep] at hsurveyed
    rcases @update_phase state handler next other with ⟨rfl, hupdate⟩ | ⟨-, hupdate⟩
    · rw [hupdate]
      by_contra hnext
      rw [Bool.not_eq_false] at hnext
      rcases hstep.undeclared hnext with ⟨hspawning, pid, hforked⟩ | hphase
      · rw [hfork pid hspawning hforked] at hsurveyed
        cases hsurveyed
      · rw [h.declared hsurveyed other] at hphase
        cases hphase
    · rw [hupdate]
      exact h.declared hsurveyed other
  · intro children hsweep
    dsimp only at hsweep ⊢
    rw [hstep.sweep] at hsweep
    exact (h.sweeping children hsweep).mono (hkept (by rw [hsweep]; rfl)) heffect.gone
  · intro hsweep
    dsimp only at hsweep ⊢
    rw [hstep.sweep] at hsweep
    exact (h.swept hsweep).mono (hkept (by rw [hsweep]; rfl)) heffect.gone

theorem ShutdownFacts.processStep {pid : ℕ} (h : ShutdownFacts state)
    (hstep : ProcessStep state.shared pid later) :
    ShutdownFacts { state with shared := later } := by
  have hgone := hstep.undisturbed.gone
  have hsame : later.registered = state.shared.registered ∧
      later.acknowledged = state.shared.acknowledged ∧ later.sweep = state.shared.sweep ∧
        later.children = state.shared.children := by
    cases hstep <;> exact ⟨rfl, rfl, rfl, rfl⟩
  obtain ⟨hregistered, hacknowledged, hsweep, hchildren⟩ := hsame
  refine ⟨?_, ?_, ?_, ?_, ?_, ?_⟩
  · show Accounted later later.children
    rw [hchildren]
    exact h.registry.mono hregistered hgone
  · show ∀ pid ∈ later.acknowledged, pid ∈ later.registered
    rw [hacknowledged, hregistered]
    exact h.acknowledged
  · show ∀ handler pid, state.phase handler = .registered pid → pid ∈ later.registered
    rw [hregistered]
    exact h.registered
  · show later.sweep.surveyed = true → _
    rw [hsweep]
    exact h.declared
  · show ∀ children, later.sweep = .sweeping children → _
    rw [hsweep]
    exact fun children hphase => (h.sweeping children hphase).mono hregistered hgone
  · show later.sweep = .swept → _
    rw [hsweep]
    exact fun hphase => (h.swept hphase).mono hregistered hgone

theorem ShutdownFacts.sweepStep (h : ShutdownFacts state) (hstep : SweepStep state.shared later)
    (hsurvey : state.shared.sweep.surveyed = false → later.sweep.surveyed = true →
      ∀ handler, (state.phase handler).undeclared = false)
    (hquiesce : ∀ child children, state.shared.sweep = .sweeping (child :: children) →
      later.sweep = .sweeping children → state.shared.process child.pid = .gone) :
    ShutdownFacts { state with shared := later } := by
  cases hstep with
  | stop hsweep => exact ⟨h.registry, h.acknowledged, h.registered, nofun, nofun, nofun⟩
  | survey hsweep =>
      refine ⟨h.registry, h.acknowledged, h.registered, ?_, ?_, nofun⟩
      · intro _
        exact hsurvey (by rw [hsweep]; rfl) rfl
      · intro children hchildren
        cases hchildren
        exact h.registry.survey
  | quiesced hsweep hgone =>
      refine ⟨h.registry.unregister hgone, h.acknowledged, h.registered, ?_, ?_, nofun⟩
      · intro _
        exact h.declared (by rw [hsweep]; rfl)
      · intro children hchildren
        cases hchildren
        exact (h.sweeping _ hsweep).tail hgone
  | unverified hsweep =>
      refine ⟨h.registry, h.acknowledged, h.registered, ?_, ?_, nofun⟩
      · intro _
        exact h.declared (by rw [hsweep]; rfl)
      · intro children hchildren
        cases hchildren
        exact (h.sweeping _ hsweep).tail (hquiesce _ _ hsweep rfl)
  | finish hsweep =>
      refine ⟨h.registry, h.acknowledged, h.registered, ?_, nofun, ?_⟩
      · intro _
        exact h.declared (by rw [hsweep]; rfl)
      · intro _
        exact h.sweeping _ hsweep

theorem ShutdownFacts.step (h : ShutdownFacts state) (howned : OwnershipFacts attemptId state)
    (hstep : GatedStep attemptId state actor after) : ShutdownFacts after := by
  obtain ⟨hstep, hsurvey, hfork, hquiesce, hdisown⟩ := hstep
  cases hstep with
  | process hstep => exact h.processStep hstep
  | @handler handler next later hstep =>
      refine h.handlerStep howned hstep ?_ ?_
      · intro pid hspawning hforked
        apply hfork handler pid hspawning
        rw [← hforked]
        exact Function.update_self _ _ _
      · intro pid hphase
        exact hdisown handler pid rfl hphase
  | main hstep => exact h.sweepStep hstep hsurvey hquiesce

/-- After the survey nothing becomes registered or acknowledged. -/
theorem ShutdownFacts.settled (h : ShutdownFacts state)
    (hstep : GatedStep attemptId state actor after)
    (hsurveyed : state.shared.sweep.surveyed = true) :
    after.shared.registered = state.shared.registered ∧
      after.shared.acknowledged = state.shared.acknowledged ∧
        after.shared.sweep.surveyed = true := by
  obtain ⟨hstep, -, -, -, -⟩ := hstep
  cases hstep with
  | process hstep => cases hstep <;> exact ⟨rfl, rfl, hsurveyed⟩
  | @handler handler next later hstep =>
      have hdeclared := h.declared hsurveyed handler
      refine ⟨?_, ?_, ?_⟩
      · rcases hstep.registered with ⟨hsame, -⟩ | ⟨pid, hforked, -, -⟩
        · exact hsame
        · rw [hforked] at hdeclared
          cases hdeclared
      · rcases hstep.acknowledged with hsame | ⟨pid, hphase, -⟩
        · exact hsame
        · rw [hphase] at hdeclared
          cases hdeclared
      · show later.sweep.surveyed = true
        rwa [hstep.sweep]
  | main hstep =>
      cases hstep with
      | stop hsweep | survey hsweep =>
          rw [hsweep] at hsurveyed
          cases hsurveyed
      | quiesced | unverified | finish => exact ⟨rfl, rfl, rfl⟩

/-! ## Runs -/

theorem shutdownFacts_of_run {labels : List Actor}
    (hrun : Run (GatedStep attemptId) .start labels state) :
    OwnershipFacts attemptId state ∧ ShutdownFacts state := by
  have hstep : ∀ state label next, OwnershipFacts attemptId state ∧ ShutdownFacts state →
      GatedStep attemptId state label next → OwnershipFacts attemptId next ∧ ShutdownFacts next :=
    fun state label next h hone => ⟨h.1.step hone.step, h.2.step h.1 hone⟩
  exact hrun.preserves hstep ⟨ownershipFacts_start, shutdownFacts_start⟩

theorem settled_of_run {labels : List Actor} (hrun : Run (GatedStep attemptId) state labels after)
    (howned : OwnershipFacts attemptId state) (h : ShutdownFacts state)
    (hsurveyed : state.shared.sweep.surveyed = true) :
    after.shared.registered = state.shared.registered ∧
      after.shared.acknowledged = state.shared.acknowledged := by
  induction hrun with
  | nil => exact ⟨rfl, rfl⟩
  | cons hstep hrest ih =>
      obtain ⟨hregistered, hacknowledged, hlater⟩ := h.settled hstep hsurveyed
      obtain ⟨hregistered', hacknowledged'⟩ :=
        ih (howned.step hstep.step) (h.step howned hstep) hlater
      exact ⟨hregistered'.trans hregistered, hacknowledged'.trans hacknowledged⟩

end

/-- A step before the survey is gated, unless it is about a failed acknowledgement. -/
theorem gatedStep_of_running {attemptId : ℕ → String} {state after : BrokerState} {actor : Actor}
    (hstep : BrokerStep attemptId state actor after)
    (hrunning : after.shared.sweep.surveyed = false) (hbefore : state.shared.sweep.surveyed = false)
    (hdisown : ∀ handler pid, actor = .handler handler → state.phase handler ≠ .disowned pid) :
    GatedStep attemptId state actor after := by
  refine ⟨hstep, ?_, fun _ _ _ _ => hbefore, ?_, ?_⟩
  · intro _ hsurveyed
    rw [hrunning] at hsurveyed
    cases hsurveyed
  · intro child children hsweep
    rw [hsweep] at hbefore
    cases hbefore
  · intro handler pid hactor hphase
    exact absurd hphase (hdisown handler pid hactor)

theorem gated_shutdown_run : ∃ labels state,
    Run (GatedStep fun _ => "a-1") .start labels state ∧ state.shared.sweep = .swept ∧
      4711 ∈ state.shared.acknowledged := by
  have hdisown : ∀ {phase : HandlerPhase} {pid : ℕ}, phase.undeclared = true ∨ phase.locks = true ∨
      phase = .waiting ∨ phase = .spawning → phase ≠ .disowned pid := by
    rintro phase pid h rfl
    rcases h with h | h | h | h <;> cases h
  have hdeclared : ∀ (phase : ℕ → HandlerPhase),
      (∀ handler, handler ≠ 0 → (phase handler).undeclared = false) → ∀ handler,
        (Function.update phase 0 (.acknowledged 4711) handler).undeclared = false := by
    intro phase hothers handler
    by_cases heq : handler = 0
    · rw [heq, Function.update_self]
      rfl
    · rw [Function.update_of_ne heq]
      exact hothers handler heq
  have hfork : ∀ {phase : ℕ → HandlerPhase} {surveyed : Bool} (handler pid : ℕ),
      phase handler = .spawning → phase handler = .forked pid → surveyed = false := by
    intro phase surveyed handler pid hspawning hforked
    rw [hspawning] at hforked
    cases hforked
  exact ⟨[.handler 0, .handler 0, .handler 0, .handler 0, .handler 0, .handler 0, .main,
      .process 4711, .main, .main, .main], _,
    .cons (gatedStep_of_running (.handler (.lock rfl rfl)) rfl rfl
      (by rintro _ _ ⟨⟩; exact hdisown (.inr (.inr (.inl rfl))))) (.cons
    (gatedStep_of_running (.handler .survey) rfl rfl
      (by rintro _ _ ⟨⟩; exact hdisown (.inr (.inl rfl)))) (.cons
    (gatedStep_of_running (.handler .reaped) rfl rfl
      (by rintro _ _ ⟨⟩; exact hdisown (.inr (.inl rfl)))) (.cons
    (gatedStep_of_running (.handler (.fork 4711 rfl)) rfl rfl
      (by rintro _ _ ⟨⟩; exact hdisown (.inr (.inr (.inr rfl))))) (.cons
    (gatedStep_of_running (.handler .register) rfl rfl
      (by rintro _ _ ⟨⟩; exact hdisown (.inl rfl))) (.cons
    (gatedStep_of_running (.handler .acknowledge) rfl rfl
      (by rintro _ _ ⟨⟩; exact hdisown (.inl rfl))) (.cons
    (gatedStep_of_running (.main (.stop rfl)) rfl rfl nofun) (.cons
    (gatedStep_of_running (.process (.die nofun)) rfl rfl nofun) (.cons
    ⟨.main (.survey rfl), fun _ _ => hdeclared _ (by intro handler hne; simp [hne]; rfl), fun _ _ _ _ => rfl, nofun, nofun⟩ (.cons
    ⟨.main (.quiesced rfl rfl), nofun, hfork, by rintro _ _ ⟨⟩ _; rfl, nofun⟩ (.cons
    ⟨.main (.finish rfl), nofun, hfork, nofun, nofun⟩ (.nil _))))))))))), rfl, .head _⟩

end Hearth.Broker
