import Hearth.Broker.Shutdown

/-!
# The registration handshake

A forked child waits for its ACK file in the process group of the basis.  It makes its own
group only after it has seen the file, publishes the ownership file, and waits for the
broker to take that away.  `HandshakeStep` joins this to the steps of the broker: the child
takes the steps of `fork_child_ownership_transfer`, and the two files pass between them.

A child whose acknowledgement was never published has no group of its own.  The cleanup of
a failed handshake goes by the group: it signals nobody, finds no group, and unregisters a
child that is alive.
-/

namespace Hearth.Broker

open Hearth.Library

/-! ## The child's side -/

/-- Where a child is in `fork_child_ownership_transfer`. -/
inductive ChildStage
  | awaiting | acknowledged | grouped | published | running
  deriving DecidableEq, Repr

/-- Whether the child has passed its `setsid`. -/
def ChildStage.owns : ChildStage → Bool
  | .awaiting | .acknowledged => false
  | .grouped | .published | .running => true

/-- The two files of a handshake, for the children that are there. -/
structure Lifecycle where
  ack : ℕ → Bool
  ownership : ℕ → Bool

namespace Lifecycle

variable (files : Lifecycle)

def setAck (pid : ℕ) (present : Bool) : Lifecycle :=
  { files with ack := Function.update files.ack pid present }

def setOwnership (pid : ℕ) (present : Bool) : Lifecycle :=
  { files with ownership := Function.update files.ownership pid present }

/-- What a handler does to the files on its way from one phase to the next. -/
def after (phase next : HandlerPhase) : Lifecycle :=
  match phase, next with
  | .registered pid, .acknowledged _ => files.setAck pid true
  | .acknowledged pid, .serving _ => files.setOwnership pid false
  | .disowned pid, _ => (files.setAck pid false).setOwnership pid false
  | _, _ => files

end Lifecycle

/-- The broker, its children and their files. -/
structure HandshakeState where
  broker : BrokerState
  stage : ℕ → ChildStage
  files : Lifecycle

namespace HandshakeState

def start : HandshakeState where
  broker := .start
  stage := fun _ => .awaiting
  files := ⟨fun _ => false, fun _ => false⟩

variable (state : HandshakeState)

def process (pid : ℕ) : ChildProcess :=
  state.broker.shared.process pid

def setProcess (pid : ℕ) (process : ChildProcess) : HandshakeState :=
  { state with broker.shared := state.broker.shared.setProcess pid process }

def setStage (pid : ℕ) (stage : ChildStage) : HandshakeState :=
  { state with stage := Function.update state.stage pid stage }

end HandshakeState

/-- A step of the broker or of a child. -/
inductive HandshakeStep (attemptId : ℕ → String) (state : HandshakeState) :
    Actor → HandshakeState → Prop
  /-- The ACK file is there: the child removes it. -/
  | see {pid : ℕ} (hprocess : state.process pid = .forked) (hstage : state.stage pid = .awaiting)
      (hack : state.files.ack pid = true) :
      HandshakeStep attemptId state (.process pid)
        { state.setStage pid .acknowledged with files := state.files.setAck pid false }
  /-- `setsid`. -/
  | group {pid : ℕ} (hprocess : state.process pid = .forked)
      (hstage : state.stage pid = .acknowledged) :
      HandshakeStep attemptId state (.process pid)
        ((state.setProcess pid .leading).setStage pid .grouped)
  /-- The child writes its ownership file. -/
  | publish {pid : ℕ} (hprocess : state.process pid = .leading)
      (hstage : state.stage pid = .grouped) :
      HandshakeStep attemptId state (.process pid)
        { state.setStage pid .published with files := state.files.setOwnership pid true }
  /-- The ownership file is gone: the child goes on to the proof. -/
  | proceed {pid : ℕ} (hprocess : state.process pid = .leading)
      (hstage : state.stage pid = .published) (htaken : state.files.ownership pid = false) :
      HandshakeStep attemptId state (.process pid) (state.setStage pid .running)
  /-- The child exits and its group goes on. -/
  | orphan {pid : ℕ} (hprocess : state.process pid = .leading) :
      HandshakeStep attemptId state (.process pid) (state.setProcess pid .orphaned)
  /-- The child is gone with its group: it exits at one of its deadlines, ends, or dies. -/
  | die {pid : ℕ} (hborn : state.process pid ≠ .unborn) :
      HandshakeStep attemptId state (.process pid) (state.setProcess pid .gone)
  /-- A handler finds the ownership file where `wait_for_child_ownership` returns, and no
  process where the birth identity of its child is unavailable. -/
  | handler {handler : ℕ} {next : HandlerPhase} {shared : Shared}
      (hstep : HandlerStep handler (attemptId handler) state.broker.shared
        (state.broker.phase handler) next shared)
      (howned : ∀ pid, state.broker.phase handler = .acknowledged pid → next = .serving pid →
        state.files.ownership pid = true)
      (hidentity : ∀ pid, state.broker.phase handler = .forked pid → next = .leaving →
        state.process pid = .gone ∨ pid ∈ shared.registered) :
      HandshakeStep attemptId state (.handler handler)
        { state with
          broker := ⟨Function.update state.broker.phase handler next, shared⟩
          files := state.files.after (state.broker.phase handler) next }
  | main {shared : Shared} (hstep : SweepStep state.broker.shared shared) :
      HandshakeStep attemptId state .main { state with broker.shared := shared }

section

variable {attemptId : ℕ → String} {state after : HandshakeState} {actor : Actor}

/-- Of the broker, a step of the handshake is a step of the broker or nothing. -/
theorem HandshakeStep.broker (hstep : HandshakeStep attemptId state actor after) :
    after.broker = state.broker ∨ BrokerStep attemptId state.broker actor after.broker := by
  cases hstep with
  | see | publish | proceed => exact .inl rfl
  | group hprocess => exact .inr (.process (.lead hprocess))
  | orphan hprocess => exact .inr (.process (.orphan hprocess))
  | die hborn => exact .inr (.process (.die hborn))
  | handler hstep => exact .inr (.handler hstep)
  | main hstep => exact .inr (.main hstep)

/-! ## No group without an acknowledgement -/

/-- What is so of a child and its files. -/
structure StageFacts (state : HandshakeState) : Prop where
  /-- An ACK file was written by a handler. -/
  ack : ∀ pid, state.files.ack pid = true → pid ∈ state.broker.shared.acknowledged
  /-- A child that went on has seen one. -/
  seen : ∀ pid, state.stage pid ≠ .awaiting → pid ∈ state.broker.shared.acknowledged
  /-- A group is that of a child that passed its `setsid`. -/
  group : ∀ pid, (state.process pid).groupAlive = true → (state.stage pid).owns = true

theorem stageFacts_start : StageFacts .start :=
  ⟨nofun, fun _ h => absurd rfl h, nofun⟩

theorem HandlerStep.acknowledges {handler : ℕ} {id : String} {shared later : Shared}
    {phase next : HandlerPhase} (hstep : HandlerStep handler id shared phase next later) {pid : ℕ}
    (hmem : pid ∈ shared.acknowledged) : pid ∈ later.acknowledged := by
  rcases hstep.acknowledged with hsame | ⟨new, -, hcons⟩
  · rwa [hsame]
  · rw [hcons]
    exact .tail _ hmem

/-- A handler makes no group: only the child does. -/
theorem HandlerStep.groupAlive {handler : ℕ} {id : String} {shared later : Shared}
    {phase next : HandlerPhase} (hstep : HandlerStep handler id shared phase next later) {pid : ℕ}
    (halive : (later.process pid).groupAlive = true) : (shared.process pid).groupAlive = true := by
  cases hstep with
  | fork forked hunborn =>
      change (Function.update shared.process forked .forked pid).groupAlive = true at halive
      by_cases heq : pid = forked
      · rw [heq, Function.update_self] at halive
        cases halive
      · rwa [Function.update_of_ne heq] at halive
  | duplicate | activate | lock | survey | reap | reapUnwritten | survivor | reaped | unspawned
  | unidentified | register | unwritten | acknowledge | unacknowledged | unowned | own | disown
  | disownedQuiescent | disownedAlive | settle | verify | verifyUnwritten | unverified | report
  | fail | failedQuiescent | failedAlive | leave => exact halive

/-- The ACK file that is there after a step of a handler was there, or is the one that the
handler has acknowledged. -/
theorem HandlerStep.ack {handler : ℕ} {id : String} {shared later : Shared}
    {phase next : HandlerPhase} (hstep : HandlerStep handler id shared phase next later)
    {files : Lifecycle} {pid : ℕ} (hack : (files.after phase next).ack pid = true) :
    files.ack pid = true ∨ pid ∈ later.acknowledged := by
  cases hstep with
  | @acknowledge written =>
      change Function.update files.ack written true pid = true at hack
      by_cases heq : pid = written
      · rw [heq]
        exact .inr (.head _)
      · rw [Function.update_of_ne heq] at hack
        exact .inl hack
  | @disownedQuiescent disowned | @disownedAlive disowned =>
      change Function.update files.ack disowned false pid = true at hack
      by_cases heq : pid = disowned
      · rw [heq, Function.update_self] at hack
        cases hack
      · rw [Function.update_of_ne heq] at hack
        exact .inl hack
  | fail hserves =>
      cases phase <;> first | exact .inl hack | cases hserves
  | duplicate | activate | lock | survey | reap | reapUnwritten | survivor | reaped | unspawned
  | fork | unidentified | register | unwritten | unacknowledged | unowned | own | disown | settle
  | verify | verifyUnwritten | unverified | report | failedQuiescent | failedAlive | leave =>
      exact .inl hack

theorem StageFacts.handlerStep (h : StageFacts state) {handler : ℕ} {next : HandlerPhase}
    {shared : Shared} (hstep : HandlerStep handler (attemptId handler) state.broker.shared
      (state.broker.phase handler) next shared) :
    StageFacts { state with
      broker := ⟨Function.update state.broker.phase handler next, shared⟩
      files := state.files.after (state.broker.phase handler) next } := by
  refine ⟨?_, ?_, ?_⟩
  · intro pid hack
    rcases hstep.ack hack with hold | hnew
    · exact hstep.acknowledges (h.ack pid hold)
    · exact hnew
  · intro pid hstage
    exact hstep.acknowledges (h.seen pid hstage)
  · intro pid halive
    exact h.group pid (hstep.groupAlive halive)

/-- A child that does not make its group keeps the facts about groups. -/
theorem StageFacts.setProcess (h : StageFacts state) {pid : ℕ} {process : ChildProcess}
    (hgroup : process.groupAlive = true → (state.process pid).groupAlive = true) :
    StageFacts (state.setProcess pid process) := by
  refine ⟨h.ack, h.seen, ?_⟩
  intro other halive
  change (Function.update state.broker.shared.process pid process other).groupAlive = true at halive
  by_cases heq : other = pid
  · rw [heq, Function.update_self] at halive
    rw [heq]
    exact h.group pid (hgroup halive)
  · rw [Function.update_of_ne heq] at halive
    exact h.group other halive

theorem StageFacts.setStage (h : StageFacts state) {pid : ℕ} (stage : ChildStage)
    (hseen : pid ∈ state.broker.shared.acknowledged)
    (howns : (state.stage pid).owns = true → stage.owns = true) :
    StageFacts (state.setStage pid stage) := by
  refine ⟨h.ack, ?_, ?_⟩
  · intro other hstage
    change Function.update state.stage pid stage other ≠ _ at hstage
    by_cases heq : other = pid
    · rwa [heq]
    · rw [Function.update_of_ne heq] at hstage
      exact h.seen other hstage
  · intro other halive
    change (Function.update state.stage pid stage other).owns = true
    by_cases heq : other = pid
    · rw [heq, Function.update_self]
      rw [heq] at halive
      exact howns (h.group pid halive)
    · rw [Function.update_of_ne heq]
      exact h.group other halive

theorem StageFacts.step (h : StageFacts state) (hstep : HandshakeStep attemptId state actor after) :
    StageFacts after := by
  cases hstep with
  | @see pid hprocess hstage hack =>
      have hset := h.setStage .acknowledged (h.ack pid hack)
        (by rw [hstage]; intro howns; cases howns)
      refine ⟨?_, hset.seen, hset.group⟩
      intro other hother
      change Function.update state.files.ack pid false other = true at hother
      by_cases heq : other = pid
      · rw [heq, Function.update_self] at hother
        cases hother
      · rw [Function.update_of_ne heq] at hother
        exact h.ack other hother
  | @group pid hprocess hstage =>
      have hseen := h.seen pid (by rw [hstage]; exact nofun)
      have hset := h.setStage .grouped hseen (fun _ => rfl)
      refine ⟨h.ack, hset.seen, ?_⟩
      intro other halive
      change (Function.update state.broker.shared.process pid .leading other).groupAlive = true
        at halive
      by_cases heq : other = pid
      · rw [heq]
        show (Function.update state.stage pid .grouped pid).owns = true
        rw [Function.update_self]
        rfl
      · rw [Function.update_of_ne heq] at halive
        exact hset.group other halive
  | @publish pid hprocess hstage =>
      have hset := h.setStage .published
        (h.seen pid (by rw [hstage]; exact nofun)) (fun _ => rfl)
      exact ⟨h.ack, hset.seen, hset.group⟩
  | @proceed pid hprocess hstage htaken =>
      exact h.setStage .running (h.seen pid (by rw [hstage]; exact nofun)) (fun _ => rfl)
  | orphan hprocess => exact h.setProcess (fun _ => by rw [hprocess]; rfl)
  | die hborn => exact h.setProcess nofun
  | handler hstep => exact h.handlerStep hstep
  | main hstep =>
      have hsame : ∀ {later : Shared}, SweepStep state.broker.shared later →
          later.acknowledged = state.broker.shared.acknowledged ∧
            later.process = state.broker.shared.process := by
        intro later hsweep
        cases hsweep <;> exact ⟨rfl, rfl⟩
      obtain ⟨hacknowledged, hprocess⟩ := hsame hstep
      refine ⟨?_, ?_, ?_⟩
      · intro pid hack
        show pid ∈ _
        rw [hacknowledged]
        exact h.ack pid hack
      · intro pid hstage
        show pid ∈ _
        rw [hacknowledged]
        exact h.seen pid hstage
      · intro pid halive
        apply h.group pid
        change (_ : ChildProcess).groupAlive = true at halive
        rwa [HandshakeState.process, hprocess] at halive

/-! ## The registry covers the children -/

/-- The steps after which the registry still covers the children: the cleanup of a failed
handshake does not look for the group of a child that is alive in the group of the basis. -/
structure CoveredStep (attemptId : ℕ → String) (state : HandshakeState) (actor : Actor)
    (after : HandshakeState) : Prop where
  step : HandshakeStep attemptId state actor after
  disown : ∀ handler pid, actor = .handler handler →
    state.broker.phase handler = .disowned pid → state.process pid ≠ .forked

/-- What is so of the children that the broker knows. -/
structure CoverFacts (attemptId : ℕ → String) (state : HandshakeState) : Prop where
  owned : OwnershipFacts attemptId state.broker
  stages : StageFacts state
  registry : Accounted state.broker.shared state.broker.shared.children
  /-- A pid that was read is registered, or about to be. -/
  read : ∀ pid handler, state.broker.shared.spawnedBy pid = some handler →
    state.process pid = .gone ∨ pid ∈ state.broker.shared.registered ∨
      state.broker.phase handler = .forked pid
  listed : ∀ child ∈ state.broker.shared.children, child.pid ∈ state.broker.shared.registered

theorem coverFacts_start : CoverFacts attemptId .start :=
  ⟨ownershipFacts_start, stageFacts_start, nofun, nofun, nofun⟩

theorem HandlerStep.registers {handler : ℕ} {id : String} {shared later : Shared}
    {phase next : HandlerPhase} (hstep : HandlerStep handler id shared phase next later) {pid : ℕ}
    (hmem : pid ∈ shared.registered) : pid ∈ later.registered := by
  rcases hstep.registered with ⟨hsame, -⟩ | ⟨new, -, hcons, -⟩
  · rwa [hsame]
  · rw [hcons]
    exact .tail _ hmem

/-- A handler that has read a pid registers it, or finds its process gone. -/
theorem HandlerStep.reads {handler : ℕ} {id : String} {shared later : Shared}
    {phase next : HandlerPhase} (hstep : HandlerStep handler id shared phase next later)
    (hidentity : ∀ pid, phase = .forked pid → next = .leaving →
      shared.process pid = .gone ∨ pid ∈ later.registered) :
    (∀ pid owner, later.spawnedBy pid = some owner →
      shared.spawnedBy pid = some owner ∨ owner = handler ∧ next = .forked pid) ∧
    ∀ pid, phase = .forked pid → shared.process pid = .gone ∨ pid ∈ later.registered := by
  cases hstep with
  | fork forked hunborn =>
      refine ⟨?_, nofun⟩
      intro pid owner hspawned
      change Function.update shared.spawnedBy forked (some handler) pid = some owner at hspawned
      by_cases heq : pid = forked
      · rw [heq, Function.update_self] at hspawned
        cases hspawned
        exact .inr ⟨rfl, by rw [heq]⟩
      · rw [Function.update_of_ne heq] at hspawned
        exact .inl hspawned
  | @unidentified pid | @unwritten pid =>
      refine ⟨fun _ _ h => .inl h, ?_⟩
      intro other hphase
      exact hidentity other hphase rfl
  | @register pid =>
      refine ⟨fun _ _ h => .inl h, ?_⟩
      rintro other ⟨⟩
      exact .inr (.head _)
  | fail hserves =>
      refine ⟨fun _ _ h => .inl h, ?_⟩
      rintro other rfl
      cases hserves
  | duplicate | activate | lock | survey | reap | reapUnwritten | survivor | reaped | unspawned
  | acknowledge | unacknowledged | unowned | own | disown | disownedQuiescent | disownedAlive
  | settle | verify | verifyUnwritten | unverified | report | failedQuiescent | failedAlive | leave =>
      exact ⟨fun _ _ h => .inl h, nofun⟩

/-- The children in the registry were registered. -/
theorem HandlerStep.listed {handler : ℕ} {id : String} {shared later : Shared}
    {phase next : HandlerPhase} (hstep : HandlerStep handler id shared phase next later)
    (h : ∀ child ∈ shared.children, child.pid ∈ shared.registered) :
    ∀ child ∈ later.children, child.pid ∈ later.registered := by
  have hdropped : ∀ pid, ∀ child ∈ ActiveBrokerChildren.unregister shared.children pid,
      child.pid ∈ shared.registered :=
    fun pid child hmem => h child (ActiveBrokerChildren.mem_unregister.mp hmem).1
  have hadded : ∀ record, ∀ child ∈ ActiveBrokerChildren.register shared.children record,
      child.pid ∈ record.pid :: shared.registered := by
    intro record child hmem
    rcases ActiveBrokerChildren.mem_register hmem with rfl | hold
    · exact .head _
    · exact .tail _ (h child hold)
  cases hstep with
  | reap | reapUnwritten | disownedQuiescent | verify | verifyUnwritten | failedQuiescent =>
      exact hdropped _
  | register | unwritten => exact hadded _
  | duplicate | activate | lock | survey | survivor | reaped | unspawned | fork | unidentified
  | acknowledge | unacknowledged | unowned | own | disown | disownedAlive | settle | unverified
  | report | fail | failedAlive | leave => exact h

theorem CoverFacts.handlerStep (h : CoverFacts attemptId state) {handler : ℕ} {next : HandlerPhase}
    {shared : Shared} (hstep : HandlerStep handler (attemptId handler) state.broker.shared
      (state.broker.phase handler) next shared)
    (hidentity : ∀ pid, state.broker.phase handler = .forked pid → next = .leaving →
      state.process pid = .gone ∨ pid ∈ shared.registered)
    (hdisown : ∀ pid, state.broker.phase handler = .disowned pid →
      state.process pid ≠ .forked) :
    CoverFacts attemptId { state with
      broker := ⟨Function.update state.broker.phase handler next, shared⟩
      files := state.files.after (state.broker.phase handler) next } := by
  have hone := h.owned.handlers handler
  have heffect := hstep.effect hone h.owned.born
  obtain ⟨hspawned, hreads⟩ := hstep.reads hidentity
  refine ⟨h.owned.handlerStep hstep, h.stages.handlerStep hstep,
    hstep.accounted hone h.owned.born hdisown h.registry, ?_, hstep.listed h.listed⟩
  intro pid owner howner
  show shared.process pid = .gone ∨ pid ∈ shared.registered ∨
    Function.update state.broker.phase handler next owner = .forked pid
  rcases hspawned pid owner howner with hold | ⟨rfl, hforked⟩
  · rcases h.read pid owner hold with hgone | hregistered | hphase
    · exact .inl (heffect.gone pid hgone)
    · exact .inr (.inl (hstep.registers hregistered))
    · rcases @update_phase state.broker handler next owner with ⟨rfl, -⟩ | ⟨-, hupdate⟩
      · rcases hreads pid hphase with hgone | hregistered
        · exact .inl (heffect.gone pid hgone)
        · exact .inr (.inl hregistered)
      · rw [hupdate]
        exact .inr (.inr hphase)
  · rw [Function.update_self]
    exact .inr (.inr hforked)

/-- Steps that leave the handlers and what was registered as they are. -/
theorem CoverFacts.of_undisturbed (h : CoverFacts attemptId state) {shared : Shared}
    (hstages : StageFacts after) (hbroker : after.broker = { state.broker with shared := shared })
    (hkeep : Undisturbed state.broker.shared shared)
    (hregistered : shared.registered = state.broker.shared.registered)
    (hregistry : Accounted shared shared.children) : CoverFacts attemptId after := by
  obtain ⟨broker, stage, files⟩ := after
  subst hbroker
  refine ⟨hkeep.facts h.owned, hstages, hregistry, ?_, ?_⟩
  · intro pid handler hspawned
    show shared.process pid = .gone ∨ pid ∈ shared.registered ∨ _
    change shared.spawnedBy pid = some handler at hspawned
    rw [hkeep.spawnedBy] at hspawned
    rw [hregistered]
    exact (h.read pid handler hspawned).imp (hkeep.gone pid) id
  · intro child hmem
    show child.pid ∈ shared.registered
    rw [hregistered]
    exact h.listed child (hkeep.children child hmem)

theorem CoverFacts.processStep (h : CoverFacts attemptId state) {pid : ℕ} {shared : Shared}
    (hstages : StageFacts after) (hbroker : after.broker = { state.broker with shared := shared })
    (hstep : ProcessStep state.broker.shared pid shared) : CoverFacts attemptId after := by
  have hsame : shared.registered = state.broker.shared.registered ∧
      shared.children = state.broker.shared.children := by
    cases hstep <;> exact ⟨rfl, rfl⟩
  refine h.of_undisturbed hstages hbroker hstep.undisturbed hsame.1 ?_
  rw [hsame.2]
  exact h.registry.mono hsame.1 hstep.undisturbed.gone

theorem CoverFacts.step (h : CoverFacts attemptId state)
    (hstep : CoveredStep attemptId state actor after) : CoverFacts attemptId after := by
  obtain ⟨hstep, hdisown⟩ := hstep
  have hstages := h.stages.step hstep
  cases hstep with
  | see | publish | proceed => exact ⟨h.owned, hstages, h.registry, h.read, h.listed⟩
  | group hprocess => exact h.processStep hstages rfl (.lead hprocess)
  | orphan hprocess => exact h.processStep hstages rfl (.orphan hprocess)
  | die hborn => exact h.processStep hstages rfl (.die hborn)
  | handler hstep _ hidentity =>
      exact h.handlerStep hstep hidentity fun pid hphase => hdisown _ pid rfl hphase
  | @main shared hstep =>
      refine h.of_undisturbed hstages rfl hstep.undisturbed (by cases hstep <;> rfl) ?_
      cases hstep with
      | quiesced hsweep hgone => exact h.registry.unregister hgone
      | stop | survey | unverified | finish => exact h.registry

/-- What is registered stays so. -/
theorem HandshakeStep.registers (hstep : HandshakeStep attemptId state actor after) {pid : ℕ}
    (hmem : pid ∈ state.broker.shared.registered) : pid ∈ after.broker.shared.registered := by
  cases hstep with
  | see | group | publish | proceed | orphan | die => exact hmem
  | handler hstep => exact hstep.registers hmem
  | main hstep => cases hstep <;> exact hmem

theorem coverFacts_of_run {labels : List Actor}
    (hrun : Run (CoveredStep attemptId) .start labels state) : CoverFacts attemptId state :=
  hrun.preserves (fun _ _ _ h hstep => h.step hstep) coverFacts_start

end

/-- A process that is gone has neither a leader nor a group. -/
theorem ChildProcess.dead_iff {process : ChildProcess} :
    process.leaderAlive = false ∧ process.groupAlive = false ↔
      process = .gone ∨ process = .unborn := by
  cases process <;> simp [leaderAlive, groupAlive]

/-- A child whose ACK file was never written has no group to be found by, in any run. -/
theorem ungrouped_of_run {attemptId : ℕ → String} {labels : List Actor} {state : HandshakeState}
    (hrun : Run (HandshakeStep attemptId) .start labels state) {pid : ℕ}
    (hmem : pid ∉ state.broker.shared.acknowledged) : (state.process pid).groupAlive = false := by
  have hstages : StageFacts state :=
    hrun.preserves (fun _ _ _ h hstep => StageFacts.step h hstep) stageFacts_start
  by_contra halive
  have howns := hstages.group pid (by simpa using halive)
  have hseen : state.stage pid ≠ .awaiting := by
    intro hstage
    rw [hstage] at howns
    cases howns
  exact hmem (hstages.seen pid hseen)

/-- The cleanup of a failed handshake unregisters a child that is alive in the group of the
basis. -/
theorem HandshakeStep.uncovered {attemptId : ℕ → String} {state after : HandshakeState}
    {handler pid : ℕ} (hstep : HandshakeStep attemptId state (.handler handler) after)
    (hphase : state.broker.phase handler = .disowned pid) (hforked : state.process pid = .forked) :
    (after.process pid).leaderAlive = true ∧
      ∀ other ∈ after.broker.shared.children, other.pid ≠ pid := by
  cases hstep with
  | @handler _ next shared hstep =>
      show (shared.process pid).leaderAlive = true ∧ ∀ other ∈ shared.children, other.pid ≠ pid
      rw [hphase] at hstep
      cases hstep with
      | disownedQuiescent hgroup =>
          have hkept : (state.process pid).leaderAlive = true := by
            rw [hforked]
            rfl
          exact ⟨hkept, fun other hmem => (ActiveBrokerChildren.mem_unregister.mp hmem).2⟩
      | disownedAlive hgroup =>
          rw [show state.broker.shared.process pid = .forked from hforked] at hgroup
          cases hgroup
      | fail hserves => cases hserves

/-- A step of a handler that is neither the end of a wait for ownership nor the refusal of
an identity. -/
theorem HandshakeStep.plain {attemptId : ℕ → String} {state : HandshakeState} {handler : ℕ}
    {phase next : HandlerPhase} {shared : Shared} (hphase : state.broker.phase handler = phase)
    (hstep : HandlerStep handler (attemptId handler) state.broker.shared phase next shared)
    (howned : ∀ pid, phase = .acknowledged pid → next ≠ .serving pid)
    (hidentity : ∀ pid, phase = .forked pid → next ≠ .leaving) :
    HandshakeStep attemptId state (.handler handler)
      { state with
        broker := ⟨Function.update state.broker.phase handler next, shared⟩
        files := state.files.after phase next } := by
  subst hphase
  exact .handler hstep (fun pid hphase hnext => absurd hnext (howned pid hphase))
    (fun pid hphase hnext => absurd hnext (hidentity pid hphase))

/-- Unless it is the cleanup of a failed handshake, it is covered. -/
theorem CoveredStep.plain {attemptId : ℕ → String} {state : HandshakeState} {handler : ℕ}
    {phase next : HandlerPhase} {shared : Shared} (hphase : state.broker.phase handler = phase)
    (hstep : HandlerStep handler (attemptId handler) state.broker.shared phase next shared)
    (howned : ∀ pid, phase = .acknowledged pid → next ≠ .serving pid)
    (hidentity : ∀ pid, phase = .forked pid → next ≠ .leaving)
    (hdisown : ∀ pid, phase ≠ .disowned pid) :
    CoveredStep attemptId state (.handler handler)
      { state with
        broker := ⟨Function.update state.broker.phase handler next, shared⟩
        files := state.files.after phase next } := by
  refine ⟨HandshakeStep.plain hphase hstep howned hidentity, ?_⟩
  rintro _ pid ⟨⟩ hdisowned
  rw [hphase] at hdisowned
  exact absurd hdisowned (hdisown pid)

theorem covered_run : ∃ labels state, Run (CoveredStep fun _ => "a-1") .start labels state ∧
    4711 ∈ state.broker.shared.registered ∧ (state.process 4711).groupAlive = true :=
  ⟨[.handler 0, .handler 0, .handler 0, .handler 0, .handler 0, .handler 0, .process 4711,
      .process 4711], _,
    .cons (.plain rfl (.lock rfl rfl) nofun nofun nofun) (.cons
    (.plain rfl .survey nofun nofun nofun) (.cons (.plain rfl .reaped nofun nofun nofun) (.cons
    (.plain rfl (.fork 4711 rfl) nofun nofun nofun) (.cons
    (.plain rfl .register nofun nofun nofun) (.cons
    (.plain rfl .acknowledge nofun nofun nofun) (.cons
    ⟨.see rfl rfl rfl, nofun⟩ (.cons ⟨.group rfl rfl, nofun⟩ (.nil _)))))))),
    List.mem_singleton_self _, rfl⟩

end Hearth.Broker
