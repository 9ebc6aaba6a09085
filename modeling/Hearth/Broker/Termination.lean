import Hearth.Broker.Children
import Hearth.Broker.FrameReader
import Hearth.Library.JsonDict

/-!
# Why an attempt ended

`_serve_attempt` from the registration of its child to the final event, beside the sweep of
`run` over the registered children.  Both call `terminate_child`, which is taken apart into
the signals it sends.  The controller sends whatever bytes it likes; what it sent first
decides how the handler reads it.

The handler reports `child_exited` when it finds the group dead, whoever ended it: a sweep
that signals the group of a child that is still served makes a killed proof look like one
that ended by itself.
-/

namespace Hearth.Broker

open Hearth.Library

/-! ## Terminating a child -/

/-- Where a call of `terminate_child` is. -/
inductive TerminateStage
  | inspecting | terminating | waiting | killing | settling
  | ended (verified : Bool)
  deriving DecidableEq, Repr

/-- One step of `terminate_child` on a child in this state, and whether a signal of it reaches
the group.  `killpg` on a group that is gone reaches nobody. -/
inductive TerminateStep (process : ChildProcess) : TerminateStage → TerminateStage → Bool → Prop
  /-- `already_quiescent`. -/
  | quiescent (hgone : process = .gone) : TerminateStep process .inspecting (.ended true) false
  | live : TerminateStep process .inspecting .terminating false
  | term (halive : process.groupAlive = true) : TerminateStep process .terminating .waiting true
  | termMissing (hdead : process.groupAlive = false) :
      TerminateStep process .terminating .waiting false
  /-- `signal_failed`. -/
  | termFailed : TerminateStep process .terminating (.ended false) false
  | calm (hgone : process = .gone) : TerminateStep process .waiting .settling false
  | overdue : TerminateStep process .waiting .killing false
  | kill (halive : process.groupAlive = true) : TerminateStep process .killing .settling true
  | killMissing (hdead : process.groupAlive = false) : TerminateStep process .killing .settling false
  | killFailed : TerminateStep process .killing (.ended false) false
  | settled (hgone : process = .gone) : TerminateStep process .settling (.ended true) false
  | survived : TerminateStep process .settling (.ended false) false

/-! ## What the controller may send -/

def brokerControlSchema : String := "hol-workbench.fork-basis-broker.control.v1"

/-- `json.loads(raw.decode("utf-8"))`. -/
def controlOf (raw : Bytes) : Option Json :=
  (String.fromUTF8? ⟨raw.toArray⟩).bind fun text => Json.parse text.toList

/-- A well-formed cancel of the attempt: the checks that the loop makes before it cancels. -/
def isCancel (attemptId : String) (frame : Frame) : Bool :=
  frame.frameType = brokerFrameControl &&
    match controlOf frame.payload with
    | some (.obj fields) =>
        (Json.obj fields).field "operation" = some (.str "cancel") &&
          fields.all (fun row => row.1 ∈ ["schema", "operation", "attempt_id"]) &&
          (Json.obj fields).field "schema" = some (.str brokerControlSchema) &&
          (Json.obj fields).field "attempt_id" = some (.str attemptId)
    | _ => false

/-- The first thing on the connection is a well-formed cancel of the attempt. -/
def SentCancel (attemptId : String) (sent : Bytes) : Prop :=
  ∃ first rest frame after, sent = first ++ rest ∧ receiveFrame first = (.value frame, after) ∧
    isCancel attemptId frame = true

/-! ## One served attempt -/

/-- Where `_serve_attempt` is, from the registration of its child on. -/
inductive ServicePhase
  | owning
  | disowning (stage : TerminateStage)
  | polling | checking | selecting | confirming
  | stopping (termination : Termination) (stage : TerminateStage)
  | draining (termination : Termination) (verified : Bool)
  | failing (stage : TerminateStage)
  | closed
  deriving DecidableEq, Repr

/-- Whether the child has passed its `setsid`. -/
def ChildProcess.grouped : ChildProcess → Bool
  | .unborn | .forked => false
  | .leading | .orphaned | .gone => true

/-- Whether the handler still waits for its child to end. -/
def ServicePhase.looping : ServicePhase → Bool
  | .owning | .polling | .checking | .selecting => true
  | _ => false

/-- Where the sweep of `run` is with this child. -/
inductive ServiceSweep
  | running | stopped
  | terminating (stage : TerminateStage)
  | past
  deriving DecidableEq, Repr

/-- The attempt, its child, the controller and the sweep. -/
structure Service where
  phase : ServicePhase
  process : ChildProcess
  registered : Bool
  /-- All that the controller has sent, and whether it has closed its end. -/
  sent : Bytes
  closed : Bool
  sweep : ServiceSweep
  /-- Whether a signal of the broker has reached the group of the child. -/
  signalled : Bool
  final : Option Termination

/-- Who takes a step of a service. -/
inductive ServiceActor
  | child | controller | handler | main
  deriving DecidableEq, Repr

namespace Service

/-- The child is registered and its ACK file written. -/
def start : Service where
  phase := .owning
  process := .forked
  registered := true
  sent := []
  closed := false
  sweep := .running
  signalled := false
  final := none

variable (service : Service)

/-- The service after a step of `terminate_child`. -/
def signal (reached : Bool) : Service :=
  { service with signalled := service.signalled || reached }

end Service

/-- The steps of a service.  The handler receives at most one frame, so it is the first of
all that was sent. -/
inductive ServiceStep (attemptId : String) (service : Service) : ServiceActor → Service → Prop
  /-- `setsid`. -/
  | lead (hprocess : service.process = .forked) :
      ServiceStep attemptId service .child { service with process := .leading }
  | orphan (hprocess : service.process = .leading) :
      ServiceStep attemptId service .child { service with process := .orphaned }
  | die : ServiceStep attemptId service .child { service with process := .gone }
  | send (bytes : Bytes) (hopen : service.closed = false) :
      ServiceStep attemptId service .controller { service with sent := service.sent ++ bytes }
  | close : ServiceStep attemptId service .controller { service with closed := true }
  /-- The ownership file is there, and the child is alive and leads its group. -/
  | own (hphase : service.phase = .owning) (hleading : service.process = .leading) :
      ServiceStep attemptId service .handler { service with phase := .polling }
  | unowned (hphase : service.phase = .owning) :
      ServiceStep attemptId service .handler { service with phase := .disowning .inspecting }
  | disown {stage next : TerminateStage} {reached : Bool}
      (hphase : service.phase = .disowning stage)
      (hstep : TerminateStep service.process stage next reached) :
      ServiceStep attemptId service .handler
        { service.signal reached with phase := .disowning next }
  | disowned {verified : Bool} (hphase : service.phase = .disowning (.ended verified)) :
      ServiceStep attemptId service .handler
        { service with
          phase := .closed, registered := service.registered && service.process.groupAlive }
  /-- New output is sent, if there is any. -/
  | poll (hphase : service.phase = .polling) :
      ServiceStep attemptId service .handler { service with phase := .checking }
  | gone (hphase : service.phase = .checking) (hdead : service.process.groupAlive = false) :
      ServiceStep attemptId service .handler { service with phase := .confirming }
  | alive (hphase : service.phase = .checking) (halive : service.process.groupAlive = true) :
      ServiceStep attemptId service .handler { service with phase := .selecting }
  /-- `wait_for_quiescence` after the group was found dead. -/
  | confirm (verified : Bool) (hphase : service.phase = .confirming)
      (hgone : verified = true → service.process = .gone) :
      ServiceStep attemptId service .handler
        { service with phase := .draining .childExited verified }
  /-- Nothing to read. -/
  | idle (hphase : service.phase = .selecting) :
      ServiceStep attemptId service .handler { service with phase := .polling }
  /-- The connection ends before a frame. -/
  | disconnected (hphase : service.phase = .selecting) (hclosed : service.closed = true)
      (hended : (receiveFrame service.sent).1 = .ended) :
      ServiceStep attemptId service .handler
        { service with phase := .stopping .controllerDisconnected .inspecting }
  | cancel {frame : Frame} {rest : Bytes} (hphase : service.phase = .selecting)
      (hframe : receiveFrame service.sent = (.value frame, rest))
      (hcancel : isCancel attemptId frame = true) :
      ServiceStep attemptId service .handler
        { service with phase := .stopping .explicitCancel .inspecting }
  /-- Any other frame raises. -/
  | refuse {frame : Frame} {rest : Bytes} (hphase : service.phase = .selecting)
      (hframe : receiveFrame service.sent = (.value frame, rest))
      (hcancel : isCancel attemptId frame = false) :
      ServiceStep attemptId service .handler { service with phase := .failing .inspecting }
  /-- A send fails, a header is refused, or the transport times out. -/
  | fail (hopen : service.phase ≠ .owning ∧ service.phase ≠ .closed)
      (hstage : ∀ stage, service.phase ≠ .failing stage ∧ service.phase ≠ .disowning stage) :
      ServiceStep attemptId service .handler { service with phase := .failing .inspecting }
  | stop {termination : Termination} {stage next : TerminateStage} {reached : Bool}
      (hphase : service.phase = .stopping termination stage)
      (hstep : TerminateStep service.process stage next reached) :
      ServiceStep attemptId service .handler
        { service.signal reached with phase := .stopping termination next }
  | stopped {termination : Termination} {verified : Bool}
      (hphase : service.phase = .stopping termination (.ended verified)) :
      ServiceStep attemptId service .handler
        { service with phase := .draining termination verified }
  /-- The rest of the output is sent, the group is looked at once more, and the final event is
  sent. -/
  | report {termination : Termination} {verified : Bool} (quiescent : Bool)
      (hphase : service.phase = .draining termination verified)
      (hquiescent : quiescent = (verified && !service.process.groupAlive)) :
      ServiceStep attemptId service .handler
        { service with
          phase := .closed, final := some termination
          registered := service.registered && !quiescent }
  | abandon {stage next : TerminateStage} {reached : Bool} (hphase : service.phase = .failing stage)
      (hstep : TerminateStep service.process stage next reached) :
      ServiceStep attemptId service .handler
        { service.signal reached with phase := .failing next }
  | abandoned {verified : Bool} (hphase : service.phase = .failing (.ended verified)) :
      ServiceStep attemptId service .handler
        { service with
          phase := .closed
          registered := service.registered && !(verified && !service.process.groupAlive) }
  /-- A stop request, or the end of the basis. -/
  | shutdown (hsweep : service.sweep = .running) :
      ServiceStep attemptId service .main { service with sweep := .stopped }
  | survey (hsweep : service.sweep = .stopped) :
      ServiceStep attemptId service .main
        { service with sweep := if service.registered then .terminating .inspecting else .past }
  | sweep {stage next : TerminateStage} {reached : Bool}
      (hsweep : service.sweep = .terminating stage)
      (hstep : TerminateStep service.process stage next reached) :
      ServiceStep attemptId service .main { service.signal reached with sweep := .terminating next }
  | swept {verified : Bool} (hsweep : service.sweep = .terminating (.ended verified)) :
      ServiceStep attemptId service .main
        { service with sweep := .past, registered := service.registered && !verified }

/-- The steps in which no signal of the sweep reaches the group of a child whose handler is
still in its loop. -/
structure SparingStep (attemptId : String) (service : Service) (actor : ServiceActor)
    (after : Service) : Prop where
  step : ServiceStep attemptId service actor after
  spares : actor = .main → service.phase.looping = true → after.signalled = service.signalled

/-! ## The reason is the truth -/

/-- What a reason says. -/
def Truthful (attemptId : String) (service : Service) : Termination → Prop
  | .childExited => service.signalled = false ∧ service.process = .gone
  | .controllerDisconnected => service.closed = true
  | .explicitCancel => SentCancel attemptId service.sent

/-- What is so of a service whose sweep spares served children. -/
structure ServiceFacts (attemptId : String) (service : Service) : Prop where
  unsignalled : service.phase.looping = true → service.signalled = false
  owned : service.phase.looping = true → service.phase ≠ .owning → service.process.grouped = true
  confirming : service.phase = .confirming → Truthful attemptId service .childExited
  stopping : ∀ termination stage, service.phase = .stopping termination stage →
    termination ≠ .childExited ∧ Truthful attemptId service termination
  draining : ∀ termination verified, service.phase = .draining termination verified →
    Truthful attemptId service termination
  final : ∀ termination, service.final = some termination → service.phase = .closed ∧
    Truthful attemptId service termination

section

variable {attemptId : String} {service after : Service} {actor : ServiceActor}

theorem serviceFacts_start : ServiceFacts attemptId .start :=
  ⟨fun _ => rfl, fun _ h => absurd rfl h, nofun, nofun, nofun, nofun⟩

theorem SentCancel.append {sent : Bytes} (h : SentCancel attemptId sent) (bytes : Bytes) :
    SentCancel attemptId (sent ++ bytes) := by
  obtain ⟨first, rest, frame, remaining, rfl, hframe, hcancel⟩ := h
  exact ⟨first, rest ++ bytes, frame, remaining, List.append_assoc _ _ _, hframe, hcancel⟩

/-- A group that was made and is dead is gone. -/
theorem ChildProcess.gone_of_grouped {process : ChildProcess} (hgrouped : process.grouped = true)
    (hdead : process.groupAlive = false) : process = .gone := by
  cases process with
  | unborn | forked => cases hgrouped
  | leading | orphaned => cases hdead
  | gone => rfl

/-- A signal reaches a group that is alive. -/
theorem TerminateStep.reaches {process : ChildProcess} {stage next : TerminateStage} {reached : Bool}
    (hstep : TerminateStep process stage next reached) (hreached : reached = true) :
    process.groupAlive = true := by
  cases hstep with
  | term halive | kill halive => exact halive
  | quiescent | live | termMissing | termFailed | calm | overdue | killMissing | killFailed | settled
  | survived => cases hreached

/-- What was true of a reason stays true of it. -/
structure Lasting (service after : Service) : Prop where
  signalled : service.process = .gone → after.signalled = service.signalled
  gone : service.process = .gone → after.process = .gone
  grouped : service.process.grouped = true → after.process.grouped = true
  closed : service.closed = true → after.closed = true
  sent : ∃ bytes, after.sent = service.sent ++ bytes

theorem Lasting.truthful (h : Lasting service after) {termination : Termination}
    (htrue : Truthful attemptId service termination) : Truthful attemptId after termination := by
  cases termination with
  | childExited => exact ⟨(h.signalled htrue.2).trans htrue.1, h.gone htrue.2⟩
  | controllerDisconnected => exact h.closed htrue
  | explicitCancel =>
      obtain ⟨bytes, hsent⟩ := h.sent
      show SentCancel attemptId after.sent
      rw [hsent]
      exact SentCancel.append htrue bytes

theorem TerminateStep.lasting {stage next : TerminateStage} {reached : Bool}
    (hstep : TerminateStep service.process stage next reached) :
    Lasting service (service.signal reached) := by
  refine ⟨?_, id, id, id, ⟨[], (List.append_nil _).symm⟩⟩
  intro hgone
  show (service.signalled || reached) = service.signalled
  cases hreached : reached with
  | false => exact Bool.or_false _
  | true =>
      -- Nothing reaches a group that is gone.
      have halive := hstep.reaches hreached
      rw [hgone] at halive
      cases halive

theorem ServiceStep.lasting (hstep : ServiceStep attemptId service actor after) :
    Lasting service after := by
  have hsame : ∃ bytes, service.sent = service.sent ++ bytes := ⟨[], (List.append_nil _).symm⟩
  cases hstep with
  | lead hprocess | orphan hprocess =>
      refine ⟨fun _ => rfl, ?_, fun _ => rfl, id, hsame⟩
      intro hgone
      rw [hprocess] at hgone
      cases hgone
  | die => exact ⟨fun _ => rfl, fun _ => rfl, fun _ => rfl, id, hsame⟩
  | send bytes => exact ⟨fun _ => rfl, id, id, id, ⟨bytes, rfl⟩⟩
  | close => exact ⟨fun _ => rfl, id, id, fun _ => rfl, hsame⟩
  | disown hphase hstep | stop hphase hstep | abandon hphase hstep | sweep hsweep hstep =>
      have h := hstep.lasting
      exact ⟨h.signalled, h.gone, h.grouped, h.closed, h.sent⟩
  | own | unowned | disowned | poll | gone | alive | confirm | idle | disconnected | cancel | refuse
  | fail | stopped | report | abandoned | shutdown | survey | swept =>
      exact ⟨fun _ => rfl, id, id, id, hsame⟩

/-- Steps after which the handler is where it was. -/
theorem ServiceFacts.outside (h : ServiceFacts attemptId service) (hlasting : Lasting service after)
    (hphase : after.phase = service.phase) (hfinal : after.final = service.final)
    (hspares : service.phase.looping = true → after.signalled = service.signalled) :
    ServiceFacts attemptId after := by
  refine ⟨?_, ?_, ?_, ?_, ?_, ?_⟩
  · intro hlooping
    rw [hphase] at hlooping
    exact (hspares hlooping).trans (h.unsignalled hlooping)
  · intro hlooping howned
    rw [hphase] at hlooping howned
    exact hlasting.grouped (h.owned hlooping howned)
  · intro hconfirming
    rw [hphase] at hconfirming
    exact hlasting.truthful (h.confirming hconfirming)
  · intro termination stage hstopping
    rw [hphase] at hstopping
    exact (h.stopping _ _ hstopping).imp id hlasting.truthful
  · intro termination verified hdraining
    rw [hphase] at hdraining
    exact hlasting.truthful (h.draining _ _ hdraining)
  · intro termination hreported
    rw [hfinal] at hreported
    rw [hphase]
    exact (h.final _ hreported).imp id hlasting.truthful

/-- Before the handler has closed there is no final event. -/
theorem ServiceFacts.unreported (h : ServiceFacts attemptId service) {phase : ServicePhase}
    (hphase : service.phase = phase) (hopen : phase ≠ .closed) (termination : Termination) :
    service.final ≠ some termination := by
  intro hfinal
  have hclosed := (h.final termination hfinal).1
  exact hopen (hphase.symm.trans hclosed)

/-- The handler goes on in its loop. -/
theorem ServiceFacts.looped (h : ServiceFacts attemptId service) {phase next : ServicePhase}
    (hphase : service.phase = phase) (hlooping : phase.looping = true)
    (hnext : next.looping = true) (hgrouped : service.process.grouped = true) :
    ServiceFacts attemptId { service with phase := next } := by
  have hopen : phase ≠ .closed := by
    intro hclosed
    rw [hclosed] at hlooping
    cases hlooping
  refine ⟨?_, fun _ _ => hgrouped, ?_, ?_, ?_, ?_⟩
  · intro _
    exact h.unsignalled (by rw [hphase]; exact hlooping)
  · rintro rfl
    cases hnext
  · rintro _ _ rfl
    cases hnext
  · rintro _ _ rfl
    cases hnext
  · intro termination hfinal
    exact absurd hfinal (h.unreported hphase hopen termination)

/-- The handler has nothing to report yet, or never will. -/
theorem ServiceFacts.silent (h : ServiceFacts attemptId service) {phase next : ServicePhase}
    (hphase : service.phase = phase) (hopen : phase ≠ .closed) (hnext : next.looping = false)
    (hafter : after.phase = next) (hfinal : after.final = service.final)
    (hconfirming : next ≠ .confirming) (hstopping : ∀ termination stage, next ≠ .stopping termination stage)
    (hdraining : ∀ termination verified, next ≠ .draining termination verified) :
    ServiceFacts attemptId after := by
  refine ⟨?_, ?_, ?_, ?_, ?_, ?_⟩
  · intro hlooping
    rw [hafter, hnext] at hlooping
    cases hlooping
  · intro hlooping
    rw [hafter, hnext] at hlooping
    cases hlooping
  · intro heq
    exact absurd (hafter.symm.trans heq) hconfirming
  · intro termination stage heq
    exact absurd (hafter.symm.trans heq) (hstopping termination stage)
  · intro termination verified heq
    exact absurd (hafter.symm.trans heq) (hdraining termination verified)
  · intro termination hreported
    rw [hfinal] at hreported
    exact absurd hreported (h.unreported hphase hopen termination)

/-- The handler has its reason, and stops its child. -/
theorem ServiceFacts.stopped (h : ServiceFacts attemptId service) {phase : ServicePhase}
    (hphase : service.phase = phase) (hopen : phase ≠ .closed) {termination : Termination}
    {stage : TerminateStage} (hafter : after.phase = .stopping termination stage)
    (hfinal : after.final = service.final) (hreason : termination ≠ .childExited)
    (htrue : Truthful attemptId after termination) : ServiceFacts attemptId after := by
  refine ⟨?_, ?_, ?_, ?_, ?_, ?_⟩
  · intro hlooping
    rw [hafter] at hlooping
    cases hlooping
  · intro hlooping
    rw [hafter] at hlooping
    cases hlooping
  · intro heq
    rw [hafter] at heq
    cases heq
  · intro other next heq
    rw [hafter] at heq
    cases heq
    exact ⟨hreason, htrue⟩
  · intro other verified heq
    rw [hafter] at heq
    cases heq
  · intro other hreported
    rw [hfinal] at hreported
    exact absurd hreported (h.unreported hphase hopen other)

/-- The handler has its reason, and the child is looked at a last time. -/
theorem ServiceFacts.drained (h : ServiceFacts attemptId service) {phase : ServicePhase}
    (hphase : service.phase = phase) (hopen : phase ≠ .closed) {termination : Termination}
    {verified : Bool} (htrue : Truthful attemptId service termination) :
    ServiceFacts attemptId { service with phase := .draining termination verified } := by
  refine ⟨nofun, nofun, nofun, nofun, ?_, ?_⟩
  · rintro _ _ ⟨⟩
    exact htrue
  · intro other hreported
    exact absurd hreported (h.unreported hphase hopen other)

theorem ServiceFacts.step (h : ServiceFacts attemptId service)
    (hstep : SparingStep attemptId service actor after) : ServiceFacts attemptId after := by
  obtain ⟨hstep, hspares⟩ := hstep
  have hlasting := hstep.lasting
  cases hstep with
  | lead | orphan | die | send | close => exact h.outside hlasting rfl rfl (fun _ => rfl)
  | shutdown | survey | sweep | swept => exact h.outside hlasting rfl rfl (hspares rfl)
  | own hphase hleading => exact h.looped hphase rfl rfl (by rw [hleading]; rfl)
  | poll hphase | alive hphase | idle hphase =>
      exact h.looped hphase rfl rfl (h.owned (by rw [hphase]; rfl) (by rw [hphase]; exact nofun))
  | gone hphase hdead =>
      have hgrouped := h.owned (by rw [hphase]; rfl) (by rw [hphase]; exact nofun)
      refine ⟨nofun, nofun, ?_, nofun, nofun, ?_⟩
      · intro _
        exact ⟨h.unsignalled (by rw [hphase]; rfl), ChildProcess.gone_of_grouped hgrouped hdead⟩
      · intro termination hfinal
        exact absurd hfinal (h.unreported hphase nofun termination)
  | confirm verified hphase hgone => exact h.drained hphase nofun (h.confirming hphase)
  | disconnected hphase hclosed hended => exact h.stopped hphase nofun rfl rfl nofun hclosed
  | cancel hphase hframe hcancel =>
      have hsent : SentCancel attemptId service.sent :=
        ⟨service.sent, [], _, _, (List.append_nil _).symm, hframe, hcancel⟩
      exact h.stopped hphase nofun rfl rfl nofun hsent
  | stop hphase =>
      obtain ⟨hreason, htrue⟩ := h.stopping _ _ hphase
      exact h.stopped hphase nofun rfl rfl hreason (hlasting.truthful htrue)
  | stopped hphase => exact h.drained hphase nofun (h.stopping _ _ hphase).2
  | unowned hphase | disown hphase | disowned hphase | refuse hphase | abandon hphase
  | abandoned hphase => exact h.silent hphase nofun rfl rfl rfl nofun nofun nofun
  | fail hopen => exact h.silent rfl hopen.2 rfl rfl rfl nofun nofun nofun
  | report quiescent hphase =>
      refine ⟨nofun, nofun, nofun, nofun, nofun, ?_⟩
      rintro _ ⟨⟩
      exact ⟨rfl, h.draining _ _ hphase⟩

theorem serviceFacts_of_run {labels : List ServiceActor}
    (hrun : Run (SparingStep attemptId) .start labels service) : ServiceFacts attemptId service :=
  hrun.preserves (fun _ _ _ h hstep => h.step hstep) serviceFacts_start

/-- A signal that reached the group stays one. -/
theorem ServiceStep.signalled (hstep : ServiceStep attemptId service actor after)
    (hsignalled : service.signalled = true) : after.signalled = true := by
  cases hstep with
  | disown hphase hstep | stop hphase hstep | abandon hphase hstep | sweep hsweep hstep =>
      show (service.signalled || _) = true
      rw [hsignalled, Bool.true_or]
  | lead | orphan | die | send | close | own | unowned | disowned | poll | gone | alive | confirm
  | idle | disconnected | cancel | refuse | fail | stopped | report | abandoned | shutdown | survey
  | swept => exact hsignalled

end

/-- **The reported reason is the truth.**  In every run in which no signal of the shutdown sweep
reaches the group of a child whose handler still waits for its end, the final event says
`child_exited` only of a group that died without a signal of the broker, `explicit_cancel` only
after a well-formed cancel of the attempt, and `controller_disconnected` only after the
controller closed its end.  After a signal of the sweep that does reach such a group,
`child_exited` is not the truth. -/
theorem reported_termination_truthful (attemptId : String) {labels : List ServiceActor}
    {service : Service} (hrun : Run (SparingStep attemptId) .start labels service) :
    (∀ termination, service.final = some termination → Truthful attemptId service termination) ∧
    ∀ after, ServiceStep attemptId service .main after → service.phase.looping = true →
      after.signalled ≠ service.signalled → ∀ (further : List ServiceActor) (last : Service),
        Run (ServiceStep attemptId) after further last → ¬ Truthful attemptId last .childExited := by
  have hfacts := serviceFacts_of_run hrun
  refine ⟨fun termination hfinal => (hfacts.final termination hfinal).2, ?_⟩
  intro after _ hlooping hreached further last hfurther htrue
  have hbefore : service.signalled = false := hfacts.unsignalled hlooping
  have hafter : after.signalled = true := by
    rw [hbefore] at hreached
    exact Bool.eq_true_of_not_eq_false hreached
  have hkeep : ∀ current actor next, current.signalled = true →
      ServiceStep attemptId current actor next → next.signalled = true :=
    fun _ _ _ h hstep => hstep.signalled h
  have hlast : last.signalled = true := hfurther.preserves hkeep hafter
  rw [htrue.1] at hlast
  cases hlast

/-! ### A child that ends by itself, and one that the sweep ends -/

theorem reported_termination_truthful_exit : ∃ labels service,
    Run (SparingStep "a-1") .start labels service ∧ service.final = some .childExited ∧
      service.signalled = false := by
  have hrun : ∃ labels service, Run (SparingStep "a-1") .start labels service ∧
      service.final = some .childExited :=
    ⟨[.child, .handler, .handler, .child, .handler, .handler, .handler], _,
      .cons ⟨.lead rfl, nofun⟩ (.cons ⟨.own rfl rfl, nofun⟩ (.cons ⟨.poll rfl, nofun⟩ (.cons
      ⟨.die, nofun⟩ (.cons ⟨.gone rfl rfl, nofun⟩ (.cons ⟨.confirm true rfl (fun _ => rfl), nofun⟩
      (.cons ⟨.report true rfl rfl, nofun⟩ (.nil _))))))), rfl⟩
  obtain ⟨labels, service, hrun, hfinal⟩ := hrun
  have htrue := (reported_termination_truthful "a-1" hrun).1 .childExited hfinal
  exact ⟨labels, service, hrun, hfinal, htrue.1⟩

/-- A stop request while the attempt is served: the sweep ends the child, and the handler reports
that it exited. -/
theorem swept_child_reported_exited : ∃ labels service,
    Run (ServiceStep "a-1") .start labels service ∧ service.final = some .childExited ∧
      service.signalled = true :=
  ⟨[.child, .handler, .main, .main, .main, .main, .child, .handler, .handler, .handler, .handler], _,
    .cons (.lead rfl) (.cons (.own rfl rfl) (.cons (.shutdown rfl) (.cons (.survey rfl) (.cons
    (.sweep rfl .live) (.cons (.sweep rfl (.term rfl)) (.cons .die (.cons (.poll rfl) (.cons
    (.gone rfl rfl) (.cons (.confirm true rfl (fun _ => rfl)) (.cons (.report true rfl rfl)
    (.nil _))))))))))), rfl, rfl⟩

end Hearth.Broker
