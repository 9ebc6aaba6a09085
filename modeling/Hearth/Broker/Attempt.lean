import Hearth.Broker.Frame
import Hearth.Library.Transition

/-!
# One attempt

The broker's `_serve_attempt` and the controller's `run_broker_attempt`, joined by a
socket, with the child whose output is transferred.  The state has the child's output
file, what each party knows, and the bytes that the broker has sent and the controller
has not received.

The broker and the controller take one step for each thing they do to the file or the
socket, so that everything the other party and the child can do comes between.  What
time decides (timeouts, deadlines, the wishes of `cancel_decider`, whether a signalled
process group is gone in time) is open: a step says what was observed.
-/

namespace Hearth.Broker

open Hearth.Library

/-! ## What is sent -/

/-- The record of a registered child. -/
structure ChildRecord where
  attemptId : String
  pid : ℕ
  deriving DecidableEq, Repr

/-- `termination` of a final event. -/
inductive Termination
  | childExited | controllerDisconnected | explicitCancel
  deriving DecidableEq, Repr

/-- `completed` or `cleanup_failed`. -/
inductive FinalStatus
  | completed | cleanupFailed
  deriving DecidableEq, Repr

/-- The final event of an attempt. -/
structure FinalEvent where
  status : FinalStatus
  termination : Termination
  child : ChildRecord
  childQuiescent : Bool
  seatReusable : Bool
  outputBytes : ℕ
  generation : String
  deriving DecidableEq, Repr

/-- The events of schema `BROKER_EVENT_SCHEMA` that an attempt sends. -/
inductive Event
  | spawned (child : ChildRecord) (generation : String)
  | final (event : FinalEvent)
  | error (message : String) (activeChildren : List ChildRecord)
  deriving DecidableEq, Repr

/-- `json.dumps` and `json.loads` on events. -/
structure ControlCodec where
  dumps : Event → Bytes
  loads : Bytes → Option Event
  loads_dumps : ∀ event, loads (dumps event) = some event

/-- What an attempt is about: the requested id and the described generation. -/
structure AttemptRequest where
  attemptId : String
  generation : String
  codec : ControlCodec

variable (request : AttemptRequest)

def AttemptRequest.controlFrame (event : Event) : Frame :=
  ⟨brokerFrameControl, request.codec.dumps event⟩

def rawFrame (payload : Bytes) : Frame :=
  ⟨brokerFrameRawOutput, payload⟩

def brokerRawChunkBytes : ℕ := 64 * 1024

/-! ## The controller -/

/-- What `run_broker_attempt` can raise once the request is sent. -/
inductive ControllerError
  | disconnected
  | sendFailed
  | refusedFrame (error : BrokerProtocolError)
  | malformedEvent
  | brokerError (message : String)
  | changedGeneration
  | changedAttempt
  | duplicateSpawn
  | changedChild
  deriving DecidableEq, Repr

/-- Where the loop of `run_broker_attempt` is, or how it ended. -/
inductive ControllerPhase
  | looping | receiving | deciding | cancelling
  | returned (event : FinalEvent)
  | recovering
  | raised (error : ControllerError)
  deriving DecidableEq, Repr

/-- The variables of `run_broker_attempt`. -/
structure Controller where
  reader : BufferedBrokerFrameReader
  transcript : Bytes
  rawBytes : ℕ
  spawned : Option ChildRecord
  cancellationReason : Option String
  cancelSent : Bool
  phase : ControllerPhase

/-- Whether the loop is still going, with the connection open. -/
def ControllerPhase.running : ControllerPhase → Bool
  | .looping | .receiving | .deciding | .cancelling => true
  | _ => false

/-- `_is_fork_spawn_timeout_event`. -/
def isForkSpawnTimeoutEvent (attemptId message : String) (activeChildren : List ChildRecord) : Bool :=
  message = "HOL basis timed out during fork spawn " ++ attemptId && activeChildren = []

namespace Controller

/-- The controller right after it sent the spawn request. -/
def start : Controller where
  reader := {}
  transcript := []
  rawBytes := 0
  spawned := none
  cancellationReason := none
  cancelSent := false
  phase := .looping

variable (controller : Controller)

/-- A control frame: `event.get("status")` decides. -/
def handleEvent (event : Event) : Controller :=
  match event with
  | .error message activeChildren =>
      if isForkSpawnTimeoutEvent request.attemptId message activeChildren then
        { controller with phase := .recovering }
      else { controller with phase := .raised (.brokerError message) }
  | .spawned child generation =>
      if generation ≠ request.generation then { controller with phase := .raised .changedGeneration }
      else if child.attemptId ≠ request.attemptId then
        { controller with phase := .raised .changedAttempt }
      else if controller.spawned.isSome then { controller with phase := .raised .duplicateSpawn }
      else { controller with spawned := some child, phase := .deciding }
  | .final event =>
      if event.generation ≠ request.generation then
        { controller with phase := .raised .changedGeneration }
      else if event.child.attemptId ≠ request.attemptId then
        { controller with phase := .raised .changedAttempt }
      else if controller.spawned ≠ some event.child then
        { controller with phase := .raised .changedChild }
      else { controller with phase := .returned event }

/-- What the loop does with a received frame. -/
def handleFrame (frame : Frame) : Controller :=
  if frame.frameType = brokerFrameRawOutput then
    { controller with
      transcript := controller.transcript ++ frame.payload
      rawBytes := controller.rawBytes + frame.payload.length
      phase := .deciding }
  else
    match request.codec.loads frame.payload with
    | none => { controller with phase := .raised .malformedEvent }
    | some event => controller.handleEvent request event

/-- The reason for cancelling after `cancel_decider` was asked: it is asked only about a
spawned child, and once it or the deadline gave a reason it is not asked again. -/
def decide (wish : Option String) : Controller :=
  if controller.spawned.isSome ∧ controller.cancellationReason = none then
    { controller with cancellationReason := wish }
  else controller

/-- Whether the loop sends its cancel now. -/
def cancels : Bool :=
  controller.spawned.isSome && controller.cancellationReason.isSome && !controller.cancelSent

end Controller

/-! ## The broker -/

/-- Where `_serve_attempt` is.  `polling` to `reporting` is the body of its `try`. -/
inductive ServePhase
  | spawning
  | polling | checking | confirming | selecting
  | terminating (termination : Termination)
  | draining (termination : Termination) (verifiedQuiescent : Bool)
  | reporting (termination : Termination) (verifiedQuiescent : Bool)
  | failing | erring | closing | closed
  deriving DecidableEq, Repr

/-- Inside the `try`, with a child. -/
def ServePhase.serving : ServePhase → Bool
  | .polling | .checking | .confirming | .selecting | .terminating _ | .draining _ _
  | .reporting _ _ => true
  | _ => false

/-- `_read_new_output`; a file that is not there yet cannot be opened. -/
def readNewOutput (output : Option Bytes) (offset : ℕ) : Bytes :=
  match output with
  | none => []
  | some content => (content.drop offset).take brokerRawChunkBytes

/-- The two parties, the child and the socket. -/
structure Attempt where
  output : Option Bytes
  groupAlive : Bool
  phase : ServePhase
  child : Option ChildRecord
  offset : ℕ
  emitted : Option FinalEvent
  brokerOpen : Bool
  toController : Bytes
  cancelPending : Bool
  controller : Controller

namespace Attempt

/-- What the child has written so far. -/
def content (attempt : Attempt) : Bytes :=
  attempt.output.getD []

/-- The attempt when the spawn request has been sent. -/
def start : Attempt where
  output := none
  groupAlive := true
  phase := .spawning
  child := none
  offset := 0
  emitted := none
  brokerOpen := true
  toController := []
  cancelPending := false
  controller := .start

/-- Whether the controller still has its end of the socket. -/
def controllerOpen (attempt : Attempt) : Bool :=
  attempt.controller.phase.running

/-- `_read_new_output(output_path, offset)` as the broker calls it now. -/
def newOutput (attempt : Attempt) : Bytes :=
  readNewOutput attempt.output attempt.offset

/-- The final event the broker sends from `reporting`. -/
def finalEvent (attempt : Attempt) (child : ChildRecord) (termination : Termination)
    (verified : Bool) : FinalEvent where
  status := if verified then .completed else .cleanupFailed
  termination := termination
  child := child
  childQuiescent := verified
  seatReusable := verified
  outputBytes := attempt.offset
  generation := request.generation

end Attempt

/-- Who takes a step. -/
inductive Party
  | child | broker | controller
  deriving DecidableEq, Repr

/-- The steps of an attempt.  A party that sends to a closed end fails, so the broker's
sends are guarded by the controller's being open; the controller's only send is the
cancel, which raises when the broker has closed. -/
inductive AttemptStep (attempt : Attempt) : Party → Attempt → Prop
  /-- The child opens its output file. -/
  | create (halive : attempt.groupAlive = true) (hnone : attempt.output = none) :
      AttemptStep attempt .child { attempt with output := some [] }
  /-- A member of the child's process group appends. -/
  | append {content : Bytes} (written : Bytes) (halive : attempt.groupAlive = true)
      (houtput : attempt.output = some content) :
      AttemptStep attempt .child { attempt with output := some (content ++ written) }
  /-- The last member of the process group is gone. -/
  | exit : AttemptStep attempt .child { attempt with groupAlive := false }
  /-- `_spawn_child` returns and `spawned` is sent. -/
  | spawn {child : ChildRecord} {sent : Bytes} (hphase : attempt.phase = .spawning)
      (hchild : child.attemptId = request.attemptId) (hopen : attempt.controllerOpen = true)
      (hsent : sendFrame (request.controlFrame (.spawned child request.generation)) = .ok sent) :
      AttemptStep attempt .broker { attempt with
        phase := .polling, child := some child, toController := attempt.toController ++ sent }
  /-- `_spawn_child` raises, or there is no child to serve. -/
  | refuse (hphase : attempt.phase = .spawning) :
      AttemptStep attempt .broker { attempt with phase := .erring }
  | pollOutput {sent : Bytes} (hphase : attempt.phase = .polling)
      (hopen : attempt.controllerOpen = true) (hnew : attempt.newOutput ≠ [])
      (hsent : sendFrame (rawFrame attempt.newOutput) = .ok sent) :
      AttemptStep attempt .broker { attempt with
        phase := .checking, offset := attempt.offset + attempt.newOutput.length,
        toController := attempt.toController ++ sent }
  | pollNothing (hphase : attempt.phase = .polling) (hnew : attempt.newOutput = []) :
      AttemptStep attempt .broker { attempt with phase := .checking }
  /-- `process_group_is_alive` is false. -/
  | gone (hphase : attempt.phase = .checking) (hdead : attempt.groupAlive = false) :
      AttemptStep attempt .broker { attempt with phase := .confirming }
  /-- `process_group_is_alive` is true. -/
  | alive (hphase : attempt.phase = .checking) :
      AttemptStep attempt .broker { attempt with phase := .selecting }
  /-- `wait_for_quiescence`. -/
  | confirm (verified : Bool) (hphase : attempt.phase = .confirming)
      (hquiescent : verified = true → attempt.groupAlive = false) :
      AttemptStep attempt .broker { attempt with phase := .draining .childExited verified }
  /-- `select` finds nothing to read. -/
  | idle (hphase : attempt.phase = .selecting) (hpending : attempt.cancelPending = false)
      (hopen : attempt.controllerOpen = true) :
      AttemptStep attempt .broker { attempt with phase := .polling }
  | receiveCancel (hphase : attempt.phase = .selecting) (hpending : attempt.cancelPending = true) :
      AttemptStep attempt .broker { attempt with
        phase := .terminating .explicitCancel, cancelPending := false }
  | receiveEnd (hphase : attempt.phase = .selecting) (hpending : attempt.cancelPending = false)
      (hclosed : attempt.controllerOpen = false) :
      AttemptStep attempt .broker { attempt with phase := .terminating .controllerDisconnected }
  /-- `terminate_child` returns. -/
  | terminate {termination : Termination} (verified : Bool)
      (hphase : attempt.phase = .terminating termination)
      (hquiescent : verified = true → attempt.groupAlive = false) :
      AttemptStep attempt .broker { attempt with phase := .draining termination verified }
  | drainOutput {termination : Termination} {verified : Bool} {sent : Bytes}
      (hphase : attempt.phase = .draining termination verified)
      (hopen : attempt.controllerOpen = true) (hnew : attempt.newOutput ≠ [])
      (hsent : sendFrame (rawFrame attempt.newOutput) = .ok sent) :
      AttemptStep attempt .broker { attempt with
        offset := attempt.offset + attempt.newOutput.length,
        toController := attempt.toController ++ sent }
  | drained {termination : Termination} {verified : Bool}
      (hphase : attempt.phase = .draining termination verified) (hnew : attempt.newOutput = []) :
      AttemptStep attempt .broker { attempt with phase := .reporting termination verified }
  /-- The final event; the process group is observed once more. -/
  | report {termination : Termination} {verified : Bool} {child : ChildRecord} {sent : Bytes}
      (observedAlive : Bool) (hphase : attempt.phase = .reporting termination verified)
      (hchild : attempt.child = some child) (hopen : attempt.controllerOpen = true)
      (halive : attempt.groupAlive = true → observedAlive = true)
      (hsent : sendFrame (request.controlFrame (.final
        (attempt.finalEvent request child termination (verified && !observedAlive)))) = .ok sent) :
      AttemptStep attempt .broker { attempt with
        phase := .closing, toController := attempt.toController ++ sent,
        emitted := some (attempt.finalEvent request child termination (verified && !observedAlive)) }
  /-- Something in the `try` raises; the child is terminated once more. -/
  | fail (hphase : attempt.phase.serving = true) :
      AttemptStep attempt .broker { attempt with phase := .failing }
  | reraise (hphase : attempt.phase = .failing) :
      AttemptStep attempt .broker { attempt with phase := .erring }
  | sendError {message : String} {activeChildren : List ChildRecord} {sent : Bytes}
      (hphase : attempt.phase = .erring) (hopen : attempt.controllerOpen = true)
      (hsent : sendFrame (request.controlFrame (.error message activeChildren)) = .ok sent) :
      AttemptStep attempt .broker { attempt with
        phase := .closing, toController := attempt.toController ++ sent }
  /-- `suppress(OSError)` around the error event. -/
  | suppressError (hphase : attempt.phase = .erring) :
      AttemptStep attempt .broker { attempt with phase := .closing }
  | close (hphase : attempt.phase = .closing) :
      AttemptStep attempt .broker { attempt with phase := .closed, brokerOpen := false }
  /-- The head of the loop: the deadline may have passed. -/
  | turn (expired : Bool) (hphase : attempt.controller.phase = .looping) :
      AttemptStep attempt .controller { attempt with
        controller := { attempt.controller with
          cancellationReason := attempt.controller.cancellationReason.or
            (if expired then some "controller_response_timeout" else none)
          phase := .receiving } }
  /-- `recv` gives a piece of what has been sent. -/
  | chunk {reader : BufferedBrokerFrameReader} {piece later : Bytes}
      (hphase : attempt.controller.phase = .receiving)
      (hattempt : attempt.controller.reader.attempt = .partly reader)
      (hpiece : piece ≠ []) (hsplit : attempt.toController = piece ++ later) :
      AttemptStep attempt .controller { attempt with
        toController := later
        controller := { attempt.controller with
          reader := { reader with buffer := reader.buffer ++ piece } } }
  /-- `recv` times out: nothing has been sent that is not received. -/
  | timeout {reader : BufferedBrokerFrameReader} (hphase : attempt.controller.phase = .receiving)
      (hattempt : attempt.controller.reader.attempt = .partly reader)
      (hnothing : attempt.toController = []) (hopen : attempt.brokerOpen = true) :
      AttemptStep attempt .controller { attempt with
        controller := { attempt.controller with reader := reader, phase := .deciding } }
  /-- `recv` finds the end of the connection. -/
  | eof {reader : BufferedBrokerFrameReader} (hphase : attempt.controller.phase = .receiving)
      (hattempt : attempt.controller.reader.attempt = .partly reader)
      (hnothing : attempt.toController = []) (hclosed : attempt.brokerOpen = false) :
      AttemptStep attempt .controller { attempt with
        controller := { attempt.controller with reader := reader, phase := .raised .disconnected } }
  /-- A frame is complete. -/
  | frame {reader : BufferedBrokerFrameReader} {frame : Frame}
      (hphase : attempt.controller.phase = .receiving)
      (hattempt : attempt.controller.reader.attempt = .complete frame reader) :
      AttemptStep attempt .controller { attempt with
        controller := ({ attempt.controller with reader := reader }).handleFrame request frame }
  | refused {error : BrokerProtocolError} (hphase : attempt.controller.phase = .receiving)
      (hattempt : attempt.controller.reader.attempt = .refused error) :
      AttemptStep attempt .controller { attempt with
        controller := { attempt.controller with phase := .raised (.refusedFrame error) } }
  /-- The tail of the loop: `cancel_decider` is asked. -/
  | ask (wish : Option String) (hphase : attempt.controller.phase = .deciding) :
      AttemptStep attempt .controller { attempt with
        controller := { attempt.controller.decide wish with
          phase := if (attempt.controller.decide wish).cancels then .cancelling else .looping } }
  /-- The cancel is sent. -/
  | cancel (hphase : attempt.controller.phase = .cancelling) (hopen : attempt.brokerOpen = true) :
      AttemptStep attempt .controller { attempt with
        cancelPending := true
        controller := { attempt.controller with phase := .looping, cancelSent := true } }
  /-- The cancel is sent to a broker that has closed its end. -/
  | cancelFails (hphase : attempt.controller.phase = .cancelling)
      (hclosed : attempt.brokerOpen = false) :
      AttemptStep attempt .controller { attempt with
        controller := { attempt.controller with phase := .raised .sendFailed } }

end Hearth.Broker
