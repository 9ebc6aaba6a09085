import Hearth.Broker.Attempt
import Hearth.Library.Json

/-!
# Events as JSON

`send_control` writes an event with `json.dumps` and sorted keys, as ASCII; the
controller reads it with `json.loads`.  An event that was written is read back.
-/

namespace Hearth.Broker

open Hearth.Library

def brokerEventSchema : String := "hol-workbench.fork-basis-broker.event.v1"

def ChildRecord.toJson (child : ChildRecord) : Json :=
  .obj [("attempt_id", .str child.attemptId), ("pid", .int child.pid)]

def Termination.text : Termination → String
  | .childExited => "child_exited"
  | .controllerDisconnected => "controller_disconnected"
  | .explicitCancel => "explicit_cancel"

def FinalStatus.text : FinalStatus → String
  | .completed => "completed"
  | .cleanupFailed => "cleanup_failed"

/-- The dictionaries of `_serve_attempt` and `_handle_connection`, keys in order. -/
def Event.toJson : Event → Json
  | .spawned child generation => .obj [
      ("attempt_id", .str child.attemptId),
      ("child", child.toJson),
      ("generation_sha256", .str generation),
      ("schema", .str brokerEventSchema),
      ("status", .str "spawned")]
  | .final event => .obj [
      ("attempt_id", .str event.child.attemptId),
      ("child", event.child.toJson),
      ("child_quiescent", .bool event.childQuiescent),
      ("generation_sha256", .str event.generation),
      ("output_bytes", .int event.outputBytes),
      ("schema", .str brokerEventSchema),
      ("seat_reusable", .bool event.seatReusable),
      ("status", .str event.status.text),
      ("termination", .str event.termination.text)]
  | .error message activeChildren => .obj [
      ("active_children", .arr (activeChildren.map ChildRecord.toJson)),
      ("message", .str message),
      ("schema", .str brokerEventSchema),
      ("status", .str "error")]

/-! ## Reading -/

def childOfJson (value : Json) : Option ChildRecord :=
  match value.field "attempt_id", value.field "pid" with
  | some (.str attemptId), some (.int pid) => some ⟨attemptId, pid.toNat⟩
  | _, _ => none

def terminationOfText (text : String) : Option Termination :=
  if text = "child_exited" then some .childExited
  else if text = "controller_disconnected" then some .controllerDisconnected
  else if text = "explicit_cancel" then some .explicitCancel
  else none

def childrenOfJson : List Json → Option (List ChildRecord)
  | [] => some []
  | value :: values => do
      let child ← childOfJson value
      let children ← childrenOfJson values
      return child :: children

/-- A final event with this status. -/
def finalOfJson (status : FinalStatus) (value : Json) : Option Event :=
  match value.field "child", value.field "child_quiescent", value.field "generation_sha256",
    value.field "output_bytes", value.field "seat_reusable", value.field "termination" with
  | some child, some (.bool quiescent), some (.str generation), some (.int outputBytes),
    some (.bool reusable), some (.str termination) => do
      let child ← childOfJson child
      let termination ← terminationOfText termination
      return .final ⟨status, termination, child, quiescent, reusable, outputBytes.toNat, generation⟩
  | _, _, _, _, _, _ => none

def eventOfJson (value : Json) : Option Event :=
  match value.field "schema", value.field "status" with
  | some (.str schema), some (.str status) =>
      if schema ≠ brokerEventSchema then none
      else if status = "error" then
        match value.field "active_children", value.field "message" with
        | some (.arr activeChildren), some (.str message) =>
            (childrenOfJson activeChildren).map fun children => .error message children
        | _, _ => none
      else if status = "spawned" then
        match value.field "child", value.field "generation_sha256" with
        | some child, some (.str generation) =>
            (childOfJson child).map fun child => .spawned child generation
        | _, _ => none
      else if status = "completed" then finalOfJson .completed value
      else if status = "cleanup_failed" then finalOfJson .cleanupFailed value
      else none
  | _, _ => none

theorem childOfJson_toJson (child : ChildRecord) : childOfJson child.toJson = some child := by
  simp [childOfJson, ChildRecord.toJson, Json.field, List.lookup_cons]

theorem childrenOfJson_toJson (children : List ChildRecord) :
    childrenOfJson (children.map ChildRecord.toJson) = some children := by
  induction children with
  | nil => rfl
  | cons child children ih =>
      rw [List.map_cons, childrenOfJson, childOfJson_toJson, ih]
      rfl

theorem terminationOfText_text (termination : Termination) :
    terminationOfText termination.text = some termination := by
  cases termination <;> rfl

theorem eventOfJson_toJson (event : Event) : eventOfJson event.toJson = some event := by
  cases event with
  | spawned child generation =>
      simp [eventOfJson, Event.toJson, Json.field, List.lookup_cons, childOfJson_toJson]
  | final event =>
      have htermination := terminationOfText_text event.termination
      cases hstatus : event.status with
      | completed =>
          simp [eventOfJson, finalOfJson, Event.toJson, Json.field, List.lookup_cons,
            childOfJson_toJson, hstatus, FinalStatus.text, htermination]
          rw [← hstatus]
      | cleanupFailed =>
          simp [eventOfJson, finalOfJson, Event.toJson, Json.field, List.lookup_cons,
            childOfJson_toJson, hstatus, FinalStatus.text, htermination]
          rw [← hstatus]
  | error message activeChildren =>
      simp [eventOfJson, Event.toJson, Json.field, List.lookup_cons, childrenOfJson_toJson]

/-! ## The bytes -/

/-- `json.dumps(payload, sort_keys=True, separators=(",", ":"))` and `json.loads`. -/
def jsonCodec : ControlCodec where
  dumps event := asciiBytes event.toJson.render
  loads raw := do
    let text ← charsOfBytes raw
    let value ← Json.parse text
    eventOfJson value
  loads_dumps event := by
    rw [charsOfBytes_asciiBytes (Json.ascii_render _)]
    show (Json.parse event.toJson.render).bind eventOfJson = some event
    rw [Json.parse_render]
    exact eventOfJson_toJson event

end Hearth.Broker
