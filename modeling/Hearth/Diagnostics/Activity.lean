import Hearth.Diagnostics.Lines
import Hearth.Diagnostics.Text
import Hearth.Replay.ClaimProbe

/-!
# Proof activity

The prelude prints a record when a `prove` call is entered and when it returns or raises.
Calls that are nested too deep are not printed, except for the one that goes too deep;
when that one is left, the record says which call was the last one.

`account_proof_activity` reads the records of a transcript and keeps the calls that have
not been left.
-/

namespace Hearth.Diagnostics

open Hearth.Library
open Hearth.Library.Json (renderInt)
open Hearth.Replay (isProbeNonce)

/-- `ACTIVITY_PREFIX`. -/
def activityPrefix : List Char := "__HOL_PROOF_ACTIVITY__".toList
def legacyActivityProtocol : String := "hol-hearth.proof-activity.v1"
def activityProtocol : String := "hol-hearth.proof-activity.v2"
def maxActivityCalls : ℕ := 8192
def maxActivityDepth : ℕ := 64
def maxActivitySequence : ℕ := 2 ^ 62 - 1

/-- `f"{prefix}:{nonce}:"`. -/
def markerPrefix (marker : List Char) (nonce : String) : List Char :=
  marker ++ ':' :: (nonce.toList ++ [':'])

/-! ## The prelude -/

/-- The references `calls`, `depth` and `activity_enabled`. -/
structure Emitter where
  calls : ℕ
  depth : ℕ
  activityEnabled : Bool
  deriving DecidableEq, Repr

/-- A record of a call, on a line of its own. -/
def activityRecord (nonce : String) (call : ℕ) (operation : List Char) : Bytes :=
  asciiBytes ('\n' :: (markerPrefix activityPrefix nonce ++ renderInt call ++ operation ++ ['\n']))

/-- `":%s:%s:%d"`. -/
def locationText (slot : Location × Bytes) : List Char :=
  ':' :: (hex (bounded slot.1.filename) ++ ':' :: (hex (bounded slot.2) ++
    ':' :: renderInt slot.1.lineNumber))

namespace Emitter

/-- `enter`: what is printed and the number of the call. -/
def enter (nonce : String) (slots : List Slot) (emitter : Emitter) : List Bytes × ℕ × Emitter :=
  let exhausted := emitter.activityEnabled && emitter.calls = maxActivitySequence
  let first := if exhausted then [activityRecord nonce emitter.calls ":EXHAUSTED".toList] else []
  let enabled := emitter.activityEnabled && !exhausted
  let calls := if enabled then emitter.calls + 1 else emitter.calls
  let depth := if enabled then emitter.depth + 1 else emitter.depth
  let second :=
    if enabled && depth ≤ maxActivityDepth then
      [activityRecord nonce calls (":ENTER".toList ++ (located slots).flatMap locationText)]
    else if enabled && depth = maxActivityDepth + 1 then
      [activityRecord nonce calls ":OVERFLOW".toList]
    else []
  (first ++ second, calls, { calls := calls, depth := depth, activityEnabled := enabled })

/-- `leave`. -/
def leave (nonce : String) (call : ℕ) (emitter : Emitter) : List Bytes × Emitter :=
  if emitter.activityEnabled then
    (if emitter.depth ≤ maxActivityDepth then [activityRecord nonce call ":LEAVE".toList]
     else if emitter.depth = maxActivityDepth + 1 then
       [activityRecord nonce call (":RESUME:".toList ++ renderInt emitter.calls)]
     else [],
     { emitter with depth := emitter.depth - 1 })
  else ([], emitter)

end Emitter

/-- A `prove` call is entered, or the innermost one returns or raises. -/
inductive ActivityStep
  | enter (slots : List Slot)
  | leave

/-- The references and the calls that are open, with their numbers, the innermost first. -/
structure Prelude where
  emitter : Emitter
  opened : List (ℕ × List Slot)

namespace Prelude

def start : Prelude where
  emitter := { calls := 0, depth := 0, activityEnabled := true }
  opened := []

def step (nonce : String) (prelude : Prelude) : ActivityStep → Option (List Bytes × Prelude)
  | .enter slots =>
      let (prints, call, emitter) := prelude.emitter.enter nonce slots
      some (prints, { emitter := emitter, opened := (call, slots) :: prelude.opened })
  | .leave =>
      match prelude.opened with
      | [] => none
      | (call, _) :: opened =>
          let (prints, emitter) := prelude.emitter.leave nonce call
          some (prints, { emitter := emitter, opened := opened })

/-- The prints of the steps, if they are properly nested. -/
def run (nonce : String) (prelude : Prelude) : List ActivityStep → Option (List Bytes × Prelude)
  | [] => some ([], prelude)
  | first :: steps => do
      let (prints, prelude) ← prelude.step nonce first
      let (more, prelude) ← prelude.run nonce steps
      some (prints ++ more, prelude)

end Prelude

/-! ## The decoder -/

/-- `contract["proof_diagnostics"]`. -/
structure DiagnosticDescriptor where
  nonce : Option String
  activityProtocol : Option String
  deriving DecidableEq, Repr

/-- The part of a contract that the decoders read. -/
structure DiagnosticContract where
  nonce : Option String
  proofDiagnostics : Option DiagnosticDescriptor
  deriving DecidableEq, Repr

inductive ActivityStatus
  | none | unavailable | invalidContract | incomplete | malformed
  | truncated | sequenceExhausted | depthOverflow | recorded
  deriving DecidableEq, Repr

structure ActiveCall where
  call : ℤ
  locations : List RecordedLocation
  enteredTranscriptLine : ℕ
  deriving DecidableEq, Repr

/-- The variables of the loop. -/
structure ActivityState where
  active : List ActiveCall
  entered : ℤ
  records : ℕ
  overflow : Option ℤ
  overflowSpans : ℤ
  suppressedCalls : ℤ
  terminal : Option ActivityStatus
  deriving DecidableEq, Repr

def ActivityState.start : ActivityState where
  active := []
  entered := 0
  records := 0
  overflow := .none
  overflowSpans := 0
  suppressedCalls := 0
  terminal := .none

inductive ActivityOp
  | truncated | exhausted | overflow | resume | enter | leave
  deriving DecidableEq, Repr

/-- The operation that a record names. -/
def ActivityOp.ofText (text : List Char) : Option ActivityOp :=
  if text = "TRUNCATED".toList then some .truncated
  else if text = "EXHAUSTED".toList then some .exhausted
  else if text = "OVERFLOW".toList then some .overflow
  else if text = "RESUME".toList then some .resume
  else if text = "ENTER".toList then some .enter
  else if text = "LEAVE".toList then some .leave
  else .none

/-- The locations of an `ENTER` record: three fields each. -/
def locationsOf : List (List Char) → Option (List RecordedLocation)
  | [] => some []
  | file :: name :: lineText :: rest => do
      let line ← intOf lineText
      guard (1 ≤ line)
      let file ← text_ file
      let name ← text_ name
      let locations ← locationsOf rest
      some ({ file := file, name := name, line := line } :: locations)
  | _ => .none

/-- What a record does to the variables; `none` is a `ValueError` or an `IndexError`. -/
def accountOperation (legacy : Bool) (lineno : ℕ) (parts : List (List Char)) (call : ℤ)
    (state : ActivityState) : ActivityOp → Option ActivityState
  | .truncated => do
      guard (legacy ∧ parts.length = 2 ∧ call = maxActivityCalls + 1 ∧
        state.entered = maxActivityCalls)
      some { state with terminal := some .truncated }
  | .exhausted => do
      guard (¬ legacy ∧ parts.length = 2 ∧ call = maxActivitySequence ∧
        (state.overflow = .none → state.entered = call))
      some { state with entered := call, terminal := some .sequenceExhausted }
  | .overflow => do
      guard (¬ legacy ∧ parts.length = 2 ∧ state.overflow = .none ∧
        state.active.length = maxActivityDepth ∧ call = state.entered + 1)
      some { state with overflow := some call, overflowSpans := state.overflowSpans + 1,
                        entered := call }
  | .resume => do
      guard (¬ legacy ∧ parts.length = 3 ∧ state.overflow = some call)
      let lastText ← parts[2]?
      let last ← intOf lastText
      guard (call ≤ last ∧ last ≤ maxActivitySequence)
      some { state with suppressedCalls := state.suppressedCalls + (last - call + 1),
                        entered := last, overflow := .none }
  | .enter => do
      guard (state.overflow = .none)
      guard (call = state.entered + 1 ∧ ¬ (legacy ∧ maxActivityCalls < call) ∧
        ¬ (¬ legacy ∧ maxActivityDepth ≤ state.active.length) ∧ parts.length ≤ 98)
      let locations ← locationsOf (parts.drop 2)
      some { state with active := state.active ++ [⟨call, locations, lineno⟩], entered := call }
  | .leave => do
      guard (state.overflow = .none)
      guard (parts.length = 2 ∧ state.active.getLast?.map ActiveCall.call = some call)
      some { state with active := state.active.dropLast }

/-- A record: the fields behind the prefix, without the line end. -/
def accountRecord (legacy : Bool) (lineno : ℕ) (raw : Bytes) (state : ActivityState) :
    Option ActivityState := do
  let state := { state with records := state.records + 1 }
  guard (¬ (legacy ∧ maxActivityCalls * 2 + 1 < state.records))
  guard (state.terminal = .none)
  let text ← charsOfBytes (raw.rdropWhile isLineEnd)
  let parts := text.splitOn ':'
  let callText ← parts[0]?
  let call ← intOf callText
  let opText ← parts[1]?
  guard (1 ≤ call ∧ call ≤ maxActivitySequence)
  let operation ← ActivityOp.ofText opText
  accountOperation legacy lineno parts call state operation

def maxLineBytes : ℕ := 32 * (maxTextBytes + 32) * 4 + 256

/-- A line that is shorter than the prefix and begins as it does. -/
def isCutOff (marker line : Bytes) : Bool :=
  line.length < marker.length && asciiBytes activityPrefix <+: line && line <+: marker

/-- The body of the loop. -/
def accountLine (legacy : Bool) (marker : Bytes) (state : ActivityState) :
    Bytes × ℕ → Except ActivityStatus ActivityState
  | (line, lineno) =>
      if ¬ marker <+: line then
        if isCutOff marker line then .error .incomplete else .ok state
      else if maxLineBytes < line.length then .error .malformed
      else if line.getLast? ≠ some 10 then .error .incomplete
      else
        match accountRecord legacy lineno (line.drop marker.length) state with
        | .none => .error .malformed
        | some state => .ok state

/-- What is known of the calls that are no longer kept. -/
structure ActivityBounds where
  maxActiveCalls : ℕ := maxActivityDepth
  historyRetention : String := "active_calls_only"
  completedCallHistoryRetained : ℕ := 0
  overflowSpanCount : ℤ
  suppressedCallCount : ℤ
  suppressedCallCountComplete : Bool
  deriving DecidableEq, Repr

structure ActivityAccount where
  schema : String
  status : ActivityStatus
  activeCalls : List ActiveCall := []
  authority : String := "diagnostic_only"
  boundary : String :=
    "An entered prove call without a recorded return; neither failure nor theorem evidence."
  enteredCallCount : Option ℤ := .none
  enteredCallCountComplete : Option Bool := .none
  bounds : Option ActivityBounds := .none
  deriving DecidableEq, Repr

/-- What is returned when the loop is over. -/
def activityReport (schema : String) (legacy : Bool) (state : ActivityState) : ActivityAccount :=
  match state.terminal with
  | some terminal =>
      { schema := schema, status := terminal, enteredCallCount := some state.entered }
  | .none =>
      let bounds : Option ActivityBounds :=
        if legacy then .none
        else some { overflowSpanCount := state.overflowSpans,
                    suppressedCallCount := state.suppressedCalls,
                    suppressedCallCountComplete := state.overflow.isNone }
      if state.overflow.isSome then
        { schema := schema, status := .depthOverflow, enteredCallCount := some state.entered,
          enteredCallCountComplete := some false, bounds := bounds }
      else
        { schema := schema, status := if state.records ≠ 0 then .recorded else .none,
          activeCalls := state.active, enteredCallCount := some state.entered, bounds := bounds }

/-- `account_proof_activity`. -/
def accountProofActivity (transcript : Bytes) (contract : DiagnosticContract) : ActivityAccount :=
  let descriptor := contract.proofDiagnostics
  match descriptor.bind DiagnosticDescriptor.activityProtocol with
  | .none => { schema := activityProtocol, status := .unavailable }
  | some protocol =>
      if protocol ≠ legacyActivityProtocol ∧ protocol ≠ activityProtocol then
        { schema := activityProtocol, status := .unavailable }
      else
        let nonce := contract.nonce.getD ""
        if ¬ isProbeNonce nonce ∨ descriptor.bind DiagnosticDescriptor.nonce ≠ some nonce then
          { schema := protocol, status := .invalidContract }
        else
          let legacy : Bool := protocol = legacyActivityProtocol
          let marker := asciiBytes (markerPrefix activityPrefix nonce)
          let lines := (lineRanges transcript).zipIdx 1
          match lines.foldlM (accountLine legacy marker) ActivityState.start with
          | .error status => { schema := protocol, status := status }
          | .ok state => activityReport protocol legacy state

end Hearth.Diagnostics
