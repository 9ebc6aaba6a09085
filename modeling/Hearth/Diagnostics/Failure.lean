import Hearth.Diagnostics.Records

/-!
# Failure diagnostics

The prelude prints a frame of records for each of the first eight `prove` calls that fail,
and one record more for the ninth.  `account_proof_diagnostics` takes complete frames
only, and checks every index, count and bound again.
-/

namespace Hearth.Diagnostics

open Hearth.Library
open Hearth.Library.Json (renderInt)
open Hearth.Replay (isProbeNonce)

/-- `PREFIX`. -/
def diagnosticPrefix : List Char := "__HOL_PROOF_DIAGNOSTIC__".toList
def maxEvents : ℕ := 8
def maxGoals : ℕ := 8
def maxAssumptions : ℕ := 16
def maxSteps : ℕ := 12
def maxStepLocations : ℕ := 8

/-! ## The prelude -/

structure Assumption where
  label : Bytes
  conclusion : Term

structure Goal where
  assumptions : List Assumption
  conclusion : Term

inductive GoalKind
  | residualGoals | tacticInput
  deriving DecidableEq, Repr

def GoalKind.text : GoalKind → String
  | .residualGoals => "residual_goals"
  | .tacticInput => "tactic_input"

/-- A tactic step that raised: the goal it was given, the exception and the call sites. -/
structure TacticStep where
  goal : Goal
  error : Bytes
  slots : List Slot

/-- The arguments of `emit`. -/
structure FailureEvent where
  kind : GoalKind
  tm : Term
  error : Bytes
  goals : List Goal
  slots : List Slot
  recordedSteps : List TacticStep

/-- The line of a record: the prefix, the number of the event and more fields. -/
def diagnosticLine (nonce : String) (event : ℕ) (fields : List (List Char)) : Bytes :=
  asciiBytes (markerPrefix diagnosticPrefix nonce ++ (renderInt event ++ fieldsText fields))

namespace FailureEvent

def beginFields (event : FailureEvent) : List (List Char) :=
  ["BEGIN".toList, event.kind.text.toList, renderInt event.goals.length,
    renderInt (event.goals.take 8).length, hex (render event.tm), hex (boundedExn event.error)]

end FailureEvent

def goalFields (index : ℕ) (goal : Goal) : List (List Char) :=
  ["GOAL".toList, renderInt index, renderInt goal.assumptions.length, hex (render goal.conclusion)]

/-- An assumption of a goal or of a step, which `operation` says. -/
def assumptionFields (operation : String) (index : ℕ) (assumption : Assumption) : List (List Char) :=
  [operation.toList, renderInt index, hex (bounded assumption.label),
    hex (render assumption.conclusion)]

def stepFields (index : ℕ) (step : TacticStep) : List (List Char) :=
  ["STEP".toList, renderInt index, renderInt step.goal.assumptions.length,
    hex (render step.goal.conclusion), hex (boundedExn step.error)]

def goalRecords (index : ℕ) (goal : Goal) : List (List (List Char)) :=
  goalFields index goal :: (goal.assumptions.take 16).map (assumptionFields "ASSUMPTION" index)

def stepRecords (index : ℕ) (step : TacticStep) : List (List (List Char)) :=
  stepFields index step ::
    ((step.goal.assumptions.take 16).map (assumptionFields "STEPASSUMPTION" index) ++
      (located (step.slots.take maxStepLocations)).map fun slot =>
        "STEPLOCATION".toList :: renderInt index :: locationFields slot)

/-- The records of a frame, behind the first one. -/
def FailureEvent.records (event : FailureEvent) : List (List (List Char)) :=
  (event.goals.take 8).zipIdx.flatMap (fun (goal, index) => goalRecords index goal) ++
    (located event.slots).map (fun slot => "LOCATION".toList :: locationFields slot) ++
    (match event.recordedSteps with
      | [] => []
      | steps =>
          ["STEPS".toList, renderInt steps.length, renderInt (steps.take maxSteps).length] ::
            (steps.take maxSteps).zipIdx.flatMap fun (step, index) => stepRecords index step) ++
    [["END".toList]]

/-- `emit`, with the value of `events`: the prints and the next value. -/
def emit (nonce : String) (events : ℕ) (event : FailureEvent) : List Bytes × ℕ :=
  if events < 8 then
    ((10 :: (diagnosticLine nonce (events + 1) event.beginFields ++ [10])) ::
      event.records.map (fun fields => diagnosticLine nonce (events + 1) fields ++ [10]), events + 1)
  else if events = 8 then ([diagnosticLine nonce 9 ["TRUNCATED".toList] ++ [10]], events + 1)
  else ([], events)

/-- The prints of one event after the other. -/
def emitAll (nonce : String) (events : ℕ) : List FailureEvent → List Bytes
  | [] => []
  | event :: rest =>
      let (prints, events) := emit nonce events event
      prints ++ emitAll nonce events rest

/-! ## The decoder -/

structure RecordedAssumption where
  label : String
  conclusion : String
  deriving DecidableEq, Repr

structure RecordedGoal where
  conclusion : String
  assumptionCount : ℤ
  assumptions : List RecordedAssumption
  deriving DecidableEq, Repr

structure RecordedStep where
  conclusion : String
  assumptionCount : ℤ
  assumptions : List RecordedAssumption
  exception : String
  locations : List RecordedLocation
  deriving DecidableEq, Repr

structure RecordedEvent where
  event : ℤ
  kind : String
  goalCount : ℤ
  shownGoalCount : ℤ
  statement : String
  exception : String
  goals : List RecordedGoal
  locations : List RecordedLocation
  stepCount : ℤ
  shownStepCount : ℤ
  steps : List RecordedStep
  endTranscriptLine : Option ℕ := none
  followingExceptionTranscriptLine : Option ℕ := none
  deriving DecidableEq, Repr

/-- The variables of the loop. -/
structure DiagnosticState where
  events : List RecordedEvent
  truncated : Bool
  active : Option RecordedEvent
  deriving DecidableEq, Repr

inductive DiagnosticOp
  | truncated | begin | goal | assumption | location | steps | step | stepAssumption
  | stepLocation | finish
  deriving DecidableEq, Repr

/-- The operation that a record names. -/
def DiagnosticOp.ofText (text : List Char) : Option DiagnosticOp :=
  if text = "TRUNCATED".toList then some .truncated
  else if text = "BEGIN".toList then some .begin
  else if text = "GOAL".toList then some .goal
  else if text = "ASSUMPTION".toList then some .assumption
  else if text = "LOCATION".toList then some .location
  else if text = "STEPS".toList then some .steps
  else if text = "STEP".toList then some .step
  else if text = "STEPASSUMPTION".toList then some .stepAssumption
  else if text = "STEPLOCATION".toList then some .stepLocation
  else if text = "END".toList then some .finish
  else none

/-- `BEGIN`. -/
def beginEvent (ordinal : ℤ) (state : DiagnosticState) : List (List Char) → Option RecordedEvent
  | [_, _, kind, totalText, countText, statementText, exceptionText] => do
      guard (state.active = none ∧ ordinal = state.events.length + 1 ∧ ordinal ≤ maxEvents)
      guard (kind = "residual_goals".toList ∨ kind = "tactic_input".toList)
      let total ← intOf totalText
      let count ← intOf countText
      guard (0 ≤ count ∧ count ≤ maxGoals ∧ count ≤ total)
      let statement ← term statementText
      let exception ← exception exceptionText
      some { event := ordinal, kind := String.ofList kind, goalCount := total,
             shownGoalCount := count, statement := statement, exception := exception, goals := [],
             locations := [], stepCount := 0, shownStepCount := 0, steps := [] }
  | _ => none

def readGoal (active : RecordedEvent) : List (List Char) → Option RecordedEvent
  | [_, _, indexText, countText, conclusionText] => do
      let index ← intOf indexText
      guard (index = active.goals.length)
      let count ← intOf countText
      guard (active.goals.length < active.shownGoalCount ∧ 0 ≤ count)
      guard (active.stepCount = 0)
      let conclusion ← term conclusionText
      some { active with goals := active.goals ++
        [{ conclusion := conclusion, assumptionCount := count, assumptions := [] }] }
  | _ => none

def readAssumption (active : RecordedEvent) : List (List Char) → Option RecordedEvent
  | [_, _, indexText, labelText, conclusionText] => do
      let index ← intOf indexText
      let goal ← active.goals.getLast?
      guard (index = active.goals.length - 1)
      guard (goal.assumptions.length < min (maxAssumptions : ℤ) goal.assumptionCount)
      guard (active.stepCount = 0)
      let label ← text_ labelText
      let conclusion ← term conclusionText
      some { active with goals := active.goals.dropLast ++
        [{ goal with assumptions := goal.assumptions ++ [⟨label, conclusion⟩] }] }
  | _ => none

def readLocation (active : RecordedEvent) : List (List Char) → Option RecordedEvent
  | [_, _, fileText, nameText, lineText] => do
      let line ← intOf lineText
      guard (active.locations.length < 32 ∧ 1 ≤ line ∧ active.stepCount = 0)
      let file ← text_ fileText
      let name ← text_ nameText
      some { active with locations := active.locations ++ [⟨file, name, line⟩] }
  | _ => none

def readSteps (active : RecordedEvent) : List (List Char) → Option RecordedEvent
  | [_, _, totalText, shownText] => do
      let total ← intOf totalText
      let shown ← intOf shownText
      guard (active.stepCount = 0 ∧ 1 ≤ total ∧ 1 ≤ shown ∧ shown ≤ min (maxSteps : ℤ) total)
      some { active with stepCount := total, shownStepCount := shown }
  | _ => none

def readStep (active : RecordedEvent) : List (List Char) → Option RecordedEvent
  | [_, _, indexText, countText, conclusionText, exceptionText] => do
      let index ← intOf indexText
      let count ← intOf countText
      guard (index = active.steps.length ∧ 0 ≤ count)
      guard (active.steps.length < active.shownStepCount)
      let conclusion ← term conclusionText
      let exception ← exception exceptionText
      some { active with steps := active.steps ++
        [{ conclusion := conclusion, assumptionCount := count, assumptions := [],
           exception := exception, locations := [] }] }
  | _ => none

def readStepAssumption (active : RecordedEvent) : List (List Char) → Option RecordedEvent
  | [_, _, indexText, labelText, conclusionText] => do
      let step ← active.steps.getLast?
      let index ← intOf indexText
      guard (index = active.steps.length - 1)
      guard (step.locations = [] ∧
        step.assumptions.length < min (maxAssumptions : ℤ) step.assumptionCount)
      let label ← text_ labelText
      let conclusion ← term conclusionText
      some { active with steps := active.steps.dropLast ++
        [{ step with assumptions := step.assumptions ++ [⟨label, conclusion⟩] }] }
  | _ => none

def readStepLocation (active : RecordedEvent) : List (List Char) → Option RecordedEvent
  | [_, _, indexText, fileText, nameText, lineText] => do
      let step ← active.steps.getLast?
      let index ← intOf indexText
      let line ← intOf lineText
      guard (index = active.steps.length - 1 ∧ 1 ≤ line)
      guard (step.locations.length < maxStepLocations)
      let file ← text_ fileText
      let name ← text_ nameText
      some { active with steps := active.steps.dropLast ++
        [{ step with locations := step.locations ++ [⟨file, name, line⟩] }] }
  | _ => none

/-- `END`: the event, if everything that was announced is there. -/
def finishEvent (lineno : ℕ) (active : RecordedEvent) : List (List Char) → Option RecordedEvent
  | [_, _] => do
      guard ((active.goals.length : ℤ) = active.shownGoalCount)
      guard (∀ goal ∈ active.goals,
        (goal.assumptions.length : ℤ) = min (maxAssumptions : ℤ) goal.assumptionCount)
      guard ((active.steps.length : ℤ) = active.shownStepCount ∧ ∀ step ∈ active.steps,
        (step.assumptions.length : ℤ) = min (maxAssumptions : ℤ) step.assumptionCount)
      some { active with endTranscriptLine := some lineno }
  | _ => none

/-- The records that add to the active event. -/
def readRecord (operation : DiagnosticOp) (active : RecordedEvent) (parts : List (List Char)) :
    Option RecordedEvent :=
  match operation with
  | .goal => readGoal active parts
  | .assumption => readAssumption active parts
  | .location => readLocation active parts
  | .steps => readSteps active parts
  | .step => readStep active parts
  | .stepAssumption => readStepAssumption active parts
  | .stepLocation => readStepLocation active parts
  | .truncated | .begin | .finish => none

/-- What a record does to the variables; `none` is a `ValueError` or an `IndexError`. -/
def accountDiagnostic (lineno : ℕ) (parts : List (List Char)) (state : DiagnosticState) :
    Option DiagnosticState := do
  let ordinalText ← parts[0]?
  let ordinal ← intOf ordinalText
  let opText ← parts[1]?
  guard (state.truncated = false)
  let operation ← DiagnosticOp.ofText opText
  match operation with
  | .truncated => do
      guard (parts.length = 2 ∧ state.active = none ∧ ordinal = maxEvents + 1 ∧
        state.events.length = maxEvents)
      some { state with truncated := true }
  | .begin => do
      let event ← beginEvent ordinal state parts
      some { state with active := some event }
  | .finish => do
      let active ← state.active
      guard (active.event = ordinal)
      let event ← finishEvent lineno active parts
      some { state with events := state.events ++ [event], active := none }
  | operation => do
      let active ← state.active
      guard (active.event = ordinal)
      let later ← readRecord operation active parts
      some { state with active := some later }

/-- The body of the loop. -/
def accountDiagnosticLine (marker : Bytes) (state : DiagnosticState) :
    Bytes × ℕ → Option DiagnosticState
  | (raw, lineno) => do
      let text ← charsOfBytes (raw.drop marker.length)
      accountDiagnostic lineno (text.splitOn ':') state

inductive DiagnosticStatus
  | none | unavailable | invalidContract | incomplete | malformed | recorded
  deriving DecidableEq, Repr

structure DiagnosticAccount where
  schema : String := "hol-hearth.proof-diagnostics.v1"
  status : DiagnosticStatus
  events : List RecordedEvent := []
  authority : String := "diagnostic_only"
  boundary : String :=
    "Returned tactic goals or original tactic input; never a kernel theorem probe. " ++
      "Exceptions inside a tactic do not expose intermediate residual goals."
  captureTruncated : Option Bool := .none
  deriving DecidableEq, Repr

/-- How many records are read at most. -/
def maxRecords : ℕ :=
  maxEvents * (35 + maxGoals * (1 + maxAssumptions) +
    maxSteps * (1 + maxAssumptions + maxStepLocations)) + 1

/-- The numbered lines of a transcript that begin with the prefix. -/
def markedLines (marker transcript : Bytes) : List (Bytes × ℕ) :=
  ((splitLines transcript).zipIdx 1).filter fun line => marker <+: line.1

/-- `account_proof_diagnostics`; `followingExceptionLine` links a frame to the rendering of
the exception that follows it. -/
def accountProofDiagnostics (followingExceptionLine : List Bytes → RecordedEvent → Option ℕ)
    (transcript : Bytes) (contract : DiagnosticContract) : DiagnosticAccount :=
  match contract.proofDiagnostics with
  | .none => { status := .unavailable }
  | some descriptor =>
      let nonce := contract.nonce.getD ""
      if ¬ isProbeNonce nonce ∨ descriptor.nonce ≠ some nonce then { status := .invalidContract }
      else
        let marker := asciiBytes (markerPrefix diagnosticPrefix nonce)
        let lines := markedLines marker transcript
        if lines = [] then { status := .none }
        else if maxRecords < lines.length then { status := .malformed }
        else
          match lines.foldlM (accountDiagnosticLine marker)
              { events := [], truncated := false, active := none } with
          | .none => { status := .malformed }
          | some state =>
              if state.active.isSome then { status := .incomplete }
              else
                { status := .recorded
                  events := state.events.map fun event =>
                    { event with followingExceptionTranscriptLine :=
                        followingExceptionLine (splitLines transcript) event }
                  captureTruncated := some state.truncated }

end Hearth.Diagnostics
