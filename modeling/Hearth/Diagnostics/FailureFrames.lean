import Hearth.Diagnostics.ActivityReport
import Hearth.Diagnostics.Failure

/-!
# Frames of failures

What the decoder keeps of a failure is what the prelude wrote of it.  A frame is read
record by record: each record adds its part to the active event, and the checks on
indices, counts and bounds hold because the prelude counts the same way.
-/

namespace Hearth.Diagnostics

open Hearth.Library
open Hearth.Library.Json (renderInt)
open Hearth.Replay (isProbeNonce)

/-! ## What is written of a failure -/

def recordedAssumption (assumption : Assumption) : RecordedAssumption where
  label := decodeReplace (bounded assumption.label)
  conclusion := decodeReplace (render assumption.conclusion)

def recordedGoal (goal : Goal) : RecordedGoal where
  conclusion := decodeReplace (render goal.conclusion)
  assumptionCount := goal.assumptions.length
  assumptions := (goal.assumptions.take maxAssumptions).map recordedAssumption

def recordedStep (step : TacticStep) : RecordedStep where
  conclusion := decodeReplace (render step.goal.conclusion)
  assumptionCount := step.goal.assumptions.length
  assumptions := (step.goal.assumptions.take maxAssumptions).map recordedAssumption
  exception := decodeReplace (boundedExn step.error)
  locations := (located (step.slots.take maxStepLocations)).map recordedLocation

/-- The event of this number, within the bounds of the prelude. -/
def recordedEvent (number : ℕ) (event : FailureEvent) : RecordedEvent where
  event := number
  kind := event.kind.text
  goalCount := event.goals.length
  shownGoalCount := (event.goals.take maxGoals).length
  statement := decodeReplace (render event.tm)
  exception := decodeReplace (boundedExn event.error)
  goals := (event.goals.take maxGoals).map recordedGoal
  locations := (located event.slots).map recordedLocation
  stepCount := event.recordedSteps.length
  shownStepCount := (event.recordedSteps.take maxSteps).length
  steps := (event.recordedSteps.take maxSteps).map recordedStep

/-- An event without its place in the transcript. -/
def RecordedEvent.content (event : RecordedEvent) : RecordedEvent :=
  { event with endTranscriptLine := none, followingExceptionTranscriptLine := none }

/-- At most 32 locations, and no line before the first. -/
structure FailureEvent.Bounded (event : FailureEvent) : Prop where
  locations : (located event.slots).length ≤ 32
  lines : ∀ slot ∈ located event.slots, 1 ≤ slot.1.lineNumber
  stepLines : ∀ step ∈ event.recordedSteps, ∀ slot ∈ located step.slots, 1 ≤ slot.1.lineNumber

/-! ## One record -/

/-- Reading these records takes the active event to a later one. -/
def Reads (nonce : String) (number : ℕ) (records : List (List (List Char)))
    (active later : RecordedEvent) : Prop :=
  ∀ (events : List RecordedEvent) (numbered : List (Bytes × ℕ)), numbered.map Prod.fst = records.map (diagnosticLine nonce number) →
    numbered.foldlM (accountDiagnosticLine (asciiBytes (markerPrefix diagnosticPrefix nonce)))
        { events := events, truncated := false, active := some active } =
      some { events := events, truncated := false, active := some later }

section

variable {nonce : String} {number : ℕ} {active middle later : RecordedEvent}

theorem printable_diagnosticPrefix : Printable diagnosticPrefix := by
  apply Field.printable
  exact field_of_all (by decide)

/-- The fields of a printed record are the fields that are read. -/
theorem accountDiagnosticLine_fields {fields : List (List Char)}
    (hfields : ∀ field ∈ fields, Field field) (state : DiagnosticState) (lineno : ℕ) :
    accountDiagnosticLine (asciiBytes (markerPrefix diagnosticPrefix nonce)) state
        (diagnosticLine nonce number fields, lineno) =
      accountDiagnostic lineno (renderInt number :: fields) state := by
  have hnumber := field_renderInt number
  have htext : Printable (renderInt number ++ fieldsText fields) :=
    hnumber.printable.append (printable_fieldsText hfields)
  have hsplit : (renderInt number ++ fieldsText fields).splitOn ':' = renderInt number :: fields := by
    apply splitOn_fieldsText
    intro field hmem
    rcases List.mem_cons.mp hmem with rfl | hmem
    · exact hnumber
    · exact hfields field hmem
  unfold accountDiagnosticLine diagnosticLine
  dsimp only
  rw [asciiBytes_append, List.drop_left, charsOfBytes_asciiBytes htext.ascii]
  show accountDiagnostic lineno (List.splitOn ':' _) state = _
  rw [hsplit]

theorem Reads.nil : Reads nonce number [] active active := by
  intro events numbered hnumbered
  rw [List.map_nil, List.map_eq_nil_iff] at hnumbered
  rw [hnumbered]
  rfl

theorem Reads.append {first second : List (List (List Char))}
    (hfirst : Reads nonce number first active middle)
    (hsecond : Reads nonce number second middle later) :
    Reads nonce number (first ++ second) active later := by
  intro events numbered hnumbered
  rw [List.map_append, List.map_eq_append_iff] at hnumbered
  obtain ⟨one, two, rfl, hone, htwo⟩ := hnumbered
  rw [List.foldlM_append, hfirst events one hone]
  exact hsecond events two htwo

/-- One record that adds to the active event. -/
theorem Reads.one {operation : DiagnosticOp} {name : List Char}
    (hname : DiagnosticOp.ofText name = some operation) {fields : List (List Char)}
    (hfields : ∀ field ∈ name :: fields, Field field) (hnumber : active.event = number)
    (hread : readRecord operation active (renderInt number :: name :: fields) = some later) :
    Reads nonce number [name :: fields] active later := by
  intro events numbered hnumbered
  obtain ⟨⟨line, lineno⟩, rfl⟩ : ∃ line, numbered = [line] := by
    apply List.length_eq_one_iff.mp
    have hlength := congrArg List.length hnumbered
    rwa [List.length_map] at hlength
  obtain rfl : line = diagnosticLine nonce number (name :: fields) := (List.cons.inj hnumbered).1
  rw [List.foldlM_cons, accountDiagnosticLine_fields hfields]
  unfold accountDiagnostic
  simp only [List.getElem?_cons_zero, List.getElem?_cons_succ, Option.bind_eq_bind, Option.bind_some,
    intOf_renderInt, hname, guard_of]
  cases operation with
  | truncated => cases hread
  | begin => cases hread
  | finish => cases hread
  | goal | assumption | location | steps | step | stepAssumption | stepLocation =>
      simp only [Option.bind_some, guard_of hnumber, hread]
      rfl

/-! ## Goals -/

/-- The fields of a record with an index, whose name is a field. -/
theorem field_cons {fields : List (List Char)} {name : List Char} (hname : Field name)
    (h : ∀ field ∈ fields, Field field) : ∀ field ∈ name :: fields, Field field := by
  intro field hmem
  rcases List.mem_cons.mp hmem with rfl | hmem
  · exact hname
  · exact h field hmem

theorem field_assumptionFields {operation : String} (hname : Field operation.toList) (index : ℕ)
    (assumption : Assumption) :
    ∀ field ∈ assumptionFields operation index assumption, Field field :=
  field_cons hname (field_cons (field_renderInt _) (field_cons (field_hex _)
    (field_cons (field_hex _) nofun)))

theorem reads_assumption {goals : List RecordedGoal} {goal : RecordedGoal} (assumption : Assumption)
    (hgoals : active.goals = goals ++ [goal])
    (hroom : goal.assumptions.length < min (maxAssumptions : ℤ) goal.assumptionCount)
    (hsteps : active.stepCount = 0) (hnumber : active.event = number) :
    Reads nonce number [assumptionFields "ASSUMPTION" goals.length assumption] active
      { active with goals := goals ++
          [{ goal with assumptions := goal.assumptions ++ [recordedAssumption assumption] }] } := by
  refine Reads.one rfl (field_assumptionFields (field_of_all (by decide)) _ _) hnumber ?_
  have hindex : (goals.length : ℤ) = (active.goals.length : ℤ) - 1 := by
    rw [hgoals, List.length_append, List.length_singleton]
    omega
  have hlast : active.goals.getLast? = some goal := by
    rw [hgoals, List.getLast?_concat]
  have hfront : active.goals.dropLast = goals := by
    rw [hgoals, List.dropLast_concat]
  unfold readRecord readAssumption
  simp only [intOf_renderInt, Option.bind_eq_bind, Option.bind_some, hlast, guard_of hindex,
    guard_of hroom, guard_of hsteps, text_bounded, term_render, hfront]
  rfl

theorem reads_assumptions (assumptions : List Assumption) {goals : List RecordedGoal}
    {goal : RecordedGoal} (hgoals : active.goals = goals ++ [goal])
    (hroom : (goal.assumptions.length : ℤ) + assumptions.length ≤
      min (maxAssumptions : ℤ) goal.assumptionCount)
    (hsteps : active.stepCount = 0) (hnumber : active.event = number) :
    Reads nonce number (assumptions.map (assumptionFields "ASSUMPTION" goals.length)) active
      { active with goals := goals ++
          [{ goal with assumptions := goal.assumptions ++ assumptions.map recordedAssumption }] } := by
  induction assumptions generalizing active goal with
  | nil =>
      rw [List.map_nil, List.map_nil, List.append_nil, ← hgoals]
      exact .nil
  | cons assumption assumptions ih =>
      rw [List.length_cons] at hroom
      have hone := @reads_assumption nonce number active goals goal assumption hgoals (by omega)
        hsteps hnumber
      have hlength : (goal.assumptions ++ [recordedAssumption assumption]).length =
          goal.assumptions.length + 1 := List.length_append
      have hrest := @ih
        { active with goals := goals ++
            [{ goal with assumptions := goal.assumptions ++ [recordedAssumption assumption] }] }
        { goal with assumptions := goal.assumptions ++ [recordedAssumption assumption] }
        rfl (by rw [hlength]; push_cast; omega) hsteps hnumber
      have hboth := hone.append hrest
      rw [List.append_assoc] at hboth
      exact hboth

theorem reads_goal (goal : Goal)
    (hroom : (active.goals.length : ℤ) < active.shownGoalCount) (hsteps : active.stepCount = 0)
    (hnumber : active.event = number) :
    Reads nonce number (goalRecords active.goals.length goal) active
      { active with goals := active.goals ++ [recordedGoal goal] } := by
  have hfields : ∀ field ∈ goalFields active.goals.length goal, Field field :=
    field_cons (field_of_all (by decide)) (field_cons (field_renderInt _)
      (field_cons (field_renderInt _) (field_cons (field_hex _) nofun)))
  have hfirst : Reads nonce number [goalFields active.goals.length goal] active
      { active with goals := active.goals ++
          [{ conclusion := decodeReplace (render goal.conclusion)
             assumptionCount := goal.assumptions.length, assumptions := [] }] } := by
    refine Reads.one rfl hfields hnumber ?_
    have hcount : (active.goals.length : ℤ) < active.shownGoalCount ∧
        (0 : ℤ) ≤ goal.assumptions.length := ⟨hroom, by omega⟩
    unfold readRecord readGoal
    simp only [intOf_renderInt, Option.bind_eq_bind, Option.bind_some, guard_of trivial,
      guard_of hcount, guard_of hsteps, term_render]
  have hlimit : ((0 : ℕ) : ℤ) + (goal.assumptions.take 16).length ≤
      min (maxAssumptions : ℤ) goal.assumptions.length := by
    rw [List.length_take]
    unfold maxAssumptions
    omega
  have hrest := @reads_assumptions nonce number
    { active with goals := active.goals ++
        [{ conclusion := decodeReplace (render goal.conclusion)
           assumptionCount := goal.assumptions.length, assumptions := [] }] }
    (goal.assumptions.take 16) active.goals _ rfl hlimit hsteps hnumber
  exact hfirst.append hrest

/-- The goals from an index on. -/
theorem reads_goals (goals : List Goal)
    (hroom : (active.goals.length : ℤ) + goals.length ≤ active.shownGoalCount)
    (hsteps : active.stepCount = 0) (hnumber : active.event = number) :
    Reads nonce number
      ((goals.zipIdx active.goals.length).flatMap fun (goal, index) => goalRecords index goal) active
      { active with goals := active.goals ++ goals.map recordedGoal } := by
  induction goals generalizing active with
  | nil =>
      rw [List.map_nil, List.append_nil]
      exact .nil
  | cons goal goals ih =>
      rw [List.length_cons] at hroom
      have hone := @reads_goal nonce number active goal (by omega) hsteps hnumber
      have hlength : (active.goals ++ [recordedGoal goal]).length = active.goals.length + 1 :=
        List.length_append
      have hrest := @ih { active with goals := active.goals ++ [recordedGoal goal] }
        (by dsimp only; rw [hlength]; push_cast; omega) hsteps hnumber
      have hboth := hone.append hrest
      dsimp only at hboth
      rw [hlength, List.append_assoc] at hboth
      exact hboth

/-! ## Locations -/

theorem reads_location (slot : Location × Bytes) (hline : 1 ≤ slot.1.lineNumber)
    (hroom : active.locations.length < 32) (hsteps : active.stepCount = 0)
    (hnumber : active.event = number) :
    Reads nonce number ["LOCATION".toList :: locationFields slot] active
      { active with locations := active.locations ++ [recordedLocation slot] } := by
  refine Reads.one rfl (field_cons (field_of_all (by decide)) (field_locationFields slot)) hnumber ?_
  have hguard : active.locations.length < 32 ∧ 1 ≤ slot.1.lineNumber ∧ active.stepCount = 0 :=
    ⟨hroom, hline, hsteps⟩
  unfold readRecord readLocation locationFields
  simp only [intOf_renderInt, Option.bind_eq_bind, Option.bind_some, guard_of hguard, text_bounded]
  rfl

theorem reads_locations (slots : List (Location × Bytes)) (hlines : ∀ slot ∈ slots, 1 ≤ slot.1.lineNumber)
    (hroom : active.locations.length + slots.length ≤ 32) (hsteps : active.stepCount = 0)
    (hnumber : active.event = number) :
    Reads nonce number (slots.map fun slot => "LOCATION".toList :: locationFields slot) active
      { active with locations := active.locations ++ slots.map recordedLocation } := by
  induction slots generalizing active with
  | nil =>
      rw [List.map_nil, List.map_nil, List.append_nil]
      exact .nil
  | cons slot slots ih =>
      rw [List.length_cons] at hroom
      have hone := @reads_location nonce number active slot (hlines slot (.head _)) (by omega)
        hsteps hnumber
      have hlength : (active.locations ++ [recordedLocation slot]).length =
          active.locations.length + 1 := List.length_append
      have hrest := @ih { active with locations := active.locations ++ [recordedLocation slot] }
        (fun other hmem => hlines other (.tail _ hmem)) (by dsimp only; omega) hsteps hnumber
      have hboth := hone.append hrest
      dsimp only at hboth
      rw [List.append_assoc] at hboth
      exact hboth

/-! ## Steps -/

theorem reads_stepAssumption {steps : List RecordedStep} {step : RecordedStep}
    (assumption : Assumption) (hsteps : active.steps = steps ++ [step]) (hlocations : step.locations = [])
    (hroom : step.assumptions.length < min (maxAssumptions : ℤ) step.assumptionCount)
    (hnumber : active.event = number) :
    Reads nonce number [assumptionFields "STEPASSUMPTION" steps.length assumption] active
      { active with steps := steps ++
          [{ step with assumptions := step.assumptions ++ [recordedAssumption assumption] }] } := by
  refine Reads.one rfl (field_assumptionFields (field_of_all (by decide)) _ _) hnumber ?_
  have hindex : (steps.length : ℤ) = (active.steps.length : ℤ) - 1 := by
    rw [hsteps, List.length_append, List.length_singleton]
    omega
  have hlast : active.steps.getLast? = some step := by
    rw [hsteps, List.getLast?_concat]
  have hfront : active.steps.dropLast = steps := by
    rw [hsteps, List.dropLast_concat]
  have hguard : step.locations = [] ∧
      (step.assumptions.length : ℤ) < min (maxAssumptions : ℤ) step.assumptionCount :=
    ⟨hlocations, hroom⟩
  unfold readRecord readStepAssumption
  simp only [intOf_renderInt, Option.bind_eq_bind, Option.bind_some, hlast, guard_of hindex,
    guard_of hguard, text_bounded, term_render, hfront]
  rfl

theorem reads_stepAssumptions (assumptions : List Assumption) {steps : List RecordedStep}
    {step : RecordedStep} (hsteps : active.steps = steps ++ [step]) (hlocations : step.locations = [])
    (hroom : (step.assumptions.length : ℤ) + assumptions.length ≤
      min (maxAssumptions : ℤ) step.assumptionCount)
    (hnumber : active.event = number) :
    Reads nonce number (assumptions.map (assumptionFields "STEPASSUMPTION" steps.length)) active
      { active with steps := steps ++
          [{ step with assumptions := step.assumptions ++ assumptions.map recordedAssumption }] } := by
  induction assumptions generalizing active step with
  | nil =>
      rw [List.map_nil, List.map_nil, List.append_nil, ← hsteps]
      exact .nil
  | cons assumption assumptions ih =>
      rw [List.length_cons] at hroom
      have hone := @reads_stepAssumption nonce number active steps step assumption hsteps hlocations
        (by omega) hnumber
      have hlength : (step.assumptions ++ [recordedAssumption assumption]).length =
          step.assumptions.length + 1 := List.length_append
      have hrest := @ih
        { active with steps := steps ++
            [{ step with assumptions := step.assumptions ++ [recordedAssumption assumption] }] }
        { step with assumptions := step.assumptions ++ [recordedAssumption assumption] }
        rfl hlocations (by rw [hlength]; push_cast; omega) hnumber
      have hboth := hone.append hrest
      rw [List.append_assoc] at hboth
      exact hboth

theorem reads_stepLocation {steps : List RecordedStep} {step : RecordedStep}
    (slot : Location × Bytes) (hline : 1 ≤ slot.1.lineNumber) (hsteps : active.steps = steps ++ [step])
    (hroom : step.locations.length < maxStepLocations) (hnumber : active.event = number) :
    Reads nonce number ["STEPLOCATION".toList :: renderInt steps.length :: locationFields slot] active
      { active with steps := steps ++
          [{ step with locations := step.locations ++ [recordedLocation slot] }] } := by
  refine Reads.one rfl (field_cons (field_of_all (by decide)) (field_cons (field_renderInt _)
    (field_locationFields slot))) hnumber ?_
  have hindex : (steps.length : ℤ) = (active.steps.length : ℤ) - 1 ∧ 1 ≤ slot.1.lineNumber := by
    rw [hsteps, List.length_append, List.length_singleton]
    omega
  have hlast : active.steps.getLast? = some step := by
    rw [hsteps, List.getLast?_concat]
  have hfront : active.steps.dropLast = steps := by
    rw [hsteps, List.dropLast_concat]
  unfold readRecord readStepLocation locationFields
  simp only [intOf_renderInt, Option.bind_eq_bind, Option.bind_some, hlast, guard_of hindex,
    guard_of hroom, text_bounded, hfront]
  rfl

theorem reads_stepLocations (slots : List (Location × Bytes))
    (hlines : ∀ slot ∈ slots, 1 ≤ slot.1.lineNumber) {steps : List RecordedStep}
    {step : RecordedStep} (hsteps : active.steps = steps ++ [step])
    (hroom : step.locations.length + slots.length ≤ maxStepLocations)
    (hnumber : active.event = number) :
    Reads nonce number
      (slots.map fun slot => "STEPLOCATION".toList :: renderInt steps.length :: locationFields slot)
      active
      { active with steps := steps ++
          [{ step with locations := step.locations ++ slots.map recordedLocation }] } := by
  induction slots generalizing active step with
  | nil =>
      rw [List.map_nil, List.map_nil, List.append_nil, ← hsteps]
      exact .nil
  | cons slot slots ih =>
      rw [List.length_cons] at hroom
      have hone := @reads_stepLocation nonce number active steps step slot (hlines slot (.head _))
        hsteps (by omega) hnumber
      have hlength : (step.locations ++ [recordedLocation slot]).length = step.locations.length + 1 :=
        List.length_append
      have hrest := @ih
        { active with steps := steps ++
            [{ step with locations := step.locations ++ [recordedLocation slot] }] }
        (fun other hmem => hlines other (.tail _ hmem))
        { step with locations := step.locations ++ [recordedLocation slot] }
        rfl (by rw [hlength]; omega) hnumber
      have hboth := hone.append hrest
      rw [List.append_assoc] at hboth
      exact hboth

theorem reads_step (step : TacticStep) (hlines : ∀ slot ∈ located step.slots, 1 ≤ slot.1.lineNumber)
    (hroom : (active.steps.length : ℤ) < active.shownStepCount) (hnumber : active.event = number) :
    Reads nonce number (stepRecords active.steps.length step) active
      { active with steps := active.steps ++ [recordedStep step] } := by
  have hfields : ∀ field ∈ stepFields active.steps.length step, Field field :=
    field_cons (field_of_all (by decide)) (field_cons (field_renderInt _)
      (field_cons (field_renderInt _) (field_cons (field_hex _) (field_cons (field_hex _) nofun))))
  -- the step as it is when its own record is read
  let opened : RecordedStep :=
    { conclusion := decodeReplace (render step.goal.conclusion)
      assumptionCount := step.goal.assumptions.length, assumptions := []
      exception := decodeReplace (boundedExn step.error), locations := [] }
  have hfirst : Reads nonce number [stepFields active.steps.length step] active
      { active with steps := active.steps ++ [opened] } := by
    refine Reads.one rfl hfields hnumber ?_
    have hcount : True ∧ (0 : ℤ) ≤ step.goal.assumptions.length := ⟨trivial, by omega⟩
    unfold readRecord readStep
    simp only [intOf_renderInt, Option.bind_eq_bind, Option.bind_some, guard_of hcount,
      guard_of hroom, term_render, exception_boundedExn]
    rfl
  have hlimit : ((0 : ℕ) : ℤ) + (step.goal.assumptions.take 16).length ≤
      min (maxAssumptions : ℤ) step.goal.assumptions.length := by
    rw [List.length_take]
    unfold maxAssumptions
    omega
  have hassumptions := @reads_stepAssumptions nonce number
    { active with steps := active.steps ++ [opened] } (step.goal.assumptions.take 16) active.steps
    opened rfl rfl hlimit hnumber
  have htake : ∀ slot ∈ located (step.slots.take maxStepLocations), 1 ≤ slot.1.lineNumber := by
    intro slot hmem
    obtain ⟨source, hsource, hslot⟩ := List.mem_filterMap.mp hmem
    exact hlines slot (List.mem_filterMap.mpr ⟨source, List.mem_of_mem_take hsource, hslot⟩)
  have hcount : 0 + (located (step.slots.take maxStepLocations)).length ≤ maxStepLocations := by
    have hle := List.length_filterMap_le
      (fun slot : Slot => slot.location.map fun loc => (loc, slot.name.getD []))
      (step.slots.take maxStepLocations)
    rw [List.length_take] at hle
    unfold located
    omega
  have hlocations := @reads_stepLocations nonce number
    { active with steps := active.steps ++
        [{ opened with assumptions := opened.assumptions ++
            (step.goal.assumptions.take 16).map recordedAssumption }] }
    (located (step.slots.take maxStepLocations)) htake active.steps _ rfl hcount hnumber
  exact hfirst.append (hassumptions.append hlocations)

/-- The steps from an index on. -/
theorem reads_stepList (steps : List TacticStep)
    (hlines : ∀ step ∈ steps, ∀ slot ∈ located step.slots, 1 ≤ slot.1.lineNumber)
    (hroom : (active.steps.length : ℤ) + steps.length ≤ active.shownStepCount)
    (hnumber : active.event = number) :
    Reads nonce number
      ((steps.zipIdx active.steps.length).flatMap fun (step, index) => stepRecords index step) active
      { active with steps := active.steps ++ steps.map recordedStep } := by
  induction steps generalizing active with
  | nil =>
      rw [List.map_nil, List.append_nil]
      exact .nil
  | cons step steps ih =>
      rw [List.length_cons] at hroom
      have hone := @reads_step nonce number active step (hlines step (.head _)) (by omega) hnumber
      have hlength : (active.steps ++ [recordedStep step]).length = active.steps.length + 1 :=
        List.length_append
      have hrest := @ih { active with steps := active.steps ++ [recordedStep step] }
        (fun other hmem => hlines other (.tail _ hmem))
        (by dsimp only; rw [hlength]; push_cast; omega) hnumber
      have hboth := hone.append hrest
      dsimp only at hboth
      rw [hlength, List.append_assoc] at hboth
      exact hboth

/-- The steps of a failure that has any: their number, and the first of them. -/
theorem reads_steps {steps : List TacticStep} (hne : steps ≠ [])
    (hlines : ∀ step ∈ steps, ∀ slot ∈ located step.slots, 1 ≤ slot.1.lineNumber)
    (hnone : active.stepCount = 0 ∧ active.steps = []) (hnumber : active.event = number) :
    Reads nonce number
      (["STEPS".toList, renderInt steps.length, renderInt (steps.take maxSteps).length] ::
        (steps.take maxSteps).zipIdx.flatMap fun (step, index) => stepRecords index step)
      active
      { active with
        stepCount := steps.length, shownStepCount := (steps.take maxSteps).length
        steps := (steps.take maxSteps).map recordedStep } := by
  have hpositive : 1 ≤ steps.length := List.length_pos_iff.mpr hne
  have htake : (steps.take maxSteps).length = min maxSteps steps.length := List.length_take
  have hguard : active.stepCount = 0 ∧ (1 : ℤ) ≤ steps.length ∧
      (1 : ℤ) ≤ (steps.take maxSteps).length ∧
        ((steps.take maxSteps).length : ℤ) ≤ min (maxSteps : ℤ) steps.length := by
    rw [htake]
    unfold maxSteps
    exact ⟨hnone.1, by omega, by omega, by omega⟩
  have hfirst : Reads nonce number
      [["STEPS".toList, renderInt steps.length, renderInt (steps.take maxSteps).length]] active
      { active with
        stepCount := steps.length, shownStepCount := (steps.take maxSteps).length, steps := [] } := by
    rw [← hnone.2]
    refine Reads.one rfl (field_cons (field_of_all (by decide)) (field_cons (field_renderInt _)
      (field_cons (field_renderInt _) nofun))) hnumber ?_
    unfold readRecord readSteps
    simp only [intOf_renderInt, Option.bind_eq_bind, Option.bind_some, guard_of hguard]
  have hlist := @reads_stepList nonce number
    { active with stepCount := steps.length, shownStepCount := (steps.take maxSteps).length }
    (steps.take maxSteps) (fun step hmem => hlines step (List.mem_of_mem_take hmem))
    (by dsimp only; rw [hnone.2, List.length_nil]; omega) hnumber
  dsimp only at hlist
  rw [hnone.2, List.nil_append, List.length_nil] at hlist
  exact hfirst.append hlist

end

end Hearth.Diagnostics
