import Hearth.Diagnostics.FailureFrames
import Hearth.Library.Pointwise

/-!
# What is reported of failures

The frames of the first eight failures are read whole, and the ninth is read as the sign
that there were more.  The records are never more than the decoder accepts.
-/

namespace Hearth.Diagnostics

open Hearth.Library
open Hearth.Library.Json (renderInt)
open Hearth.Replay (isProbeNonce)

/-- The records of a frame. -/
def FailureEvent.frame (event : FailureEvent) : List (List (List Char)) :=
  event.beginFields :: event.records

/-- Complete output without a line that begins with the prefix. -/
def QuietDiagnostics (nonce : String) (noise : Bytes) : Prop :=
  Complete noise ∧
    ∀ line ∈ splitLines noise, ¬ asciiBytes (markerPrefix diagnosticPrefix nonce) <+: line

/-- The lines that the prelude prints, with the value of `events`. -/
def emittedLines (nonce : String) (events : ℕ) : List FailureEvent → List Bytes
  | [] => []
  | event :: rest =>
      if events < 8 then
        event.frame.map (diagnosticLine nonce (events + 1)) ++ emittedLines nonce (events + 1) rest
      else if events = 8 then
        diagnosticLine nonce 9 ["TRUNCATED".toList] :: emittedLines nonce (events + 1) rest
      else emittedLines nonce events rest

section

variable {nonce : String} {number : ℕ}

/-! ## One frame -/

/-- The event when its first record is read. -/
def begunEvent (number : ℕ) (event : FailureEvent) : RecordedEvent where
  event := number
  kind := event.kind.text
  goalCount := event.goals.length
  shownGoalCount := (event.goals.take maxGoals).length
  statement := decodeReplace (render event.tm)
  exception := decodeReplace (boundedExn event.error)
  goals := []
  locations := []
  stepCount := 0
  shownStepCount := 0
  steps := []

/-- The event when it is read whole. -/
def endedEvent (number lineno : ℕ) (event : FailureEvent) : RecordedEvent :=
  { recordedEvent number event with endTranscriptLine := some lineno }

theorem reads_records {event : FailureEvent} (h : event.Bounded) :
    ∃ body, event.records = body ++ [["END".toList]] ∧
      Reads nonce number body (begunEvent number event) (recordedEvent number event) := by
  have hgoals := @reads_goals nonce number (begunEvent number event) (event.goals.take 8)
    (by show ((0 : ℕ) : ℤ) + _ ≤ ((event.goals.take 8).length : ℤ); omega) rfl rfl
  have hlocations := @reads_locations nonce number
    { begunEvent number event with goals := [] ++ (event.goals.take 8).map recordedGoal }
    (located event.slots) h.lines (by show 0 + _ ≤ 32; rw [Nat.zero_add]; exact h.locations) rfl rfl
  refine ⟨_, rfl, ?_⟩
  refine (hgoals.append hlocations).append ?_
  cases hsteps : event.recordedSteps with
  | nil =>
      have hlast : recordedEvent number event =
          { begunEvent number event with
            goals := [] ++ (event.goals.take 8).map recordedGoal
            locations := [] ++ (located event.slots).map recordedLocation } := by
        unfold recordedEvent
        rw [hsteps]
        rfl
      rw [hlast]
      exact .nil
  | cons step steps =>
      have hne : step :: steps ≠ [] := List.cons_ne_nil _ _
      have hlines := h.stepLines
      rw [hsteps] at hlines
      have hread := @reads_steps nonce number
        { begunEvent number event with
          goals := [] ++ (event.goals.take 8).map recordedGoal
          locations := [] ++ (located event.slots).map recordedLocation }
        (step :: steps) hne hlines ⟨rfl, rfl⟩ rfl
      have hlast : recordedEvent number event =
          { begunEvent number event with
            goals := [] ++ (event.goals.take 8).map recordedGoal
            locations := [] ++ (located event.slots).map recordedLocation
            stepCount := (step :: steps).length
            shownStepCount := ((step :: steps).take maxSteps).length
            steps := ((step :: steps).take maxSteps).map recordedStep } := by
        unfold recordedEvent
        rw [hsteps]
        rfl
      rw [hlast]
      exact hread

theorem field_beginFields (event : FailureEvent) : ∀ field ∈ event.beginFields, Field field := by
  have hkind : Field event.kind.text.toList := by
    cases event.kind with
    | residualGoals => exact field_of_all (by decide)
    | tacticInput => exact field_of_all (by decide)
  exact field_cons (field_of_all (by decide)) (field_cons hkind (field_cons (field_renderInt _)
    (field_cons (field_renderInt _) (field_cons (field_hex _) (field_cons (field_hex _) nofun)))))

theorem beginEvent_fields (event : FailureEvent) {events : List RecordedEvent}
    (hnumber : events.length + 1 = number) (hle : number ≤ maxEvents) :
    beginEvent number { events := events, truncated := false, active := none }
      (renderInt number :: event.beginFields) = some (begunEvent number event) := by
  have htake : (event.goals.take 8).length = min 8 event.goals.length := List.length_take
  have hcount : (0 : ℤ) ≤ (event.goals.take 8).length ∧
      ((event.goals.take 8).length : ℤ) ≤ maxGoals ∧
        ((event.goals.take 8).length : ℤ) ≤ event.goals.length := by
    unfold maxGoals
    omega
  have hfirst : True ∧ (number : ℤ) = (events.length : ℤ) + 1 ∧
      (number : ℤ) ≤ maxEvents := ⟨trivial, by omega, by omega⟩
  have hkind : event.kind.text.toList = "residual_goals".toList ∨
      event.kind.text.toList = "tactic_input".toList := by
    cases event.kind with
    | residualGoals => exact .inl rfl
    | tacticInput => exact .inr rfl
  unfold beginEvent FailureEvent.beginFields
  simp only [intOf_renderInt, Option.bind_eq_bind, Option.bind_some, guard_of hfirst,
    guard_of hkind, guard_of hcount, term_render, exception_boundedExn, String.ofList_toList]
  rfl

/-- Everything that was announced is there. -/
theorem finishEvent_recorded (event : FailureEvent) (lineno : ℕ) :
    finishEvent lineno (recordedEvent number event) [renderInt number, "END".toList] =
      some (endedEvent number lineno event) := by
  have hcapped : ∀ assumptions : List Assumption,
      (((assumptions.take maxAssumptions).map recordedAssumption).length : ℤ) =
        min (maxAssumptions : ℤ) assumptions.length := by
    intro assumptions
    rw [List.length_map, List.length_take]
    omega
  have hgoals : ((recordedEvent number event).goals.length : ℤ) =
      (recordedEvent number event).shownGoalCount := by
    show (((event.goals.take maxGoals).map recordedGoal).length : ℤ) = _
    rw [List.length_map]
    rfl
  have hassumptions : ∀ goal ∈ (recordedEvent number event).goals,
      (goal.assumptions.length : ℤ) = min (maxAssumptions : ℤ) goal.assumptionCount := by
    intro goal hmem
    obtain ⟨source, -, rfl⟩ := List.mem_map.mp hmem
    exact hcapped source.assumptions
  have hsteps : ((recordedEvent number event).steps.length : ℤ) =
      (recordedEvent number event).shownStepCount ∧ ∀ step ∈ (recordedEvent number event).steps,
        (step.assumptions.length : ℤ) = min (maxAssumptions : ℤ) step.assumptionCount := by
    constructor
    · show (((event.recordedSteps.take maxSteps).map recordedStep).length : ℤ) = _
      rw [List.length_map]
      rfl
    · intro step hmem
      obtain ⟨source, -, rfl⟩ := List.mem_map.mp hmem
      exact hcapped source.goal.assumptions
  unfold finishEvent
  rw [guard_of hgoals, guard_of hassumptions, guard_of hsteps]
  rfl

theorem accountDiagnostic_begin {lineno : ℕ} {rest : List (List Char)} {state : DiagnosticState}
    {event : RecordedEvent} (hopen : state.truncated = false)
    (h : beginEvent number state (renderInt number :: "BEGIN".toList :: rest) = some event) :
    accountDiagnostic lineno (renderInt number :: "BEGIN".toList :: rest) state =
      some { state with active := some event } := by
  have hname : DiagnosticOp.ofText "BEGIN".toList = some .begin := rfl
  unfold accountDiagnostic
  simp only [List.getElem?_cons_zero, List.getElem?_cons_succ, Option.bind_eq_bind,
    Option.bind_some, intOf_renderInt, guard_of hopen, hname, h]

theorem accountDiagnostic_finish {lineno : ℕ} {state : DiagnosticState}
    {active event : RecordedEvent} (hopen : state.truncated = false)
    (hactive : state.active = some active) (hnumber : active.event = number)
    (h : finishEvent lineno active [renderInt number, "END".toList] = some event) :
    accountDiagnostic lineno [renderInt number, "END".toList] state =
      some { state with events := state.events ++ [event], active := none } := by
  have hname : DiagnosticOp.ofText "END".toList = some .finish := rfl
  unfold accountDiagnostic
  simp only [List.getElem?_cons_zero, List.getElem?_cons_succ, Option.bind_eq_bind,
    Option.bind_some, intOf_renderInt, guard_of hopen, hname, hactive, guard_of hnumber, h]

/-- A frame is read whole. -/
theorem foldlM_frame {event : FailureEvent} (h : event.Bounded) {events : List RecordedEvent}
    (hnumber : events.length + 1 = number) (hle : number ≤ maxEvents) {numbered : List (Bytes × ℕ)}
    (hnumbered : numbered.map Prod.fst = event.frame.map (diagnosticLine nonce number)) :
    ∃ lineno,
      numbered.foldlM (accountDiagnosticLine (asciiBytes (markerPrefix diagnosticPrefix nonce)))
          { events := events, truncated := false, active := none } =
        some { events := events ++ [endedEvent number lineno event], truncated := false
               active := none } := by
  obtain ⟨body, hrecords, hbody⟩ := @reads_records nonce number event h
  have hframe : event.frame = event.beginFields :: (body ++ [["END".toList]]) :=
    congrArg (event.beginFields :: ·) hrecords
  rw [hframe, List.map_cons, List.map_append] at hnumbered
  obtain ⟨⟨first, start⟩, rest, rfl, hfirst, hrest⟩ := List.map_eq_cons_iff.mp hnumbered
  obtain ⟨middle, last, rfl, hmiddle, hlast⟩ := List.map_eq_append_iff.mp hrest
  obtain ⟨⟨final, lineno⟩, tail, rfl, hfinal, htail⟩ := List.map_eq_cons_iff.mp hlast
  rw [List.map_nil, List.map_eq_nil_iff] at htail
  subst htail
  obtain rfl : first = _ := hfirst
  obtain rfl : final = _ := hfinal
  have hend : ∀ field ∈ ["END".toList], Field field := field_cons (field_of_all (by decide)) nofun
  refine ⟨lineno, ?_⟩
  -- `BEGIN`, what is between, and `END`
  rw [List.foldlM_cons, accountDiagnosticLine_fields (field_beginFields event)]
  have hbegin : accountDiagnostic start (renderInt number :: event.beginFields)
      { events := events, truncated := false, active := none } =
        some { events := events, truncated := false, active := some (begunEvent number event) } :=
    @accountDiagnostic_begin number start event.beginFields.tail _ _ rfl
      (beginEvent_fields event hnumber hle)
  have hfinish := @accountDiagnostic_finish number lineno
    { events := events, truncated := false, active := some (recordedEvent number event) } _ _ rfl rfl
    rfl (finishEvent_recorded event lineno)
  rw [hbegin]
  simp only [Option.bind_eq_bind, Option.bind_some]
  rw [List.foldlM_append, hbody events middle hmiddle]
  simp only [Option.bind_eq_bind, Option.bind_some]
  rw [List.foldlM_cons, accountDiagnosticLine_fields hend, hfinish]
  rfl

/-! ## All frames -/

theorem emittedLines_done {events : ℕ} (h : 8 < events) (more : List FailureEvent) :
    emittedLines nonce events more = [] := by
  induction more with
  | nil => rfl
  | cons event more ih => rw [emittedLines, if_neg (by omega), if_neg (by omega), ih]

theorem accountDiagnostic_truncated {lineno : ℕ} {events : List RecordedEvent}
    (h : events.length = maxEvents) :
    accountDiagnostic lineno [renderInt (9 : ℕ), "TRUNCATED".toList]
        { events := events, truncated := false, active := none } =
      some { events := events, truncated := true, active := none } := by
  have hname : DiagnosticOp.ofText "TRUNCATED".toList = some .truncated := rfl
  have hguard : [renderInt (9 : ℕ), "TRUNCATED".toList].length = 2 ∧ True ∧
      ((9 : ℕ) : ℤ) = (maxEvents : ℤ) + 1 ∧ events.length = maxEvents := ⟨rfl, trivial, rfl, h⟩
  unfold accountDiagnostic
  simp only [List.getElem?_cons_zero, List.getElem?_cons_succ, Option.bind_eq_bind,
    Option.bind_some, intOf_renderInt, guard_of trivial, hname, guard_of hguard]

/-- The printed lines are read to the first eight events and to whether there are more. -/
theorem foldlM_events (more : List FailureEvent) (hbounded : ∀ event ∈ more, event.Bounded)
    {events : List RecordedEvent} (hle : events.length ≤ 8) {numbered : List (Bytes × ℕ)}
    (hnumbered : numbered.map Prod.fst = emittedLines nonce events.length more) :
    ∃ final, numbered.foldlM
        (accountDiagnosticLine (asciiBytes (markerPrefix diagnosticPrefix nonce)))
        { events := events, truncated := false, active := none } =
          some { events := events ++ final, truncated := decide (8 < events.length + more.length)
                 active := none } ∧
      final.map RecordedEvent.content =
        ((more.take (8 - events.length)).zipIdx (events.length + 1)).map
          fun (event, number) => recordedEvent number event := by
  induction more generalizing events numbered with
  | nil =>
      rw [emittedLines, List.map_eq_nil_iff] at hnumbered
      subst hnumbered
      have hfew : decide (8 < events.length + 0) = false := decide_eq_false (by omega)
      refine ⟨[], ?_, by rw [List.take_nil]; rfl⟩
      rw [List.append_nil, List.length_nil, hfew]
      rfl
  | cons event more ih =>
      have hmore : ∀ event ∈ more, event.Bounded := fun other hmem => hbounded other (.tail _ hmem)
      rw [emittedLines] at hnumbered
      by_cases hless : events.length < 8
      · rw [if_pos hless] at hnumbered
        obtain ⟨frame, rest, rfl, hframe, hrest⟩ := List.map_eq_append_iff.mp hnumbered
        obtain ⟨lineno, hread⟩ := foldlM_frame (hbounded event (.head _)) rfl hless hframe
        have hlength : (events ++ [endedEvent (events.length + 1) lineno event]).length =
            events.length + 1 := List.length_append
        obtain ⟨final, hfinal, hcontent⟩ := @ih hmore
          (events ++ [endedEvent (events.length + 1) lineno event]) (by omega) rest
          (by rw [hlength]; exact hrest)
        rw [hlength] at hfinal hcontent
        refine ⟨endedEvent (events.length + 1) lineno event :: final, ?_, ?_⟩
        · rw [List.foldlM_append, hread]
          simp only [Option.bind_eq_bind, Option.bind_some]
          rw [hfinal, List.append_assoc, List.length_cons]
          congr 2
          exact decide_eq_decide.mpr (by omega)
        · have htake : 8 - events.length = (8 - (events.length + 1)) + 1 := by omega
          rw [htake, List.take_succ_cons, List.zipIdx_cons, List.map_cons, List.map_cons, hcontent]
          rfl
      · have hfull : events.length = 8 := by omega
        have hmany : decide (8 < events.length + (event :: more).length) = true :=
          decide_eq_true (by rw [List.length_cons]; omega)
        rw [if_neg hless, if_pos hfull, emittedLines_done (by omega)] at hnumbered
        obtain ⟨⟨line, lineno⟩, tail, rfl, hline, htail⟩ := List.map_eq_cons_iff.mp hnumbered
        rw [List.map_eq_nil_iff] at htail
        subst htail
        obtain rfl : line = _ := hline
        have hfields : ∀ field ∈ ["TRUNCATED".toList], Field field :=
          field_cons (field_of_all (by decide)) nofun
        have hnone : 8 - events.length = 0 := by omega
        refine ⟨[], ?_, by rw [hnone]; rfl⟩
        rw [List.foldlM_cons, accountDiagnosticLine_fields hfields, accountDiagnostic_truncated hfull,
          hmany, List.append_nil]
        rfl

/-! ## The bound -/

theorem length_flatMap_le {Item Record : Type} {items : List Item} {f : Item → List Record} {bound : ℕ}
    (h : ∀ item ∈ items, (f item).length ≤ bound) :
    (items.flatMap f).length ≤ items.length * bound := by
  induction items with
  | nil => exact Nat.zero_le _
  | cons item items ih =>
      have hitem := h item (.head _)
      have hitems := ih fun other hmem => h other (.tail _ hmem)
      rw [List.flatMap_cons, List.length_append, List.length_cons, Nat.succ_mul]
      omega

theorem length_goalRecords_le (index : ℕ) (goal : Goal) : (goalRecords index goal).length ≤ 17 := by
  unfold goalRecords
  rw [List.length_cons, List.length_map, List.length_take]
  omega

theorem length_stepRecords_le (index : ℕ) (step : TacticStep) :
    (stepRecords index step).length ≤ 25 := by
  have hslots := List.length_filterMap_le
    (fun slot : Slot => slot.location.map fun loc => (loc, slot.name.getD []))
    (step.slots.take maxStepLocations)
  rw [List.length_take] at hslots
  unfold maxStepLocations at hslots
  unfold stepRecords located maxStepLocations
  simp only [List.length_cons, List.length_append, List.length_map, List.length_take]
  omega

/-- A frame has at most as many records as the decoder counts for one. -/
theorem length_frame_le {event : FailureEvent} (h : event.Bounded) : event.frame.length ≤ 471 := by
  have hgoals : ((event.goals.take 8).zipIdx.flatMap
      fun goal => goalRecords goal.2 goal.1).length ≤ 8 * 17 := by
    have hle := @length_flatMap_le _ _ (event.goals.take 8).zipIdx _ 17
      (fun item _ => length_goalRecords_le item.2 item.1)
    rw [List.length_zipIdx, List.length_take] at hle
    exact hle.trans (Nat.mul_le_mul_right _ (Nat.min_le_left _ _))
  have hsteps : ∀ steps : List TacticStep, ((steps.take maxSteps).zipIdx.flatMap
      fun step => stepRecords step.2 step.1).length ≤ 12 * 25 := by
    intro steps
    have hle := @length_flatMap_le _ _ (steps.take maxSteps).zipIdx _ 25
      (fun item _ => length_stepRecords_le item.2 item.1)
    rw [List.length_zipIdx, List.length_take] at hle
    exact hle.trans (Nat.mul_le_mul_right _ (Nat.min_le_left _ _))
  have hlocations := h.locations
  unfold FailureEvent.frame FailureEvent.records
  simp only [List.length_cons, List.length_append, List.length_map, List.length_nil]
  split
  · simp only [List.length_nil]
    omega
  · rename_i steps _
    have hlist := hsteps event.recordedSteps
    simp only [List.length_cons]
    omega

theorem length_emittedLines_le (more : List FailureEvent) (hbounded : ∀ event ∈ more, event.Bounded)
    {events : ℕ} (hle : events ≤ 8) :
    (emittedLines nonce events more).length ≤ (8 - events) * 471 + 1 := by
  induction more generalizing events with
  | nil => exact Nat.zero_le _
  | cons event more ih =>
      have hmore : ∀ event ∈ more, event.Bounded := fun other hmem => hbounded other (.tail _ hmem)
      rw [emittedLines]
      by_cases hless : events < 8
      · have hframe := length_frame_le (hbounded event (.head _))
        have hrest := @ih hmore (events + 1) hless
        rw [if_pos hless, List.length_append, List.length_map]
        omega
      · rw [if_neg hless, if_pos (by omega), emittedLines_done (by omega), List.length_singleton]
        omega

/-! ## The transcript -/

theorem field_frame {event : FailureEvent} {fields : List (List Char)} (hmem : fields ∈ event.frame) :
    ∀ field ∈ fields, Field field := by
  have hgoal : ∀ index goal, ∀ fields ∈ goalRecords index goal, ∀ field ∈ fields, Field field := by
    intro index goal fields hmem
    rcases List.mem_cons.mp hmem with rfl | hmem
    · exact field_cons (field_of_all (by decide)) (field_cons (field_renderInt _)
        (field_cons (field_renderInt _) (field_cons (field_hex _) nofun)))
    · obtain ⟨assumption, -, rfl⟩ := List.mem_map.mp hmem
      exact field_assumptionFields (field_of_all (by decide)) _ _
  have hstep : ∀ index step, ∀ fields ∈ stepRecords index step, ∀ field ∈ fields, Field field := by
    intro index step fields hmem
    rcases List.mem_cons.mp hmem with rfl | hmem
    · exact field_cons (field_of_all (by decide)) (field_cons (field_renderInt _)
        (field_cons (field_renderInt _) (field_cons (field_hex _) (field_cons (field_hex _) nofun))))
    rcases List.mem_append.mp hmem with hmem | hmem
    · obtain ⟨assumption, -, rfl⟩ := List.mem_map.mp hmem
      exact field_assumptionFields (field_of_all (by decide)) _ _
    · obtain ⟨slot, -, rfl⟩ := List.mem_map.mp hmem
      exact field_cons (field_of_all (by decide)) (field_cons (field_renderInt _)
        (field_locationFields slot))
  rcases List.mem_cons.mp hmem with rfl | hmem
  · exact field_beginFields event
  unfold FailureEvent.records at hmem
  rcases List.mem_append.mp hmem with hmem | hmem
  · rcases List.mem_append.mp hmem with hmem | hmem
    · rcases List.mem_append.mp hmem with hmem | hmem
      · obtain ⟨⟨goal, index⟩, -, hmem⟩ := List.mem_flatMap.mp hmem
        exact hgoal index goal fields hmem
      · obtain ⟨slot, -, rfl⟩ := List.mem_map.mp hmem
        exact field_cons (field_of_all (by decide)) (field_locationFields slot)
    · split at hmem
      · cases hmem
      · rcases List.mem_cons.mp hmem with rfl | hmem
        · exact field_cons (field_of_all (by decide)) (field_cons (field_renderInt _)
            (field_cons (field_renderInt _) nofun))
        · obtain ⟨⟨step, index⟩, -, hmem⟩ := List.mem_flatMap.mp hmem
          exact hstep index step fields hmem
  · rcases List.mem_singleton.mp hmem with rfl
    exact field_cons (field_of_all (by decide)) nofun

theorem isPrint_diagnosticLine (hnonce : isProbeNonce nonce = true) {print : Bytes}
    {fields : List (List Char)} (hfields : ∀ field ∈ fields, Field field)
    (hprint : print = diagnosticLine nonce number fields ++ [10] ∨
      print = 10 :: (diagnosticLine nonce number fields ++ [10])) :
    IsPrint (asciiBytes (markerPrefix diagnosticPrefix nonce)) print
      (diagnosticLine nonce number fields) := by
  have hprintable := printable_markerPrefix printable_diagnosticPrefix hnonce
  have htext : Printable (renderInt number ++ fieldsText fields) :=
    (field_renderInt number).printable.append (printable_fieldsText hfields)
  refine ⟨hprint, (hprintable.append htext).oneLine, ?_⟩
  unfold diagnosticLine
  rw [asciiBytes_append]
  exact List.prefix_append _ _

/-- The prints of the prelude are those lines. -/
theorem forall₂_emitAll (hnonce : isProbeNonce nonce = true) (more : List FailureEvent) (events : ℕ) :
    List.Forall₂ (IsPrint (asciiBytes (markerPrefix diagnosticPrefix nonce)))
      (emitAll nonce events more) (emittedLines nonce events more) := by
  have hrecords : ∀ (number : ℕ) (records : List (List (List Char))),
      (∀ fields ∈ records, ∀ field ∈ fields, Field field) →
        List.Forall₂ (IsPrint (asciiBytes (markerPrefix diagnosticPrefix nonce)))
          (records.map fun fields => diagnosticLine nonce number fields ++ [10])
          (records.map (diagnosticLine nonce number)) := by
    intro number records hfields
    rw [List.forall₂_map_left_iff, List.forall₂_map_right_iff, List.forall₂_same]
    intro fields hmem
    exact isPrint_diagnosticLine hnonce (hfields fields hmem) (.inl rfl)
  induction more generalizing events with
  | nil => exact .nil
  | cons event more ih =>
      rw [emitAll, emittedLines]
      unfold emit
      by_cases hless : events < 8
      · rw [if_pos hless, if_pos hless]
        refine List.rel_append ?_ (ih (events + 1))
        refine .cons (isPrint_diagnosticLine hnonce (field_beginFields event) (.inr rfl)) ?_
        exact hrecords _ _ fun fields hmem => field_frame (.tail _ hmem)
      · rw [if_neg hless, if_neg hless]
        by_cases hfull : events = 8
        · rw [if_pos hfull, if_pos hfull]
          refine .cons (isPrint_diagnosticLine hnonce ?_ (.inl rfl)) (ih (events + 1))
          exact field_cons (field_of_all (by decide)) nofun
        · rw [if_neg hfull, if_neg hfull]
          exact ih events

/-- The marked lines of a transcript are the lines that the prelude printed. -/
theorem markedLines_emitted (hnonce : isProbeNonce nonce = true) {more : List FailureEvent}
    {transcript : Bytes}
    (hlog : Interleaved (QuietDiagnostics nonce) (emitAll nonce 0 more) transcript) :
    (markedLines (asciiBytes (markerPrefix diagnosticPrefix nonce)) transcript).map Prod.fst =
      emittedLines nonce 0 more := by
  have hone : OneLine (asciiBytes (markerPrefix diagnosticPrefix nonce)) :=
    (printable_markerPrefix printable_diagnosticPrefix hnonce).oneLine
  have hprints := forall₂_emitAll hnonce more 0
  have hquiet : ∀ noise, QuietDiagnostics nonce noise → Complete noise ∧ ∀ line ∈ lineRanges noise,
      ¬ asciiBytes (markerPrefix diagnosticPrefix nonce) <+: line := by
    intro noise hnoise
    refine ⟨hnoise.1, ?_⟩
    intro line hmem hprefix
    apply hnoise.2 (line.rdropWhile isLineEnd)
    · rw [splitLines_eq]
      exact List.mem_map_of_mem hmem
    · exact (prefix_rdropWhile_iff hone line).mpr hprefix
  have hlines := filter_lineRanges_interleaved (markerPrefix_ne_nil _ _) hone hquiet hprints hlog
  have hends : ∀ line ∈ emittedLines nonce 0 more,
      ((List.rdropWhile isLineEnd) ∘ (· ++ [10])) line = line := by
    intro line hmem
    obtain ⟨print, -, hprint⟩ := exists_mem_of_forall₂' hprints hmem
    exact rdropWhile_oneLine hprint.2.1
  calc (markedLines (asciiBytes (markerPrefix diagnosticPrefix nonce)) transcript).map Prod.fst
      = (splitLines transcript).filter
          fun line => asciiBytes (markerPrefix diagnosticPrefix nonce) <+: line := by
        have hfirst := List.filter_map (f := Prod.fst)
          (p := fun line => decide (asciiBytes (markerPrefix diagnosticPrefix nonce) <+: line))
          (l := (splitLines transcript).zipIdx 1)
        rw [List.zipIdx_map_fst] at hfirst
        exact hfirst.symm
    _ = ((emittedLines nonce 0 more).map (· ++ [10])).map (List.rdropWhile isLineEnd) := by
        rw [filter_splitLines hone, hlines]
    _ = emittedLines nonce 0 more := by
        rw [List.map_map, List.map_congr_left hends, List.map_id']

theorem emittedLines_eq_nil {more : List FailureEvent} (h : emittedLines nonce 0 more = []) :
    more = [] := by
  cases more with
  | nil => rfl
  | cons event more =>
      rw [emittedLines, if_pos (by decide)] at h
      cases h

end

/-- The account of a transcript whose frames are read. -/
theorem account_of_foldlM {nonce : String} (hnonce : isProbeNonce nonce = true)
    (followingExceptionLine : List Bytes → RecordedEvent → Option ℕ) {transcript : Bytes}
    {state : DiagnosticState}
    (hne : markedLines (asciiBytes (markerPrefix diagnosticPrefix nonce)) transcript ≠ [])
    (hlength : (markedLines (asciiBytes (markerPrefix diagnosticPrefix nonce)) transcript).length ≤
      maxRecords)
    (hfold : (markedLines (asciiBytes (markerPrefix diagnosticPrefix nonce)) transcript).foldlM
      (accountDiagnosticLine (asciiBytes (markerPrefix diagnosticPrefix nonce)))
        { events := [], truncated := false, active := none } = some state)
    (hactive : state.active = none) :
    accountProofDiagnostics followingExceptionLine transcript (contractFor nonce) =
      { status := .recorded
        events := state.events.map fun event =>
          { event with followingExceptionTranscriptLine :=
              followingExceptionLine (splitLines transcript) event }
        captureTruncated := some state.truncated } := by
  have hvalid : ¬ (¬ isProbeNonce nonce = true ∨ some nonce ≠ some nonce) := by
    rintro (h | h)
    · exact h hnonce
    · exact h rfl
  have hfew : ¬ maxRecords <
      (markedLines (asciiBytes (markerPrefix diagnosticPrefix nonce)) transcript).length := by
    omega
  unfold accountProofDiagnostics contractFor
  dsimp only [Option.getD_some]
  rw [if_neg hvalid, if_neg hne, if_neg hfew, hfold]
  dsimp only
  rw [hactive]
  rfl

theorem account_of_no_lines {nonce : String} (hnonce : isProbeNonce nonce = true)
    (followingExceptionLine : List Bytes → RecordedEvent → Option ℕ) {transcript : Bytes}
    (hnone : markedLines (asciiBytes (markerPrefix diagnosticPrefix nonce)) transcript = []) :
    accountProofDiagnostics followingExceptionLine transcript (contractFor nonce) =
      { status := .none } := by
  have hvalid : ¬ (¬ isProbeNonce nonce = true ∨ some nonce ≠ some nonce) := by
    rintro (h | h)
    · exact h hnonce
    · exact h rfl
  unfold accountProofDiagnostics contractFor
  dsimp only [Option.getD_some]
  rw [if_neg hvalid, if_pos hnone]

/-- **The frames are read back.**  Nothing is recorded of no failure.  Otherwise the first
eight failures are recorded, each as the prelude wrote it within its bounds, and whether
there were more.  There are never more records than the decoder accepts. -/
theorem failure_frames_read {nonce : String} (hnonce : isProbeNonce nonce = true)
    (followingExceptionLine : List Bytes → RecordedEvent → Option ℕ) {events : List FailureEvent}
    (hbounded : ∀ event ∈ events, event.Bounded) {transcript : Bytes}
    (hlog : Interleaved (QuietDiagnostics nonce) (emitAll nonce 0 events) transcript) :
    let account := accountProofDiagnostics followingExceptionLine transcript (contractFor nonce)
    (events = [] → account.status = .none ∧ account.events = []) ∧
    (events ≠ [] →
      account.status = .recorded ∧
      account.events.map RecordedEvent.content =
        ((events.take maxEvents).zipIdx 1).map (fun (event, number) => recordedEvent number event) ∧
      account.captureTruncated = some (decide (maxEvents < events.length))) ∧
    (markedLines (asciiBytes (markerPrefix diagnosticPrefix nonce)) transcript).length ≤ maxRecords := by
  intro account
  have hlines := markedLines_emitted hnonce hlog
  have hlength : (markedLines (asciiBytes (markerPrefix diagnosticPrefix nonce)) transcript).length ≤
      maxRecords := by
    have hcount := congrArg List.length hlines
    rw [List.length_map] at hcount
    have hle := @length_emittedLines_le nonce events hbounded 0 (Nat.zero_le 8)
    have hmax : maxRecords = 3769 := rfl
    omega
  refine ⟨?_, ?_, hlength⟩
  · rintro rfl
    have hnone : markedLines (asciiBytes (markerPrefix diagnosticPrefix nonce)) transcript = [] :=
      List.map_eq_nil_iff.mp hlines
    have haccount : account = { status := .none } :=
      account_of_no_lines hnonce followingExceptionLine hnone
    rw [haccount]
    exact ⟨rfl, rfl⟩
  · intro hevents
    have hne : markedLines (asciiBytes (markerPrefix diagnosticPrefix nonce)) transcript ≠ [] := by
      intro hnone
      rw [hnone] at hlines
      exact hevents (emittedLines_eq_nil hlines.symm)
    obtain ⟨final, hfold, hcontent⟩ :=
      @foldlM_events nonce events hbounded [] (Nat.zero_le 8) _ hlines
    have haccount : account = _ :=
      account_of_foldlM hnonce followingExceptionLine hne hlength hfold rfl
    rw [haccount]
    refine ⟨rfl, ?_, ?_⟩
    · -- where an event stands in the transcript is no part of its content
      dsimp only
      rw [List.nil_append, List.map_map]
      exact hcontent
    · dsimp only
      rw [List.length_nil, Nat.zero_add]
      rfl

/-! ## Sample failures -/

/-- A failure of `REWRITE_TAC` on one goal. -/
def sampleFailure : FailureEvent where
  kind := .tacticInput
  tm := [utf8 "x = ", utf8 "y"]
  error := utf8 "Failure(\x22REWRITE_TAC\x22)"
  goals := [{ assumptions := [{ label := utf8 "A", conclusion := [utf8 "p"] }], conclusion := [utf8 "q"] }]
  slots := [{ location := some { filename := utf8 "a.ml", lineNumber := 3, representable := representable_three }
              name := none }]
  recordedSteps := [{ goal := { assumptions := [], conclusion := [utf8 "q"] }
                      error := utf8 "Not_found", slots := [] }]

theorem sampleFailure_bounded : sampleFailure.Bounded where
  locations := by decide
  lines := by simp [sampleFailure, located]
  stepLines := by simp [sampleFailure, located]

theorem quietDiagnostics_nil (nonce : String) : QuietDiagnostics nonce [] :=
  ⟨.inl rfl, nofun⟩

/-- Nine failures, of which eight are recorded. -/
theorem failure_frames_read_nine : ∃ transcript,
    let account := accountProofDiagnostics (fun _ _ => none) transcript (contractFor sampleNonce)
    account.status = .recorded ∧
      account.events.map RecordedEvent.content =
        (List.range' 1 8).map (fun number => recordedEvent number sampleFailure) ∧
      account.captureTruncated = some true := by
  have hbounded : ∀ event ∈ List.replicate 9 sampleFailure, event.Bounded := by
    intro event hmem
    rw [List.eq_of_mem_replicate hmem]
    exact sampleFailure_bounded
  exact ⟨_, (failure_frames_read (by decide +kernel) (fun _ _ => none) hbounded
    (.flatten (quietDiagnostics_nil sampleNonce) _)).2.1 nofun⟩

/-- Nothing is recorded of a run in which nothing failed. -/
theorem failure_frames_unrecorded :
    Interleaved (QuietDiagnostics sampleNonce) (emitAll sampleNonce 0 []) [] ∧
      (accountProofDiagnostics (fun _ _ => none) [] (contractFor sampleNonce)).status = .none :=
  ⟨.last (quietDiagnostics_nil sampleNonce), by decide +kernel⟩

end Hearth.Diagnostics
