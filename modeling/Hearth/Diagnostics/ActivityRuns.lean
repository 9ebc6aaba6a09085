import Hearth.Diagnostics.Records
import Mathlib.Data.Option.Basic

/-!
# Open calls

The calls that are open after some steps, counted without looking at what is printed.
The prelude and the decoder agree with this count in every properly nested run, whatever
else the transcript has between the records: the calls that are not too deep are kept with
their locations, and of those that are too deep the first one is known, and their number
once it is left.
-/

namespace Hearth.Diagnostics

open Hearth.Library
open Hearth.Library.Json (renderInt)
open Hearth.Replay (isProbeNonce)

/-! ## What the steps mean -/

/-- The open calls, the innermost first, and the numbers of calls that were entered, of
times that the nesting went too deep, and of calls that were entered too deep. -/
structure Nest where
  opened : List (ℕ × List Slot)
  entered : ℕ
  spans : ℕ
  suppressed : ℕ

namespace Nest

def start : Nest where
  opened := []
  entered := 0
  spans := 0
  suppressed := 0

def after (nest : Nest) : ActivityStep → Nest
  | .enter slots =>
      { opened := (nest.entered + 1, slots) :: nest.opened
        entered := nest.entered + 1
        spans := if nest.opened.length = maxActivityDepth then nest.spans + 1 else nest.spans
        suppressed :=
          if maxActivityDepth ≤ nest.opened.length then nest.suppressed + 1 else nest.suppressed }
  | .leave => { nest with opened := nest.opened.tail }

end Nest

/-- The state of the calls after these steps. -/
def nestOf (steps : List ActivityStep) : Nest :=
  steps.foldl Nest.after .start

/-- An open call, as the decoder keeps it. -/
def recordedCall (opened : ℕ × List Slot) : ℤ × List RecordedLocation :=
  (opened.1, (located opened.2).map recordedLocation)

def ActiveCall.content (active : ActiveCall) : ℤ × List RecordedLocation :=
  (active.call, active.locations)

/-- At most 32 locations, and no line before the first. -/
def ActivityStep.Bounded : ActivityStep → Prop
  | .enter slots => (located slots).length ≤ 32 ∧ ∀ slot ∈ located slots, 1 ≤ slot.1.lineNumber
  | .leave => True

/-- Output that has no record and none that is cut off. -/
def QuietActivity (nonce : String) (noise : Bytes) : Prop :=
  ∀ line ∈ lineRanges noise, ¬ asciiBytes (markerPrefix activityPrefix nonce) <+: line ∧
    isCutOff (asciiBytes (markerPrefix activityPrefix nonce)) line = false

section

variable {nonce : String} {state : ActivityState}

/-! ## One line -/

theorem printable_activityPrefix : Printable activityPrefix := by
  apply Field.printable
  exact field_of_all (by decide)

/-- The lines of quiet output, and of quiet output that is ended by a line feed, are
passed by. -/
theorem accountLine_quiet (hnonce : isProbeNonce nonce = true) {noise : Bytes}
    (hquiet : QuietActivity nonce noise) {line : Bytes}
    (hmem : line ∈ lineRanges noise ∨ line ∈ lineRanges (noise ++ [10])) (lineno : ℕ) :
    accountLine false (asciiBytes (markerPrefix activityPrefix nonce)) state (line, lineno) =
      .ok state := by
  have hprintable := printable_markerPrefix printable_activityPrefix hnonce
  have hlf : 10 ∉ asciiBytes (markerPrefix activityPrefix nonce) := hprintable.oneLine.1
  have hline : ¬ asciiBytes (markerPrefix activityPrefix nonce) <+: line ∧
      isCutOff (asciiBytes (markerPrefix activityPrefix nonce)) line = false := by
    rcases hmem with hmem | hmem
    · exact hquiet line hmem
    · refine ⟨not_prefix_lineRanges (markerPrefix_ne_nil _ _) hlf
        (fun line hmem => (hquiet line hmem).1) hmem, ?_⟩
      rcases mem_lineRangesFrom_append_lf hmem with hmem | ⟨last, -, rfl⟩
      · exact (hquiet line hmem).2
      · -- a line with its line feed is not the beginning of a prefix
        rw [← Bool.not_eq_true, isCutOff]
        intro hcut
        simp only [Bool.and_eq_true, decide_eq_true_eq] at hcut
        exact hlf (hcut.2.subset (List.mem_append_right _ (.head _)))
  unfold accountLine
  dsimp only
  rw [if_pos hline.1, hline.2]
  rfl

/-- The fields of a printed record are the fields that are read. -/
theorem accountRecord_fields {call : ℕ} (hcall : 1 ≤ call ∧ call ≤ maxActivitySequence)
    {operation : ActivityOp} {name : List Char} (hname : ActivityOp.ofText name = some operation)
    {fields : List (List Char)} (hfields : ∀ field ∈ name :: fields, Field field)
    (hterminal : state.terminal = none) (lineno : ℕ) :
    accountRecord false lineno (asciiBytes (renderInt call ++ fieldsText (name :: fields)) ++ [10])
        state =
      accountOperation false lineno (renderInt call :: name :: fields) call
        { state with records := state.records + 1 } operation := by
  have hcallField := field_renderInt call
  have htext : Printable (renderInt call ++ fieldsText (name :: fields)) :=
    hcallField.printable.append (printable_fieldsText hfields)
  have hsplit : (renderInt call ++ fieldsText (name :: fields)).splitOn ':' =
      renderInt call :: name :: fields := by
    apply splitOn_fieldsText
    intro field hmem
    rcases List.mem_cons.mp hmem with rfl | hmem
    · exact hcallField
    · exact hfields field hmem
  have hrange : (1 : ℤ) ≤ call ∧ (call : ℤ) ≤ maxActivitySequence := by omega
  unfold accountRecord
  rw [rdropWhile_oneLine htext.oneLine, charsOfBytes_asciiBytes htext.ascii]
  simp only [hterminal, Option.bind_eq_bind, Option.bind_some, hsplit, List.getElem?_cons_zero,
    List.getElem?_cons_succ, intOf_renderInt, hname, guard, hrange, and_self, ↓reduceIte,
    Bool.false_eq_true, false_and, not_false_eq_true, pure]

/-- What a printed record does. -/
theorem accountLine_record (hnonce : isProbeNonce nonce = true) {call : ℕ}
    (hcall : 1 ≤ call ∧ call ≤ maxActivitySequence) {operation : ActivityOp} {name : List Char}
    (hname : ActivityOp.ofText name = some operation) {fields : List (List Char)}
    (hfields : ∀ field ∈ name :: fields, Field field)
    (hlength : (fieldsText (name :: fields)).length ≤ 264900)
    (hterminal : state.terminal = none) (lineno : ℕ) {later : ActivityState}
    (hlater : accountOperation false lineno (renderInt call :: name :: fields) call
      { state with records := state.records + 1 } operation = some later) :
    accountLine false (asciiBytes (markerPrefix activityPrefix nonce)) state
      (asciiBytes (markerPrefix activityPrefix nonce ++ (renderInt call ++
        fieldsText (name :: fields))) ++ [10], lineno) = .ok later := by
  have hcallLength : (renderInt (call : ℤ)).length ≤ 20 := by
    apply length_renderInt_le
    unfold maxActivitySequence at hcall
    omega
  have hmarkerLength : (markerPrefix activityPrefix nonce).length = 56 :=
    length_markerPrefix activityPrefix hnonce
  have hshort : ¬ maxLineBytes < (asciiBytes (markerPrefix activityPrefix nonce ++
      (renderInt call ++ fieldsText (name :: fields))) ++ [10]).length := by
    have hmax : maxLineBytes = 266496 := rfl
    rw [List.length_append, length_asciiBytes, List.length_append, List.length_append, hmax]
    show ¬ 266496 < _ + 1
    omega
  have hend : (asciiBytes (markerPrefix activityPrefix nonce ++
      (renderInt call ++ fieldsText (name :: fields))) ++ [10]).getLast? = some 10 :=
    List.getLast?_concat
  unfold accountLine
  dsimp only
  rw [if_neg (not_not_intro ?_), if_neg hshort, if_neg (not_not_intro hend), asciiBytes_append,
    List.append_assoc, List.drop_left, accountRecord_fields hcall hname hfields hterminal, hlater]
  rw [asciiBytes_append, List.append_assoc]
  exact List.prefix_append _ _

/-! ## What is printed -/

theorem activityRecord_eq (nonce : String) (call : ℕ) (fields : List (List Char)) :
    activityRecord nonce call (fieldsText fields) =
      10 :: (asciiBytes (markerPrefix activityPrefix nonce ++ (renderInt call ++ fieldsText fields)) ++
        [10]) := by
  unfold activityRecord
  generalize markerPrefix activityPrefix nonce = marker
  rw [List.append_assoc marker]
  exact congrArg (10 :: ·) (asciiBytes_append _ _)

theorem enterText_eq (slots : List (Location × Bytes)) :
    ":ENTER".toList ++ slots.flatMap locationText =
      fieldsText ("ENTER".toList :: slots.flatMap locationFields) := by
  have hslots : slots.flatMap locationText = fieldsText (slots.flatMap locationFields) := by
    unfold fieldsText
    rw [List.flatMap_assoc]
    exact congrArg (slots.flatMap ·) (funext locationText_eq)
  rw [hslots]
  rfl

theorem length_enterText_le {slots : List (Location × Bytes)} (h : slots.length ≤ 32) :
    (fieldsText ("ENTER".toList :: slots.flatMap locationFields)).length ≤ 264900 := by
  have hslots : (slots.flatMap locationText).length ≤ 8275 * slots.length := by
    clear h
    induction slots with
    | nil => exact Nat.le_refl _
    | cons slot slots ih =>
        have hslot := length_locationText_le slot
        rw [List.flatMap_cons, List.length_append, List.length_cons]
        omega
  have hname : ":ENTER".toList.length = 6 := rfl
  rw [← enterText_eq, List.length_append, hname]
  omega

theorem field_enterText (slots : List (Location × Bytes)) :
    ∀ field ∈ "ENTER".toList :: slots.flatMap locationFields, Field field := by
  intro field hmem
  rcases List.mem_cons.mp hmem with rfl | hmem
  · exact field_of_all (by decide)
  · obtain ⟨slot, -, hfield⟩ := List.mem_flatMap.mp hmem
    exact field_locationFields slot field hfield

/-- The locations are read as they were written. -/
theorem locationsOf_fields {slots : List (Location × Bytes)}
    (h : ∀ slot ∈ slots, 1 ≤ slot.1.lineNumber) :
    locationsOf (slots.flatMap locationFields) = some (slots.map recordedLocation) := by
  induction slots with
  | nil => rfl
  | cons slot slots ih =>
      have hline := h slot (.head _)
      have hrest := ih fun other hmem => h other (.tail _ hmem)
      show locationsOf (_ :: _ :: _ :: slots.flatMap locationFields) = _
      simp only [locationsOf, intOf_renderInt, text_bounded, hrest, guard, hline, ↓reduceIte,
        Option.bind_eq_bind, Option.bind_some, pure]
      rfl

/-! ## One step -/

/-- What the decoder has kept of the open calls. -/
inductive Kept (nest : Nest) (state : ActivityState) : Prop
  | shallow (hdepth : nest.opened.length ≤ maxActivityDepth)
      (hactive : state.active.map ActiveCall.content = nest.opened.reverse.map recordedCall)
      (hoverflow : state.overflow = none) (hentered : state.entered = nest.entered)
      (hsuppressed : state.suppressedCalls = nest.suppressed)
  /-- The call `call` went too deep, and is open. -/
  | deep (inner : List (ℕ × List Slot)) (call : ℕ) (slots : List Slot)
      (base : List (ℕ × List Slot)) (hopened : nest.opened = inner ++ (call, slots) :: base)
      (hbase : base.length = maxActivityDepth)
      (hactive : state.active.map ActiveCall.content = base.reverse.map recordedCall)
      (hoverflow : state.overflow = some call) (hentered : state.entered = call)
      (hsuppressed : state.suppressedCalls + (nest.entered - call + 1) = nest.suppressed)

/-- The prelude, the count and the decoder after the same steps. -/
structure Tracks (prelude : Prelude) (nest : Nest) (state : ActivityState) : Prop where
  enabled : prelude.emitter.activityEnabled = true
  calls : prelude.emitter.calls = nest.entered
  depth : prelude.emitter.depth = nest.opened.length
  opened : prelude.opened = nest.opened
  numbers : ∀ call ∈ nest.opened, 1 ≤ call.1 ∧ call.1 ≤ nest.entered
  terminal : state.terminal = none
  records : state.records = 0 ↔ nest.entered = 0
  spans : state.overflowSpans = nest.spans
  kept : Kept nest state

theorem tracks_start : Tracks .start .start .start where
  enabled := rfl
  calls := rfl
  depth := rfl
  opened := rfl
  numbers := nofun
  terminal := rfl
  records := Iff.rfl
  spans := rfl
  kept := .shallow (Nat.zero_le _) rfl rfl rfl rfl

theorem Emitter.enter_eq (slots : List Slot) {emitter : Emitter}
    (henabled : emitter.activityEnabled = true) (hroom : emitter.calls < maxActivitySequence) :
    emitter.enter nonce slots =
      (if emitter.depth < maxActivityDepth then
          [activityRecord nonce (emitter.calls + 1)
            (":ENTER".toList ++ (located slots).flatMap locationText)]
        else if emitter.depth = maxActivityDepth then
          [activityRecord nonce (emitter.calls + 1) ":OVERFLOW".toList]
        else [],
        emitter.calls + 1,
        { calls := emitter.calls + 1, depth := emitter.depth + 1, activityEnabled := true }) := by
  have hne : emitter.calls ≠ maxActivitySequence := by omega
  unfold Emitter.enter
  simp only [henabled, hne, decide_false, Bool.and_false, Bool.false_eq_true, ↓reduceIte,
    Bool.not_false, Bool.and_self, Bool.true_and, decide_eq_true_eq, List.nil_append,
    Nat.add_one_le_iff, Nat.add_right_cancel_iff]

/-- What a step has done once its prints, if any, are read. -/
def Follows (nonce : String) (prints : List Bytes) (later : Prelude) (nest : Nest)
    (state : ActivityState) : Prop :=
  (prints = [] ∧ Tracks later nest state) ∨
    ∃ line, prints = [10 :: (line ++ [10])] ∧ OneLine line ∧ ∀ lineno, ∃ next,
      accountLine false (asciiBytes (markerPrefix activityPrefix nonce)) state
        (line ++ [10], lineno) = .ok next ∧ Tracks later nest next

/-- One record is read, if the operation it names leads to a state that tracks the step. -/
theorem follows_record (hnonce : isProbeNonce nonce = true) {call : ℕ}
    (hcall : 1 ≤ call ∧ call ≤ maxActivitySequence) {operation : ActivityOp} {name : List Char}
    (hname : ActivityOp.ofText name = some operation) {fields : List (List Char)}
    (hfields : ∀ field ∈ name :: fields, Field field)
    (hlength : (fieldsText (name :: fields)).length ≤ 264900) {later : Prelude} {nest : Nest}
    (hterminal : state.terminal = none)
    (hlater : ∀ lineno, ∃ next, accountOperation false lineno (renderInt call :: name :: fields) call
      { state with records := state.records + 1 } operation = some next ∧ Tracks later nest next) :
    Follows nonce [activityRecord nonce call (fieldsText (name :: fields))] later nest state := by
  have hprintable := printable_markerPrefix printable_activityPrefix hnonce
  have htext : Printable (renderInt call ++ fieldsText (name :: fields)) :=
    (field_renderInt call).printable.append (printable_fieldsText hfields)
  refine .inr ⟨_, congrArg (· :: []) (activityRecord_eq nonce call _),
    (hprintable.append htext).oneLine, ?_⟩
  intro lineno
  obtain ⟨next, hnext, htracks⟩ := hlater lineno
  exact ⟨next, accountLine_record hnonce hcall hname hfields hlength hterminal lineno hnext, htracks⟩

theorem Tracks.entered {prelude : Prelude} {nest : Nest} (h : Tracks prelude nest state)
    (slots : List Slot) {next : ActivityState} (hterminal : next.terminal = none)
    (hrecords : next.records ≠ 0) (hspans : next.overflowSpans = (nest.after (.enter slots)).spans)
    (hkept : Kept (nest.after (.enter slots)) next) :
    Tracks
      { emitter := { calls := nest.entered + 1, depth := nest.opened.length + 1,
                     activityEnabled := true }
        opened := (nest.entered + 1, slots) :: prelude.opened }
      (nest.after (.enter slots)) next := by
  refine ⟨rfl, rfl, rfl, congrArg (_ :: ·) h.opened, ?_, hterminal, ?_, hspans, hkept⟩
  · intro call hmem
    show 1 ≤ call.1 ∧ call.1 ≤ nest.entered + 1
    rcases List.mem_cons.mp hmem with rfl | hmem
    · exact ⟨Nat.le_add_left _ _, Nat.le_refl _⟩
    · have hcall := h.numbers call hmem
      omega
  · constructor
    · intro hzero
      exact absurd hzero hrecords
    · intro hzero
      cases hzero

theorem guard_of {p : Prop} [Decidable p] (h : p) : (guard p : Option Unit) = some () :=
  if_pos h

theorem accountOperation_enter {slots : List (Location × Bytes)} (hcount : slots.length ≤ 32)
    (hlines : ∀ slot ∈ slots, 1 ≤ slot.1.lineNumber) {call : ℤ} {callText : List Char}
    (hoverflow : state.overflow = none) (hcall : call = state.entered + 1)
    (hroom : state.active.length < maxActivityDepth) (lineno : ℕ) :
    accountOperation false lineno (callText :: "ENTER".toList :: slots.flatMap locationFields) call
        state .enter =
      some { state with
        active := state.active ++ [⟨call, slots.map recordedLocation, lineno⟩], entered := call } := by
  have hfields : (slots.flatMap locationFields).length = 3 * slots.length := by
    clear hcount hlines
    induction slots with
    | nil => rfl
    | cons slot slots ih =>
        have hslot : (locationFields slot).length = 3 := rfl
        rw [List.flatMap_cons, List.length_append, List.length_cons]
        omega
  have hparts : (callText :: "ENTER".toList :: slots.flatMap locationFields).length ≤ 98 := by
    rw [List.length_cons, List.length_cons]
    omega
  have hdrop : (callText :: "ENTER".toList :: slots.flatMap locationFields).drop 2 =
      slots.flatMap locationFields := rfl
  have hguard : call = state.entered + 1 ∧ ¬ (false = true ∧ (maxActivityCalls : ℤ) < call) ∧
      ¬ (¬ false = true ∧ maxActivityDepth ≤ state.active.length) ∧
        (callText :: "ENTER".toList :: slots.flatMap locationFields).length ≤ 98 :=
    ⟨hcall, fun h => Bool.false_ne_true h.1, fun h => by omega, hparts⟩
  unfold accountOperation
  dsimp only
  rw [guard_of hoverflow, guard_of hguard, hdrop, locationsOf_fields hlines]
  rfl

theorem accountOperation_overflow {call : ℤ} {callText : List Char}
    (hoverflow : state.overflow = none) (hcall : call = state.entered + 1)
    (hfull : state.active.length = maxActivityDepth) (lineno : ℕ) :
    accountOperation false lineno [callText, "OVERFLOW".toList] call state .overflow =
      some { state with
        overflow := some call, overflowSpans := state.overflowSpans + 1, entered := call } := by
  have hguard : ¬ false = true ∧ [callText, "OVERFLOW".toList].length = 2 ∧
      state.overflow = none ∧ state.active.length = maxActivityDepth ∧ call = state.entered + 1 :=
    ⟨Bool.false_ne_true, rfl, hoverflow, hfull, hcall⟩
  unfold accountOperation
  dsimp only
  rw [guard_of hguard]
  rfl

theorem accountOperation_resume {call last : ℤ} {callText : List Char}
    (hoverflow : state.overflow = some call) (hlast : call ≤ last ∧ last ≤ maxActivitySequence)
    (lineno : ℕ) :
    accountOperation false lineno [callText, "RESUME".toList, renderInt last] call state .resume =
      some { state with
        suppressedCalls := state.suppressedCalls + (last - call + 1), entered := last,
        overflow := none } := by
  have hguard : ¬ false = true ∧ [callText, "RESUME".toList, renderInt last].length = 3 ∧
      state.overflow = some call := ⟨Bool.false_ne_true, rfl, hoverflow⟩
  have hthird : [callText, "RESUME".toList, renderInt last][2]? = some (renderInt last) := rfl
  unfold accountOperation
  dsimp only
  rw [guard_of hguard, hthird]
  simp only [Option.bind_eq_bind, Option.bind_some, intOf_renderInt, guard_of hlast]

theorem accountOperation_leave {call : ℤ} {callText : List Char} (hoverflow : state.overflow = none)
    (hlast : state.active.getLast?.map ActiveCall.call = some call) (lineno : ℕ) :
    accountOperation false lineno [callText, "LEAVE".toList] call state .leave =
      some { state with active := state.active.dropLast } := by
  have hguard : [callText, "LEAVE".toList].length = 2 ∧
      state.active.getLast?.map ActiveCall.call = some call := ⟨rfl, hlast⟩
  unfold accountOperation
  dsimp only
  rw [guard_of hoverflow, guard_of hguard]
  rfl

theorem Tracks.enter {prelude : Prelude} {nest : Nest} (h : Tracks prelude nest state)
    (hnonce : isProbeNonce nonce = true) (hroom : nest.entered < maxActivitySequence)
    {slots : List Slot} (hbounded : (ActivityStep.enter slots).Bounded) {prints : List Bytes}
    {later : Prelude} (hstep : prelude.step nonce (.enter slots) = some (prints, later)) :
    Follows nonce prints later (nest.after (.enter slots)) state := by
  have henter := @Emitter.enter_eq nonce slots prelude.emitter h.enabled
    (by rw [h.calls]; exact hroom)
  rw [h.depth, h.calls] at henter
  rw [Prelude.step, henter] at hstep
  obtain ⟨rfl, rfl⟩ := Prod.mk.inj (Option.some.inj hstep)
  have hcall : 1 ≤ nest.entered + 1 ∧ nest.entered + 1 ≤ maxActivitySequence := by omega
  cases h.kept with
  | shallow hdepth hactive hoverflow hentered hsuppressed =>
      have hlength : state.active.length = nest.opened.length := by
        have hlengths := congrArg List.length hactive
        rwa [List.length_map, List.length_map, List.length_reverse] at hlengths
      by_cases hless : nest.opened.length < maxActivityDepth
      · rw [if_pos hless, enterText_eq]
        refine follows_record hnonce hcall rfl (field_enterText _) (length_enterText_le hbounded.1)
          h.terminal ?_
        intro lineno
        refine ⟨_, accountOperation_enter hbounded.1 hbounded.2 ?_ ?_ ?_ lineno,
          h.entered slots h.terminal (Nat.succ_ne_zero _) ?_ (.shallow hless ?_ hoverflow rfl ?_)⟩
        · exact hoverflow
        · show ((nest.entered + 1 : ℕ) : ℤ) = state.entered + 1
          omega
        · show state.active.length < _
          omega
        · show state.overflowSpans = ((if nest.opened.length = _ then _ else _ : ℕ) : ℤ)
          rw [if_neg (by omega), h.spans]
        · show (state.active ++ [_]).map ActiveCall.content =
            ((nest.entered + 1, slots) :: nest.opened).reverse.map recordedCall
          rw [List.map_append, hactive, List.reverse_cons, List.map_append]
          rfl
        · show state.suppressedCalls = ((if _ ≤ nest.opened.length then _ else _ : ℕ) : ℤ)
          rw [if_neg (by omega), hsuppressed]
      · have hfull : nest.opened.length = maxActivityDepth := by omega
        have htext : ":OVERFLOW".toList = fieldsText ["OVERFLOW".toList] := by decide
        rw [if_neg hless, if_pos hfull, htext]
        refine follows_record hnonce hcall rfl ?_ (by decide) h.terminal ?_
        · intro field hmem
          rcases List.mem_singleton.mp hmem with rfl
          exact field_of_all (by decide)
        intro lineno
        refine ⟨_, accountOperation_overflow ?_ ?_ ?_ lineno,
          h.entered slots h.terminal (Nat.succ_ne_zero _) ?_
            (.deep [] (nest.entered + 1) slots nest.opened rfl hfull hactive rfl rfl ?_)⟩
        · exact hoverflow
        · show ((nest.entered + 1 : ℕ) : ℤ) = state.entered + 1
          omega
        · show state.active.length = _
          omega
        · show state.overflowSpans + 1 = ((if nest.opened.length = _ then _ else _ : ℕ) : ℤ)
          rw [if_pos hfull, h.spans]
          rfl
        · show state.suppressedCalls + (((nest.entered + 1 : ℕ) : ℤ) - (nest.entered + 1 : ℕ) + 1) =
            ((if _ ≤ nest.opened.length then _ else _ : ℕ) : ℤ)
          rw [if_pos (by omega), hsuppressed]
          omega
  | deep inner call slots' base hopened hbase hactive hoverflow hentered hsuppressed =>
      have hlength : maxActivityDepth < nest.opened.length := by
        rw [hopened, List.length_append, List.length_cons]
        omega
      have hcallNumber : 1 ≤ call ∧ call ≤ nest.entered := by
        apply h.numbers (call, slots')
        rw [hopened]
        exact List.mem_append_right _ (.head _)
      have hrecords : state.records ≠ 0 := fun hzero => by
        have hnone := h.records.mp hzero
        omega
      rw [if_neg (by omega), if_neg (by omega)]
      refine .inl ⟨rfl, h.entered slots h.terminal hrecords ?_
        (.deep ((nest.entered + 1, slots) :: inner) call slots' base ?_ hbase hactive hoverflow
          hentered ?_)⟩
      · show state.overflowSpans = ((if nest.opened.length = _ then _ else _ : ℕ) : ℤ)
        rw [if_neg (by omega), h.spans]
      · exact congrArg (_ :: ·) hopened
      · show state.suppressedCalls + (((nest.entered + 1 : ℕ) : ℤ) - call + 1) =
          ((if _ ≤ nest.opened.length then _ else _ : ℕ) : ℤ)
        rw [if_pos (by omega)]
        omega

/-! ## Leaving a call -/

theorem Tracks.left {prelude : Prelude} {nest : Nest} (h : Tracks prelude nest state)
    {call : ℕ} {slots : List Slot} {rest : List (ℕ × List Slot)}
    (hopened : nest.opened = (call, slots) :: rest) {next : ActivityState}
    (hterminal : next.terminal = none) (hrecords : next.records ≠ 0)
    (hspans : next.overflowSpans = nest.spans)
    (hkept : Kept { nest with opened := rest } next) :
    Tracks
      { emitter := { prelude.emitter with depth := prelude.emitter.depth - 1 }, opened := rest }
      (nest.after .leave) next := by
  have hafter : nest.after .leave = { nest with opened := rest } := by
    show { nest with opened := nest.opened.tail } = _
    rw [hopened]
    rfl
  have hdepth : prelude.emitter.depth - 1 = rest.length := by
    rw [h.depth, hopened]
    rfl
  have hnumber := h.numbers (call, slots) (by rw [hopened]; exact .head _)
  rw [hafter]
  refine ⟨h.enabled, h.calls, hdepth, rfl, ?_, hterminal, ?_, hspans, hkept⟩
  · intro other hmem
    apply h.numbers other
    rw [hopened]
    exact .tail _ hmem
  · show next.records = 0 ↔ nest.entered = 0
    omega

theorem Tracks.leave {prelude : Prelude} {nest : Nest} (h : Tracks prelude nest state)
    (hnonce : isProbeNonce nonce = true) (hroom : nest.entered < maxActivitySequence)
    {prints : List Bytes} {later : Prelude}
    (hstep : prelude.step nonce .leave = some (prints, later)) :
    Follows nonce prints later (nest.after .leave) state := by
  rw [Prelude.step, h.opened] at hstep
  cases hopened : nest.opened with
  | nil =>
      rw [hopened] at hstep
      cases hstep
  | cons head rest =>
      obtain ⟨call, slots⟩ := head
      have hnumber := h.numbers (call, slots) (by rw [hopened]; exact .head _)
      have hcall : 1 ≤ call ∧ call ≤ maxActivitySequence := by omega
      have hdepth : prelude.emitter.depth = rest.length + 1 := by
        rw [h.depth, hopened]
        rfl
      rw [hopened] at hstep
      dsimp only at hstep
      rw [Emitter.leave, if_pos h.enabled] at hstep
      obtain ⟨rfl, rfl⟩ := Prod.mk.inj (Option.some.inj hstep)
      cases h.kept with
      | shallow hshallow hactive hoverflow hentered hsuppressed =>
          have hless : prelude.emitter.depth ≤ maxActivityDepth := by
            rw [h.depth]
            exact hshallow
          -- the innermost call is the last one that is kept
          have hkept : state.active.map ActiveCall.content =
              rest.reverse.map recordedCall ++ [recordedCall (call, slots)] := by
            rw [hactive, hopened, List.reverse_cons, List.map_append]
            rfl
          have hlast : state.active.getLast?.map ActiveCall.call = some (call : ℤ) := by
            have hcontent := congrArg List.getLast? hkept
            rw [List.getLast?_map, List.getLast?_concat] at hcontent
            have hfirst := congrArg (Option.map Prod.fst) hcontent
            rwa [Option.map_map] at hfirst
          have hrest : state.active.dropLast.map ActiveCall.content = rest.reverse.map recordedCall := by
            rw [List.map_dropLast, hkept, List.dropLast_concat]
          have htext : ":LEAVE".toList = fieldsText ["LEAVE".toList] := by decide
          rw [if_pos hless, htext]
          refine follows_record hnonce hcall rfl ?_ (by decide) h.terminal ?_
          · intro field hmem
            rcases List.mem_singleton.mp hmem with rfl
            exact field_of_all (by decide)
          intro lineno
          refine ⟨_, accountOperation_leave ?_ ?_ lineno,
            h.left hopened h.terminal (Nat.succ_ne_zero _) h.spans
              (.shallow ?_ hrest hoverflow hentered hsuppressed)⟩
          · exact hoverflow
          · exact hlast
          · show rest.length ≤ _
            omega
      | deep inner call' slots' base hopened' hbase hactive hoverflow hentered hsuppressed =>
          have hsame : (call, slots) :: rest = inner ++ (call', slots') :: base := by
            rw [← hopened, hopened']
          cases inner with
          | nil =>
              -- the call that went too deep is left
              cases hsame
              have hmore : ¬ prelude.emitter.depth ≤ maxActivityDepth := by omega
              have hfull : prelude.emitter.depth = maxActivityDepth + 1 := by omega
              have htext : ":RESUME:".toList ++ renderInt prelude.emitter.calls =
                  fieldsText ["RESUME".toList, renderInt nest.entered] := by
                rw [h.calls]
                simp [fieldsText]
              rw [if_neg hmore, if_pos hfull, htext]
              refine follows_record hnonce hcall rfl ?_ ?_ h.terminal ?_
              · intro field hmem
                simp only [List.mem_cons, List.not_mem_nil, or_false] at hmem
                rcases hmem with rfl | rfl
                · exact field_of_all (by decide)
                · exact field_renderInt _
              · have hlength : (renderInt (nest.entered : ℤ)).length ≤ 20 := by
                  apply length_renderInt_le
                  unfold maxActivitySequence at hroom
                  omega
                rw [← htext, List.length_append, h.calls]
                show 8 + _ ≤ _
                omega
              intro lineno
              have hlast : (call : ℤ) ≤ nest.entered ∧ (nest.entered : ℤ) ≤ maxActivitySequence := by
                omega
              refine ⟨_, @accountOperation_resume { state with records := state.records + 1 } call
                nest.entered _ hoverflow hlast lineno, ?_⟩
              exact h.left hopened h.terminal (Nat.succ_ne_zero _) h.spans
                (.shallow (le_of_eq hbase) hactive rfl rfl hsuppressed)
          | cons first inner =>
              have hrest : rest = inner ++ (call', slots') :: base := (List.cons.inj hsame).2
              have hmore : maxActivityDepth + 1 < prelude.emitter.depth := by
                rw [hdepth, hrest, List.length_append, List.length_cons]
                omega
              have hrecords : state.records ≠ 0 := fun hzero => by
                have hnone := h.records.mp hzero
                omega
              rw [if_neg (by omega), if_neg (by omega)]
              exact .inl ⟨rfl, h.left hopened h.terminal hrecords h.spans
                (.deep inner call' slots' base hrest hbase hactive hoverflow hentered hsuppressed)⟩

/-! ## Runs -/

theorem Tracks.step {prelude : Prelude} {nest : Nest} (h : Tracks prelude nest state)
    (hnonce : isProbeNonce nonce = true) (hroom : nest.entered < maxActivitySequence)
    {first : ActivityStep} (hbounded : first.Bounded) {prints : List Bytes} {later : Prelude}
    (hstep : prelude.step nonce first = some (prints, later)) :
    Follows nonce prints later (nest.after first) state := by
  cases first with
  | enter slots => exact h.enter hnonce hroom hbounded hstep
  | leave => exact h.leave hnonce hroom hstep

theorem Nest.entered_after_le (nest : Nest) (first : ActivityStep) :
    (nest.after first).entered ≤ nest.entered + 1 := by
  cases first with
  | enter slots => exact Nat.le_refl _
  | leave => exact Nat.le_succ _

/-- The transcript of a run is read to the state that the count says. -/
theorem Tracks.run (hnonce : isProbeNonce nonce = true) {steps : List ActivityStep}
    {prelude later : Prelude} {nest : Nest} (h : Tracks prelude nest state)
    (hroom : nest.entered + steps.length ≤ maxActivitySequence)
    (hbounded : ∀ step ∈ steps, step.Bounded) {prints : List Bytes}
    (hrun : prelude.run nonce steps = some (prints, later)) {transcript : Bytes}
    (hlog : Interleaved (QuietActivity nonce) prints transcript) (lineno : ℕ) :
    ∃ next, ((lineRanges transcript).zipIdx lineno).foldlM
        (accountLine false (asciiBytes (markerPrefix activityPrefix nonce))) state = .ok next ∧
      Tracks later (steps.foldl Nest.after nest) next := by
  induction steps generalizing prelude nest state prints transcript lineno with
  | nil =>
      cases hrun
      cases hlog with
      | last hquiet =>
          refine ⟨state, foldlM_quiet ?_ lineno, h⟩
          intro line hmem lineno
          exact accountLine_quiet hnonce hquiet (.inl hmem) lineno
  | cons first steps ih =>
      rw [List.length_cons] at hroom
      rw [Prelude.run] at hrun
      obtain ⟨⟨printed, middle⟩, hfirst, hrun⟩ := Option.bind_eq_some_iff.mp hrun
      obtain ⟨⟨more, last⟩, hrest, hsome⟩ := Option.bind_eq_some_iff.mp hrun
      obtain ⟨rfl, rfl⟩ := Prod.mk.inj (Option.some.inj hsome)
      have hnext : (nest.after first).entered + steps.length ≤ maxActivitySequence := by
        have hone := nest.entered_after_le first
        omega
      have hothers : ∀ step ∈ steps, step.Bounded := fun step hmem => hbounded step (.tail _ hmem)
      rcases h.step hnonce (by omega) (hbounded first (.head _)) hfirst with
        ⟨rfl, htracks⟩ | ⟨line, rfl, hline, hread⟩
      · exact ih htracks hnext hothers hrest hlog lineno
      · cases hlog with
        | @print noise _ transcript _ hquiet hlog =>
            -- the output before the record is passed by, then the record is read
            obtain ⟨next, hnextState, htracks⟩ := hread (lineno + (lineRanges (noise ++ [10])).length)
            obtain ⟨final, hfinal, hfinalTracks⟩ := ih htracks hnext hothers hrest hlog
              (lineno + (lineRanges (noise ++ [10])).length + 1)
            have hnoise : ((lineRanges (noise ++ [10])).zipIdx lineno).foldlM (accountLine false
                (asciiBytes (markerPrefix activityPrefix nonce))) state = .ok state := by
              apply foldlM_quiet
              intro line hmem lineno
              exact accountLine_quiet hnonce hquiet (.inr hmem) lineno
            refine ⟨final, ?_, hfinalTracks⟩
            rw [lineRanges_print noise hline, List.zipIdx_append, List.foldlM_append, hnoise,
              List.zipIdx_cons]
            show (do
              let state ← accountLine false _ state _
              List.foldlM _ state _) = _
            rw [hnextState]
            exact hfinal

end

end Hearth.Diagnostics
