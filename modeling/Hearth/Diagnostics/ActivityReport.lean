import Hearth.Diagnostics.ActivityRuns

/-!
# What is reported of the open calls

Of a properly nested run, the report has every open call while none is too deep.  It says
so when a call is too deep, and then counts the calls up to that one.  It says that the
numbers are used up only where a record says it.
-/

namespace Hearth.Diagnostics

open Hearth.Library
open Hearth.Library.Json (renderInt)
open Hearth.Replay (isProbeNonce)

/-- The contract of a run whose prelude has this nonce. -/
def contractFor (nonce : String) : DiagnosticContract where
  nonce := some nonce
  proofDiagnostics := some { nonce := some nonce, activityProtocol := some activityProtocol }

/-- A record of this operation. -/
def IsRecordOf (nonce : String) (name : List Char) (line : Bytes) : Prop :=
  asciiBytes (markerPrefix activityPrefix nonce) <+: line ∧ ∃ text,
    charsOfBytes ((line.drop (asciiBytes (markerPrefix activityPrefix nonce)).length).rdropWhile
      isLineEnd) = some text ∧ (text.splitOn ':')[1]? = some name

section

variable {nonce : String} {legacy : Bool} {state next : ActivityState} {status : ActivityStatus}

/-! ## Exhaustion -/

theorem ActivityOp.ofText_exhausted {text : List Char}
    (h : ActivityOp.ofText text = some .exhausted) : text = "EXHAUSTED".toList := by
  unfold ActivityOp.ofText at h
  split at h
  · cases h
  split at h
  · assumption
  split at h
  · cases h
  split at h
  · cases h
  split at h
  · cases h
  split at h
  · cases h
  · cases h

theorem accountOperation_terminal {lineno : ℕ} {parts : List (List Char)} {call : ℤ}
    {operation : ActivityOp} (h : accountOperation legacy lineno parts call state operation = some next)
    (hterminal : next.terminal = some .sequenceExhausted) (hstate : state.terminal = none) :
    operation = .exhausted := by
  cases operation with
  | exhausted => rfl
  | truncated =>
      obtain ⟨_, -, hnext⟩ := Option.bind_eq_some_iff.mp h
      cases hnext
      cases hterminal
  | overflow =>
      obtain ⟨_, -, hnext⟩ := Option.bind_eq_some_iff.mp h
      cases hnext
      rw [hstate] at hterminal
      cases hterminal
  | resume =>
      obtain ⟨_, -, h⟩ := Option.bind_eq_some_iff.mp h
      obtain ⟨_, -, h⟩ := Option.bind_eq_some_iff.mp h
      obtain ⟨_, -, h⟩ := Option.bind_eq_some_iff.mp h
      obtain ⟨_, -, hnext⟩ := Option.bind_eq_some_iff.mp h
      cases hnext
      rw [hstate] at hterminal
      cases hterminal
  | enter =>
      obtain ⟨_, -, h⟩ := Option.bind_eq_some_iff.mp h
      obtain ⟨_, -, h⟩ := Option.bind_eq_some_iff.mp h
      obtain ⟨_, -, hnext⟩ := Option.bind_eq_some_iff.mp h
      cases hnext
      rw [hstate] at hterminal
      cases hterminal
  | leave =>
      obtain ⟨_, -, h⟩ := Option.bind_eq_some_iff.mp h
      obtain ⟨_, -, hnext⟩ := Option.bind_eq_some_iff.mp h
      cases hnext
      rw [hstate] at hterminal
      cases hterminal

/-- Only a record can say that the numbers are used up. -/
theorem accountLine_terminal {line : Bytes} {lineno : ℕ}
    (h : accountLine legacy (asciiBytes (markerPrefix activityPrefix nonce)) state (line, lineno) =
      .ok next) (hterminal : next.terminal = some .sequenceExhausted) :
    state.terminal = some .sequenceExhausted ∨ IsRecordOf nonce "EXHAUSTED".toList line := by
  unfold accountLine at h
  dsimp only at h
  split at h
  · split at h
    · cases h
    · cases h
      exact .inl hterminal
  rename_i hprefix
  split at h
  · cases h
  split at h
  · cases h
  split at h
  · cases h
  rename_i later hrecord
  cases h
  unfold accountRecord at hrecord
  obtain ⟨_, -, hrecord⟩ := Option.bind_eq_some_iff.mp hrecord
  obtain ⟨_, hnone, hrecord⟩ := Option.bind_eq_some_iff.mp hrecord
  obtain ⟨text, htext, hrecord⟩ := Option.bind_eq_some_iff.mp hrecord
  obtain ⟨_, -, hrecord⟩ := Option.bind_eq_some_iff.mp hrecord
  obtain ⟨_, -, hrecord⟩ := Option.bind_eq_some_iff.mp hrecord
  obtain ⟨name, hname, hrecord⟩ := Option.bind_eq_some_iff.mp hrecord
  obtain ⟨_, -, hrecord⟩ := Option.bind_eq_some_iff.mp hrecord
  obtain ⟨operation, hoperation, hrecord⟩ := Option.bind_eq_some_iff.mp hrecord
  have hstate : state.terminal = none := by
    by_contra hsome
    rw [guard, if_neg hsome] at hnone
    cases hnone
  have hexhausted := accountOperation_terminal hrecord hterminal hstate
  rw [hexhausted] at hoperation
  rw [ActivityOp.ofText_exhausted hoperation] at hname
  exact .inr ⟨not_not.mp hprefix, text, htext, hname⟩

theorem foldlM_terminal {lines : List (Bytes × ℕ)}
    (h : lines.foldlM (accountLine legacy (asciiBytes (markerPrefix activityPrefix nonce))) state =
      .ok next) (hterminal : next.terminal = some .sequenceExhausted) :
    state.terminal = some .sequenceExhausted ∨
      ∃ line ∈ lines, IsRecordOf nonce "EXHAUSTED".toList line.1 := by
  induction lines generalizing state with
  | nil =>
      cases h
      exact .inl hterminal
  | cons line lines ih =>
      rw [List.foldlM_cons] at h
      cases hline : accountLine legacy (asciiBytes (markerPrefix activityPrefix nonce)) state line with
      | error status =>
          rw [hline] at h
          cases h
      | ok middle =>
          rw [hline] at h
          rcases ih h with hmiddle | ⟨other, hmem, hrecord⟩
          · exact (accountLine_terminal hline hmiddle).imp_right fun hrecord =>
              ⟨line, .head _, hrecord⟩
          · exact .inr ⟨other, .tail _ hmem, hrecord⟩

theorem accountLine_error {marker line : Bytes} {lineno : ℕ}
    (h : accountLine legacy marker state (line, lineno) = .error status) :
    status = .incomplete ∨ status = .malformed := by
  unfold accountLine at h
  dsimp only at h
  split at h
  · split at h
    · cases h
      exact .inl rfl
    · cases h
  split at h
  · cases h
    exact .inr rfl
  split at h
  · cases h
    exact .inl rfl
  split at h
  · cases h
    exact .inr rfl
  · cases h

theorem foldlM_error {marker : Bytes} {lines : List (Bytes × ℕ)}
    (h : lines.foldlM (accountLine legacy marker) state = .error status) :
    status = .incomplete ∨ status = .malformed := by
  induction lines generalizing state with
  | nil => cases h
  | cons line lines ih =>
      rw [List.foldlM_cons] at h
      cases hline : accountLine legacy marker state line with
      | ok middle =>
          rw [hline] at h
          exact ih h
      | error other =>
          rw [hline] at h
          cases h
          exact accountLine_error hline

/-- The account of a transcript whose contract is in order. -/
theorem accountProofActivity_eq (hnonce : isProbeNonce nonce = true) (transcript : Bytes) :
    accountProofActivity transcript (contractFor nonce) =
      match ((lineRanges transcript).zipIdx 1).foldlM (accountLine false
        (asciiBytes (markerPrefix activityPrefix nonce))) ActivityState.start with
      | .error status => { schema := activityProtocol, status := status }
      | .ok state => activityReport activityProtocol false state := by
  have hprotocol : ¬ (activityProtocol ≠ legacyActivityProtocol ∧ activityProtocol ≠ activityProtocol) :=
    fun h => h.2 rfl
  have hlegacy : decide (activityProtocol = legacyActivityProtocol) = false := by decide
  have hvalid : ¬ (¬ isProbeNonce nonce = true ∨ some nonce ≠ some nonce) := by
    rintro (h | h)
    · exact h hnonce
    · exact h rfl
  unfold accountProofActivity contractFor
  dsimp only [Option.bind_some, Option.getD_some]
  simp only [hlegacy]
  exact (if_neg hprotocol).trans (if_neg hvalid)

theorem exhausted_of_status (hnonce : isProbeNonce nonce = true) {transcript : Bytes}
    (h : (accountProofActivity transcript (contractFor nonce)).status = .sequenceExhausted) :
    ∃ line ∈ lineRanges transcript, IsRecordOf nonce "EXHAUSTED".toList line := by
  rw [accountProofActivity_eq hnonce] at h
  split at h
  · rename_i status hfold
    rcases foldlM_error hfold with rfl | rfl
    · cases h
    · cases h
  · rename_i state hfold
    have hterminal : state.terminal = some .sequenceExhausted := by
      unfold activityReport at h
      cases hterminal : state.terminal with
      | some terminal =>
          rw [hterminal] at h
          exact congrArg some h
      | none =>
          rw [hterminal] at h
          dsimp only at h
          split at h
          · cases h
          · dsimp only at h
            split at h
            · cases h
            · cases h
    rcases foldlM_terminal hfold hterminal with hstart | ⟨line, hmem, hrecord⟩
    · cases hstart
    · exact ⟨line.1, List.fst_mem_of_mem_zipIdx hmem, hrecord⟩

/-! ## The report -/

theorem activityReport_shallow (hterminal : state.terminal = none) (hoverflow : state.overflow = none) :
    activityReport activityProtocol false state =
      { schema := activityProtocol, status := if state.records ≠ 0 then .recorded else .none
        activeCalls := state.active, enteredCallCount := some state.entered
        bounds := some { overflowSpanCount := state.overflowSpans
                         suppressedCallCount := state.suppressedCalls
                         suppressedCallCountComplete := true } } := by
  unfold activityReport
  rw [hterminal, hoverflow]
  rfl

theorem activityReport_deep {call : ℤ} (hterminal : state.terminal = none)
    (hoverflow : state.overflow = some call) :
    activityReport activityProtocol false state =
      { schema := activityProtocol, status := .depthOverflow, enteredCallCount := some state.entered
        enteredCallCountComplete := some false
        bounds := some { overflowSpanCount := state.overflowSpans
                         suppressedCallCount := state.suppressedCalls
                         suppressedCallCountComplete := false } } := by
  unfold activityReport
  rw [hterminal, hoverflow]
  rfl

/-- How many calls are open says which of the two reports it is. -/
theorem Kept.length_le_iff {nest : Nest} (h : Kept nest state) :
    nest.opened.length ≤ maxActivityDepth ↔ state.overflow = none := by
  cases h with
  | shallow hdepth _ hoverflow => exact ⟨fun _ => hoverflow, fun _ => hdepth⟩
  | deep inner call slots base hopened hbase _ hoverflow =>
      have hlength : maxActivityDepth < nest.opened.length := by
        rw [hopened, List.length_append, List.length_cons]
        omega
      rw [hoverflow]
      exact ⟨fun hle => by omega, nofun⟩

/-- The account of a run is the report of a state that tracks it. -/
theorem account_tracks (hnonce : isProbeNonce nonce = true) {steps : List ActivityStep}
    (hbounded : ∀ step ∈ steps, step.Bounded) (hlength : steps.length < maxActivitySequence)
    {prints : List Bytes} {later : Prelude}
    (hrun : Prelude.start.run nonce steps = some (prints, later)) {transcript : Bytes}
    (hlog : Interleaved (QuietActivity nonce) prints transcript) :
    ∃ state, accountProofActivity transcript (contractFor nonce) =
        activityReport activityProtocol false state ∧ Tracks later (nestOf steps) state := by
  have hroom : Nest.start.entered + steps.length ≤ maxActivitySequence := by
    show 0 + steps.length ≤ _
    omega
  obtain ⟨state, hfold, htracks⟩ := tracks_start.run hnonce hroom hbounded hrun hlog 1
  refine ⟨state, ?_, htracks⟩
  rw [accountProofActivity_eq hnonce, hfold]

/-- A run that is not empty enters a call first. -/
theorem entered_eq_zero {steps : List ActivityStep} {prints : List Bytes} {later : Prelude}
    (hrun : Prelude.start.run nonce steps = some (prints, later)) :
    (nestOf steps).entered = 0 ↔ steps = [] := by
  constructor
  · intro hzero
    cases steps with
    | nil => rfl
    | cons first steps =>
        cases first with
        | leave => cases hrun
        | enter slots =>
            have hgrows : ∀ (steps : List ActivityStep) (nest : Nest),
                nest.entered ≤ (steps.foldl Nest.after nest).entered := by
              intro steps
              induction steps with
              | nil => exact fun _ => Nat.le_refl _
              | cons step steps ih =>
                  intro nest
                  apply Nat.le_trans _ (ih (nest.after step))
                  cases step with
                  | enter slots => exact Nat.le_succ _
                  | leave => exact Nat.le_refl _
            have hone := hgrows steps (Nest.start.after (.enter slots))
            have hfirst : (Nest.start.after (.enter slots)).entered = 1 := rfl
            have hrest : (steps.foldl Nest.after (Nest.start.after (.enter slots))).entered = 0 := hzero
            omega
  · rintro rfl
    rfl

end

/-- **What is reported of a run.**  The transcript of a properly nested run of the prelude,
with other output anywhere, has the status `none` if nothing was run.  Otherwise, while no
call is too deep, every open call is reported, the innermost last, and all counts are
right.  While a call is too deep the report says so; it counts the calls up to that one,
and leaves it and those after it out of the suppressed ones. -/
theorem proof_activity_exact {nonce : String} (hnonce : isProbeNonce nonce = true)
    {steps : List ActivityStep} (hbounded : ∀ step ∈ steps, step.Bounded)
    (hlength : steps.length < maxActivitySequence) {prints : List Bytes} {later : Prelude}
    (hrun : Prelude.start.run nonce steps = some (prints, later)) {transcript : Bytes}
    (hlog : Interleaved (QuietActivity nonce) prints transcript) :
    let nest := nestOf steps
    let account := accountProofActivity transcript (contractFor nonce)
    (steps = [] → account.status = .none) ∧
    (steps ≠ [] → nest.opened.length ≤ maxActivityDepth →
      account.status = .recorded ∧
      account.activeCalls.map ActiveCall.content = nest.opened.reverse.map recordedCall ∧
      account.enteredCallCount = some (nest.entered : ℤ) ∧
      account.bounds = some { overflowSpanCount := nest.spans
                              suppressedCallCount := nest.suppressed
                              suppressedCallCountComplete := true }) ∧
    (maxActivityDepth < nest.opened.length →
      account.status = .depthOverflow ∧ account.activeCalls = [] ∧
      account.enteredCallCountComplete = some false ∧
      ∃ call suppressed, nest.opened.reverse[maxActivityDepth]? = some call ∧
        account.enteredCallCount = some (call.1 : ℤ) ∧
        account.bounds = some { overflowSpanCount := nest.spans
                                suppressedCallCount := suppressed
                                suppressedCallCountComplete := false } ∧
        suppressed + (nest.entered - call.1 + 1) = nest.suppressed) ∧
    ∀ other, (accountProofActivity other (contractFor nonce)).status = .sequenceExhausted →
      ∃ line ∈ lineRanges other, IsRecordOf nonce "EXHAUSTED".toList line := by
  intro nest account
  obtain ⟨state, haccount, htracks⟩ := account_tracks hnonce hbounded hlength hrun hlog
  have hreport : account = activityReport activityProtocol false state := haccount
  have hrecords : state.records = 0 ↔ steps = [] :=
    htracks.records.trans (entered_eq_zero hrun)
  rw [hreport]
  refine ⟨?_, ?_, ?_, fun other => exhausted_of_status hnonce⟩
  · rintro rfl
    have hshallow := htracks.kept.length_le_iff.mp (Nat.zero_le _)
    rw [activityReport_shallow htracks.terminal hshallow, if_neg (not_not_intro (hrecords.mpr rfl))]
  · intro hsteps hdepth
    have hshallow := htracks.kept.length_le_iff.mp hdepth
    rw [activityReport_shallow htracks.terminal hshallow, if_pos (hsteps ∘ hrecords.mp)]
    cases htracks.kept with
    | shallow _ hactive _ hentered hsuppressed =>
        refine ⟨rfl, hactive, congrArg some hentered, ?_⟩
        rw [htracks.spans, hsuppressed]
    | deep inner call slots base _ _ _ hoverflow =>
        rw [hshallow] at hoverflow
        cases hoverflow
  · intro hdepth
    cases htracks.kept with
    | shallow hshallow => exact absurd hshallow (Nat.not_le.mpr hdepth)
    | deep inner call slots base hopened hbase _ hoverflow hentered hsuppressed =>
        have hcall : nest.opened.reverse[maxActivityDepth]? = some (call, slots) := by
          have hreverse : nest.opened.reverse = base.reverse ++ (call, slots) :: inner.reverse := by
            show (nestOf steps).opened.reverse = _
            rw [hopened]
            simp
          rw [hreverse, ← hbase, ← List.length_reverse, List.getElem?_append_right (Nat.le_refl _),
            Nat.sub_self]
          rfl
        rw [activityReport_deep htracks.terminal hoverflow]
        refine ⟨rfl, rfl, rfl, (call, slots), state.suppressedCalls, hcall,
          congrArg some hentered, ?_, hsuppressed⟩
        rw [htracks.spans]

/-! ## Sample runs -/

/-- A nonce. -/
def sampleNonce : String := "0123456789abcdef0123456789abcdef"

/-- A call from line 3 of `a.ml`, and a call in it that returns. -/
def sampleSteps : List ActivityStep :=
  [.enter [{ location := some { filename := utf8 "a.ml", lineNumber := 3, representable := representable_three }
             name := none }],
   .enter [], .leave]

theorem exists_run {steps : List ActivityStep}
    (h : (Prelude.start.run sampleNonce steps).isSome = true) : ∃ prints later,
      Prelude.start.run sampleNonce steps = some (prints, later) ∧
        Interleaved (QuietActivity sampleNonce) prints prints.flatten := by
  obtain ⟨⟨prints, later⟩, hrun⟩ := Option.isSome_iff_exists.mp h
  exact ⟨prints, later, hrun, .flatten nofun prints⟩

theorem proof_activity_exact_sample : ∃ transcript,
    let account := accountProofActivity transcript (contractFor sampleNonce)
    account.status = .recorded ∧
      account.activeCalls.map ActiveCall.content = (nestOf sampleSteps).opened.reverse.map recordedCall ∧
      account.enteredCallCount = some 2 := by
  obtain ⟨prints, later, hrun, hlog⟩ := @exists_run sampleSteps (by decide +kernel)
  have hbounded : ∀ step ∈ sampleSteps, step.Bounded := by
    intro step hmem
    simp only [sampleSteps, List.mem_cons, List.not_mem_nil, or_false] at hmem
    rcases hmem with rfl | rfl | rfl
    · exact ⟨by decide, by simp [located]⟩
    · exact ⟨by decide, by simp [located]⟩
    · trivial
  obtain ⟨hstatus, hactive, hentered, -⟩ := (proof_activity_exact (by decide +kernel) hbounded
    (by decide +kernel) hrun hlog).2.1 nofun (by decide)
  exact ⟨prints.flatten, hstatus, hactive, hentered⟩

/-- Nothing is recorded of an empty run, and of 66 nested calls only that they are too
deep, with the number of the first one that is. -/
theorem proof_activity_unrecorded :
    (accountProofActivity [] (contractFor sampleNonce)).status = .none ∧
    ∃ steps prints later,
      Prelude.start.run sampleNonce steps = some (prints, later) ∧
      Interleaved (QuietActivity sampleNonce) prints prints.flatten ∧
      (∀ step ∈ steps, step.Bounded) ∧ (nestOf steps).entered = 66 ∧
      (accountProofActivity prints.flatten (contractFor sampleNonce)).status = .depthOverflow ∧
      (accountProofActivity prints.flatten (contractFor sampleNonce)).activeCalls = [] ∧
      (accountProofActivity prints.flatten (contractFor sampleNonce)).enteredCallCount = some 65 := by
  refine ⟨by decide +kernel, ?_⟩
  obtain ⟨prints, later, hrun, hlog⟩ := @exists_run (List.replicate 66 (.enter [])) (by decide +kernel)
  have hbounded : ∀ step ∈ List.replicate 66 (.enter [] : ActivityStep), step.Bounded := by
    intro step hmem
    rw [List.eq_of_mem_replicate hmem]
    exact ⟨by decide, by simp [located]⟩
  obtain ⟨state, haccount, htracks⟩ := account_tracks (by decide +kernel) hbounded (by decide +kernel)
    hrun hlog
  refine ⟨_, prints, later, hrun, hlog, hbounded, by decide, ?_⟩
  rw [haccount]
  cases htracks.kept with
  | shallow hshallow =>
      have hlength : (nestOf (List.replicate 66 (.enter []))).opened.length = 66 := by decide
      rw [hlength] at hshallow
      exact absurd hshallow (by decide)
  | deep inner call slots base hopened hbase _ hoverflow hentered =>
      -- one call is inside the one that goes too deep, so that one is the 65th
      have hlength := congrArg List.length hopened
      have hall : (nestOf (List.replicate 66 (.enter []))).opened.length = 66 := by decide
      have hinner : inner.length = 1 := by
        rw [hall, List.length_append, List.length_cons, hbase] at hlength
        show inner.length = 1
        unfold maxActivityDepth at hlength
        omega
      have hsecond : (nestOf (List.replicate 66 (.enter []))).opened[1]?.map Prod.fst = some 65 := by
        decide
      rw [hopened, List.getElem?_append_right (by omega), hinner] at hsecond
      have hcall : call = 65 := Option.some.inj hsecond
      rw [activityReport_deep htracks.terminal hoverflow, hentered, hcall]
      exact ⟨rfl, rfl, rfl⟩

end Hearth.Diagnostics
