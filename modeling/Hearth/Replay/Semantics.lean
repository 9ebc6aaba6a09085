import Hearth.Replay.FoundationDelta

/-!
# Transcript analysis

`cli/orbstack_criu_vanilla_semantics.py`: the instrumented payload, and the analysis
of one raw transcript together with the transport label and the worker's response.
The response is JSON from another process, so its exit status is any JSON value and
is compared with Python's rules: `False`, `0` and `0.0` equal zero, `True` does not.
-/

namespace Hearth.Replay

open Hearth.Library

/-- A JSON value of the worker's response; a double is its IEEE 754 bits. -/
inductive WorkerValue
  | null | bool (value : Bool) | int (value : ℤ) | float (bits : BitVec 64) | text (value : String)
  | other
  deriving DecidableEq, Repr

/-- `value == 0`. -/
def WorkerValue.equalsZero : WorkerValue → Bool
  | .bool value => !value
  | .int value => value = 0
  | .float bits => bits = 0 || bits = 0x8000000000000000
  | .null | .text _ | .other => false

/-- `isinstance(value, int) and value != 0`. -/
def WorkerValue.isNonzeroInt : WorkerValue → Bool
  | .bool value => value
  | .int value => value ≠ 0
  | _ => false

/-- `type(value) is int and value == 0`. -/
def WorkerValue.isCleanExit : WorkerValue → Bool
  | .int value => value = 0
  | _ => false

/-- The text of an exit status in an advisory reason. -/
def WorkerValue.exitText : WorkerValue → String
  | .bool value => if value then "True" else "False"
  | .int value => toString value
  | _ => "unavailable"

/-- The fields of the worker's response that are recorded. -/
structure Response where
  exitStatus : WorkerValue
  requestedTimeoutSeconds : WorkerValue
  evalElapsedSeconds : WorkerValue
  deriving DecidableEq, Repr

/-! ## The payload -/

/-- `instrumented_source_bytes`; `prelude` is the diagnostic prelude for a nonce. -/
def instrumentedSourceBytes (sha256 : Bytes → String) (prelude : String → Bytes)
    (sourceBytes : Bytes) (claims : List Claim) (nonce : Option String) (token : String)
    (prefixBytes : Bytes) (includeFoundationDelta : Bool) : Except ProbeError (Bytes × Contract) :=
  if includeFoundationDelta then do
    let nonce := (nonce.filter (· ≠ "")).getD token
    let (payload, contract) ← buildClaimProbe sha256 sourceBytes claims (some nonce) token
      (prefixBytes ++ [10] ++ prelude nonce)
    let markerPrefix ← foundationProbeContract contract.nonce
    return (payload, { contract with foundationDelta := some markerPrefix })
  else buildClaimProbe sha256 sourceBytes claims nonce token prefixBytes

/-! ## The analysis -/

/-- `source_status`. -/
inductive SourceStatus
  | succeeded | claimsIncomplete | failed | notCompleted | notStarted
  deriving DecidableEq, Repr

/-- Which binding was running when the source failed. -/
structure Attribution where
  identified : Bool
  name : Option String
  source : Option String
  sourceLine : Option ℤ
  deriving DecidableEq, Repr

/-- One binding of the receipt. -/
structure BindingRow where
  name : Option String
  status : ClaimStatus
  evidence : ClaimEvidence
  verificationKind : VerificationKind
  observedTranscriptLine : Option ℕ
  unverifiedBindingLikeTranscriptLines : List ℕ
  deriving DecidableEq, Repr

/-- `recommendation`. -/
inductive Recommendation
  | block | noFoundationObjection | manualReview
  deriving DecidableEq, Repr

/-- `promotion_advisory`. -/
structure Advisory where
  recommendation : Recommendation
  reasons : List String
  deriving DecidableEq, Repr

/-- The result of the analysis. -/
structure Semantic where
  sourceStatus : SourceStatus
  sourceCompleted : Bool
  claimsComplete : Bool
  semanticExitStatus : ℤ
  effectiveExitStatus : WorkerValue
  transportStatus : String
  processExitStatus : WorkerValue
  completionMarkerObserved : Bool
  completionMarkerValid : Bool
  completionMarkerCount : ℕ
  includedFileErrorObserved : Bool
  firstFailure : Option (ℕ × String)
  observedBindings : List (Option String)
  bindings : List BindingRow
  failingBinding : Option Attribution
  claimAccounting : List ClaimDoc
  foundationDelta : Option FoundationDelta
  promotionAdvisory : Option Advisory
  deriving DecidableEq, Repr

/-- The attribution of a failure to a binding, from the recorded proof diagnostics. -/
abbrev FailureAttribution := Bytes → Contract → List Claim → Option ℕ → Option Attribution

/-- `included_file_error_observed`. -/
def includedFileErrorObserved (transcript : Bytes) : Bool :=
  (splitLines transcript).any fun line => utf8 "Error in included file" <:+: line

/-- One row of `bindings`. -/
def bindingRow (doc : ClaimDoc) : BindingRow where
  name := doc.theorem_
  status := doc.status
  evidence := doc.evidence
  verificationKind := doc.verificationKind
  observedTranscriptLine := doc.observedTranscriptLine
  unverifiedBindingLikeTranscriptLines := doc.naturalOutputDiagnosticLines

/-- `source_status` of a run. -/
def sourceStatus (semanticSuccess sourceCompleted : Bool) (transport : String) : SourceStatus :=
  if semanticSuccess then .succeeded
  else if sourceCompleted then .claimsIncomplete
  else if transport = "completed" then .failed
  else .notCompleted

/-- `effective_exit_status` of a run. -/
def effectiveExitStatus (transport : String) (processExitStatus : WorkerValue)
    (semanticExitStatus : ℤ) : WorkerValue :=
  if transport = "interrupted" then .int 130
  else if processExitStatus.isNonzeroInt then processExitStatus
  else .int semanticExitStatus

/-- `recommendation` of a run. -/
def recommendation (delta : FoundationDelta) (semanticSuccess cleanProcessExit : Bool) :
    Recommendation :=
  if delta.status = .observed ∧ 0 < delta.newAxiomCount.getD 0 then .block
  else if delta.status = .observed ∧ semanticSuccess ∧ cleanProcessExit then .noFoundationObjection
  else .manualReview

/-- `promotion_advisory` of a run. -/
def promotionAdvisory (delta : FoundationDelta) (semanticSuccess : Bool)
    (processExitStatus : WorkerValue) : Advisory where
  recommendation := recommendation delta semanticSuccess processExitStatus.isCleanExit
  reasons := (delta.advisoryReasons ++
    (if semanticSuccess then [] else ["recorded replay did not complete successfully"]) ++
    (if processExitStatus.isCleanExit then []
      else ["worker process exit status is " ++ processExitStatus.exitText ++ ", not zero"])).eraseDups

/-- `analyze_vanilla_transcript`. -/
def analyzeVanillaTranscript (diagnostics : Diagnostics) (identifyFailedBinding : FailureAttribution)
    (claims : List Claim) (transcript : Bytes) (contract : Contract) (transport : String)
    (response : Option Response) : Except ProbeError Semantic := do
  let (docs, accounting) ← accountClaims diagnostics claims transcript contract
  let foundationEnabled := contract.foundationDelta.isSome
  let failureLike := diagnostics.firstError transcript
  let includedFileError := includedFileErrorObserved transcript
  let sourceCompleted :=
    transport = "completed" && accounting.completionMarkerValid && !includedFileError
  let claimsComplete := docs.all fun doc => doc.status = .proved
  let semanticSuccess := sourceCompleted && claimsComplete
  let processExitStatus := response.elim .null Response.exitStatus
  let semanticExitStatus : ℤ := if semanticSuccess then 0 else 1
  let failingBinding :=
    if sourceCompleted then none
    else
      let unknown : Attribution := ⟨false, none, none, none⟩
      if foundationEnabled then
        some ((identifyFailedBinding transcript contract claims (failureLike.map Prod.fst)).getD unknown)
      else some unknown
  let delta := accountFoundationDelta transcript contract
  return {
    sourceStatus := sourceStatus semanticSuccess sourceCompleted transport
    sourceCompleted := sourceCompleted
    claimsComplete := claimsComplete
    semanticExitStatus := semanticExitStatus
    effectiveExitStatus := effectiveExitStatus transport processExitStatus semanticExitStatus
    transportStatus := transport
    processExitStatus := processExitStatus
    completionMarkerObserved := accounting.completionMarkerObserved
    completionMarkerValid := accounting.completionMarkerValid && !includedFileError
    completionMarkerCount := accounting.completionMarkerCount
    includedFileErrorObserved := includedFileError
    firstFailure := if sourceCompleted then none else failureLike
    observedBindings := (docs.filter fun doc => doc.status = .proved).map ClaimDoc.theorem_
    bindings := docs.map bindingRow
    failingBinding := failingBinding
    claimAccounting := docs
    foundationDelta := if foundationEnabled then some delta else none
    promotionAdvisory := if foundationEnabled
      then some (promotionAdvisory delta semanticSuccess processExitStatus) else none }

end Hearth.Replay
