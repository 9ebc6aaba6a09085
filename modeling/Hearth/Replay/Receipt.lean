import Hearth.Replay.Semantics

/-!
# The receipt and its summary

`write_vanilla_artifacts` spreads the analysis over the fields of the receipt, and
`receipt_summary.py` recomputes a verdict from those fields, with the branches that
older receipts need.  A field that a receipt may lack is an `Option`; the display
text of the verdict is not modelled, its reason is data.
-/

namespace Hearth.Replay

/-- `source_pin`. -/
structure SourcePin where
  pinnedSha256 : Option String
  readSha256 : Option String
  deriving DecidableEq, Repr

/-- The fields of the dependency package that the receipt repeats. -/
structure Package where
  sourcePreflightStatus : Option String
  sourcePin : Option SourcePin
  dependencyTransportReason : Option String
  deriving DecidableEq, Repr

/-- The receipt fields that the summary reads. -/
structure Receipt where
  evidence : String
  transportStatus : Option String
  transport : Option String
  sourcePreflightStatus : Option String
  sourcePin : Option SourcePin
  dependencyTransportReason : Option String
  semanticSourceStatus : Option SourceStatus
  sourceCompleted : Option Bool
  completionMarkerValid : Option Bool
  claimsComplete : Option Bool
  semanticExitStatus : Option ℤ
  exitStatus : Option WorkerValue
  workerExitStatus : Option WorkerValue
  processExitStatus : Option WorkerValue
  requestedTimeoutSeconds : WorkerValue
  evalElapsedSeconds : WorkerValue
  firstFailure : Option String
  failingBinding : Option Attribution
  bindings : List BindingRow
  claimAccounting : List ClaimDoc
  foundationDelta : Option FoundationDelta
  promotionAdvisory : Option Advisory
  deriving DecidableEq, Repr

/-- `write_vanilla_artifacts`: the receipt of one attempt. -/
def writeVanillaArtifacts (evidenceRole transport : String) (response : Option Response)
    (package : Option Package) (semantic : Option Semantic) : Receipt where
  evidence := evidenceRole
  transportStatus := some transport
  transport := some transport
  sourcePreflightStatus := package.bind Package.sourcePreflightStatus
  sourcePin := package.bind Package.sourcePin
  dependencyTransportReason := package.bind Package.dependencyTransportReason
  semanticSourceStatus := semantic.map Semantic.sourceStatus
  sourceCompleted := semantic.map Semantic.sourceCompleted
  completionMarkerValid := semantic.map Semantic.completionMarkerValid
  claimsComplete := semantic.map Semantic.claimsComplete
  semanticExitStatus := semantic.map Semantic.semanticExitStatus
  exitStatus := some (semantic.elim .null Semantic.effectiveExitStatus)
  workerExitStatus := some (response.elim .null Response.exitStatus)
  processExitStatus := some (response.elim .null Response.exitStatus)
  requestedTimeoutSeconds := response.elim .null Response.requestedTimeoutSeconds
  evalElapsedSeconds := response.elim .null Response.evalElapsedSeconds
  firstFailure := semantic.bind fun result => result.firstFailure.map Prod.snd
  failingBinding := semantic.bind Semantic.failingBinding
  bindings := semantic.elim [] Semantic.bindings
  claimAccounting := semantic.elim [] Semantic.claimAccounting
  foundationDelta := semantic.bind Semantic.foundationDelta
  promotionAdvisory := semantic.bind Semantic.promotionAdvisory

/-! ## The verdict -/

/-- The verdict of a receipt. -/
inductive Verdict
  | passed | failed | incomplete | refused
  deriving DecidableEq, Repr

/-- Why a receipt did not pass. -/
inductive Reason
  | sourceChanged (pinned read : Option String)
  | refused (reason : String)
  | interrupted (transport : String) (requested elapsed : WorkerValue)
  | workerExited (status : ℤ)
  | notEveryBindingProbed
  | checksDidNotPass
  | firstFailure (text : String)
  | notStarted
  | notCompleted
  deriving DecidableEq, Repr

/-- The roles of evidence that a refusal before evaluation records. -/
def preEvalDependencyTransportRefusal : String := "pre_eval_dependency_transport_refusal"

/-- The nonempty text of an optional field. -/
def presentText (value : Option String) : Option String :=
  value.filter (· ≠ "")

/-- `_passed`.  A receipt without any exit record is a legacy one. -/
def passed (receipt : Receipt) : Bool :=
  let semantic := receipt.semanticSourceStatus = some .succeeded &&
    receipt.sourceCompleted.getD false && receipt.completionMarkerValid.getD false &&
    receipt.claimsComplete.getD false && receipt.semanticExitStatus = some 0
  let recorded := [receipt.exitStatus, receipt.workerExitStatus, receipt.processExitStatus].filterMap id
  if recorded = [] then semantic
  else semantic && recorded.length = 3 && recorded.all WorkerValue.equalsZero

/-- The first recorded exit status that is a nonzero integer. -/
def nonzeroExit (receipt : Receipt) : Option ℤ :=
  [receipt.exitStatus, receipt.workerExitStatus, receipt.processExitStatus].findSome? fun status =>
    match status with
    | some (.int value) => if value ≠ 0 then some value else none
    | _ => none

/-- `_verdict`. -/
def verdict (receipt : Receipt) : Verdict × Option Reason :=
  let transport := (presentText receipt.transportStatus).getD (receipt.transport.getD "")
  let preflight := presentText receipt.sourcePreflightStatus
  if receipt.evidence = preEvalDependencyTransportRefusal ∨
      (receipt.semanticSourceStatus = some .notStarted ∧ preflight.isSome) then
    if preflight = some "source_changed_during_capture" ∨ preflight = some "source_pin_refused" then
      (.refused, some (.sourceChanged (receipt.sourcePin.bind SourcePin.pinnedSha256)
        (receipt.sourcePin.bind SourcePin.readSha256)))
    else
      (.refused, some (.refused ((presentText receipt.dependencyTransportReason <|>
        presentText receipt.firstFailure).getD "refused before HOL")))
  else if transport ∈ ["timeout", "interrupted", "cancelled"] then
    (.incomplete, some (.interrupted transport receipt.requestedTimeoutSeconds
      receipt.evalElapsedSeconds))
  else if passed receipt then (.passed, none)
  else if receipt.sourceCompleted.getD false ∧ receipt.completionMarkerValid.getD false then
    match nonzeroExit receipt with
    | some status => (.failed, some (.workerExited status))
    | none =>
        if !receipt.claimsComplete.getD false then (.failed, some .notEveryBindingProbed)
        else (.failed, some .checksDidNotPass)
  else match presentText receipt.firstFailure with
    | some text => (.failed, some (.firstFailure text))
    | none =>
        if receipt.semanticSourceStatus = some .notStarted then (.failed, some .notStarted)
        else (.failed, some .notCompleted)

/-! ## The summary -/

/-- The status of one binding in the summary. -/
inductive SummaryStatus
  | proved | printedUnprobed | failed | notReached | missing
  deriving DecidableEq, Repr

/-- One binding of the summary. -/
structure BindingSummary where
  name : String
  status : SummaryStatus
  recordedStatus : ClaimStatus
  line : Option ℕ
  deriving DecidableEq, Repr

/-- The summary of a receipt. -/
structure ReceiptSummary where
  verdict : Verdict
  reason : Option Reason
  bindingsProved : ℕ
  bindingsTotal : ℕ
  bindings : List BindingSummary
  bindingCounts : List (ClaimStatus × ℕ)
  newAxioms : Option ℤ
  failingBinding : Option Attribution
  deriving DecidableEq, Repr

/-- `_failing`: the attribution, if it names a binding. -/
def failing (receipt : Receipt) : Option Attribution :=
  receipt.failingBinding.filter fun attribution =>
    attribution.identified ∧ (presentText attribution.name).isSome

/-- `_source_lines`: the source line of a claim; a later claim of the same name wins. -/
def sourceLine (receipt : Receipt) (name : String) : Option ℕ :=
  receipt.claimAccounting.reverse.findSome? fun doc =>
    if doc.theorem_ = some name then doc.sourceSpan.1 else none

/-- `_bindings` on one row. -/
def summarizeBinding (receipt : Receipt) (failing : Option Attribution) (row : BindingRow) :
    Option BindingSummary :=
  row.name.map fun name =>
    let line := sourceLine receipt name
    let status := match row.status with
      | .proved => .proved
      | .printedUnprobed => .printedUnprobed
      | .failed => .failed
      | .missing =>
          if failing.bind Attribution.name = some name then .failed
          else match failing.bind Attribution.sourceLine, line with
            | some failingLine, some line => if failingLine < line then .notReached else .missing
            | _, _ => .missing
    { name := name, status := status, recordedStatus := row.status, line := line }

/-- `_axioms`. -/
def newAxioms (receipt : Receipt) : Option ℤ :=
  receipt.foundationDelta.bind fun delta =>
    match delta.deltas with
    | some deltas => some deltas.axioms
    | none => delta.newAxiomCount

/-- `summarize`. -/
def summarize (receipt : Receipt) : ReceiptSummary :=
  let failing := failing receipt
  let verdict := verdict receipt
  let failing := if verdict.1 = .failed then failing else none
  let bindings := receipt.bindings.filterMap (summarizeBinding receipt failing)
  let count := fun status => bindings.countP fun row => row.recordedStatus = status
  { verdict := verdict.1
    reason := verdict.2
    bindingsProved := count .proved
    bindingsTotal := bindings.length
    bindings := bindings
    bindingCounts := [.proved, .failed, .printedUnprobed, .missing].map fun status =>
      (status, count status)
    newAxioms := newAxioms receipt
    failingBinding := failing }

end Hearth.Replay
