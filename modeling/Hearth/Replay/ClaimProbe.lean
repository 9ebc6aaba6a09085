import Hearth.Library.Outcome
import Hearth.Replay.Text
import Mathlib.Data.List.Dedup
import Mathlib.Data.String.Basic

/-!
# The claim probe

`vanilla_claims.py`: the probe appends to a source one OCaml line per named claim,
which prints a line of its own when the claim is bound to the expected theorem, and
one completion line.  `accountClaims` reads these lines back from the raw transcript.

SHA-256 is the parameter `sha256`.  What the ordinary toplevel output looks like
(`diagnostic_claim_lines`, `first_error`) only feeds diagnostics, so it is the
parameter `Diagnostics` here: every result holds whatever it reports.
-/

namespace Hearth.Replay

open Hearth.Library

/-- One statically scanned claim. -/
structure Claim where
  name : Option String
  statementQuote : Option String
  statementExtractable : Bool
  statementQuoteSha256 : Option String
  sourceLine : Option ℕ
  statementEndLine : Option ℕ
  deriving DecidableEq, Repr

/-- `verification_kind`. -/
inductive VerificationKind
  | kernelConclusionAndEmptyHypotheses | bindingAndThmTypeOnlyNonliteralStatement
  deriving DecidableEq, Repr

/-- What the probe prints for one claim. -/
structure ProbeRow where
  ordinal : ℕ
  name : String
  okMarker : String
  mismatchMarker : String
  verificationKind : VerificationKind
  statementQuoteSha256 : Option String
  deriving DecidableEq, Repr

/-- The probe contract. -/
structure Contract where
  nonce : String
  sourceSha256 : String
  sourceByteCount : ℕ
  prefixSha256 : Option String
  prefixByteCount : ℕ
  suffixSha256 : String
  suffixByteCount : ℕ
  executedPayloadSha256 : String
  completionMarker : String
  claims : List ProbeRow
  foundationDelta : Option String
  deriving DecidableEq, Repr

/-- `ClaimProbeContractError`, and the decoding error of a source that is not UTF-8. -/
inductive ProbeError
  | sourceNotUtf8
  | notAHolIdentifier (name : String)
  | duplicateNames (names : List String)
  | badNonce
  | noClosedQuotation (name : String)
  | quotationHash (name : String)
  | malformedFoundationPrefix
  | inventoryMismatch
  deriving DecidableEq, Repr

/-! ## Names and nonces -/

/-- `claim.get("name")` is a nonempty text. -/
def Claim.named (claim : Claim) : Bool :=
  claim.name.getD "" ≠ ""

/-- `str(claim["name"])`. -/
def Claim.nameText (claim : Claim) : String :=
  claim.name.getD ""

def isAsciiLetter (c : Char) : Bool :=
  ('A' ≤ c && c ≤ 'Z') || ('a' ≤ c && c ≤ 'z')

def isAsciiDigit (c : Char) : Bool :=
  '0' ≤ c && c ≤ '9'

/-- `HOL_CLAIM_NAME_RE`. -/
def isHolIdentifier (name : String) : Bool :=
  match name.toList with
  | [] => false
  | first :: rest =>
      (isAsciiLetter first || first = '_') &&
        rest.all fun c => isAsciiLetter c || isAsciiDigit c || c = '_' || c = '\''

def isLowerHex (c : Char) : Bool :=
  isAsciiDigit c || ('a' ≤ c && c ≤ 'f')

/-- `PROBE_NONCE_RE`. -/
def isProbeNonce (nonce : String) : Bool :=
  nonce.toList.length = 32 && nonce.toList.all isLowerHex

/-- `_validated_nonce`; `token` is what `secrets.token_hex(16)` returns. -/
def validatedNonce (nonce : Option String) (token : String) : Except ProbeError String :=
  if isProbeNonce (nonce.getD token) then .ok (nonce.getD token) else .error .badNonce

/-- `_validated_claims`: the named claims, if their names are HOL identifiers and
distinct. -/
def validatedClaims (claims : List Claim) : Except ProbeError (List Claim) :=
  let selected := claims.filter Claim.named
  match selected.find? fun claim => !isHolIdentifier claim.nameText with
  | some claim => .error (.notAHolIdentifier claim.nameText)
  | none =>
      let names := selected.map Claim.nameText
      let duplicates := (names.filter fun name => 1 < names.count name).dedup
      if duplicates = [] then .ok selected
      else .error (.duplicateNames (duplicates.mergeSort fun a b => a ≤ b))

/-! ## The probe -/

def probeOkPrefix : String := "__HOL_CLAIM_PROBE_OK__"
def probeMismatchPrefix : String := "__HOL_CLAIM_PROBE_NO__"
def probeDonePrefix : String := "__HOL_CLAIM_PROBE_DONE__"

/-- The line that claim number `ordinal` prints when it is as expected. -/
def okMarker (token : String) (ordinal : ℕ) : String :=
  probeOkPrefix ++ ":" ++ token ++ ":" ++ zeroPadded 8 ordinal

/-- The line that claim number `ordinal` prints when its conclusion differs. -/
def mismatchMarker (token : String) (ordinal : ℕ) : String :=
  probeMismatchPrefix ++ ":" ++ token ++ ":" ++ zeroPadded 8 ordinal

/-- The line that the payload prints last. -/
def completionMarker (token : String) : String :=
  probeDonePrefix ++ ":" ++ token

/-- `_strict_matcher_source`. -/
def strictMatcherSource (nonce : String) : List String :=
  let canonicalize := "hol_workbench_probe_canonicalize_" ++ nonce
  let matcher := "hol_workbench_probe_matches_" ++ nonce
  ["let " ++ canonicalize ++ " tm =",
   "  let tvs = type_vars_in_term tm in",
   "  let rec number_typevars n tys =",
   "    match tys with",
   "      [] -> []",
   "    | ty::rest ->",
   "        (mk_vartype (\"hol_workbench_probe_ty_\" ^ string_of_int n),ty)::",
   "        number_typevars (n + 1) rest in",
   "  inst (number_typevars 0 tvs) tm;;",
   "let " ++ matcher ++ " a b =",
   "  aconv a b ||",
   "  (try aconv (" ++ canonicalize ++ " a) (" ++ canonicalize ++ " b)",
   "   with Failure _ -> false);;"]

def backquote : Char := Char.ofNat 96

/-- One exact closed HOL quotation: two backquotes at least, at the two ends. -/
def isClosedQuotation (quote : String) : Bool :=
  2 ≤ quote.toList.length && quote.toList.head? = some backquote &&
    quote.toList.getLast? = some backquote

/-- The probe line and the contract row of one claim. -/
def probeClaim (sha256 : Bytes → String) (token : String) (claim : Claim) (ordinal : ℕ) :
    Except ProbeError (String × ProbeRow) :=
  let name := claim.nameText
  let ok := ocamlStringLiteral (okMarker token ordinal)
  let mismatch := ocamlStringLiteral (mismatchMarker token ordinal)
  if claim.statementExtractable then
    match claim.statementQuote.filter isClosedQuotation with
    | none => .error (.noClosedQuotation name)
    | some quote =>
        if some (sha256 (utf8 quote)) ≠ claim.statementQuoteSha256 then .error (.quotationHash name)
        else
          let th := "hol_workbench_probe_th_" ++ zeroPadded 8 ordinal ++ "_" ++ token
          let matcher := "hol_workbench_probe_matches_" ++ token
          .ok ("let (" ++ th ++ " : thm) = " ++ name ++ " in if hyp " ++ th ++ " = [] && " ++
              matcher ++ " (concl " ++ th ++ ") " ++ quote ++ " then print_endline " ++ ok ++
              " else print_endline " ++ mismatch ++ ";;",
            ⟨ordinal, name, okMarker token ordinal, mismatchMarker token ordinal,
              .kernelConclusionAndEmptyHypotheses, some (sha256 (utf8 quote))⟩)
  else
    .ok ("let (_ : thm) = " ++ name ++ " in print_endline " ++ ok ++ ";;",
      ⟨ordinal, name, okMarker token ordinal, mismatchMarker token ordinal,
        .bindingAndThmTypeOnlyNonliteralStatement, none⟩)

/-- The loop of `build_claim_probe`, from claim number `ordinal` on. -/
def probeClaims (sha256 : Bytes → String) (token : String) :
    ℕ → List Claim → Except ProbeError (List (String × ProbeRow))
  | _, [] => .ok []
  | ordinal, claim :: rest => do
      let row ← probeClaim sha256 token claim ordinal
      let rows ← probeClaims sha256 token (ordinal + 1) rest
      return row :: rows

/-- `build_claim_probe`: the executed payload and its contract. -/
def buildClaimProbe (sha256 : Bytes → String) (sourceBytes : Bytes) (claims : List Claim)
    (nonce : Option String) (token : String) (prefixBytes : Bytes) :
    Except ProbeError (Bytes × Contract) := do
  if !decodesStrictly sourceBytes then throw .sourceNotUtf8
  let selected ← validatedClaims claims
  let token ← validatedNonce nonce token
  let rows ← probeClaims sha256 token 0 selected
  let lines := strictMatcherSource token ++ rows.map Prod.fst ++
    ["print_endline " ++ ocamlStringLiteral (completionMarker token) ++ ";;"]
  let suffix := utf8 (String.join (lines.map fun line => line ++ "\n"))
  let payload := prefixBytes ++ (if prefixBytes = [] then [] else [10]) ++
    (sourceBytes ++ [10] ++ suffix)
  return (payload,
    { nonce := token
      sourceSha256 := sha256 sourceBytes
      sourceByteCount := sourceBytes.length
      prefixSha256 := if prefixBytes = [] then none else some (sha256 prefixBytes)
      prefixByteCount := prefixBytes.length
      suffixSha256 := sha256 suffix
      suffixByteCount := suffix.length
      executedPayloadSha256 := sha256 payload
      completionMarker := completionMarker token
      claims := rows.map Prod.snd
      foundationDelta := none })

/-! ## Accounting -/

/-- The status of one claim after a run. -/
inductive ClaimStatus
  | proved | failed | printedUnprobed | missing
  deriving DecidableEq, Repr

/-- `evidence` of one claim. -/
inductive ClaimEvidence
  | nonceProbeKernelConclusion | nonceProbeBindingOnly | nonceProbeConclusionMismatch
  | nonceProbeMarkerAmbiguous | unverifiedToplevelOutput | nonceProbeMarkerMissing
  deriving DecidableEq, Repr

/-- The accounting document of one claim. -/
structure ClaimDoc where
  theorem_ : Option String
  sourceSpan : Option ℕ × Option ℕ
  status : ClaimStatus
  evidence : ClaimEvidence
  verificationKind : VerificationKind
  probeMarkerCount : ℕ
  probeMismatchMarkerCount : ℕ
  observedTranscriptLine : Option ℕ
  naturalOutputDiagnosticLines : List ℕ
  deriving DecidableEq, Repr

/-- What ordinary toplevel output shows; never evidence. -/
structure Diagnostics where
  claimLines : Bytes → List String → String → List ℕ
  firstError : Bytes → Option (ℕ × String)

/-- The metadata of one accounting. -/
structure Accounting where
  firstError : Option (ℕ × String)
  completionMarkerCount : ℕ
  completionMarkerObserved : Bool
  completionMarkerValid : Bool
  observedClaims : List (Option String)
  deriving DecidableEq, Repr

/-- Status, evidence and observed line of one claim, from its marker lines. -/
def claimOutcome (okLines mismatchLines : List ℕ) (kind : VerificationKind) (printed : Bool) :
    ClaimStatus × ClaimEvidence × Option ℕ :=
  if okLines.length = 1 ∧ mismatchLines = [] then
    (.proved, match kind with
      | .kernelConclusionAndEmptyHypotheses => .nonceProbeKernelConclusion
      | .bindingAndThmTypeOnlyNonliteralStatement => .nonceProbeBindingOnly, okLines.head?)
  else if mismatchLines.length = 1 ∧ okLines = [] then
    (.failed, .nonceProbeConclusionMismatch, mismatchLines.head?)
  else if 1 < okLines.length ∨ 1 < mismatchLines.length ∨ (okLines ≠ [] ∧ mismatchLines ≠ []) then
    (.failed, .nonceProbeMarkerAmbiguous, none)
  else if printed then (.printedUnprobed, .unverifiedToplevelOutput, none)
  else (.missing, .nonceProbeMarkerMissing, none)

/-- `claim_doc`, for one claim and its probe row. -/
def accountClaim (transcript : Bytes) (natural : String → List ℕ) (claim : Claim)
    (probe : ProbeRow) : ClaimDoc :=
  let okLines := markerLines transcript (utf8 probe.okMarker)
  let mismatchLines := markerLines transcript (utf8 probe.mismatchMarker)
  let diagnosticLines := natural claim.nameText
  let outcome := claimOutcome okLines mismatchLines probe.verificationKind (diagnosticLines ≠ [])
  { theorem_ := claim.name
    sourceSpan := (claim.sourceLine, claim.statementEndLine <|> claim.sourceLine)
    status := outcome.1
    evidence := outcome.2.1
    verificationKind := probe.verificationKind
    probeMarkerCount := okLines.length
    probeMismatchMarkerCount := mismatchLines.length
    observedTranscriptLine := outcome.2.2
    naturalOutputDiagnosticLines := diagnosticLines }

/-- `account_claims`. -/
def accountClaims (diagnostics : Diagnostics) (claims : List Claim) (transcript : Bytes)
    (contract : Contract) : Except ProbeError (List ClaimDoc × Accounting) := do
  let selected ← validatedClaims claims
  if selected.map Claim.nameText ≠ contract.claims.map ProbeRow.name then
    throw .inventoryMismatch
  let natural := diagnostics.claimLines transcript (selected.map Claim.nameText)
  let docs := List.zipWith (accountClaim transcript natural) selected contract.claims
  let completionLines := markerLines transcript (utf8 contract.completionMarker)
  return (docs,
    { firstError := diagnostics.firstError transcript
      completionMarkerCount := completionLines.length
      completionMarkerObserved := completionLines.length = 1
      completionMarkerValid := completionLines.length = 1
      observedClaims := (docs.filter fun doc => doc.status = .proved).map ClaimDoc.theorem_ })

/-! ## What the probe and its accounting guarantee -/

theorem validatedClaims_eq {claims selected : List Claim} (h : validatedClaims claims = .ok selected) :
    selected = claims.filter Claim.named := by
  unfold validatedClaims at h
  dsimp only at h
  split at h
  · cases h
  · split at h
    · exact (Except.ok.inj h).symm
    · cases h

theorem probeClaim_name {sha256 : Bytes → String} {token : String} {claim : Claim} {ordinal : ℕ}
    {row : String × ProbeRow} (h : probeClaim sha256 token claim ordinal = .ok row) :
    row.2.name = claim.nameText := by
  unfold probeClaim at h
  simp only at h
  split at h
  · split at h
    · cases h
    · split at h
      · cases h
      · cases h
        rfl
  · cases h
    rfl

/-- The contract has one row for each claim, in order. -/
theorem probeClaims_names {sha256 : Bytes → String} {token : String} {claims : List Claim}
    {ordinal : ℕ} {rows : List (String × ProbeRow)}
    (h : probeClaims sha256 token ordinal claims = .ok rows) :
    rows.map (fun row => row.2.name) = claims.map Claim.nameText := by
  induction claims generalizing ordinal rows with
  | nil =>
      cases h
      rfl
  | cons claim rest ih =>
      simp only [probeClaims, bind_eq_ok, pure_eq_ok] at h
      obtain ⟨row, hrow, rows', hrest, rfl⟩ := h
      rw [List.map_cons, List.map_cons, probeClaim_name hrow, ih hrest]

/-- The contract of an accepted probe lists the accepted claims by name. -/
theorem buildClaimProbe_claims {sha256 : Bytes → String} {sourceBytes prefixBytes payload : Bytes}
    {claims : List Claim} {nonce : Option String} {token : String} {contract : Contract}
    (h : buildClaimProbe sha256 sourceBytes claims nonce token prefixBytes = .ok (payload, contract)) :
    ∃ selected, validatedClaims claims = .ok selected ∧
      selected.map Claim.nameText = contract.claims.map ProbeRow.name := by
  simp only [buildClaimProbe, guard_eq_ok, bind_eq_ok, pure_eq_ok, Prod.mk.injEq] at h
  obtain ⟨-, selected, hselected, token', -, rows, hrows, -, hcontract⟩ := h
  refine ⟨selected, hselected, ?_⟩
  rw [← hcontract, ← probeClaims_names hrows, List.map_map]
  rfl

/-- What makes the builder accept, and the contract it then returns. -/
theorem buildClaimProbe_accepts {sha256 : Bytes → String} {sourceBytes : Bytes}
    (prefixBytes : Bytes) {claims selected : List Claim} {nonce : Option String} {token token' : String}
    {rows : List (String × ProbeRow)} (hutf8 : decodesStrictly sourceBytes = true)
    (hselected : validatedClaims claims = .ok selected)
    (htoken : validatedNonce nonce token = .ok token')
    (hrows : probeClaims sha256 token' 0 selected = .ok rows) :
    ∃ payload contract,
      buildClaimProbe sha256 sourceBytes claims nonce token prefixBytes = .ok (payload, contract) ∧
      contract.nonce = token' ∧ contract.completionMarker = completionMarker token' ∧
      contract.claims = rows.map Prod.snd := by
  unfold buildClaimProbe
  rw [hutf8, hselected, htoken]
  simp only [Bool.not_true, Bool.false_eq_true, if_false, bind, Except.bind]
  rw [hrows]
  exact ⟨_, _, rfl, rfl, rfl, rfl⟩

/-- **One claim is proved exactly when its own line is printed once and its mismatch
line never.** -/
theorem claimOutcome_proved_iff (okLines mismatchLines : List ℕ) (kind : VerificationKind)
    (printed : Bool) : (claimOutcome okLines mismatchLines kind printed).1 = .proved ↔
      okLines.length = 1 ∧ mismatchLines = [] := by
  unfold claimOutcome
  constructor
  · intro h
    by_contra hnot
    rw [if_neg hnot] at h
    split at h
    · simp at h
    · split at h
      · simp at h
      · split at h <;> simp at h
  · intro h
    rw [if_pos h]

theorem accountClaim_proved_iff (transcript : Bytes) (natural : String → List ℕ) (claim : Claim)
    (probe : ProbeRow) : (accountClaim transcript natural claim probe).status = .proved ↔
      (splitLines transcript).count (utf8 probe.okMarker) = 1 ∧
        (splitLines transcript).count (utf8 probe.mismatchMarker) = 0 := by
  rw [← markerLines_length, ← markerLines_eq_nil_iff]
  exact claimOutcome_proved_iff _ _ _ _

/-- Accounting never fails against the contract that was built from the same claims. -/
theorem accountClaims_eq (diagnostics : Diagnostics) {claims selected : List Claim}
    (transcript : Bytes) {contract : Contract} (hselected : validatedClaims claims = .ok selected)
    (hnames : selected.map Claim.nameText = contract.claims.map ProbeRow.name) :
    ∃ natural accounting, accountClaims diagnostics claims transcript contract =
        .ok (List.zipWith (accountClaim transcript natural) selected contract.claims, accounting) ∧
      (accounting.completionMarkerValid = true ↔
        (splitLines transcript).count (utf8 contract.completionMarker) = 1) := by
  unfold accountClaims
  simp only [hselected, hnames, bind, Except.bind, ne_eq, not_true_eq_false, if_false, pure,
    Except.pure, Except.ok.injEq, Prod.mk.injEq]
  refine ⟨_, _, ⟨rfl, rfl⟩, ?_⟩
  rw [decide_eq_true_iff, markerLines_length]

/-- All claims are proved exactly when every row of the contract is. -/
theorem all_proved_iff (transcript : Bytes) (natural : String → List ℕ) {selected : List Claim}
    {rows : List ProbeRow} (hnames : selected.map Claim.nameText = rows.map ProbeRow.name) :
    ((List.zipWith (accountClaim transcript natural) selected rows).all
        fun doc => doc.status = .proved) = true ↔
      ∀ row ∈ rows, (splitLines transcript).count (utf8 row.okMarker) = 1 ∧
        (splitLines transcript).count (utf8 row.mismatchMarker) = 0 := by
  induction selected generalizing rows with
  | nil =>
      have hrows : rows = [] := by simpa using hnames.symm
      simp [hrows]
  | cons claim rest ih =>
      cases rows with
      | nil => simp at hnames
      | cons row rows =>
          have hrest : rest.map Claim.nameText = rows.map ProbeRow.name := by
            simp only [List.map_cons, List.cons.injEq] at hnames
            exact hnames.2
          rw [List.zipWith_cons_cons, List.all_cons, Bool.and_eq_true, ih hrest,
            decide_eq_true_iff, accountClaim_proved_iff, List.forall_mem_cons]

end Hearth.Replay
