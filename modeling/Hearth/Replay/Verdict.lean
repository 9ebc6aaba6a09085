import Hearth.Replay.Receipt

/-!
# What a passed verdict means

The analysis decides whether a run succeeded; the summary decides it again from the
receipt.  `SemanticSpec` says what the analysis established about the transcript, and
`verdict_passed_iff` that the summary finds exactly this in the receipt.
-/

namespace Hearth.Replay

open Hearth.Library

/-- Every claim of the contract printed its own line once and its mismatch line never. -/
def EveryClaimProved (transcript : Bytes) (contract : Contract) : Prop :=
  ∀ row ∈ contract.claims, (splitLines transcript).count (utf8 row.okMarker) = 1 ∧
    (splitLines transcript).count (utf8 row.mismatchMarker) = 0

/-- The source ran to its end: the transport completed, the completion line is there
once, and no file it includes failed. -/
def SourceCompleted (transcript : Bytes) (contract : Contract) (transport : String) : Prop :=
  transport = "completed" ∧ (splitLines transcript).count (utf8 contract.completionMarker) = 1 ∧
    ∀ line ∈ splitLines transcript, ¬ utf8 "Error in included file" <:+: line

/-- What the analysis of a transcript establishes. -/
structure SemanticSpec (transcript : Bytes) (contract : Contract) (transport : String)
    (response : Option Response) (semantic : Semantic) : Prop where
  completed : semantic.sourceCompleted = true ↔ SourceCompleted transcript contract transport
  valid : semantic.sourceCompleted = true → semantic.completionMarkerValid = true
  claims : semantic.claimsComplete = true ↔ EveryClaimProved transcript contract
  status : semantic.sourceStatus =
    sourceStatus (semantic.sourceCompleted && semantic.claimsComplete) semantic.sourceCompleted transport
  exit : semantic.semanticExitStatus =
    if semantic.sourceCompleted && semantic.claimsComplete then 0 else 1
  effective : semantic.effectiveExitStatus =
    effectiveExitStatus transport (response.elim .null Response.exitStatus) semantic.semanticExitStatus
  named : ∀ row ∈ semantic.bindings, row.name.isSome
  total : semantic.bindings.length = contract.claims.length
  proved : semantic.claimsComplete = true → ∀ row ∈ semantic.bindings, row.status = .proved
  advisory : semantic.promotionAdvisory = semantic.foundationDelta.map fun delta =>
    promotionAdvisory delta (semantic.sourceCompleted && semantic.claimsComplete)
      (response.elim .null Response.exitStatus)
  delta : ∀ delta, semantic.foundationDelta = some delta →
    delta = accountFoundationDelta transcript contract

theorem includedFileErrorObserved_eq_false (transcript : Bytes) :
    includedFileErrorObserved transcript = false ↔
      ∀ line ∈ splitLines transcript, ¬ utf8 "Error in included file" <:+: line := by
  simp [includedFileErrorObserved, List.any_eq_false]

/-- The rows of a contract and its claims agree in number and name. -/
theorem named_of_zip (transcript : Bytes) (natural : String → List ℕ) (rows : List ProbeRow)
    {claims selected : List Claim} (hselected : selected = claims.filter Claim.named) :
    ∀ row ∈ (List.zipWith (accountClaim transcript natural) selected rows).map bindingRow,
      row.name.isSome := by
  intro row hrow
  obtain ⟨doc, hdoc, rfl⟩ := List.mem_map.mp hrow
  obtain ⟨index, hindex, rfl⟩ := List.getElem_of_mem hdoc
  rw [List.getElem_zipWith]
  have hbound : index < selected.length := by
    simp only [List.length_zipWith] at hindex
    omega
  have hmem : selected[index] ∈ selected := List.getElem_mem hbound
  generalize selected[index] = claim at hmem ⊢
  rw [hselected, List.mem_filter] at hmem
  cases hname : claim.name with
  | none => simp [Claim.named, hname] at hmem
  | some name => simp [bindingRow, accountClaim, hname]

/-- The analysis of a transcript against the contract of the same claims. -/
theorem analyzeVanillaTranscript_spec (diagnostics : Diagnostics)
    (identifyFailedBinding : FailureAttribution) {claims selected : List Claim} (transcript : Bytes)
    {contract : Contract} (transport : String) (response : Option Response)
    (hselected : validatedClaims claims = .ok selected)
    (hnames : selected.map Claim.nameText = contract.claims.map ProbeRow.name) :
    ∃ semantic, analyzeVanillaTranscript diagnostics identifyFailedBinding claims transcript contract
        transport response = .ok semantic ∧
      SemanticSpec transcript contract transport response semantic := by
  obtain ⟨natural, accounting, haccount, hvalid⟩ :=
    accountClaims_eq diagnostics transcript hselected hnames
  have hall := all_proved_iff transcript natural hnames
  unfold analyzeVanillaTranscript
  rw [haccount]
  refine ⟨_, rfl, ?_⟩
  generalize hdocs : List.zipWith (accountClaim transcript natural) selected contract.claims = docs
    at hall
  have hlength : docs.length = contract.claims.length := by
    have hsame : selected.length = contract.claims.length := by
      simpa using congrArg List.length hnames
    rw [← hdocs, List.length_zipWith, hsame, Nat.min_self]
  constructor
  · simp only [SourceCompleted, Bool.and_eq_true, decide_eq_true_eq, hvalid, Bool.not_eq_true',
      includedFileErrorObserved_eq_false, and_assoc]
  · intro hcompleted
    simp only [Bool.and_eq_true] at hcompleted ⊢
    exact ⟨hcompleted.1.2, hcompleted.2⟩
  · exact hall
  · rfl
  · rfl
  · rfl
  · have hrows := named_of_zip transcript natural contract.claims (validatedClaims_eq hselected)
    rwa [hdocs] at hrows
  · simpa using hlength
  · intro hcomplete row hrow
    obtain ⟨doc, hdoc, rfl⟩ := List.mem_map.mp hrow
    exact decide_eq_true_iff.mp (List.all_eq_true.mp hcomplete doc hdoc)
  · dsimp only
    split <;> rfl
  · intro delta hdelta
    dsimp only at hdelta
    split at hdelta
    · exact (Option.some.inj hdelta).symm
    · cases hdelta

/-! ## The verdict of a written receipt -/

theorem WorkerValue.not_isNonzeroInt {value : WorkerValue} (h : value.equalsZero = true) :
    value.isNonzeroInt = false := by
  cases value with
  | bool value => simpa [WorkerValue.equalsZero, WorkerValue.isNonzeroInt] using h
  | int value => simpa [WorkerValue.equalsZero, WorkerValue.isNonzeroInt] using h
  | null | float _ | text _ | other => rfl

theorem WorkerValue.equalsZero_of_isCleanExit {value : WorkerValue} (h : value.isCleanExit = true) :
    value.equalsZero = true := by
  cases value with
  | int value => exact h
  | null | bool _ | float _ | text _ | other => simp [WorkerValue.isCleanExit] at h

section

variable {transcript : Bytes} {contract : Contract} {transport role : String}
  {response : Option Response} {package : Option Package} {semantic : Semantic}

/-- `_passed` on a written receipt. -/
theorem passed_iff (role : String) (package : Option Package)
    (hspec : SemanticSpec transcript contract transport response semantic) :
    passed (writeVanillaArtifacts role transport response package (some semantic)) = true ↔
      semantic.sourceCompleted = true ∧ semantic.claimsComplete = true ∧
        (response.elim .null Response.exitStatus).equalsZero = true := by
  generalize hexit : response.elim .null Response.exitStatus = exit
  constructor
  · intro h
    simp only [passed, writeVanillaArtifacts, Option.elim_some, Option.map_some, Option.getD_some,
      hexit] at h
    simp only [List.filterMap_cons, id_eq, List.filterMap_nil, reduceCtorEq, if_false,
      Bool.and_eq_true, List.all_cons, decide_eq_true_eq] at h
    obtain ⟨⟨⟨⟨⟨⟨-, hcompleted⟩, -⟩, hclaims⟩, -⟩, -⟩, -, hzero, -⟩ := h
    exact ⟨hcompleted, hclaims, hzero⟩
  · rintro ⟨hcompleted, hclaims, hzero⟩
    have htransport : transport = "completed" := (hspec.completed.mp hcompleted).1
    have hstatus : semantic.sourceStatus = .succeeded := by
      rw [hspec.status, hcompleted, hclaims]
      rfl
    have hsemantic : semantic.semanticExitStatus = 0 := by
      rw [hspec.exit, hcompleted, hclaims]
      rfl
    have heffective : semantic.effectiveExitStatus = .int 0 := by
      rw [hspec.effective, hexit, hsemantic, effectiveExitStatus, htransport,
        WorkerValue.not_isNonzeroInt hzero]
      rfl
    have hclean : (WorkerValue.int 0).equalsZero = true := rfl
    simp [passed, writeVanillaArtifacts, hexit, hstatus, hcompleted, hclaims, hsemantic, heffective,
      hzero, hspec.valid hcompleted, hclean]

/-- **The summary finds what the analysis found.**  A receipt of an evaluation is
summarized as passed exactly when its source completed, all claims are proved and the
worker's exit status equals zero. -/
theorem verdict_passed_iff (package : Option Package)
    (hspec : SemanticSpec transcript contract transport response semantic)
    (hrole : role ≠ preEvalDependencyTransportRefusal) :
    (summarize (writeVanillaArtifacts role transport response package (some semantic))).verdict =
        .passed ↔
      semantic.sourceCompleted = true ∧ semantic.claimsComplete = true ∧
        (response.elim .null Response.exitStatus).equalsZero = true := by
  rw [← passed_iff role package hspec]
  have hstarted : semantic.sourceStatus ≠ .notStarted := by
    rw [hspec.status]
    unfold sourceStatus
    split <;> [skip; split <;> [skip; split]] <;> simp
  change (verdict _).1 = .passed ↔ _
  constructor
  · intro h
    unfold verdict at h
    simp only at h
    split at h
    · split at h <;> cases h
    · split at h
      · cases h
      · split at h
        · assumption
        · split at h
          · split at h
            · cases h
            · split at h <;> cases h
          · split at h
            · cases h
            · split at h <;> cases h
  · intro h
    obtain ⟨hcompleted, -, -⟩ := (passed_iff role package hspec).mp h
    have htransport : transport = "completed" := (hspec.completed.mp hcompleted).1
    unfold verdict
    rw [if_neg, if_neg, if_pos h]
    · have hpresent : presentText (some "completed") = some "completed" := by decide
      simp [writeVanillaArtifacts, htransport, hpresent]
    · simp [writeVanillaArtifacts, hrole, hstarted]

/-- In a passed summary every claim of the contract counts as proved. -/
theorem bindings_proved (role : String) (package : Option Package)
    (hspec : SemanticSpec transcript contract transport response semantic)
    (hcomplete : semantic.claimsComplete = true) :
    (summarize (writeVanillaArtifacts role transport response package (some semantic))).bindingsTotal =
        contract.claims.length ∧
      (summarize (writeVanillaArtifacts role transport response package
        (some semantic))).bindingsProved = contract.claims.length := by
  have hrows : ∀ (receipt : Receipt) (failing : Option Attribution) (rows : List BindingRow),
      (∀ row ∈ rows, row.name.isSome) → (∀ row ∈ rows, row.status = .proved) →
      (rows.filterMap (summarizeBinding receipt failing)).length = rows.length ∧
        (rows.filterMap (summarizeBinding receipt failing)).countP
          (fun row => row.recordedStatus = .proved) = rows.length := by
    intro receipt failing rows hnamed hproved
    induction rows with
    | nil => exact ⟨rfl, rfl⟩
    | cons row rest ih =>
        obtain ⟨name, hname⟩ := Option.isSome_iff_exists.mp (hnamed row (List.mem_cons_self ..))
        have hstatus := hproved row (List.mem_cons_self ..)
        obtain ⟨hlength, hcount⟩ := ih (fun other hother => hnamed other (List.mem_cons_of_mem _ hother))
          fun other hother => hproved other (List.mem_cons_of_mem _ hother)
        simp [summarizeBinding, hname, hstatus, hlength, hcount]
  rw [← hspec.total]
  exact hrows _ _ _ hspec.named (hspec.proved hcomplete)

/-- No foundation objection without a clean success and an observed zero delta. -/
theorem noFoundationObjection_spec {delta : FoundationDelta} {success : Bool} {exit : WorkerValue}
    (h : (promotionAdvisory delta success exit).recommendation = .noFoundationObjection) :
    success = true ∧ exit.isCleanExit = true ∧ delta.status = .observed ∧
      ¬ 0 < delta.newAxiomCount.getD 0 := by
  simp only [promotionAdvisory, recommendation] at h
  split at h
  · cases h
  · rename_i hblock
    split at h
    · rename_i hclean
      exact ⟨hclean.2.1, hclean.2.2, hclean.1, fun hpositive => hblock ⟨hclean.1, hpositive⟩⟩
    · cases h

end

/-- An accepted payload has a contract for the accepted claims, with or without the
foundation delta. -/
theorem instrumentedSourceBytes_claims {sha256 : Bytes → String} {prelude : String → Bytes}
    {sourceBytes prefixBytes payload : Bytes} {claims : List Claim} {nonce : Option String}
    {token : String} {includeFoundationDelta : Bool} {contract : Contract}
    (h : instrumentedSourceBytes sha256 prelude sourceBytes claims nonce token prefixBytes
      includeFoundationDelta = .ok (payload, contract)) :
    ∃ selected, validatedClaims claims = .ok selected ∧
      selected.map Claim.nameText = contract.claims.map ProbeRow.name := by
  unfold instrumentedSourceBytes at h
  split at h
  · simp only [bind_eq_ok, pure_eq_ok, Prod.exists, Prod.mk.injEq] at h
    obtain ⟨payload', contract', hbuild, markerPrefix, -, -, rfl⟩ := h
    obtain ⟨selected, hselected, hnames⟩ := buildClaimProbe_claims hbuild
    exact ⟨selected, hselected, hnames⟩
  · exact buildClaimProbe_claims h

/-- **A passed verdict is exact.**  For every probe that the builder accepts and every
transcript, transport label, response and evidence role of an evaluation, the receipt
is summarized as passed exactly when the transport completed, the completion line
occurs once, no line reports an error in an included file, every claim printed its own
line once and its mismatch line never, and the worker's exit status equals zero; then
all claims count as proved.  No foundation objection is recommended only in receipts
that passed without new axioms, and an observed positive axiom delta always blocks. -/
theorem passed_verdict_exact {sha256 : Bytes → String} {prelude : String → Bytes}
    {sourceBytes prefixBytes payload : Bytes} {claims : List Claim} {nonce : Option String}
    {token : String} {includeFoundationDelta : Bool} {contract : Contract}
    (hbuild : instrumentedSourceBytes sha256 prelude sourceBytes claims nonce token prefixBytes
      includeFoundationDelta = .ok (payload, contract))
    (diagnostics : Diagnostics) (identifyFailedBinding : FailureAttribution) (transcript : Bytes)
    (transport : String) (response : Option Response) (package : Option Package) {role : String}
    (hrole : role ≠ preEvalDependencyTransportRefusal) :
    contract.claims.map ProbeRow.name = (claims.filter Claim.named).map Claim.nameText ∧
    ∃ semantic, analyzeVanillaTranscript diagnostics identifyFailedBinding claims transcript contract
        transport response = .ok semantic ∧
      ∀ receipt, receipt = writeVanillaArtifacts role transport response package (some semantic) →
        ((summarize receipt).verdict = .passed ↔
          transport = "completed" ∧
          (splitLines transcript).count (utf8 contract.completionMarker) = 1 ∧
          (∀ line ∈ splitLines transcript, ¬ utf8 "Error in included file" <:+: line) ∧
          (∀ row ∈ contract.claims, (splitLines transcript).count (utf8 row.okMarker) = 1 ∧
            (splitLines transcript).count (utf8 row.mismatchMarker) = 0) ∧
          ∃ answer, response = some answer ∧ answer.exitStatus.equalsZero = true) ∧
        ((summarize receipt).verdict = .passed →
          (summarize receipt).bindingsProved = (claims.filter Claim.named).length ∧
          (summarize receipt).bindingsTotal = (claims.filter Claim.named).length) ∧
        (∀ advisory, receipt.promotionAdvisory = some advisory →
          advisory.recommendation = .noFoundationObjection →
          (summarize receipt).verdict = .passed ∧ (summarize receipt).newAxioms = some 0) ∧
        (∀ delta deltas, receipt.foundationDelta = some delta → delta.status = .observed →
          delta.deltas = some deltas → 0 < deltas.axioms →
          ∃ advisory, receipt.promotionAdvisory = some advisory ∧
            advisory.recommendation = .block) := by
  obtain ⟨selected, hselected, hnames⟩ := instrumentedSourceBytes_claims hbuild
  obtain ⟨semantic, hanalyze, hspec⟩ := analyzeVanillaTranscript_spec diagnostics
    identifyFailedBinding transcript transport response hselected hnames
  have hclaims := validatedClaims_eq hselected
  have htotal : contract.claims.length = (claims.filter Claim.named).length := by
    rw [← hclaims]
    simpa using (congrArg List.length hnames).symm
  have hpassed := verdict_passed_iff package hspec hrole
  refine ⟨by rw [← hnames, hclaims], semantic, hanalyze, ?_⟩
  rintro receipt rfl
  refine ⟨?_, ?_, ?_, ?_⟩
  · rw [hpassed, hspec.completed, hspec.claims, SourceCompleted, EveryClaimProved]
    constructor
    · rintro ⟨⟨htransport, hmarker, hincluded⟩, hproved, hzero⟩
      refine ⟨htransport, hmarker, hincluded, hproved, ?_⟩
      cases response with
      | none => cases hzero
      | some answer => exact ⟨answer, rfl, hzero⟩
    · rintro ⟨htransport, hmarker, hincluded, hproved, answer, rfl, hzero⟩
      exact ⟨⟨htransport, hmarker, hincluded⟩, hproved, hzero⟩
  · intro h
    obtain ⟨hbindings, hproved⟩ := bindings_proved role package hspec
      (hpassed.mp h).2.1
    exact ⟨hproved.trans htotal, hbindings.trans htotal⟩
  · intro advisory hadvisory hrecommendation
    change semantic.promotionAdvisory = some advisory at hadvisory
    rw [hspec.advisory, Option.map_eq_some_iff] at hadvisory
    obtain ⟨delta, hdelta, rfl⟩ := hadvisory
    obtain ⟨hsuccess, hclean, hobserved, hzero⟩ := noFoundationObjection_spec hrecommendation
    rw [Bool.and_eq_true] at hsuccess
    refine ⟨hpassed.mpr ⟨hsuccess.1, hsuccess.2, WorkerValue.equalsZero_of_isCleanExit hclean⟩, ?_⟩
    have hsame := hspec.delta delta hdelta
    obtain ⟨deltas, hdeltas, hcount, hnonneg⟩ := accountFoundationDelta_observed (hsame ▸ hobserved)
    rw [hsame, hcount, Option.getD_some] at hzero
    have haxioms : deltas.axioms = 0 := by omega
    change newAxioms _ = some 0
    simp only [newAxioms, writeVanillaArtifacts, Option.bind_some, hdelta, hsame, hdeltas, haxioms]
  · intro delta deltas hdelta hobserved hdeltas hpositive
    change semantic.foundationDelta = some delta at hdelta
    refine ⟨promotionAdvisory delta (semantic.sourceCompleted && semantic.claimsComplete)
      (response.elim .null Response.exitStatus), ?_, ?_⟩
    · change semantic.promotionAdvisory = _
      rw [hspec.advisory, hdelta, Option.map_some]
    · have hsame := hspec.delta delta hdelta
      obtain ⟨deltas', hdeltas', hcount, -⟩ := accountFoundationDelta_observed (hsame ▸ hobserved)
      rw [← hsame] at hdeltas' hcount
      obtain rfl : deltas' = deltas := by simpa [hdeltas] using hdeltas'.symm
      simp only [promotionAdvisory, recommendation]
      rw [if_pos ⟨hobserved, by simpa [hcount] using hpositive⟩]

/-! ## One passed run -/

/-- A nonce. -/
def sampleNonce : String := "0123456789abcdef0123456789abcdef"

/-- One claim whose statement is not a literal. -/
def sampleClaim : Claim := ⟨some "TWO_TIMES_TWO", none, false, none, some 3, none⟩

/-- The probe of one claim in the source `1;;`. -/
def sampleProbe : Except ProbeError (Bytes × Contract) :=
  instrumentedSourceBytes (fun _ => "digest") (fun _ => []) (utf8 "1;;") [sampleClaim]
    (some sampleNonce) "" [] true

/-- A transcript with the claim's line and the completion line. -/
def sampleTranscript : Bytes :=
  utf8 (okMarker sampleNonce 0 ++ "\n" ++ completionMarker sampleNonce ++ "\n")

theorem sampleProbe_ok : ∃ payload contract, sampleProbe = .ok (payload, contract) ∧
    contract.completionMarker = completionMarker sampleNonce ∧
    contract.claims = [⟨0, "TWO_TIMES_TWO", okMarker sampleNonce 0, mismatchMarker sampleNonce 0,
      .bindingAndThmTypeOnlyNonliteralStatement, none⟩] := by
  have hutf8 : decodesStrictly (utf8 "1;;") = true := by decide
  have hselected : validatedClaims [sampleClaim] = .ok [sampleClaim] := by decide
  have htoken : validatedNonce (some sampleNonce) "" = .ok sampleNonce := by decide
  obtain ⟨line, hrows⟩ : ∃ line, probeClaims (fun _ => "digest") sampleNonce 0 [sampleClaim] =
      .ok [(line, ⟨0, "TWO_TIMES_TWO", okMarker sampleNonce 0, mismatchMarker sampleNonce 0,
        .bindingAndThmTypeOnlyNonliteralStatement, none⟩)] := ⟨_, rfl⟩
  have hbuild : ∃ payload contract,
      buildClaimProbe (fun _ => "digest") (utf8 "1;;") [sampleClaim] (some sampleNonce) ""
        ([] ++ [10] ++ []) = .ok (payload, contract) ∧ contract.nonce = sampleNonce ∧
      contract.completionMarker = completionMarker sampleNonce ∧
      contract.claims = [⟨0, "TWO_TIMES_TWO", okMarker sampleNonce 0, mismatchMarker sampleNonce 0,
        .bindingAndThmTypeOnlyNonliteralStatement, none⟩] :=
    buildClaimProbe_accepts _ hutf8 hselected htoken hrows
  obtain ⟨payload, contract, hbuild, hnonce, hmarker, hclaims⟩ := hbuild
  have hcontract : foundationProbeContract sampleNonce =
      .ok ("__HOL_FOUNDATION_DELTA__:" ++ sampleNonce ++ ":") := by decide +kernel
  refine ⟨payload, { contract with
    foundationDelta := some ("__HOL_FOUNDATION_DELTA__:" ++ sampleNonce ++ ":") }, ?_, hmarker,
    hclaims⟩
  have hsampleNonce : (Option.filter (fun nonce => decide (nonce ≠ "")) (some sampleNonce)).getD "" =
      sampleNonce := by decide
  unfold sampleProbe instrumentedSourceBytes
  rw [if_pos rfl]
  simp only [hsampleNonce]
  refine bind_eq_ok.mpr ⟨_, hbuild, bind_eq_ok.mpr ⟨_, ?_, rfl⟩⟩
  rw [hnonce]
  exact hcontract

theorem passed_verdict_exact_sample : ∃ payload contract semantic,
    sampleProbe = .ok (payload, contract) ∧
    analyzeVanillaTranscript ⟨fun _ _ _ => [], fun _ => none⟩ (fun _ _ _ _ => none) [sampleClaim]
      sampleTranscript contract "completed" (some ⟨.int 0, .null, .null⟩) = .ok semantic ∧
    (summarize (writeVanillaArtifacts "warm_development_only" "completed"
      (some ⟨.int 0, .null, .null⟩) none (some semantic))).verdict = .passed := by
  obtain ⟨payload, contract, hbuild, hmarker, hclaims⟩ := sampleProbe_ok
  have hrole : "warm_development_only" ≠ preEvalDependencyTransportRefusal := by decide
  obtain ⟨-, semantic, hanalyze, hreceipt⟩ := passed_verdict_exact hbuild
    ⟨fun _ _ _ => [], fun _ => none⟩ (fun _ _ _ _ => none) sampleTranscript "completed"
    (some ⟨.int 0, .null, .null⟩) none hrole
  refine ⟨payload, contract, semantic, hbuild, hanalyze, (hreceipt _ rfl).1.mpr ?_⟩
  rw [hmarker, hclaims]
  exact ⟨rfl, by decide +kernel, by decide +kernel, by decide +kernel, _, rfl, rfl⟩

end Hearth.Replay
