import Hearth.Replay.Semantics

/-!
# The source reads of the two replay commands

`run` of `cli/orbstack_criu_vanilla.py` and `run_vanilla` of `vanilla_claims.py` read the
source file again and again, and another program may rewrite it between any two of
these reads.  `SourceReads` says what each read finds, in any way at all, and the
commands compare what their code compares.

What the commands compute from the bytes they read (the claims, the syntax check, the
load closure, the prelude) is a parameter, `Tools`: only the reads and the comparisons
between them decide which bytes a run is about.
-/

namespace Hearth.Replay

open Hearth.Library

/-- The reads of the source file, in the order of the code.  `context` is in the cold
command only, `preflight` in the warm one only. -/
inductive SourceRead
  | first | context | preflight | logicalRoots | boundary | digest | size | analysis | package
  deriving DecidableEq, Repr

/-- What each read finds; `none` when the file cannot be read. -/
abbrev SourceReads := SourceRead → Option Bytes

/-- The reads while nothing else writes to the file. -/
def undisturbed (content : Bytes) : SourceReads :=
  fun _ => some content

/-- Why a command ends before HOL runs. -/
inductive Refusal
  | sourceNotFound
  | sourcePin (expected actual : String)
  | claimProbe (error : ProbeError)
  | noNamedClaims
  | syntaxPreflight (problem : String)
  | closure (status : String)
  | entrypointUnreadable
  | dependencyTransport (status : String)
  | sourceChanged
  | packagedEntrypointChanged
  | admission (reason : String)
  deriving DecidableEq, Repr

/-- `entrypoint` of a closure. -/
structure EntrypointRecord where
  sha256 : String
  sizeBytes : ℕ
  deriving DecidableEq, Repr

/-- A captured closure; `dependencies` stands for its records, artifacts and limits. -/
structure SourceClosure (Dependencies : Type) where
  entrypoint : EntrypointRecord
  dependencies : Dependencies
  strictSha256 : String

variable {Root Dependencies : Type}

/-- What the commands compute from what they have read. -/
structure Tools (Root Dependencies : Type) where
  sha256 : Bytes → String
  /-- `extract_hol_theorems_bytes`. -/
  extractHolTheorems : Bytes → Except Refusal (List Claim)
  /-- `diagnostic_prelude` and `tactical_step_prelude`. -/
  diagnosticPrelude : String → Bytes
  /-- `hol_syntax_preflight`. -/
  holSyntaxPreflight : Option Bytes → Option String
  /-- `vanilla_source_context`. -/
  vanillaSourceContext : Option Bytes → Except Refusal Unit
  /-- `resolve_logical_source_roots` and `validate_requested_logical_source_roots`. -/
  validateLogicalSourceRoots : Option Bytes → Except Refusal Unit
  /-- `_source_boundary`. -/
  sourceBoundary : Option Bytes → Except Refusal Root
  /-- The traversal of `build_source_dependency_closure`, from the analysis of the
  entrypoint on. -/
  visitEntrypoint : Root → Option Bytes → Except Refusal Dependencies
  /-- `_strict_digest`. -/
  strictDigest : EntrypointRecord → Dependencies → String
  /-- `decide_profile_satisfaction`, with the refusal of what is not packaged. -/
  decideProfileSatisfaction : SourceClosure Dependencies → Except Refusal Unit
  /-- `dependency_transport_status` of the packager. -/
  dependencyTransportStatus : SourceClosure Dependencies → Except Refusal Unit
  /-- `source_execution_prelude`. -/
  sourceExecutionPrelude : SourceClosure Dependencies → Bytes
  /-- The dependencies that the packager reads, compares and writes. -/
  packageDependencies : SourceClosure Dependencies → Except Refusal Unit
  /-- `revalidate_profile_satisfaction`, the seat admission and `validate_basis_use`. -/
  admitEvaluation : SourceClosure Dependencies → Except Refusal Unit

/-- The parameters of the warm command that the reads meet. -/
structure WarmOptions where
  expectedSourceSha256 : Option String
  includeFoundationDelta : Bool
  probeNonce : String
  preparationPrefix : Bytes
  preparationPostlude : Bytes
  deriving DecidableEq, Repr

/-- The locals of a command when it asks HOL for the evaluation. -/
structure HolRequest (Dependencies : Type) where
  sourceSha256 : String
  claims : List Claim
  closure : SourceClosure Dependencies
  payload : Bytes
  contract : Contract

/-! ## The steps -/

/-- The value that was read, or the refusal. -/
def foundOr {α : Type} (refusal : Refusal) : Option α → Except Refusal α
  | none => .error refusal
  | some value => .ok value

/-- A step of the probe builder. -/
def probeStep {α : Type} : Except ProbeError α → Except Refusal α
  | .error error => .error (.claimProbe error)
  | .ok value => .ok value

/-- `normalized_sha256`, on a digest without surrounding blanks. -/
def normalizedSha256 (digest : String) : Option String :=
  let value := digest.toLower
  if value.toList.length = 64 ∧ value.toList.all isLowerHex then some value else none

/-- `_pinned_source_refusal`. -/
def pinnedSourceRefused (expected : Option String) (actual : String) : Bool :=
  match expected with
  | none => false
  | some digest => normalizedSha256 digest ≠ some actual

section

variable (tools : Tools Root Dependencies) (reads : SourceReads)

/-- The named claims of a source. -/
def namedClaims (sourceBytes : Bytes) : Except Refusal (List Claim) := do
  let claims ← tools.extractHolTheorems sourceBytes
  return claims.filter Claim.named

/-- The records that a closure has when its boundary is inferred from one read of the
source and its entrypoint is analysed in another. -/
def dependencySet (boundaryBytes analysisBytes : Option Bytes) : Except Refusal Dependencies := do
  let root ← tools.sourceBoundary boundaryBytes
  tools.visitEntrypoint root analysisBytes

/-- `capture_source_dependency_closure`. -/
def captureSourceDependencyClosure : Except Refusal (SourceClosure Dependencies) := do
  tools.validateLogicalSourceRoots (reads .logicalRoots)
  let root ← tools.sourceBoundary (reads .boundary)
  let digested ← foundOr .entrypointUnreadable (reads .digest)
  let sized ← foundOr .entrypointUnreadable (reads .size)
  let dependencies ← tools.visitEntrypoint root (reads .analysis)
  let entrypoint : EntrypointRecord := ⟨tools.sha256 digested, sized.length⟩
  return ⟨entrypoint, dependencies, tools.strictDigest entrypoint dependencies⟩

/-- `materialize_dependency_package`: the entrypoint is read once more and compared with
the closure; what is written as the entrypoint is the payload. -/
def materializeDependencyPackage (closure : SourceClosure Dependencies) : Except Refusal Unit := do
  tools.dependencyTransportStatus closure
  let packaged ← foundOr .sourceChanged (reads .package)
  if tools.sha256 packaged ≠ closure.entrypoint.sha256 ∨
      packaged.length ≠ closure.entrypoint.sizeBytes then
    throw .sourceChanged
  tools.packageDependencies closure

/-- `validate_vanilla_source_snapshot`. -/
def validateVanillaSourceSnapshot (closure : SourceClosure Dependencies) (sourceBytes : Bytes) :
    Except Refusal Unit :=
  if closure.entrypoint.sha256 ≠ tools.sha256 sourceBytes ∨
      closure.entrypoint.sizeBytes ≠ sourceBytes.length then .error .sourceChanged
  else .ok ()

/-- The postlude of a basis preparation, behind the payload. -/
def appendPostlude (postlude : Bytes) (instrumented : Bytes × Contract) : Bytes × Contract :=
  if postlude = [] then instrumented
  else
    let payload := instrumented.1 ++ [10] ++ postlude
    (payload, { instrumented.2 with executedPayloadSha256 := tools.sha256 payload })

/-- `run`, up to the request to evaluate the packaged entrypoint. -/
def warmRun (options : WarmOptions) : Except Refusal (HolRequest Dependencies) := do
  let sourceBytes ← foundOr .sourceNotFound (reads .first)
  let sourceSha256 := tools.sha256 sourceBytes
  if pinnedSourceRefused options.expectedSourceSha256 sourceSha256 then
    throw (.sourcePin (options.expectedSourceSha256.getD "") sourceSha256)
  let claims ← namedClaims tools sourceBytes
  let instrument := fun prefixBytes => probeStep (instrumentedSourceBytes tools.sha256
    tools.diagnosticPrelude sourceBytes claims (some options.probeNonce) options.probeNonce
    prefixBytes options.includeFoundationDelta)
  let _ ← instrument []
  let problem := tools.holSyntaxPreflight (reads .preflight)
  if problem.isSome then throw (.syntaxPreflight (problem.getD ""))
  let closure ← captureSourceDependencyClosure tools reads
  tools.decideProfileSatisfaction closure
  let instrumented ←
    instrument (options.preparationPrefix ++ tools.sourceExecutionPrelude closure)
  let executed := appendPostlude tools options.preparationPostlude instrumented
  materializeDependencyPackage tools reads closure
  if tools.sha256 executed.1 ≠ executed.2.executedPayloadSha256 then
    throw .packagedEntrypointChanged
  tools.admitEvaluation closure
  return ⟨sourceSha256, claims, closure, executed.1, executed.2⟩

/-- `run_vanilla`, up to the start of the HOL process; `token` is the nonce. -/
def runVanilla (token : String) : Except Refusal (HolRequest Dependencies) := do
  let sourceBytes ← foundOr .sourceNotFound (reads .first)
  let claims ← namedClaims tools sourceBytes
  if claims = [] then throw .noNamedClaims
  tools.vanillaSourceContext (reads .context)
  let closure ← captureSourceDependencyClosure tools reads
  validateVanillaSourceSnapshot tools closure sourceBytes
  let instrumented ← probeStep (buildClaimProbe tools.sha256 sourceBytes claims none token
    (tools.sourceExecutionPrelude closure))
  materializeDependencyPackage tools reads closure
  return ⟨tools.sha256 sourceBytes, claims, closure, instrumented.1, instrumented.2⟩

end

/-! ## One snapshot -/

/-- The source bytes that a payload embeds, behind the prefix and its separator. -/
def Contract.embeddedSource (contract : Contract) (payload : Bytes) : Bytes :=
  (payload.drop (contract.prefixByteCount + if contract.prefixByteCount = 0 then 0 else 1)).take
    contract.sourceByteCount

/-- The payload, the claims, the recorded digest and the entrypoint of the closure are
all of these bytes. -/
structure HolRequest.OneSnapshot (tools : Tools Root Dependencies)
    (request : HolRequest Dependencies) (bytes : Bytes) : Prop where
  embedded : request.contract.embeddedSource request.payload = bytes
  claims : namedClaims tools bytes = .ok request.claims
  sourceSha256 : request.sourceSha256 = tools.sha256 bytes
  contractSha256 : request.contract.sourceSha256 = tools.sha256 bytes
  entrypoint : request.closure.entrypoint = ⟨tools.sha256 bytes, bytes.length⟩

/-- The dependencies of the closure are those of the bytes. -/
def HolRequest.DependenciesOf (tools : Tools Root Dependencies) (request : HolRequest Dependencies)
    (bytes : Bytes) : Prop :=
  dependencySet tools (some bytes) (some bytes) = .ok request.closure.dependencies

/-- Different contents that a run reads have different digests. -/
def NoCollision (sha256 : Bytes → String) (reads : SourceReads) : Prop :=
  ∀ read read' bytes bytes', reads read = some bytes → reads read' = some bytes' →
    sha256 bytes = sha256 bytes' → bytes = bytes'

theorem foundOr_eq_ok {α : Type} {refusal : Refusal} {found : Option α} {value : α} :
    foundOr refusal found = .ok value ↔ found = some value := by
  cases found with
  | none => simp [foundOr]
  | some found => simp [foundOr]

theorem probeStep_eq_ok {α : Type} {step : Except ProbeError α} {value : α} :
    probeStep step = .ok value ↔ step = .ok value := by
  cases step with
  | error error => simp [probeStep]
  | ok found => simp [probeStep]

/-- A contract that describes the payload it came with. -/
structure Contract.Describes (contract : Contract) (sha256 : Bytes → String) (sourceBytes payload : Bytes) :
    Prop where
  embedded : contract.embeddedSource payload = sourceBytes
  sourceSha256 : contract.sourceSha256 = sha256 sourceBytes
  payloadSha256 : contract.executedPayloadSha256 = sha256 payload

/-- Behind a prefix and its separator, the payload goes on with the source. -/
theorem embeddedSource_append (contract : Contract) (prefixBytes sourceBytes rest : Bytes)
    (hbytes : contract.prefixByteCount = prefixBytes.length)
    (hsource : contract.sourceByteCount = sourceBytes.length) :
    contract.embeddedSource (prefixBytes ++ ((if prefixBytes = [] then [] else [10]) ++
      (sourceBytes ++ rest))) = sourceBytes := by
  have hoffset : contract.prefixByteCount + (if contract.prefixByteCount = 0 then 0 else 1) =
      (prefixBytes ++ (if prefixBytes = [] then [] else [10]) : Bytes).length := by
    rw [hbytes]
    cases prefixBytes with
    | nil => rfl
    | cons first prefixBytes => simp
  rw [Contract.embeddedSource, hoffset, ← List.append_assoc, List.drop_left, hsource,
    List.take_left]

/-- The builder's contract describes its payload, also with more bytes behind it. -/
theorem buildClaimProbe_describes {sha256 : Bytes → String} {sourceBytes prefixBytes payload : Bytes}
    {claims : List Claim} {nonce : Option String} {token : String} {contract : Contract}
    (h : buildClaimProbe sha256 sourceBytes claims nonce token prefixBytes = .ok (payload, contract)) :
    contract.Describes sha256 sourceBytes payload ∧
      ∀ more, contract.embeddedSource (payload ++ more) = sourceBytes := by
  simp only [buildClaimProbe, guard_eq_ok, bind_eq_ok, pure_eq_ok, Prod.mk.injEq] at h
  obtain ⟨-, selected, -, token', -, rows, -, rfl, rfl⟩ := h
  refine ⟨⟨?_, rfl, rfl⟩, ?_⟩
  · simp only [List.append_assoc]
    exact embeddedSource_append _ _ _ _ rfl rfl
  · intro more
    simp only [List.append_assoc]
    exact embeddedSource_append _ _ _ _ rfl rfl

theorem instrumentedSourceBytes_describes {sha256 : Bytes → String} {prelude : String → Bytes}
    {sourceBytes prefixBytes payload : Bytes} {claims : List Claim} {nonce : Option String}
    {token : String} {foundation : Bool} {contract : Contract}
    (h : instrumentedSourceBytes sha256 prelude sourceBytes claims nonce token prefixBytes foundation =
      .ok (payload, contract)) :
    contract.Describes sha256 sourceBytes payload ∧
      ∀ more, contract.embeddedSource (payload ++ more) = sourceBytes := by
  unfold instrumentedSourceBytes at h
  split at h
  · simp only [bind_eq_ok, pure_eq_ok, Prod.mk.injEq] at h
    obtain ⟨built, hbuild, markerPrefix, -, rfl, rfl⟩ := h
    obtain ⟨⟨hembedded, hsource, hpayload⟩, hmore⟩ := buildClaimProbe_describes hbuild
    exact ⟨⟨hembedded, hsource, hpayload⟩, hmore⟩
  · exact buildClaimProbe_describes h

section

variable {tools : Tools Root Dependencies} {reads : SourceReads}

theorem appendPostlude_describes {sourceBytes postlude : Bytes} {instrumented : Bytes × Contract}
    (h : instrumented.2.Describes tools.sha256 sourceBytes instrumented.1)
    (hmore : ∀ more, instrumented.2.embeddedSource (instrumented.1 ++ more) = sourceBytes) :
    (appendPostlude tools postlude instrumented).2.Describes tools.sha256 sourceBytes
      (appendPostlude tools postlude instrumented).1 := by
  unfold appendPostlude
  split
  · exact h
  · refine ⟨?_, h.sourceSha256, rfl⟩
    have hembedded := hmore ([10] ++ postlude)
    rw [← List.append_assoc] at hembedded
    exact hembedded

/-- A captured closure records the digest read, the size read, and the dependencies of
the boundary and analysis reads. -/
theorem captureSourceDependencyClosure_spec {closure : SourceClosure Dependencies}
    (h : captureSourceDependencyClosure tools reads = .ok closure) :
    ∃ digested sized, reads .digest = some digested ∧ reads .size = some sized ∧
      closure.entrypoint = ⟨tools.sha256 digested, sized.length⟩ ∧
      dependencySet tools (reads .boundary) (reads .analysis) = .ok closure.dependencies := by
  simp only [captureSourceDependencyClosure, bind_eq_ok, pure_eq_ok, foundOr_eq_ok] at h
  obtain ⟨-, -, root, hroot, digested, hdigested, sized, hsized, dependencies, hdependencies, rfl⟩ := h
  refine ⟨digested, sized, hdigested, hsized, rfl, ?_⟩
  simp only [dependencySet, bind_eq_ok]
  exact ⟨root, hroot, hdependencies⟩

/-- A package is only written when its own read of the source agrees with the closure. -/
theorem materializeDependencyPackage_spec {closure : SourceClosure Dependencies} {done : Unit}
    (h : materializeDependencyPackage tools reads closure = .ok done) :
    ∃ packaged, reads .package = some packaged ∧
      closure.entrypoint = ⟨tools.sha256 packaged, packaged.length⟩ := by
  simp only [materializeDependencyPackage, bind_eq_ok, guard_eq_ok, foundOr_eq_ok] at h
  obtain ⟨-, -, packaged, hpackaged, hsame, -⟩ := h
  rw [not_or, not_not, not_not] at hsame
  refine ⟨packaged, hpackaged, ?_⟩
  rw [hsame.1, hsame.2]

/-- What the two commands have in common when they ask for the evaluation. -/
structure RequestFacts (tools : Tools Root Dependencies) (reads : SourceReads)
    (request : HolRequest Dependencies) (sourceBytes digested : Bytes) : Prop where
  first : reads .first = some sourceBytes
  digest : reads .digest = some digested
  claims : namedClaims tools sourceBytes = .ok request.claims
  sourceSha256 : request.sourceSha256 = tools.sha256 sourceBytes
  describes : request.contract.Describes tools.sha256 sourceBytes request.payload
  entrypointSha256 : request.closure.entrypoint.sha256 = tools.sha256 digested
  packaged : ∃ packaged, reads .package = some packaged ∧
    request.closure.entrypoint = ⟨tools.sha256 packaged, packaged.length⟩
  dependencies : dependencySet tools (reads .boundary) (reads .analysis) =
    .ok request.closure.dependencies

theorem warmRun_facts {options : WarmOptions} {request : HolRequest Dependencies}
    (h : warmRun tools reads options = .ok request) :
    ∃ sourceBytes digested, RequestFacts tools reads request sourceBytes digested := by
  simp only [warmRun, bind_eq_ok, guard_eq_ok, pure_eq_ok, foundOr_eq_ok, probeStep_eq_ok] at h
  obtain ⟨sourceBytes, hfirst, -, claims, hclaims, -, -, -, closure, hclosure, -, -, instrumented,
    hinstrumented, done, hpackage, -, -, -, rfl⟩ := h
  obtain ⟨digested, sized, hdigest, -, hentrypoint, hdependencies⟩ :=
    captureSourceDependencyClosure_spec hclosure
  obtain ⟨hdescribes, hmore⟩ := instrumentedSourceBytes_describes hinstrumented
  refine ⟨sourceBytes, digested, ?_⟩
  exact {
    first := hfirst
    digest := hdigest
    claims := hclaims
    sourceSha256 := rfl
    describes := appendPostlude_describes hdescribes hmore
    entrypointSha256 := by
      change closure.entrypoint.sha256 = _
      rw [hentrypoint]
    packaged := materializeDependencyPackage_spec hpackage
    dependencies := hdependencies }

/-- In the cold command the digest of the closure is that of the first read as well. -/
theorem runVanilla_facts {token : String} {request : HolRequest Dependencies}
    (h : runVanilla tools reads token = .ok request) :
    ∃ sourceBytes digested, RequestFacts tools reads request sourceBytes digested ∧
      request.closure.entrypoint.sha256 = tools.sha256 sourceBytes := by
  simp only [runVanilla, bind_eq_ok, guard_eq_ok, pure_eq_ok, foundOr_eq_ok, probeStep_eq_ok] at h
  obtain ⟨sourceBytes, hfirst, claims, hclaims, -, -, -, closure, hclosure, validated, hsnapshot,
    instrumented, hinstrumented, done, hpackage, rfl⟩ := h
  obtain ⟨digested, sized, hdigest, -, hentrypoint, hdependencies⟩ :=
    captureSourceDependencyClosure_spec hclosure
  have hvalidated : closure.entrypoint.sha256 = tools.sha256 sourceBytes := by
    unfold validateVanillaSourceSnapshot at hsnapshot
    split at hsnapshot
    · cases hsnapshot
    · rename_i hsame
      rw [not_or, not_not, not_not] at hsame
      exact hsame.1
  refine ⟨sourceBytes, digested, ?_, hvalidated⟩
  exact {
    first := hfirst
    digest := hdigest
    claims := hclaims
    sourceSha256 := rfl
    describes := (buildClaimProbe_describes hinstrumented).1
    entrypointSha256 := by
      change closure.entrypoint.sha256 = _
      rw [hentrypoint]
    packaged := materializeDependencyPackage_spec hpackage
    dependencies := hdependencies }

/-- Without collisions, a request is about one snapshot exactly when the digest read
found what the first read found; and then the snapshot is that content. -/
theorem RequestFacts.oneSnapshot_iff {request : HolRequest Dependencies} {sourceBytes digested : Bytes}
    (hcollision : NoCollision tools.sha256 reads)
    (h : RequestFacts tools reads request sourceBytes digested) (bytes : Bytes) :
    request.OneSnapshot tools bytes ↔ bytes = sourceBytes ∧ digested = sourceBytes := by
  constructor
  · intro hsnapshot
    have hbytes : bytes = sourceBytes := by
      rw [← hsnapshot.embedded, h.describes.embedded]
    refine ⟨hbytes, ?_⟩
    have hdigest : tools.sha256 digested = tools.sha256 sourceBytes := by
      rw [← h.entrypointSha256, hsnapshot.entrypoint, hbytes]
    exact hcollision _ _ _ _ h.digest h.first hdigest
  · rintro ⟨rfl, rfl⟩
    obtain ⟨packaged, hread, hentrypoint⟩ := h.packaged
    have hdigest : tools.sha256 packaged = tools.sha256 digested := by
      rw [← h.entrypointSha256, hentrypoint]
    have hpackaged : packaged = digested := hcollision _ _ _ _ hread h.digest hdigest
    exact {
      embedded := h.describes.embedded
      claims := h.claims
      sourceSha256 := h.sourceSha256
      contractSha256 := h.describes.sourceSha256
      entrypoint := by rw [hentrypoint, hpackaged] }

/-- The dependencies are those of the snapshot exactly when the boundary and analysis
reads lead to the same ones. -/
theorem RequestFacts.dependenciesOf_iff {request : HolRequest Dependencies}
    {sourceBytes digested : Bytes} (h : RequestFacts tools reads request sourceBytes digested) :
    request.DependenciesOf tools sourceBytes ↔
      dependencySet tools (reads .boundary) (reads .analysis) =
        dependencySet tools (reads .first) (reads .first) := by
  rw [HolRequest.DependenciesOf, h.dependencies, h.first]
  exact eq_comm

end

/-- **Which source bytes a run is about.**  Whatever another program does to the source
while a command runs: a warm run that asks for the evaluation is about one snapshot of
the source exactly when the digest read of the closure finds what the first read found,
and a cold run always is.  In both the dependency set is that of the snapshot exactly
when the boundary and analysis reads lead to the same one. -/
theorem source_snapshot_exact (tools : Tools Root Dependencies) (reads : SourceReads)
    (hcollision : NoCollision tools.sha256 reads) :
    (∀ options request, warmRun tools reads options = .ok request →
      ((∃ bytes, request.OneSnapshot tools bytes) ↔ reads .digest = reads .first) ∧
      ((∃ bytes, request.OneSnapshot tools bytes ∧ request.DependenciesOf tools bytes) ↔
        reads .digest = reads .first ∧
          dependencySet tools (reads .boundary) (reads .analysis) =
            dependencySet tools (reads .first) (reads .first))) ∧
    (∀ token request, runVanilla tools reads token = .ok request →
      (∃ bytes, request.OneSnapshot tools bytes) ∧
      ((∃ bytes, request.OneSnapshot tools bytes ∧ request.DependenciesOf tools bytes) ↔
        dependencySet tools (reads .boundary) (reads .analysis) =
          dependencySet tools (reads .first) (reads .first))) := by
  constructor
  · intro options request h
    obtain ⟨sourceBytes, digested, hfacts⟩ := warmRun_facts h
    have hreads : reads .digest = reads .first ↔ digested = sourceBytes := by
      rw [hfacts.digest, hfacts.first, Option.some.injEq]
    simp only [hfacts.oneSnapshot_iff hcollision, hreads]
    constructor
    · simp
    · rw [← hfacts.dependenciesOf_iff]
      constructor
      · rintro ⟨bytes, ⟨rfl, hsame⟩, hdependencies⟩
        exact ⟨hsame, hdependencies⟩
      · rintro ⟨hsame, hdependencies⟩
        exact ⟨sourceBytes, ⟨rfl, hsame⟩, hdependencies⟩
  · intro token request h
    obtain ⟨sourceBytes, digested, hfacts, hvalidated⟩ := runVanilla_facts h
    have hsame : digested = sourceBytes := by
      apply hcollision _ _ _ _ hfacts.digest hfacts.first
      rw [← hfacts.entrypointSha256, hvalidated]
    have hsnapshot : request.OneSnapshot tools sourceBytes :=
      (hfacts.oneSnapshot_iff hcollision sourceBytes).mpr ⟨rfl, hsame⟩
    refine ⟨⟨sourceBytes, hsnapshot⟩, ?_⟩
    rw [← hfacts.dependenciesOf_iff]
    constructor
    · rintro ⟨bytes, hbytes, hdependencies⟩
      obtain ⟨rfl, -⟩ := (hfacts.oneSnapshot_iff hcollision bytes).mp hbytes
      exact hdependencies
    · intro hdependencies
      exact ⟨sourceBytes, hsnapshot, hdependencies⟩

/-! ## An edit behind the first read -/

/-- A source with one claim. -/
def sampleSource : Bytes :=
  utf8 "let T_THM = prove(`T`,REWRITE_TAC[]);;"

/-- The same source, with another proof. -/
def editedSource : Bytes :=
  utf8 "let T_THM = prove(`T`,ACCEPT_TAC TRUTH);;"

/-- The digests of the sample's texts. -/
def sampleSha256 (bytes : Bytes) : String :=
  if bytes = sampleSource then
    "5148de426866a137940f270c3b6e654974c6970ffed430524eded434df6d65d8"
  else if bytes = editedSource then
    "b54b5813aa621d49658cc80ce30b1ff9be28ca63b8a799d7d0c0dcfd51ac7d6d"
  else if bytes = utf8 "`T`" then
    "c72ac912bf6b2c6cf233052fe08c431b796a76f5c4df4e5a41b0b4eb31f757cc"
  else "e3b0c44298fc1c149afbf4c8996fb92427ae41e4649b934ca495991b7852b855"

/-- The claim of either source. -/
def truthClaim : Claim where
  name := some "T_THM"
  statementQuote := some "`T`"
  statementExtractable := true
  statementQuoteSha256 := some "c72ac912bf6b2c6cf233052fe08c431b796a76f5c4df4e5a41b0b4eb31f757cc"
  sourceLine := some 1
  statementEndLine := some 1

/-- An environment in which neither source loads anything. -/
def sampleTools : Tools Unit Unit where
  sha256 := sampleSha256
  extractHolTheorems := fun _ => .ok [truthClaim]
  diagnosticPrelude := fun _ => []
  holSyntaxPreflight := fun _ => none
  vanillaSourceContext := fun _ => .ok ()
  validateLogicalSourceRoots := fun _ => .ok ()
  sourceBoundary := fun _ => .ok ()
  visitEntrypoint := fun _ _ => .ok ()
  strictDigest := fun entrypoint _ => entrypoint.sha256
  decideProfileSatisfaction := fun _ => .ok ()
  dependencyTransportStatus := fun _ => .ok ()
  sourceExecutionPrelude := fun _ => []
  packageDependencies := fun _ => .ok ()
  admitEvaluation := fun _ => .ok ()

def sampleOptions : WarmOptions :=
  ⟨none, false, "0123456789abcdef0123456789abcdef", [], []⟩

/-- The reads when the source is rewritten just behind the first read. -/
def editedBehindFirstRead : SourceReads
  | .first => some sampleSource
  | _ => some editedSource

theorem sampleSha256_ne : sampleSha256 sampleSource ≠ sampleSha256 editedSource := by
  decide +kernel

theorem noCollision_undisturbed (content : Bytes) : NoCollision sampleSha256 (undisturbed content) := by
  intro read read' bytes bytes' h h' _
  exact Option.some.inj (h.symm.trans h')

theorem noCollision_edited : NoCollision sampleSha256 editedBehindFirstRead := by
  have hcontent : ∀ read bytes, editedBehindFirstRead read = some bytes →
      bytes = sampleSource ∨ bytes = editedSource := by
    intro read bytes h
    cases read <;> simp [editedBehindFirstRead] at h <;> simp [h]
  intro read read' bytes bytes' h h' hdigest
  rcases hcontent read bytes h with rfl | rfl <;> rcases hcontent read' bytes' h' with rfl | rfl
  · rfl
  · exact absurd hdigest sampleSha256_ne
  · exact absurd hdigest.symm sampleSha256_ne
  · rfl

/-- A computation that returns a value. -/
theorem exists_of_isOk {ε α : Type} {x : Except ε α} (h : x.isOk = true) : ∃ value, x = .ok value := by
  cases x with
  | error error => cases h
  | ok value => exact ⟨value, rfl⟩

/-- The warm command evaluates the old source against the closure of the new one. -/
theorem source_snapshot_torn : ∃ request,
    warmRun sampleTools editedBehindFirstRead sampleOptions = .ok request ∧
      ¬ ∃ bytes, request.OneSnapshot sampleTools bytes := by
  have hok : (warmRun sampleTools editedBehindFirstRead sampleOptions).isOk = true := by
    decide +kernel
  obtain ⟨request, hrequest⟩ := exists_of_isOk hok
  refine ⟨request, hrequest, ?_⟩
  obtain ⟨sourceBytes, digested, hfacts⟩ := warmRun_facts hrequest
  have hfirst : sampleSource = sourceBytes := Option.some.inj hfacts.first
  have hdigest : editedSource = digested := Option.some.inj hfacts.digest
  rintro ⟨bytes, hsnapshot⟩
  obtain ⟨-, hsame⟩ := (hfacts.oneSnapshot_iff noCollision_edited bytes).mp hsnapshot
  apply sampleSha256_ne
  rw [hfirst, hdigest, hsame]

theorem source_snapshot_exact_undisturbed :
    (∃ request, warmRun sampleTools (undisturbed sampleSource) sampleOptions = .ok request ∧
      ∃ bytes, request.OneSnapshot sampleTools bytes ∧ request.DependenciesOf sampleTools bytes) ∧
    (∃ request, runVanilla sampleTools (undisturbed sampleSource) sampleOptions.probeNonce =
        .ok request ∧
      ∃ bytes, request.OneSnapshot sampleTools bytes ∧ request.DependenciesOf sampleTools bytes) := by
  have hwarm : (warmRun sampleTools (undisturbed sampleSource) sampleOptions).isOk = true := by
    decide +kernel
  have hcold : (runVanilla sampleTools (undisturbed sampleSource)
      sampleOptions.probeNonce).isOk = true := by
    decide +kernel
  obtain ⟨warm, hwarm⟩ := exists_of_isOk hwarm
  obtain ⟨cold, hcold⟩ := exists_of_isOk hcold
  have hexact := source_snapshot_exact sampleTools (undisturbed sampleSource)
    (noCollision_undisturbed sampleSource)
  exact ⟨⟨warm, hwarm, (hexact.1 _ _ hwarm).2.mpr ⟨rfl, rfl⟩⟩,
    ⟨cold, hcold, (hexact.2 _ _ hcold).2.mpr rfl⟩⟩

end Hearth.Replay
