import Hearth.Closure.Build

/-!
# Transport of a captured closure

`dependency_transport_status` decides whether the files of a closure make a package, and
`materialize_dependency_package` writes it: the entrypoint and the file of every packaged
record at its package path, re-read and compared with the closure's digests.
-/

namespace Hearth.Closure

open Hearth.Library
open Hearth.Library.Parts

/-! ## Classification -/

/-- A status that starts with `packaged`, or a refusal with its status and reason. -/
inductive TransportStatus
  | packaged | packagedWithProfileFallback | packagedWithProfileSatisfaction
  | refused (status reason : String)
  deriving DecidableEq, Repr

def TransportStatus.isPackaged : TransportStatus → Bool
  | .refused _ _ => false
  | _ => true

/-- What the profile-satisfaction document decides: `_profile_record_index_sets`, and how
many edges it declares. -/
structure ProfileDecision where
  declaredEdges : ℕ
  satisfied : List ℕ
  runtime : List ℕ
  deriving DecidableEq, Repr

def ProfileDecision.none : ProfileDecision :=
  ⟨0, [], []⟩

/-- The literal is absolute, also by way of a home directory. -/
def expandsToAbsolute (declared : String) : Bool :=
  (RawPath.ofString declared).isAbsolute ||
    (RawPath.ofString declared).parts.head?.any fun first => first.toList.head? = some '~'

/-- The loaders that the load prelude wraps. -/
def packageLoaders : List String := ["needs", "loadt", "loads"]

/-- The checks of one record that do not look at the other records: a refusal, or whether
the record is left to the profile. -/
def checkRecord (coldHoldir : Bool) (decision : ProfileDecision) (index : ℕ) (record : Record) :
    Except (String × String) Bool :=
  let declared := record.declaredPath
  let mountName := record.logicalSourceRoot.getD ""
  match record.resolution with
  | .externalResolved =>
      if index ∈ decision.satisfied then pure false
      else throw ("refused_external_runtime_dependency",
        "literal dependency resolves outside the declared source root: " ++ declared)
  | resolution =>
      if record.symlinked then
        throw ("refused_symlinked_dependency",
          "literal dependency traverses a symlinked path: " ++ declared)
      else
        match resolution with
        | .sourceOverlayConflict =>
            throw ("refused_source_overlay_conflict",
              "registered source worktree and exact cold HOLDIR differ at: " ++ declared)
        | .unresolvedMountedSource =>
            throw ("refused_missing_logical_source_dependency",
              "logical source root '" ++ mountName ++ "' has no regular target for " ++ declared ++
                "; run `hol-workbench/dev/reconcile-source-layout --materialize " ++ mountName ++
                "`, then rerun the same prove command")
        | .unavailableLogicalSourceRoot =>
            throw ("refused_logical_source_root",
              "declared logical source root '" ++ mountName ++ "' is unavailable; run " ++
                "`hol-workbench/dev/reconcile-source-layout --materialize " ++ mountName ++
                "` if it is managed")
        | .invalidLogicalSourcePath =>
            throw ("refused_invalid_logical_source_path",
              "logical source literal is not canonical ALIAS/nonempty/clean/path spelling: " ++ declared)
        | .unresolved =>
            if index ∈ decision.satisfied then pure false
            else if index ∈ decision.runtime then pure true
            else if expandsToAbsolute declared ∨ declared = "." ∨ declared = ".." ∨
                startsDotted declared.toList then
              throw ("refused_missing_source_dependency",
                "explicit dependency path is missing from the declared source root: " ++ declared)
            else if coldHoldir then
              throw ("refused_missing_holdir_dependency",
                "literal dependency is missing from the exact cold HOLDIR: " ++ declared)
            else pure true
        | _ => pure false

/-- The checks of one record that come first. -/
def checkRecordLoader (record : Record) : Except (String × String) Unit :=
  let declared := record.declaredPath
  if record.resolution = .unresolvedSourceRoot then
    throw ("refused_missing_source_dependency",
      "literal dependency is missing from the selected source package: " ++ declared)
  else if record.packageRootBased ∧ record.loader ∉ packageLoaders then
    throw ("refused_source_root_loader",
      "package-root-relative loads require needs, loadt, or loads: " ++ declared)
  else if record.loader = "load" ∧
      (record.resolution = .mountedSource ∨ record.resolution = .unresolvedMountedSource) then
    throw ("refused_mapped_bare_load",
      "mapped bare load is unsupported; replace it with needs, loadt, or loads: " ++ declared)
  else pure ()

/-- `runtime_paths.setdefault` for a mounted record. -/
def claimRuntimePath (paths : List (String × Parts)) (record : Record) :
    Except (String × String) (List (String × Parts)) :=
  match record.resolution, record.runtimeLiteralPath, record.packagePath with
  | .mountedSource, some literal, some packagePath =>
      if literal = "" then pure paths
      else
        match paths.lookup literal with
        | none => pure ((literal, packagePath) :: paths)
        | some previous =>
            if previous = packagePath then pure paths
            else throw ("refused_runtime_path_collision",
              "logical source literal resolves to multiple package files: " ++ literal)
  | _, _, _ => pure paths

/-- The loop over the records: whether any of them is left to the profile. -/
def checkRecords (coldHoldir : Bool) (decision : ProfileDecision) :
    ℕ → List (String × Parts) → List Record → Except (String × String) Bool
  | _, _, [] => pure false
  | index, paths, record :: records => do
      checkRecordLoader record
      let paths ← claimRuntimePath paths record
      let fallback ← checkRecord coldHoldir decision index record
      let rest ← checkRecords coldHoldir decision (index + 1) paths records
      pure (fallback || rest)

namespace SourceClosure

variable (closure : SourceClosure)

/-- The literal of two artifacts with different package paths. -/
def artifactPathCollision : Option String :=
  let rows := (closure.artifacts.filter fun artifact => artifact.resolution = .sourceLocal).filterMap
    fun artifact => artifact.runtimeLiteralPath.bind fun literal =>
      if literal = "" then none else artifact.packagePath.map fun packagePath => (literal, packagePath)
  (rows.find? fun row => (rows.lookup row.1).any fun first => first ≠ row.2).map Prod.fst

/-- `dependency_transport_status` of a closure whose identity matches; the reason of a
blocked project input is the report's. -/
def dependencyTransportStatus (decision : ProfileDecision) : TransportStatus :=
  if closure.projectInputsBlocked then
    .refused (if closure.packageCollision || closure.logicalNameCollision then "project_input_collision"
      else "project_input_invalid") "project input readiness is blocked"
  else
    match closure.dynamicLoaders with
    | first :: _ =>
        .refused "refused_dynamic" (RawPath.relativeText first.declaringFile ++ ":" ++
          toString first.row.sourceLine ++ ": " ++ first.row.loader ++ " (" ++ first.row.reason.getD "uncaptured input" ++
          "); file execution, module exports, directory changes, or nonliteral loader references " ++
          "are outside the literal package contract. Use literal needs/loadt/loads for file imports; " ++
          "leaf-needs --deep lists all input blockers")
    | [] =>
        if !closure.dynamicArtifacts.isEmpty then
          .refused "refused_dynamic_artifact"
            "dynamic define_from_elf/define_assert_from_elf calls are outside the literal package contract"
        else if !closure.limitReasons.isEmpty then
          .refused "refused_limits" "the bounded literal dependency scan did not finish"
        else if closure.records.any fun record =>
            record.loader = "#use" && record.declaringFile ≠ ["<entrypoint>"] then
          .refused "refused_nested_use" ("nested #use is not runtime-exact outside the package " ++
            "entrypoint; replace it with needs/loadt/loads")
        else if decision.declaredEdges ≠ 0 ∧
            (decision.satisfied ∪ decision.runtime).length ≠ decision.declaredEdges then
          .refused "refused_profile_satisfaction_identity_invalid"
            "profile-satisfaction decision identity is invalid"
        else
          match closure.artifactPathCollision with
          | some literal => .refused "refused_runtime_path_collision"
              ("literal ELF path resolves to multiple package files: " ++ literal)
          | none =>
              match checkRecords closure.roots.holdirRoot.isSome decision 0 [] closure.records with
              | .error (status, reason) => .refused status reason
              | .ok true => .packagedWithProfileFallback
              | .ok false =>
                  if decision.satisfied.isEmpty then .packaged else .packagedWithProfileSatisfaction

end SourceClosure

/-! ## Materialization -/

/-- A file of the package. -/
structure PackagedFile where
  role : PackageRole
  packagePath : Parts
  resolvedPath : Parts
  sha256 : String
  contents : Bytes
  deriving DecidableEq, Repr

/-- What `materialize_dependency_package` raises. -/
inductive PackageError
  /-- `DependencyPackageError` with its status. -/
  | refused (status : String)
  /-- The `OSError` of a file where a directory is needed, or the reverse. -/
  | pathConflict
  deriving DecidableEq, Repr

/-- `_safe_package_path`. -/
def safePackagePath (path : Parts) : Except PackageError Unit :=
  if path = [] ∨ ¬ Clean path then throw (.refused "refused_unsafe_path") else pure ()

/-- `_write_read_only`: the directories above are made, the path is a new file. -/
def writeReadOnly (files : List PackagedFile) (file : PackagedFile) :
    Except PackageError (List PackagedFile) :=
  if files.any fun other => Within other.packagePath file.packagePath ||
      Within file.packagePath other.packagePath then
    throw .pathConflict
  else pure (files ++ [file])

/-- One file: claimed, checked, re-read beneath its trusted root, compared and written.
A path that is claimed for the same identity is not written again. -/
def packageFile (fs : FileSystem) (sha256 : Bytes → String) (files : List PackagedFile)
    (packagePath : Parts) (identity : PackageIdentity) (trustedRoot : Option Parts) :
    Except PackageError (List PackagedFile) :=
  match identity.resolvedPath with
  | none => throw (.refused "refused_missing_manifest_path")
  | some resolved =>
      match files.find? fun file => file.packagePath = packagePath with
      | some previous =>
          if (⟨previous.role, some previous.sha256, some previous.contents.length,
              some previous.resolvedPath⟩ : PackageIdentity) = identity then
            pure files
          else throw (.refused "refused_package_path_collision")
      | none => do
          safePackagePath packagePath
          match trustedRoot with
          | none => throw (.refused "refused_missing_manifest_path")
          | some root =>
              match fs.readBeneath root resolved with
              | .error _ => throw (.refused "refused_dependency_changed")
              | .ok data =>
                  if identity.sha256 ≠ some (sha256 data) ∨ identity.sizeBytes ≠ some data.length then
                    throw (.refused "refused_dependency_changed")
                  else writeReadOnly files ⟨identity.role, packagePath, resolved, sha256 data, data⟩

/-- The packaged records, one after the other. -/
def packageRecords (fs : FileSystem) (sha256 : Bytes → String) :
    List PackagedFile → List Record → Except PackageError (List PackagedFile)
  | files, [] => pure files
  | files, record :: records =>
      if record.packaged then do
        let files ← packageFile fs sha256 files (record.packagePath.getD []) record.identity
          record.trustedRootPath
        packageRecords fs sha256 files records
      else packageRecords fs sha256 files records

/-- The artifacts, one after the other. -/
def packageArtifacts (fs : FileSystem) (sha256 : Bytes → String) :
    List PackagedFile → List Artifact → Except PackageError (List PackagedFile)
  | files, [] => pure files
  | files, artifact :: artifacts =>
      if artifact.resolution = .sourceLocal then do
        let files ← packageFile fs sha256 files (artifact.packagePath.getD [])
          ⟨.literalElfArtifact, artifact.sha256, artifact.sizeBytes, artifact.resolvedPath⟩
          (some artifact.projectRoot)
        packageArtifacts fs sha256 files artifacts
      else packageArtifacts fs sha256 files artifacts

/-- `materialize_dependency_package`: the files of the package.  The tree is read again, so
it is an argument of its own. -/
def materializeDependencyPackage (fs : FileSystem) (sha256 : Bytes → String)
    (closure : SourceClosure) (decision : ProfileDecision) : Except PackageError (List PackagedFile) :=
  match closure.dependencyTransportStatus decision with
  | .refused status _ => throw (.refused status)
  | _ =>
      match fs.readBeneath closure.roots.root closure.entrypoint.path with
      | .error _ => throw (.refused "refused_source_changed")
      | .ok data =>
          if sha256 data ≠ closure.entrypoint.sha256 ∨ data.length ≠ closure.entrypoint.sizeBytes then
            throw (.refused "refused_source_changed")
          else do
            safePackagePath closure.entrypoint.packagePath
            let files ← packageRecords fs sha256
              [⟨.entrypoint, closure.entrypoint.packagePath, closure.entrypoint.path, sha256 data, data⟩]
              closure.records
            packageArtifacts fs sha256 files closure.artifacts

end Hearth.Closure
