import Hearth.Closure.ProjectInputs

/-!
# The identity of a closure document

`_strict_digest` hashes the portable part of a closure document, field by field, and
`source_dependency_closure_identity_matches` accepts a document if everything that is
derived in it, the digest last, follows from the rest.

A document is a dictionary; a row of it may lack a field, which then counts as `null`.
-/

namespace Hearth.Closure

open Hearth.Library

/-- `DEPENDENCY_CLOSURE_SCHEMA`. -/
def dependencyClosureSchema : String := "proof-run.source-dependency-closure.v16"

/-- `DEPENDENCY_IDENTITY_SCOPE`. -/
def dependencyIdentityScope : String :=
  "declared source package entrypoint plus ordered statically resolved per-declaring-file source-local, " ++
    "profile-declared logical source-root, explicit-marker or nearest-repository-bounded package " ++
    "source, registered same-repository linked-worktree overlay, and exact cold-HOLDIR strict-token " ++
    "literal needs/loadt/loads/load/#use closure plus the same exact-literal, canonical-" ++
    "project-input-context-bound define_from_elf/define_assert_from_elf projection including lexical " ++
    "refusal, dynamic, and collision records; absolute and dynamic source-loader paths plus " ++
    "profile/basis files are excluded"

/-! ## The digest -/

/-- The keys of a record that are hashed. -/
def recordIdentityKeys : List String :=
  ["loader", "declared_path", "declaring_file", "source_line", "depth", "via", "resolution",
    "resolved_file", "package_path", "runtime_literal_path", "resolution_base", "logical_source_root",
    "sha256", "size_bytes", "traversal", "symlinked", "declared_theorems"]

/-- The keys of an artifact that are hashed. -/
def artifactIdentityKeys : List String :=
  ["loader", "name", "declared_path", "declaring_file", "source_line", "resolution", "resolution_base",
    "package_path", "sha256", "size_bytes", "symlinked", "lexical_parent_component",
    "complete_path_argument"]

/-- The keys of a dynamic artifact that are hashed. -/
def dynamicArtifactIdentityKeys : List String :=
  ["loader", "name", "declaring_file", "source_line", "expression", "complete_path_argument", "reason"]

/-- What `_strict_digest` is called with. -/
structure StrictInputs where
  entrypoint : Json
  records : List Json
  boundary : Json
  projectInputContext : Json
  coldHoldirResolutionEnabled : Json
  sourceOverlayEnabled : Json
  sourceOverlayValidation : Json
  logicalSourceRootIdentity : Json
  dynamicLoaders : List Json
  artifacts : List Json
  dynamicArtifacts : List Json
  projectInputProjectionSha256 : Json

/-- The payload of `_strict_digest`. -/
def StrictInputs.payload (inputs : StrictInputs) : Json :=
  Json.dict [
    ("schema", .str dependencyClosureSchema),
    ("identity_scope", .str dependencyIdentityScope),
    ("boundary", inputs.boundary),
    ("project_input_context", inputs.projectInputContext),
    ("cold_holdir_resolution_enabled", inputs.coldHoldirResolutionEnabled),
    ("source_overlay_enabled", inputs.sourceOverlayEnabled),
    ("source_overlay_validation", inputs.sourceOverlayValidation),
    ("logical_source_roots", inputs.logicalSourceRootIdentity),
    ("entrypoint", Json.pick ["package_path", "sha256", "size_bytes"] inputs.entrypoint),
    ("records", .arr (inputs.records.map (Json.pick recordIdentityKeys))),
    ("dynamic_loaders", .arr inputs.dynamicLoaders),
    ("artifacts", .arr (inputs.artifacts.map (Json.pick artifactIdentityKeys))),
    ("dynamic_artifacts", .arr (inputs.dynamicArtifacts.map (Json.pick dynamicArtifactIdentityKeys))),
    ("project_input_projection_sha256", inputs.projectInputProjectionSha256)]

/-- `_strict_digest`. -/
def Machine.strictDigest (machine : Machine) (inputs : StrictInputs) : Json :=
  machine.digestOf inputs.payload

/-! ## What is derived from the rows -/

/-- `_runtime_load_rule`. -/
def runtimeLoadRule (logicalRoots sourceOverlay coldHoldir : Bool) : String :=
  "_then_".intercalate (["declaring_file_directory", "captured_source_package_root"] ++
    (if logicalRoots then ["profile_declared_logical_source_roots"] else []) ++
    (if sourceOverlay then ["registered_source_overlay"] else []) ++
    [if coldHoldir then "exact_cold_holdir" else "profile_fallback"])

/-- `source_overlay_validation`. -/
def sourceOverlayValidation (sourceOverlay : Bool) : String :=
  if sourceOverlay then "same_git_common_dir_registered_worktree" else "disabled"

/-- The records that do not resolve to a source file. -/
def unresolvedCount (records : List Json) : ℕ :=
  records.countP fun record => !isOneOf resolvedSourceKinds (record.get "resolution")

/-- The artifacts that do not resolve to a project file. -/
def unresolvedArtifactCount (artifacts : List Json) : ℕ :=
  artifacts.countP fun artifact => artifact.get "resolution" ≠ .str "source_local"

/-- The `resolved_file` of the records with this resolution; the entrypoint is no local file. -/
def resolvedFiles (resolution : String) (records : List Json) : List Json :=
  ((records.filter fun record => record.get "resolution" = .str resolution).map fun record =>
    record.get "resolved_file").filter fun file => resolution ≠ "source_local" || file ≠ .str "<entrypoint>"

/-- `resolved_literal_closure`. -/
def resolvedLiteralClosure (records artifacts limitReasons : List Json) (projectInputs : Json) : Bool :=
  unresolvedCount records = 0 && unresolvedArtifactCount artifacts = 0 && limitReasons.isEmpty &&
    projectInputs.get "status" ≠ .str "blocked"

/-- The fields of a closure document that count its rows and sum them up. -/
def derivedFields (closure : Json) : List (String × Json) :=
  let records := (closure.get "records").items
  let dynamicLoaders := (closure.get "dynamic_loaders").items
  let artifacts := (closure.get "artifacts").items
  let dynamicArtifacts := (closure.get "dynamic_artifacts").items
  [ ("literal_edge_count", .int records.length),
    ("source_local_file_count", .int (Json.distinct (resolvedFiles "source_local" records))),
    ("source_overlay_file_count", .int (Json.distinct (resolvedFiles "source_overlay" records))),
    ("mounted_source_file_count", .int (Json.distinct (resolvedFiles "mounted_source" records))),
    ("holdir_source_file_count", .int (Json.distinct (resolvedFiles "holdir_source" records))),
    ("unresolved_or_external_count", .int (unresolvedCount records)),
    ("dynamic_loader_count", .int dynamicLoaders.length),
    ("literal_artifact_count", .int artifacts.length),
    ("dynamic_artifact_count", .int dynamicArtifacts.length),
    ("unresolved_artifact_count", .int (unresolvedArtifactCount artifacts))]

/-! ## The check of a document -/

/-- The dictionary without these keys. -/
def withoutKeys (keys : List String) : Json → Json
  | .obj fields => .obj (fields.filter fun field => field.1 ∉ keys)
  | value => value

/-- The projection without the explanatory label of its declaration. -/
def withoutMeaning : Json → Json
  | .obj fields => .obj (fields.map fun field =>
      if field.1 = "declaration" then (field.1, withoutKeys ["meaning"] field.2) else field)
  | value => value

namespace Machine

variable (machine : Machine)

/-- The schema and the types of the fields. -/
def hasClosureShape (closure : Json) : Bool :=
  closure.get "schema" = .str dependencyClosureSchema &&
    closure.get "identity_scope" = .str dependencyIdentityScope &&
    (closure.get "entrypoint").isDict && (closure.get "records").isList &&
    (closure.get "boundary").isDict && (closure.get "project_root").isStr &&
    (closure.get "project_root_boundary").isDict && (closure.get "project_input_context").isDict &&
    (closure.get "dynamic_loaders").isList && (closure.get "artifacts").isList &&
    (closure.get "dynamic_artifacts").isList && (closure.get "project_inputs").isDict &&
    (closure.get "limit_reasons").isList && (closure.get "cold_holdir_resolution_enabled").isBool &&
    (closure.get "source_overlay_enabled").isBool && (closure.get "source_overlay_validation").isStr &&
    (closure.get "logical_source_roots").isDict &&
    logicalSourceRootIdentityIsValid machine.repr (closure.get "logical_source_roots")

/-- The context is consistent and is that of the closure. -/
def contextMatches (closure : Json) : Bool :=
  let context := closure.get "project_input_context"
  machine.contextIsConsistent context &&
    Json.equal (context.get "source") ((closure.get "entrypoint").get "path") &&
    Json.equal (context.get "source_dependency_root") (closure.get "root") &&
    Json.equal (context.get "project_root") (closure.get "project_root") &&
    Json.equal (context.get "root_facts") (closure.get "project_root_boundary")

/-- The rows of the closure are dictionaries with fields that sets can hold. -/
def rowsAreDicts (closure : Json) : Bool :=
  (closure.get "records").items.all (fun record =>
      record.isDict && hashable (record.get "resolution") &&
        (!isOneOf resolvedSourceKinds (record.get "resolution") ||
          hashable (record.get "resolved_file"))) &&
    (closure.get "dynamic_loaders").items.all Json.isDict &&
    (closure.get "artifacts").items.all Json.isDict &&
    (closure.get "dynamic_artifacts").items.all Json.isDict

/-- The stored projection is the one that is built from the rest. -/
def projectionMatches (closure : Json) : Bool :=
  let projectInputs := closure.get "project_inputs"
  let stored := withoutKeys
    ["source_dependency_closure_sha256", "source_dependency_closure_schema"] projectInputs
  let projectionDigest := machine.projectInputProjectionSha256 projectInputs
  (machine.buildProjectInputProjection closure).any (fun rebuilt =>
      Json.equal (withoutMeaning stored) (withoutMeaning rebuilt)) &&
    projectInputs.get "projection_sha256" = projectionDigest &&
    closure.get "project_input_projection_sha256" = projectionDigest &&
    Json.equal (projectInputs.get "source_dependency_closure_sha256") (closure.get "strict_sha256") &&
    projectInputs.get "source_dependency_closure_schema" = .str dependencyClosureSchema

/-- The load rule, the counts and the two summaries follow from the rows. -/
def summariesMatch (closure : Json) : Bool :=
  let resolved := resolvedLiteralClosure (closure.get "records").items (closure.get "artifacts").items
    (closure.get "limit_reasons").items (closure.get "project_inputs")
  let overlay := (closure.get "source_overlay_enabled").truthy
  closure.get "runtime_load_rule" = .str (runtimeLoadRule
      ((closure.get "logical_source_roots").get "roots").truthy overlay
      (closure.get "cold_holdir_resolution_enabled").truthy) &&
    closure.get "source_overlay_validation" = .str (sourceOverlayValidation overlay) &&
    (derivedFields closure).all (fun field => Json.equal (closure.get field.1) field.2) &&
    closure.get "resolved_literal_closure" = .bool resolved &&
    closure.get "semantic_identity_complete" = .bool (resolved &&
      (closure.get "dynamic_loaders").items.isEmpty && (closure.get "dynamic_artifacts").items.isEmpty)

/-- What the digest of a document is recomputed from. -/
def strictInputs (closure : Json) : StrictInputs where
  entrypoint := closure.get "entrypoint"
  records := (closure.get "records").items
  boundary := closure.get "boundary"
  projectInputContext := projectInputContextIdentityPayload (closure.get "project_input_context")
  coldHoldirResolutionEnabled := closure.get "cold_holdir_resolution_enabled"
  sourceOverlayEnabled := closure.get "source_overlay_enabled"
  sourceOverlayValidation := closure.get "source_overlay_validation"
  logicalSourceRootIdentity := closure.get "logical_source_roots"
  dynamicLoaders := (closure.get "dynamic_loaders").items
  artifacts := (closure.get "artifacts").items
  dynamicArtifacts := (closure.get "dynamic_artifacts").items
  projectInputProjectionSha256 := machine.projectInputProjectionSha256 (closure.get "project_inputs")

/-- `closure["entrypoint"]` has the fields that are hashed. -/
def entrypointIsComplete (entrypoint : Json) : Bool :=
  ["package_path", "sha256", "size_bytes"].all fun key => (entrypoint.field key).isSome

/-- `source_dependency_closure_identity_matches` returns true. -/
def sourceDependencyClosureIdentityMatches (closure : Json) : Bool :=
  machine.hasClosureShape closure && machine.contextMatches closure && rowsAreDicts closure &&
    machine.projectionMatches closure && summariesMatch closure &&
    entrypointIsComplete (closure.get "entrypoint") &&
    closure.get "strict_sha256" = machine.strictDigest (machine.strictInputs closure)

end Machine

/-! ## What equal digests say -/

/-- The two values agree on these keys. -/
def SameOn (keys : List String) (one other : Json) : Prop :=
  ∀ key ∈ keys, Json.Same (one.get key) (other.get key)

/-- Lists of rows that are the same where they are picked agree row by row. -/
theorem sameOn_of_same_pick {keys : List String} {one other : List Json}
    (h : Json.Same (.arr (one.map (Json.pick keys))) (.arr (other.map (Json.pick keys)))) :
    List.Forall₂ (SameOn keys) one other := by
  have hrows := h.items
  rw [List.forall₂_map_left_iff, List.forall₂_map_right_iff] at hrows
  apply hrows.imp
  intro row later hrow key hkey
  exact Json.Same.of_pick hrow hkey

theorem get_payload_records (inputs : StrictInputs) :
    inputs.payload.get "records" = .arr (inputs.records.map (Json.pick recordIdentityKeys)) := by
  rw [StrictInputs.payload, Json.get_dict]
  rfl

theorem get_payload_artifacts (inputs : StrictInputs) :
    inputs.payload.get "artifacts" = .arr (inputs.artifacts.map (Json.pick artifactIdentityKeys)) := by
  rw [StrictInputs.payload, Json.get_dict]
  rfl

/-- Equal digests of an injective hash are digests of the same value. -/
theorem same_of_digestOf {machine other : Machine} (hinjective : Function.Injective machine.sha256)
    (hmachine : other.sha256 = machine.sha256) {value later : Json}
    (h : machine.digestOf value = other.digestOf later) : Json.Same value later := by
  unfold Machine.digestOf at h
  rw [hmachine] at h
  have hbytes : asciiBytes value.dumps = asciiBytes later.dumps := hinjective (Json.str.inj h)
  have htext : some value.dumps = some later.dumps := by
    calc some value.dumps
        = charsOfBytes (asciiBytes value.dumps) :=
          (charsOfBytes_asciiBytes (Json.ascii_render _)).symm
      _ = charsOfBytes (asciiBytes later.dumps) := by rw [hbytes]
      _ = some later.dumps := charsOfBytes_asciiBytes (Json.ascii_render _)
  exact Json.same_of_dumps (Option.some.inj htext)

/-- Two accepted documents with one digest agree on every hashed key of their rows. -/
theorem rows_same_of_digest {machine other : Machine} (hinjective : Function.Injective machine.sha256)
    (hmachine : other.sha256 = machine.sha256) {one later : Json}
    (hone : machine.sourceDependencyClosureIdentityMatches one = true)
    (hlater : other.sourceDependencyClosureIdentityMatches later = true)
    (hdigest : one.get "strict_sha256" = later.get "strict_sha256") :
    List.Forall₂ (SameOn recordIdentityKeys) (one.get "records").items (later.get "records").items ∧
      List.Forall₂ (SameOn artifactIdentityKeys) (one.get "artifacts").items
        (later.get "artifacts").items := by
  unfold Machine.sourceDependencyClosureIdentityMatches at hone hlater
  rw [Bool.and_eq_true, decide_eq_true_eq] at hone hlater
  rw [hone.2, hlater.2] at hdigest
  have hsame : Json.Same (machine.strictInputs one).payload (other.strictInputs later).payload :=
    same_of_digestOf hinjective hmachine hdigest
  constructor
  · have hrecords := hsame.get "records"
    rw [get_payload_records, get_payload_records] at hrecords
    exact sameOn_of_same_pick hrecords
  · have hartifacts := hsame.get "artifacts"
    rw [get_payload_artifacts, get_payload_artifacts] at hartifacts
    exact sameOn_of_same_pick hartifacts

end Hearth.Closure
