import Hearth.Closure.Boundary
import Hearth.Closure.LogicalRoots

/-!
# The projection of project inputs

`build_project_input_projection` reads a closure document and makes the report of its ELF
inputs that the document keeps: a row for each artifact, the collisions of names and of
package paths, and one status.  The builder of a closure calls it once, and whoever checks
the closure calls it again.

`none` is an exception; a document may hold any value in any field.
-/

namespace Hearth.Closure

open Hearth.Library
open Hearth.Library.Parts

/-- `PROJECT_INPUT_READINESS_SCHEMA`. -/
def projectInputReadinessSchema : String := "hol-workbench.project-input-readiness.v2"

/-- `PROJECT_INPUT_DECLARATION_SCHEMA`. -/
def projectInputDeclarationSchema : String := "hol-workbench.project-inputs.v1"

/-- `PROJECT_INPUT_DECLARATION`. -/
def projectInputDeclaration : String := ".hol-workbench-project-inputs.json"

/-- `_MAX_DECLARATION_BYTES`. -/
def maxDeclarationBytes : ℕ := 16384

/-- `_MAX_BUILD_HINT_CHARS`. -/
def maxBuildHintChars : ℕ := 500

/-- A set can hold the value. -/
def hashable : Json → Bool
  | .arr _ | .obj _ => false
  | _ => true

/-- The value is one of these texts. -/
def isOneOf (texts : List String) (value : Json) : Bool :=
  texts.any fun text => value = .str text

/-- `resolved_source_kinds`. -/
def resolvedSourceKinds : List String :=
  ["source_local", "source_overlay", "holdir_source", "mounted_source"]

namespace Machine

variable (machine : Machine)

/-- `str(value)`. -/
def text (value : Json) : String :=
  str machine.repr value

/-- `str(value or "")`. -/
def textOr (value : Json) : String :=
  machine.text (value.orElse (.str ""))

/-! ## The declaration of the project -/

/-- `" ".join(text.split())`. -/
def normalizeSpace (text : String) : String :=
  " ".intercalate (((text.toList.splitOnP machine.isSpace).filter (· ≠ [])).map String.ofList)

/-- A declaration row; later fields replace earlier ones. -/
def declarationReport (declaration : Parts) (fields : List (String × Json)) : Json :=
  Json.dict ([("path", .str (RawPath.absoluteText declaration)), ("status", .str "absent"),
    ("meaning", .str "optional display-only project metadata; Hearth never executes it")] ++ fields)

def invalidDeclaration (declaration : Parts) (reason : String) : Json :=
  declarationReport declaration [("status", .str "invalid"), ("reason", .str reason)]

/-- `_project_declaration`. -/
def projectDeclaration (projectRoot : Parts) : Json :=
  let declaration := projectRoot ++ [projectInputDeclaration]
  let digest := Json.ofOption .str (machine.fs.fileDigest machine.sha256 declaration)
  if !machine.fs.isPresent declaration then declarationReport declaration []
  else if !machine.fs.isFile declaration || machine.fs.isSymlink declaration then
    invalidDeclaration declaration "declaration must be a regular non-symlink file"
  else if maxDeclarationBytes < machine.fs.sizeOf declaration then
    invalidDeclaration declaration "declaration exceeds the bounded size limit"
  else
    match machine.readJson declaration with
    | .error exc =>
        invalidDeclaration declaration ("declaration is unreadable or invalid JSON: " ++ exc)
    | .ok data =>
        if !data.isDict || data.get "schema" ≠ .str projectInputDeclarationSchema then
          invalidDeclaration declaration "declaration schema is unsupported"
        else
          match data.get "build_hint" with
          | .null => declarationReport declaration [("status", .str "valid"), ("sha256", digest)]
          | .str rawHint =>
              let buildHint := machine.normalizeSpace rawHint
              if buildHint = "" ∨ maxBuildHintChars < buildHint.length then
                invalidDeclaration declaration "build_hint must be a bounded non-empty string"
              else declarationReport declaration
                [("status", .str "valid"), ("sha256", digest), ("build_hint", .str buildHint)]
          | _ => invalidDeclaration declaration "build_hint must be a string"

/-! ## Rows -/

/-- `_artifact_outcome`: status, outcome and summary. -/
def artifactOutcome (resolution : String) : String × String × String :=
  if resolution = "source_local" then
    ("ready", "project_input_ready",
      "exact persisted project input is a readable non-symlink regular file with a SHA-256 identity")
  else if resolution = "unresolved" then
    ("missing", "project_input_missing", "literal project input does not exist")
  else if resolution = "invalid_path" then
    ("invalid", "project_input_invalid_path", "literal project input path escapes its canonical project root")
  else if resolution = "symlinked_path" then
    ("invalid", "project_input_symlink", "literal project input path contains a symlink")
  else if resolution = "non_regular" then
    ("invalid", "project_input_non_regular", "literal project input is not a regular file")
  else if resolution = "unreadable" then
    ("invalid", "project_input_unreadable", "literal project input is unreadable")
  else ("invalid", "project_input_identity_mismatch", "literal project input identity is invalid")

/-- `_input_record`. -/
def inputRecord (projectRoot : Parts) (artifact : Json) : Json :=
  let (status, outcome, summary) := artifactOutcome (machine.textOr (artifact.get "resolution"))
  let source := machine.textOr ((artifact.get "declaring_path").orElse (artifact.get "declaring_file"))
  let inputPath := machine.textOr ((artifact.get "input_path").orElse (artifact.get "resolved_path"))
  let name := machine.text ((artifact.get "name").orElse (.str "-"))
  let reason :=
    if outcome = "project_input_missing" then
      "project_input_missing: missing " ++ machine.text (artifact.get "loader") ++ " object for " ++ name ++
        "; source=" ++ source ++ "; input=" ++ inputPath
    else outcome ++ ": " ++ summary ++ "; source=" ++ source ++ "; input=" ++ inputPath ++ "; name=" ++ name
  Json.dict [
    ("kind", .str "literal_elf_object"),
    ("loader", artifact.get "loader"),
    ("name", artifact.get "name"),
    ("source", .str source),
    ("source_ref", artifact.get "declaring_file"),
    ("source_line", artifact.get "source_line"),
    ("declared_path", artifact.get "declared_path"),
    ("input_path", .str inputPath),
    ("resolved_path", artifact.get "resolved_path"),
    ("project_root", .str (RawPath.absoluteText projectRoot)),
    ("resolution", artifact.get "resolution"),
    ("resolution_base", artifact.get "resolution_base"),
    ("package_path", artifact.get "package_path"),
    ("status", .str status),
    ("outcome", .str outcome),
    ("reason", .str reason),
    ("exists", artifact.get "exists"),
    ("is_file", artifact.get "is_file"),
    ("readable", artifact.get "readable"),
    ("sha256", artifact.get "sha256"),
    ("size_bytes", artifact.get "size_bytes"),
    ("symlinked", artifact.get "symlinked"),
    ("lexical_parent_component", artifact.get "lexical_parent_component")]

/-- The row of an artifact whose path is not captured. -/
def unknownInput (artifact : Json) : Json :=
  Json.dict [
    ("kind", .str "literal_elf_object"),
    ("loader", artifact.get "loader"),
    ("name", artifact.get "name"),
    ("source", artifact.get "declaring_path"),
    ("source_ref", artifact.get "declaring_file"),
    ("source_line", artifact.get "source_line"),
    ("expression", artifact.get "expression"),
    ("complete_path_argument", artifact.get "complete_path_argument"),
    ("status", .str "unknown"),
    ("outcome", .str "project_input_unknown"),
    ("reason", artifact.get "reason")]

/-! ## Collisions -/

/-- `_collision_record`. -/
def collisionRecord (kind key : String) (owners : List Json) : Json :=
  let rendered := ", ".intercalate (owners.map fun item =>
    machine.text (item.get "role") ++ ":" ++
      machine.text (((item.get "source_ref").orElse (item.get "resolved_path")).orElse (.str "-")))
  Json.dict [
    ("kind", .str kind),
    ("key", .str key),
    ("status", .str "invalid"),
    ("outcome", .str "project_input_collision"),
    ("reason", .str ("project_input_collision: " ++ kind ++ " at " ++ key ++ ": " ++ rendered)),
    ("owners", .arr owners)]

/-- The name that a row is grouped by. -/
def logicalName (item : Json) : Option String :=
  match item.get "name" with
  | .str name => if name = "" then none else some name
  | _ => none

/-- An owner of a name. -/
def nameOwner (row : Json) : Json :=
  Json.dict [
    ("role", .str (if row.get "status" ≠ .str "unknown" then "literal_elf_artifact"
      else "dynamic_elf_artifact")),
    ("source_ref", row.get "source_ref"),
    ("source_line", row.get "source_line"),
    ("declared_path", row.get "declared_path"),
    ("package_path", row.get "package_path"),
    ("sha256", row.get "sha256"),
    ("size_bytes", row.get "size_bytes")]

/-- The collision of the rows of one name, if there are several. -/
def nameCollision (inputs : List Json) (name : String) : Option (List Json) :=
  let rows := inputs.filter fun item => logicalName item = some name
  let digests := (rows.map fun row => row.get "sha256").filter Json.truthy
  if rows.length < 2 then some []
  else if !digests.all hashable then none
  else
    let kind := if 1 < Json.distinct digests then "logical_name_content_conflict" else "duplicate_logical_name"
    some [machine.collisionRecord kind name (rows.map nameOwner)]

/-- `_logical_name_collisions`. -/
def logicalNameCollisions (inputs : List Json) : Option (List Json) :=
  (((inputs.filterMap logicalName).eraseDups).mapM (machine.nameCollision inputs)).map List.flatten

/-- `_package_role`. -/
def packageRoleText (record : Json) : String :=
  if record.get "resolution" = .str "holdir_source" then "holdir_dependency"
  else if record.get "resolution" = .str "mounted_source" then "mounted_source_dependency"
  else if record.get "resolution" = .str "source_overlay" then "source_overlay_dependency"
  else "dependency"

/-- What `claim` is called with. -/
structure PathClaim where
  portable : String
  identity : List Json
  owner : Json

/-- The paths that are claimed, the latest in front, and the collisions so far. -/
structure PathClaims where
  claimed : List (String × PathClaim)
  collisions : List Json

/-- `claim`. -/
def claimPath (claims : PathClaims) (claim : PathClaim) : PathClaims :=
  if claim.portable = "" then claims
  else
    match claims.claimed.lookup claim.portable with
    | none => { claims with claimed := (claim.portable, claim) :: claims.claimed }
    | some previous =>
        if previous.identity.map Json.compared ≠ claim.identity.map Json.compared then
          { claims with collisions := claims.collisions ++
              [machine.collisionRecord "package_path_collision" claim.portable
                [previous.owner, claim.owner]] }
        else { claims with claimed := (claim.portable, claim) :: claims.claimed }

/-- The claim of the entrypoint. -/
def entrypointClaim (entrypoint : Json) : PathClaim where
  portable := machine.textOr (entrypoint.get "package_path")
  identity := [.str "entrypoint", entrypoint.get "sha256", entrypoint.get "size_bytes", entrypoint.get "path"]
  owner := Json.dict [("role", .str "entrypoint"), ("source_ref", .str "<entrypoint>"),
    ("sha256", entrypoint.get "sha256"), ("size_bytes", entrypoint.get "size_bytes")]

/-- The claim of a record's file, or of an artifact's. -/
def fileClaim (role : String) (sourceRef : String) (row : Json) : PathClaim where
  portable := machine.textOr (row.get "package_path")
  identity := [.str role, row.get "sha256", row.get "size_bytes", row.get "resolved_path"]
  owner := Json.dict [("role", .str role), ("source_ref", row.get sourceRef),
    ("declared_path", row.get "declared_path"), ("resolved_path", row.get "resolved_path"),
    ("sha256", row.get "sha256"), ("size_bytes", row.get "size_bytes")]

/-- The record's file is in the package. -/
def isPackagedRecord (record : Json) : Bool :=
  isOneOf resolvedSourceKinds (record.get "resolution") &&
    isOneOf ["followed", "already_seen", "cycle"] (record.get "traversal")

/-- `_package_collisions`. -/
def packageCollisions (closure : Json) (inputs : List Json) : Option (List Json) :=
  let records := (closure.get "records").items
  let ready := inputs.filter fun item => item.get "status" = .str "ready"
  if !records.all (fun record => hashable (record.get "resolution") &&
      (!isOneOf resolvedSourceKinds (record.get "resolution") || hashable (record.get "traversal"))) then
    none
  else
    let claims := machine.entrypointClaim (closure.get "entrypoint") ::
      (records.filter isPackagedRecord).map (fun record =>
        machine.fileClaim (packageRoleText record) "declaring_file" record) ++
      ready.map (machine.fileClaim "literal_elf_artifact" "source_ref")
    some (claims.foldl machine.claimPath ⟨[], []⟩).collisions

/-! ## Identity -/

/-- The picked keys that are there. -/
def pickPresent (keys : List String) (value : Json) : Json :=
  Json.dict (keys.filterMap fun key => (value.field key).map fun found => (key, found))

/-- `project_input_projection_identity_payload`. -/
def projectInputProjectionIdentityPayload (report : Json) : Json :=
  Json.dict [
    ("schema", report.get "schema"),
    ("project_input_context", projectInputContextIdentityPayload (report.get "project_input_context")),
    ("status", report.get "status"),
    ("outcome", report.get "outcome"),
    ("counts", report.get "counts"),
    ("inputs", .arr ((report.get "inputs").items.map (Json.pick ["loader", "name", "source_ref",
      "source_line", "declared_path", "package_path", "resolution", "resolution_base", "status",
      "outcome", "sha256", "size_bytes", "symlinked", "lexical_parent_component"]))),
    ("unknown_inputs", .arr ((report.get "unknown_inputs").items.map (Json.pick ["loader", "name",
      "source_ref", "source_line", "expression", "complete_path_argument", "outcome"]))),
    ("collisions", .arr ((report.get "collisions").items.map fun collision => Json.dict [
      ("kind", collision.get "kind"),
      ("key", collision.get "key"),
      ("outcome", collision.get "outcome"),
      ("owners", .arr ((collision.get "owners").items.map (Json.pick ["role", "source_ref",
        "source_line", "declared_path", "package_path", "sha256", "size_bytes"])))])),
    ("declaration", pickPresent ["status", "sha256", "build_hint", "reason"] (report.get "declaration"))]

/-- `sha256_bytes(json.dumps(value, sort_keys=True, separators=(",", ":")).encode())`. -/
def digestOf (value : Json) : Json :=
  .str (machine.sha256 (asciiBytes value.dumps))

/-- `project_input_projection_sha256`. -/
def projectInputProjectionSha256 (report : Json) : Json :=
  machine.digestOf (projectInputProjectionIdentityPayload report)

/-! ## The report -/

/-- `status` and `outcome` of the report. -/
def projectionStatus (collisions inputs unknown : List Json) : String × String :=
  let missing := inputs.filter fun item => item.get "outcome" = .str "project_input_missing"
  let invalid := inputs.filter fun item => item.get "status" = .str "invalid"
  if !collisions.isEmpty then ("blocked", "project_input_collision")
  else if !invalid.isEmpty then
    ("blocked",
      match (invalid.map fun item => machine.text (item.get "outcome")).eraseDups with
      | [outcome] => outcome
      | _ => "project_input_invalid")
  else if !missing.isEmpty then ("blocked", "project_input_missing")
  else if !unknown.isEmpty then ("unknown", "project_input_unknown")
  else if !inputs.isEmpty then ("ready", "project_inputs_ready")
  else ("not_declared", "project_inputs_not_declared")

/-- `next_action` of a report with blockers. -/
def nextAction (collisions missing invalid : List Json) (declaration : Json) : String :=
  if !missing.isEmpty && collisions.isEmpty && invalid.isEmpty then
    "provide the declared project input at " ++
      ", ".intercalate (missing.map fun item => machine.text (item.get "input_path")) ++
      (match declaration.get "build_hint" with
        | .str buildHint =>
            if buildHint = "" then "" else "; project-declared build hint (not run): " ++ buildHint
        | _ => "") ++
      "; then rerun the same prove command"
  else if !collisions.isEmpty then
    "resolve the reported project-input name or package-path collision, then rerun the same prove command"
  else "replace the reported input with a readable non-symlink regular file inside the persisted " ++
    "project root, then rerun the same prove command"

/-- `checks` of the report. -/
def projectionChecks : Json :=
  Json.dict [
    ("expression_extractor", .str "shared bounded OCaml expression boundary"),
    ("literal_resolution", .str "persisted project root in bounded source dependency closure"),
    ("lexical_and_resolved_containment", .bool true),
    ("lexical_parent_components_allowed_only_within_root", .bool true),
    ("symlinks_refused", .bool true),
    ("regular_file", .bool true),
    ("readable", .bool true),
    ("sha256", .bool true),
    ("logical_name_collisions", .bool true),
    ("package_path_collisions", .bool true),
    ("build_execution", .bool false),
    ("input_mutation", .bool false)]

/-- `limitations` of the report. -/
def projectionLimitations : Json :=
  Json.dict [
    ("dynamic_expression_disposition", .str "unknown_may_proceed_to_hol"),
    ("dynamic_expression_scan", .str "same bounded resolved source closure"),
    ("literal_dependency_scan", .str "same bounded resolved source closure"),
    ("elf_semantics_checked", .bool false)]

/-- The report of these rows, without its digest. -/
def projectionFields (source : String) (projectRoot : Parts) (context declaration : Json)
    (inputs unknown collisions : List Json) : List (String × Json) :=
  let missing := inputs.filter fun item => item.get "outcome" = .str "project_input_missing"
  let invalid := inputs.filter fun item => item.get "status" = .str "invalid"
  let ready := inputs.filter fun item => item.get "status" = .str "ready"
  let (status, outcome) := machine.projectionStatus collisions inputs unknown
  let blockers := (collisions ++ invalid ++ missing).map fun item => item.get "reason"
  [ ("schema", .str projectInputReadinessSchema),
    ("source", .str source),
    ("project_root", .str (RawPath.absoluteText projectRoot)),
    ("project_root_boundary", context.get "root_facts"),
    ("project_input_context", context),
    ("persisted_in_source_dependency_closure", .bool true),
    ("status", .str status),
    ("outcome", .str outcome),
    ("transport_blocker_status", if status = "blocked" then .str outcome else .null),
    ("meaning", .str ("bounded static readiness for project-owned ELF/object inputs; unknown expressions " ++
      "may proceed to HOL and this record is not theorem or ELF-semantic evidence")),
    ("counts", Json.dict [
      ("literal", .int inputs.length),
      ("ready", .int ready.length),
      ("missing", .int missing.length),
      ("invalid", .int invalid.length),
      ("unknown", .int unknown.length),
      ("collision", .int collisions.length)]),
    ("inputs", .arr inputs),
    ("unknown_inputs", .arr unknown),
    ("collisions", .arr collisions),
    ("blockers", .arr blockers),
    ("next_action",
      if blockers.isEmpty then .null else .str (machine.nextAction collisions missing invalid declaration)),
    ("declaration", declaration),
    ("checks", projectionChecks),
    ("limitations", projectionLimitations)] ++
    match declaration.get "build_hint" with
    | .str buildHint => [("build_hint", .str buildHint)]
    | _ => []

/-- `build_project_input_projection`. -/
def buildProjectInputProjection (closure : Json) : Option Json := do
  let source := machine.textOr ((closure.get "entrypoint").get "path")
  let context := closure.get "project_input_context"
  if !machine.contextIsConsistent context || context.get "source" ≠ .str source ||
      !Json.equal (context.get "project_root") (closure.get "project_root") ||
      !Json.equal (context.get "root_facts") (closure.get "project_root_boundary") then
    none
  else
    let projectRoot ← machine.reresolve (context.get "project_root")
    let declaration := machine.projectDeclaration projectRoot
    let inputs := (closure.get "artifacts").items.map (machine.inputRecord projectRoot)
    let unknown := (closure.get "dynamic_artifacts").items.map unknownInput
    let names ← machine.logicalNameCollisions (inputs ++ unknown)
    let paths ← machine.packageCollisions closure inputs
    let fields := machine.projectionFields source projectRoot context declaration inputs unknown
      (names ++ paths)
    pure (Json.dict (fields ++
      [("projection_sha256", machine.projectInputProjectionSha256 (Json.dict fields))]))

end Machine

end Hearth.Closure
