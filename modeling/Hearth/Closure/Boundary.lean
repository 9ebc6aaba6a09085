import Hearth.Closure.Build
import Hearth.Library.JsonDict

/-!
# The roots of a capture

`_source_boundary` selects the directory that a closure is relative to, and
`resolve_project_input_context` the directory that its project inputs are relative to.
Each of them is an ancestor of a path that was resolved, or was resolved itself.

The context keeps the three paths as texts; `project_input_context_is_consistent` resolves
the texts once more and compares what follows from them.
-/

namespace Hearth.Closure

open Hearth.Library
open Hearth.Library.Parts
open Hearth.Loader (UnicodeTables)

/-- What a capture asks of the machine: its tree of files, and functions that do not
depend on it. -/
structure Machine where
  fs : FileSystem
  /-- `Path.is_dir()`. -/
  isDirectory : Parts → Bool
  /-- The working directory. -/
  cwd : Parts
  sha256 : Bytes → String
  tables : UnicodeTables
  /-- `str.isspace` of the one-character string. -/
  isSpace : Char → Bool
  /-- `repr` of a list or a dictionary. -/
  repr : Json → String
  /-- `json.loads` of a file's text; an error has the text of the exception. -/
  readJson : Parts → Except String Json
  /-- `_declared_theorem_names` of the bytes of a source. -/
  declaredTheorems : Bytes → List String

/-- `DEFAULT_MAX_IMPLICIT_PARENT_ASCENTS`. -/
def maxImplicitParentAscents : ℕ := 8

/-- `SOURCE_ROOT_MARKER`. -/
def sourceRootMarker : String := ".hol-workbench-source-root"

namespace Machine

variable (machine : Machine)

/-- `path.expanduser().resolve()`; two leading slashes count as one. -/
def resolvePath (raw : RawPath) : Option Parts := do
  let raw ← machine.fs.expanduser raw
  machine.fs.resolve (if raw.isAbsolute then raw.parts else machine.cwd ++ raw.parts)

/-! ## Repositories -/

/-- The directory holds a `.git` that is no symbolic link. -/
def isRepository (directory : Parts) : Bool :=
  let marker := directory ++ [".git"]
  !machine.fs.isSymlink marker && (machine.isDirectory marker || machine.fs.isFile marker)

/-- `nearest_repository_root`; the outer `none` raises. -/
def nearestRepositoryRoot (entrypoint : Parts) : Option (Option Parts) := do
  let source ← machine.fs.resolve entrypoint
  match (ancestors (parent source)).find? machine.isRepository with
  | none => some none
  | some candidate => (machine.fs.resolve candidate).map some

/-! ## The source boundary -/

/-- The loop of `_implicit_literal_source_boundary`; the stack has its top in front. -/
structure BoundarySearch where
  root : Parts
  pending : List (Parts × ℕ)
  visited : List Parts
  followedFiles : ℕ
  observedParentAscents : ℕ
  deriving DecidableEq, Repr

/-- `scan`: the literal loads of a file, if it can be read. -/
def boundaryEdges (path : Parts) : List LoadEdge :=
  match machine.fs.readNoFollow path with
  | .ok data => (analyze machine.tables data).edges
  | .error _ => []

/-- The file that a relative literal names lexically, if it is there. -/
def boundaryTarget (declaringFile : Parts) (edge : LoadEdge) : Except ClosureError (Option Parts) :=
  match machine.fs.expanduser (RawPath.ofString edge.declaredPath) with
  | none => throw .homeUnknown
  | some raw =>
      if raw.isAbsolute ∨ edge.declaredPath ∈ ["", ".", ".."] then pure none
      else
        let candidate := parent declaringFile ++ raw.parts
        pure ((machine.fs.resolve candidate).filter fun resolved =>
          machine.fs.isFile resolved && abspath candidate = resolved)

/-- Paths are compared part by part. -/
local instance lawfulBEqParts : LawfulBEq Parts := inferInstance

/-- One round over the loads of a file that was popped at this depth. -/
def boundaryStep (initialRoot declaringFile : Parts) (depth maxDepth maxFiles : ℕ)
    (search : BoundarySearch) (edge : LoadEdge) : Except ClosureError BoundarySearch := do
  match ← machine.boundaryTarget declaringFile edge with
  | none => pure search
  | some resolved =>
      let common := commonpath search.root resolved
      let parentAscents := initialRoot.length - common.length
      if maxImplicitParentAscents < parentAscents then
        throw (.inferenceLimit "parent_ascent" maxImplicitParentAscents parentAscents resolved)
      else
        let search := { search with
          root := common
          observedParentAscents := max search.observedParentAscents parentAscents }
        if resolved ∈ search.visited then pure search
        else if maxDepth < depth then throw (.inferenceLimit "depth" maxDepth depth resolved)
        else if maxFiles ≤ search.followedFiles then
          throw (.inferenceLimit "files" maxFiles (search.followedFiles + 1) resolved)
        else pure { search with
          visited := resolved :: search.visited
          followedFiles := search.followedFiles + 1
          pending := (resolved, depth + 1) :: search.pending }

/-- The files that are pending, and those that may still be followed. -/
def boundaryWork (maxFiles : ℕ) (search : BoundarySearch) : ℕ :=
  search.pending.length + (maxFiles - search.followedFiles)

section

variable {machine}
variable {initialRoot declaringFile : Parts} {depth maxDepth maxFiles : ℕ}

/-- What one round may change: the root climbs, and a file that is pushed is counted. -/
theorem boundaryStep_spec {search next : BoundarySearch} {edge : LoadEdge}
    (h : machine.boundaryStep initialRoot declaringFile depth maxDepth maxFiles search edge = .ok next) :
    boundaryWork maxFiles next = boundaryWork maxFiles search ∧ Within search.root next.root := by
  unfold boundaryStep at h
  obtain ⟨target, -, h⟩ := bind_eq_ok.mp h
  cases target with
  | none =>
      cases h
      exact ⟨rfl, List.prefix_rfl⟩
  | some resolved =>
      dsimp only at h
      split at h
      · cases h
      split at h
      · cases h
        exact ⟨rfl, within_commonpath _ _⟩
      split at h
      · cases h
      split at h
      · cases h
      · rename_i hroom
        cases h
        refine ⟨?_, within_commonpath _ _⟩
        show (search.pending.length + 1) + (maxFiles - (search.followedFiles + 1)) =
          search.pending.length + (maxFiles - search.followedFiles)
        omega

theorem boundarySteps_spec {edges : List LoadEdge} {search next : BoundarySearch}
    (h : edges.foldlM (machine.boundaryStep initialRoot declaringFile depth maxDepth maxFiles) search =
      .ok next) :
    boundaryWork maxFiles next = boundaryWork maxFiles search ∧ Within search.root next.root := by
  induction edges generalizing search with
  | nil =>
      cases h
      exact ⟨rfl, List.prefix_rfl⟩
  | cons edge edges ih =>
      rw [List.foldlM_cons] at h
      obtain ⟨middle, hmiddle, h⟩ := bind_eq_ok.mp h
      obtain ⟨hwork, hwithin⟩ := boundaryStep_spec hmiddle
      obtain ⟨hworks, hwithins⟩ := ih h
      exact ⟨hworks.trans hwork, hwithin.trans hwithins⟩

end

/-- The loop; a file that is popped is not pushed again, so the work decreases. -/
def boundaryLoop (initialRoot : Parts) (maxDepth maxFiles : ℕ) (search : BoundarySearch) :
    Except ClosureError BoundarySearch :=
  match _hpending : search.pending with
  | [] => pure search
  | (declaringFile, depth) :: rest =>
      match _hsteps : (machine.boundaryEdges declaringFile).foldlM
          (machine.boundaryStep initialRoot declaringFile depth maxDepth maxFiles)
          { search with pending := rest } with
      | .error error => throw error
      | .ok next => boundaryLoop initialRoot maxDepth maxFiles next
termination_by boundaryWork maxFiles search
decreasing_by
  have hwork := (boundarySteps_spec _hsteps).1
  have hlength : search.pending.length = rest.length + 1 := by rw [_hpending, List.length_cons]
  unfold boundaryWork at hwork ⊢
  dsimp only at hwork
  omega

/-- `_implicit_literal_source_boundary`. -/
def implicitLiteralSourceBoundary (entrypoint : Parts) (maxDepth maxFiles : ℕ) :
    Except ClosureError (Option (Parts × Json)) :=
  match machine.fs.resolve (parent entrypoint) with
  | none => pure none
  | some initialRoot => do
      let search ← machine.boundaryLoop initialRoot maxDepth maxFiles
        ⟨initialRoot, [(entrypoint, 1)], [entrypoint], 0, 0⟩
      pure (some (search.root,
        if search.root = initialRoot then Json.dict [("kind", .str "entrypoint_parent")]
        else Json.dict [
          ("kind", .str "inferred_literal_closure"),
          ("policy", .str "smallest bounded root containing existing nonsymlinked relative literal loads"),
          ("max_parent_ascents", .int maxImplicitParentAscents),
          ("observed_parent_ascents", .int search.observedParentAscents),
          ("followed_file_count", .int search.followedFiles)]))

/-- The digest of the marker that a directory has. -/
def markerDigest (directory : Parts) : Option String :=
  let marker := directory ++ [sourceRootMarker]
  if machine.fs.isFile marker ∧ ¬ machine.fs.isSymlink marker then
    machine.fs.fileDigest machine.sha256 marker
  else none

/-- `_source_boundary`; `none` is the `OSError` of a path that cannot be resolved. -/
def sourceBoundary (entrypoint : Parts) (maxDepth maxFiles : ℕ) :
    Except ClosureError (Option (Parts × Json)) :=
  match (ancestors (parent entrypoint)).find? fun candidate => (machine.markerDigest candidate).isSome with
  | some candidate =>
      pure ((machine.fs.resolve candidate).map fun root => (root, Json.dict [
        ("kind", .str "source_root_marker"),
        ("marker", .str sourceRootMarker),
        ("policy", .str "nearest ancestor marker directory is the exact source package root"),
        ("marker_sha256", Json.ofOption .str (machine.markerDigest candidate)),
        ("marker_size_bytes", .int (machine.fs.sizeOf (candidate ++ [sourceRootMarker])))]))
  | none =>
      match machine.nearestRepositoryRoot entrypoint with
      | none => pure none
      | some (some repository) =>
          pure (some (repository, Json.dict [
            ("kind", .str "nearest_repository_root"),
            ("policy", .str "nearest nonsymlink repository root is the source package boundary")]))
      | some none => machine.implicitLiteralSourceBoundary entrypoint maxDepth maxFiles

end Machine

/-! ## The project-input context -/

/-- `PROJECT_INPUT_CONTEXT_SCHEMA`. -/
def projectInputContextSchema : String := "hol-workbench.project-input-context.v1"

/-- `PROJECT_INPUT_ROOT_PRECEDENCE`. -/
def projectInputRootPrecedence : List String :=
  ["explicit_project_or_profile_root", "nearest_nonsymlink_repository_root",
    "bounded_source_dependency_root", "nearest_bounded_literal_artifact_anchor",
    "source_entrypoint_parent"]

/-- `_canonical_root_facts`. -/
def canonicalRootFacts (entrypoint sourceRoot projectRoot : Parts) : Json :=
  Json.dict [
    ("schema", .str projectInputContextSchema),
    ("kind", .str "canonical_project_input_root"),
    ("precedence", .arr (projectInputRootPrecedence.map Json.str)),
    ("project_root_from_entrypoint_parent",
      .str (RawPath.relativeText (relpath projectRoot (parent entrypoint)))),
    ("source_root_from_project_root", .str (RawPath.relativeText (relpath sourceRoot projectRoot))),
    ("project_root_contains_entrypoint", .bool (Within entrypoint projectRoot)),
    ("entrypoint_relative_path",
      if Within entrypoint projectRoot then .str (RawPath.relativeText (relativeTo entrypoint projectRoot))
      else .null),
    ("literal_path_policy", .str ("absolute and relative literals are bounded by canonical lexical and " ++
      "resolved containment in the project root; explicit ./ and ../ literals use the declaring-file parent"))]

/-- What `resolve_project_input_context` returns. -/
structure ProjectInputContext where
  source : Parts
  sourceDependencyRoot : Parts
  projectRoot : Parts
  deriving DecidableEq, Repr

namespace ProjectInputContext

variable (context : ProjectInputContext)

def rootFacts : Json :=
  canonicalRootFacts context.source context.sourceDependencyRoot context.projectRoot

def document : Json :=
  Json.dict [
    ("schema", .str projectInputContextSchema),
    ("source", .str (RawPath.absoluteText context.source)),
    ("source_dependency_root", .str (RawPath.absoluteText context.sourceDependencyRoot)),
    ("project_root", .str (RawPath.absoluteText context.projectRoot)),
    ("root_facts", context.rootFacts)]

end ProjectInputContext

namespace Machine

variable (machine : Machine)

/-- The first component of a clean relative literal. -/
def anchorName (declared : String) : Option (Option String) :=
  if declared = "" then some none
  else
    (machine.fs.expanduser (RawPath.ofString declared)).map fun raw =>
      if raw.isAbsolute ∨ ¬ Clean raw.parts then none else raw.parts.head?

/-- `_literal_artifact_anchor`; the outer `none` raises. -/
def literalArtifactAnchor (entrypoint : Parts) (declaredArtifactPaths : List String)
    (maxParentAscents : ℕ) : Option (Option Parts) := do
  let names ← declaredArtifactPaths.mapM machine.anchorName
  let topLevelNames := names.filterMap id
  if topLevelNames = [] then some none
  else
    let anchors := (ancestors (parent entrypoint)).take (maxParentAscents + 1)
    match anchors.find? fun candidate => topLevelNames.all fun name =>
        machine.fs.isPresent (candidate ++ [name]) && !machine.fs.isSymlink (candidate ++ [name]) with
    | none => some none
    | some candidate => (machine.fs.resolve candidate).map some

/-- The root that `resolve_project_input_context` selects, by the precedence of its candidates. -/
def selectProjectRoot (source sourceRoot : Parts) (sourceBoundary : Json)
    (declaredArtifactPaths : List String) (explicitProjectRoot : Option RawPath)
    (maxParentAscents : ℕ) : Option Parts :=
  match explicitProjectRoot with
  | some explicit => machine.resolvePath explicit
  | none => do
      match ← machine.nearestRepositoryRoot source with
      | some repository => pure repository
      | none =>
          if sourceBoundary.get "kind" ≠ .str "entrypoint_parent" then pure sourceRoot
          else
            let anchor ← machine.literalArtifactAnchor source declaredArtifactPaths maxParentAscents
            pure (anchor.getD sourceRoot)

/-- `resolve_project_input_context`; `none` raises. -/
def resolveProjectInputContext (entrypoint sourceRoot : Parts) (sourceBoundary : Json)
    (declaredArtifactPaths : List String) (explicitProjectRoot : Option RawPath)
    (maxParentAscents : ℕ) : Option ProjectInputContext := do
  let source ← machine.fs.resolve entrypoint
  let boundedSourceRoot ← machine.fs.resolve sourceRoot
  let projectRoot ← machine.selectProjectRoot source boundedSourceRoot sourceBoundary
    declaredArtifactPaths explicitProjectRoot maxParentAscents
  pure ⟨source, boundedSourceRoot, projectRoot⟩

/-- The path that a persisted text leads to. -/
def reresolve : Json → Option Parts
  | .str text => if text = "" then none else machine.resolvePath (RawPath.ofString text)
  | _ => none

/-- `project_input_context_is_consistent` returns true. -/
def contextIsConsistent (context : Json) : Bool :=
  context.isDict && context.get "schema" = .str projectInputContextSchema &&
    match machine.reresolve (context.get "source"),
        machine.reresolve (context.get "source_dependency_root"),
        machine.reresolve (context.get "project_root") with
    | some source, some sourceRoot, some projectRoot =>
        Json.equal (context.get "root_facts") (canonicalRootFacts source sourceRoot projectRoot)
    | _, _, _ => false

end Machine

/-- `project_input_context_identity_payload`. -/
def projectInputContextIdentityPayload (context : Json) : Json :=
  Json.dict [("schema", context.get "schema"), ("root_facts", context.get "root_facts")]

/-! ## Resolved paths -/

/-- A tree that does not change resolves what it resolved to itself, and the directories
above it as well: no symbolic link is left in the path. -/
structure FileSystem.Settled (fs : FileSystem) : Prop where
  spelled : ∀ {path resolved : Parts}, Spelled path → fs.resolve path = some resolved → Spelled resolved
  ancestors : ∀ {path resolved directory : Parts}, fs.resolve path = some resolved →
    Within resolved directory → fs.resolve directory = some directory
  home : ∀ {user : String} {home : Parts}, fs.home user = some home → Spelled home

/-- The path is spelled out and has nothing left to resolve. -/
structure FileSystem.Real (fs : FileSystem) (path : Parts) : Prop where
  spelled : Spelled path
  resolve : fs.resolve path = some path

section

variable {machine : Machine}

theorem FileSystem.Settled.real {fs : FileSystem} (hsettled : fs.Settled) {path resolved : Parts}
    (hpath : Spelled path) (h : fs.resolve path = some resolved) : fs.Real resolved :=
  ⟨hsettled.spelled hpath h, hsettled.ancestors h List.prefix_rfl⟩

theorem FileSystem.Settled.above {fs : FileSystem} (hsettled : fs.Settled) {path directory : Parts}
    (h : fs.Real path) (hwithin : Within path directory) : fs.Real directory :=
  ⟨h.spelled.of_within hwithin, hsettled.ancestors h.resolve hwithin⟩

theorem spelled_expanduser {fs : FileSystem} (hsettled : fs.Settled) {text : String} {raw : RawPath}
    (h : fs.expanduser (RawPath.ofString text) = some raw) : Spelled raw.parts := by
  have htext : Spelled (RawPath.ofString text).parts := RawPath.spelled_partsOf _
  unfold FileSystem.expanduser at h
  split at h
  · rename_i user rest _ hparts
    split at h
    · obtain ⟨home, hhome, rfl⟩ := Option.map_eq_some_iff.mp h
      refine (hsettled.home hhome).append ?_
      intro part hpart
      exact htext part (hparts ▸ List.mem_cons_of_mem _ hpart)
    · cases h
      exact htext
  · cases h
    exact htext

theorem Machine.resolvePath_real (hsettled : machine.fs.Settled) (hcwd : Spelled machine.cwd)
    {text : String} {resolved : Parts} (h : machine.resolvePath (RawPath.ofString text) = some resolved) :
    machine.fs.Real resolved := by
  unfold Machine.resolvePath at h
  obtain ⟨raw, hraw, h⟩ := Option.bind_eq_some_iff.mp h
  have hparts := spelled_expanduser hsettled hraw
  apply hsettled.real ?_ h
  split
  · exact hparts
  · exact hcwd.append hparts

/-- The text of a real path leads back to it. -/
theorem Machine.reresolve_absoluteText {path : Parts} (h : machine.fs.Real path) :
    machine.reresolve (.str (RawPath.absoluteText path)) = some path := by
  unfold Machine.reresolve
  dsimp only
  rw [if_neg (RawPath.absoluteText_ne_empty path), RawPath.ofString_absoluteText h.spelled]
  exact h.resolve

theorem Machine.nearestRepositoryRoot_real (hsettled : machine.fs.Settled) {entrypoint repository : Parts}
    (hentrypoint : Spelled entrypoint)
    (h : machine.nearestRepositoryRoot entrypoint = some (some repository)) :
    machine.fs.Real repository := by
  unfold Machine.nearestRepositoryRoot at h
  obtain ⟨source, hsource, h⟩ := Option.bind_eq_some_iff.mp h
  have hreal := hsettled.real hentrypoint hsource
  split at h
  · cases h
  · rename_i candidate hfind
    obtain ⟨root, hroot, heq⟩ := Option.map_eq_some_iff.mp h
    cases heq
    have habove : Within (parent source) candidate := mem_ancestors.mp (List.mem_of_find?_eq_some hfind)
    have hcandidate : machine.fs.Real candidate :=
      hsettled.above hreal (Within.trans (List.dropLast_prefix source) habove)
    exact hsettled.real hcandidate.spelled hroot

theorem Machine.boundaryLoop_within {initialRoot : Parts} {maxDepth maxFiles : ℕ} :
    ∀ (work : ℕ) {search final : BoundarySearch}, boundaryWork maxFiles search ≤ work →
      machine.boundaryLoop initialRoot maxDepth maxFiles search = .ok final →
      Within search.root final.root := by
  intro work
  induction work with
  | zero =>
      intro search final hwork h
      have hempty : search.pending = [] := by
        unfold boundaryWork at hwork
        exact List.length_eq_zero_iff.mp (by omega)
      unfold boundaryLoop at h
      split at h
      · cases h
        exact List.prefix_rfl
      · rename_i hpending
        rw [hempty] at hpending
        cases hpending
  | succ work ih =>
      intro search final hwork h
      unfold boundaryLoop at h
      split at h
      · cases h
        exact List.prefix_rfl
      · rename_i declaringFile depth rest hpending
        split at h
        · cases h
        · rename_i next hsteps
          obtain ⟨hsame, hwithin⟩ := boundarySteps_spec hsteps
          have hless : boundaryWork maxFiles next ≤ work := by
            have hlength : search.pending.length = rest.length + 1 := by
              rw [hpending, List.length_cons]
            unfold boundaryWork at hsame hwork ⊢
            dsimp only at hsame
            omega
          exact hwithin.trans (ih hless h)

/-- The source root is real, and its boundary document a dictionary of plain values. -/
theorem Machine.sourceBoundary_real (hsettled : machine.fs.Settled) {entrypoint root : Parts}
    (hentrypoint : machine.fs.Real entrypoint) {maxDepth maxFiles : ℕ} {boundary : Json}
    (h : machine.sourceBoundary entrypoint maxDepth maxFiles = .ok (some (root, boundary))) :
    machine.fs.Real root ∧ boundary.Canonical := by
  have hparent : machine.fs.Real (parent entrypoint) :=
    hsettled.above hentrypoint (List.dropLast_prefix entrypoint)
  unfold Machine.sourceBoundary at h
  split at h
  · rename_i candidate hfind
    have hcandidate : machine.fs.Real candidate :=
      hsettled.above hparent (mem_ancestors.mp (List.mem_of_find?_eq_some hfind))
    obtain ⟨resolved, hresolved, heq⟩ := Option.map_eq_some_iff.mp (Except.ok.inj h)
    cases heq
    refine ⟨hsettled.real hcandidate.spelled hresolved, Json.canonical_dict ?_⟩
    simp
  split at h
  · cases h
  · rename_i repository hrepository
    cases h
    refine ⟨machine.nearestRepositoryRoot_real hsettled hentrypoint.spelled hrepository,
      Json.canonical_dict ?_⟩
    simp
  · unfold Machine.implicitLiteralSourceBoundary at h
    split at h
    · cases h
    · rename_i initialRoot hinitial
      obtain ⟨search, hsearch, h⟩ := bind_eq_ok.mp h
      cases h
      have hreal : machine.fs.Real initialRoot := hsettled.real hparent.spelled hinitial
      have hwithin := machine.boundaryLoop_within _ (le_refl _) hsearch
      refine ⟨hsettled.above hreal hwithin, ?_⟩
      split
      · apply Json.canonical_dict
        simp
      · apply Json.canonical_dict
        simp

/-- The three paths of a context are real. -/
structure ProjectInputContext.Real (context : ProjectInputContext) (fs : FileSystem) : Prop where
  source : fs.Real context.source
  sourceDependencyRoot : fs.Real context.sourceDependencyRoot
  projectRoot : fs.Real context.projectRoot

theorem Machine.literalArtifactAnchor_real (hsettled : machine.fs.Settled) {entrypoint anchor : Parts}
    (hentrypoint : machine.fs.Real entrypoint) {declaredArtifactPaths : List String}
    {maxParentAscents : ℕ}
    (h : machine.literalArtifactAnchor entrypoint declaredArtifactPaths maxParentAscents =
      some (some anchor)) : machine.fs.Real anchor := by
  unfold Machine.literalArtifactAnchor at h
  obtain ⟨names, -, h⟩ := Option.bind_eq_some_iff.mp h
  dsimp only at h
  split at h
  · cases h
  split at h
  · cases h
  · rename_i candidate hfind
    obtain ⟨root, hroot, heq⟩ := Option.map_eq_some_iff.mp h
    cases heq
    have hmem : candidate ∈ ancestors (parent entrypoint) :=
      List.mem_of_mem_take (List.mem_of_find?_eq_some hfind)
    have hcandidate : machine.fs.Real candidate :=
      hsettled.above hentrypoint
        (Within.trans (List.dropLast_prefix entrypoint) (mem_ancestors.mp hmem))
    exact hsettled.real hcandidate.spelled hroot

theorem Machine.selectProjectRoot_real (hsettled : machine.fs.Settled) (hcwd : Spelled machine.cwd)
    {source sourceRoot projectRoot : Parts} (hsource : machine.fs.Real source)
    (hroot : machine.fs.Real sourceRoot) {sourceBoundary : Json} {declaredArtifactPaths : List String}
    {explicitProjectRoot : Option String} {maxParentAscents : ℕ}
    (h : machine.selectProjectRoot source sourceRoot sourceBoundary declaredArtifactPaths
      (explicitProjectRoot.map RawPath.ofString) maxParentAscents = some projectRoot) :
    machine.fs.Real projectRoot := by
  unfold Machine.selectProjectRoot at h
  cases explicitProjectRoot with
  | some explicit => exact machine.resolvePath_real hsettled hcwd h
  | none =>
      obtain ⟨repository, hrepository, h⟩ := Option.bind_eq_some_iff.mp h
      cases repository with
      | some repository =>
          cases h
          exact machine.nearestRepositoryRoot_real hsettled hsource.spelled hrepository
      | none =>
          dsimp only at h
          split at h
          · cases h
            exact hroot
          · obtain ⟨anchor, hanchor, h⟩ := Option.bind_eq_some_iff.mp h
            cases h
            cases anchor with
            | none => exact hroot
            | some anchor => exact machine.literalArtifactAnchor_real hsettled hsource hanchor

/-- The context of real paths has them as they are, and a real project root. -/
theorem Machine.resolveProjectInputContext_real (hsettled : machine.fs.Settled)
    (hcwd : Spelled machine.cwd) {entrypoint sourceRoot : Parts}
    (hentrypoint : machine.fs.Real entrypoint) (hroot : machine.fs.Real sourceRoot)
    {sourceBoundary : Json} {declaredArtifactPaths : List String} {explicitProjectRoot : Option String}
    {maxParentAscents : ℕ} {context : ProjectInputContext}
    (h : machine.resolveProjectInputContext entrypoint sourceRoot sourceBoundary declaredArtifactPaths
      (explicitProjectRoot.map RawPath.ofString) maxParentAscents = some context) :
    context.Real machine.fs ∧ context.source = entrypoint ∧
      context.sourceDependencyRoot = sourceRoot := by
  unfold Machine.resolveProjectInputContext at h
  rw [hentrypoint.resolve, hroot.resolve] at h
  simp only [Option.bind_eq_bind, Option.bind_some] at h
  obtain ⟨projectRoot, hproject, h⟩ := Option.bind_eq_some_iff.mp h
  cases h
  have hreal := machine.selectProjectRoot_real hsettled hcwd hentrypoint hroot hproject
  exact ⟨⟨hentrypoint, hroot, hreal⟩, rfl, rfl⟩

section

variable (context : ProjectInputContext)

theorem ProjectInputContext.get_schema :
    context.document.get "schema" = .str projectInputContextSchema := by
  rw [document, Json.get_dict]
  rfl

theorem ProjectInputContext.get_source :
    context.document.get "source" = .str (RawPath.absoluteText context.source) := by
  rw [document, Json.get_dict]
  rfl

theorem ProjectInputContext.get_sourceDependencyRoot :
    context.document.get "source_dependency_root" =
      .str (RawPath.absoluteText context.sourceDependencyRoot) := by
  rw [document, Json.get_dict]
  rfl

theorem ProjectInputContext.get_projectRoot :
    context.document.get "project_root" = .str (RawPath.absoluteText context.projectRoot) := by
  rw [document, Json.get_dict]
  rfl

theorem ProjectInputContext.get_rootFacts : context.document.get "root_facts" = context.rootFacts := by
  rw [document, Json.get_dict]
  rfl

end

/-- A context of real paths is consistent. -/
theorem Machine.contextIsConsistent_document {context : ProjectInputContext}
    (h : context.Real machine.fs) : machine.contextIsConsistent context.document = true := by
  have hdict : context.document.isDict = true := rfl
  unfold Machine.contextIsConsistent
  rw [hdict, context.get_schema, context.get_source, context.get_sourceDependencyRoot,
    context.get_projectRoot, context.get_rootFacts, machine.reresolve_absoluteText h.source,
    machine.reresolve_absoluteText h.sourceDependencyRoot,
    machine.reresolve_absoluteText h.projectRoot]
  show (_ && Json.equal context.rootFacts context.rootFacts) = true
  rw [Json.equal_self, decide_eq_true rfl]
  rfl

theorem ProjectInputContext.canonical_document (context : ProjectInputContext) :
    context.document.Canonical := by
  have hprecedence : Json.Canonical (.arr (projectInputRootPrecedence.map Json.str)) := by
    apply Json.canonical_items
    simp
  have hrelative : Json.Canonical (if Within context.source context.projectRoot then
      .str (RawPath.relativeText (relativeTo context.source context.projectRoot)) else .null) := by
    split
    · exact Json.canonical_str _
    · exact Json.canonical_null
  have hfacts : context.rootFacts.Canonical := by
    apply Json.canonical_dict
    simp [hprecedence, hrelative]
  apply Json.canonical_dict
  simp [hfacts]

end

end Hearth.Closure
