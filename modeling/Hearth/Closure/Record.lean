import Hearth.Closure.Resolve
import Hearth.Library.Outcome

/-!
# Closure records

What the analyzer reads off one source file, and the record that
`build_source_dependency_closure` makes of one literal load: its resolution, its
portable coordinates, its place in the package, and the digest of the file it means.
Portable coordinates and package paths are lists of components.
-/

namespace Hearth.Closure

open Hearth.Library
open Hearth.Library.Parts
open Hearth.Loader (LoaderScanResult LoaderOccurrence UnicodeTables scanOcamlLoaders)

/-! ## Lexical analysis -/

/-- A literal load of a source file. -/
structure LoadEdge where
  loader : String
  declaredPath : String
  sourceLine : ℕ
  deriving DecidableEq, Repr

/-- A loader whose argument is not captured. -/
structure DynamicLoader where
  loader : String
  sourceLine : ℕ
  sourceOffset : ℕ
  reason : Option String
  /-- `refusal_kind`, which only the row of a refused scan has. -/
  refusalKind : Option String
  deriving DecidableEq, Repr

/-- A literal reference to an ELF object. -/
structure ArtifactRef where
  loader : String
  name : Option String
  path : String
  sourceLine : ℕ
  deriving DecidableEq, Repr

/-- An artifact loader whose arguments are not captured. -/
structure DynamicArtifactRef where
  loader : String
  name : Option String
  sourceLine : ℕ
  sourceOffset : ℕ
  reason : Option String
  deriving DecidableEq, Repr

/-- `analyze`, without the reporting-only theorem names. -/
structure Analysis where
  edges : List LoadEdge
  dynamic : List DynamicLoader
  artifactRefs : List ArtifactRef
  dynamicArtifactRefs : List DynamicArtifactRef
  deriving DecidableEq, Repr

/-- `LoaderOccurrence.path`. -/
def path (occurrence : LoaderOccurrence) : Option String :=
  occurrence.pathLiteral.bind Loader.OcamlStringLiteral.utf8Text

/-- `LoaderOccurrence.name`. -/
def name (occurrence : LoaderOccurrence) : Option String :=
  occurrence.nameLiteral.bind Loader.OcamlStringLiteral.utf8Text

/-- The literal edges of `_source_load_records`; the path of a literal row is there. -/
def sourceEdges (scan : LoaderScanResult) : List LoadEdge :=
  (scan.occurrences.filter fun item => item.family = .source && item.outcome = .literal).map fun item =>
    ⟨item.loader, (path item).getD "", item.sourceLine⟩

/-- The dynamic rows of `_source_load_records`. -/
def dynamicSourceLoads (scan : LoaderScanResult) : List DynamicLoader :=
  match scan.status, scan.refusal with
  | .refused, some refusal =>
      [⟨"<source-lexical>", refusal.sourceLine, refusal.span.start, some refusal.reason,
        some refusal.kind⟩]
  | .refused, none => []
  | .ok, _ =>
      (scan.occurrences.filter fun item => item.family = .source && item.outcome = .dynamic).map
        fun item => ⟨item.loader, item.sourceLine, item.loaderSpan.start, item.reason, none⟩

/-- The literal rows of `_artifact_load_records`. -/
def artifactRefs (scan : LoaderScanResult) : List ArtifactRef :=
  (scan.occurrences.filter fun item => item.family = .artifact && item.outcome = .literal).map
    fun item => ⟨item.loader, name item, (path item).getD "", item.sourceLine⟩

/-- The dynamic rows of `_artifact_load_records`. -/
def dynamicArtifactRefs (scan : LoaderScanResult) : List DynamicArtifactRef :=
  (scan.occurrences.filter fun item => item.family = .artifact && item.outcome = .dynamic).map
    fun item => ⟨item.loader, name item, item.sourceLine, item.loaderSpan.start, item.reason⟩

/-- `analyze` on the bytes that were read. -/
def analyze (tables : UnicodeTables) (data : Bytes) : Analysis :=
  let scan := scanOcamlLoaders tables data
  ⟨sourceEdges scan, dynamicSourceLoads scan, artifactRefs scan, dynamicArtifactRefs scan⟩

/-! ## Portable coordinates -/

/-- What `_portable_path` is asked to name paths by. -/
structure PortableRoots where
  entrypoint : Parts
  root : Parts
  holdirRoot : Option Parts
  sourceOverlayRoot : Option Parts
  logicalSourceRoots : List (String × Parts)
  deriving DecidableEq, Repr

/-- `_portable_path`. -/
def portablePath (roots : PortableRoots) (path : Parts) : Parts :=
  if path = roots.entrypoint then ["<entrypoint>"]
  else if Within path roots.root then relativeTo path roots.root
  else
    match roots.holdirRoot.filter fun root => Within path root with
    | some root => "<holdir>" :: relativeTo path root
    | none =>
        match roots.sourceOverlayRoot.filter fun root => Within path root with
        | some root => "<source-overlay>" :: relativeTo path root
        | none =>
            match roots.logicalSourceRoots.find? fun row => Within path row.2 with
            | some (logicalAlias, root) => ("<logical:" ++ logicalAlias ++ ">") :: relativeTo path root
            | none => ["<external>"]

/-! ## Records -/

/-- `traversal` of a closure record. -/
inductive Traversal
  | notFollowed | cycle | alreadySeen | unreadable | followed
  deriving DecidableEq, Repr

/-- A record of the closure. -/
structure Record where
  loader : String
  declaredPath : String
  declaringFile : Parts
  declaringPath : Parts
  sourceLine : ℕ
  depth : ℕ
  via : List String
  resolution : Resolution
  symlinked : Bool
  logicalSourceRoot : Option String
  resolvedPath : Option Parts
  resolvedFile : Option Parts
  runtimeLiteralPath : Option String
  packagePath : Option Parts
  /-- `resolution_base` is `source_package_root`. -/
  packageRootBased : Bool
  legacyHoldirCoordinate : Bool
  trustedRootPath : Option Parts
  sha256 : Option String
  sizeBytes : Option ℕ
  traversal : Traversal
  deriving DecidableEq, Repr

/-- The record with its `traversal`. -/
def Record.flagged (record : Record) (traversal : Traversal) : Record :=
  { record with traversal }

/-- The record with the digest and size of what was read; without them, if nothing was. -/
def Record.digested (record : Record) (sha256 : Bytes → String) : Except ReadError Bytes → Record
  | .ok data => { record with sha256 := some (sha256 data), sizeBytes := some data.length }
  | .error _ => record

@[simp] theorem Record.flagged_flagged (record : Record) (first second : Traversal) :
    (record.flagged first).flagged second = record.flagged second := rfl

theorem Record.flagged_self {record : Record} {traversal : Traversal}
    (h : record.traversal = traversal) : record.flagged traversal = record := by
  subst h
  rfl

section

variable (record : Record) (sha256 : Bytes → String) (read : Except ReadError Bytes)

@[simp] theorem Record.digested_resolution :
    (record.digested sha256 read).resolution = record.resolution := by cases read <;> rfl

@[simp] theorem Record.digested_declaredPath :
    (record.digested sha256 read).declaredPath = record.declaredPath := by cases read <;> rfl

@[simp] theorem Record.digested_resolvedFile :
    (record.digested sha256 read).resolvedFile = record.resolvedFile := by cases read <;> rfl

@[simp] theorem Record.digested_logicalSourceRoot :
    (record.digested sha256 read).logicalSourceRoot = record.logicalSourceRoot := by cases read <;> rfl

@[simp] theorem Record.digested_runtimeLiteralPath :
    (record.digested sha256 read).runtimeLiteralPath = record.runtimeLiteralPath := by
  cases read <;> rfl

@[simp] theorem Record.digested_packagePath :
    (record.digested sha256 read).packagePath = record.packagePath := by cases read <;> rfl

@[simp] theorem Record.digested_packageRootBased :
    (record.digested sha256 read).packageRootBased = record.packageRootBased := by cases read <;> rfl

@[simp] theorem Record.digested_trustedRootPath :
    (record.digested sha256 read).trustedRootPath = record.trustedRootPath := by cases read <;> rfl

end

/-- The arguments of one call of `visit`. -/
structure Visit where
  /-- `current`, which is `resolution_source` as well. -/
  current : Parts
  packageSource : Parts
  depth : ℕ
  via : List String
  logicalAlias : Option String
  trustedRoot : Parts
  deriving DecidableEq, Repr

/-- What the builder raises. -/
inductive ClosureError
  /-- `SourceDependencyInferenceError` with its `limit_kind`. -/
  | inferenceLimit (limitKind : String) (maximum observed : ℕ) (dependency : Parts)
  /-- `LogicalSourceRootError` with its status. -/
  | logicalSourceRoot (status : String)
  /-- The `ValueError` of a mapping that the profile does not declare. -/
  | mapping (message : String)
  /-- The `OSError` of an entrypoint that cannot be read. -/
  | entrypointUnreadable
  /-- The `RuntimeError` of `expanduser`. -/
  | homeUnknown
  deriving DecidableEq, Repr

/-- What one capture of a closure is given. -/
structure Capture where
  fs : FileSystem
  sha256 : Bytes → String
  tables : UnicodeTables
  entrypoint : Parts
  roots : SourceRoots
  logicalProjectRoots : List (String × Parts)
  /-- `load_managed_source_generation`: the tree root, and the digest and size that the
  generation has for a path; `none` raises. -/
  managedGeneration : String → Option (Parts × (Parts → Option (String × ℕ)))
  /-- The project root that `resolve_project_input_context` selects for these literals. -/
  projectRoot : List String → Parts
  maxDepth : ℕ
  maxFiles : ℕ

namespace Capture

variable (capture : Capture)

/-- The roots of the portable paths of records. -/
def portableRoots : PortableRoots :=
  ⟨capture.entrypoint, capture.roots.root, capture.roots.holdirRoot, capture.roots.sourceOverlayRoot,
    capture.roots.logicalSourceRoots⟩

def declaration (logicalAlias : String) : Option LogicalDeclaration :=
  capture.roots.declarations.find? fun row => row.logicalAlias = logicalAlias

/-- `logical_roots[alias]`, for an alias that is mapped. -/
def mountRoot (logicalAlias : String) : Parts :=
  (capture.roots.logicalRoot logicalAlias).getD []

/-- `validate_managed_source_file`. -/
def validateManagedSourceFile (logicalAlias : String) (root relative : Parts) (sha256 : String)
    (size : ℕ) : Except ClosureError Unit :=
  if (capture.declaration logicalAlias).any fun row => row.sourceRole = .managedMirror then
    match capture.managedGeneration logicalAlias with
    | none => throw (.logicalSourceRoot "refused_logical_source_generation")
    | some (treeRoot, files) =>
        if treeRoot = root ∧ files relative = some (sha256, size) then pure ()
        else throw (.logicalSourceRoot "refused_logical_source_generation")
  else pure ()

/-- The trusted root that the file of a record is read beneath. -/
def recordRoot (edge : LoadEdge) (found : EdgeResolution) (resolved : Parts) : Parts :=
  match found.resolution with
  | .mountedSource => (found.logicalAlias.map capture.mountRoot).getD capture.roots.root
  | .holdirSource => capture.roots.holdirRoot.getD capture.roots.root
  | .sourceOverlay | .sourceOverlayConflict => capture.roots.sourceOverlayRoot.getD capture.roots.root
  | .externalResolved =>
      -- Exact absolute HOL bytes are captured for shelf comparison.
      match capture.roots.holdirRoot with
      | some holdirRoot =>
          if edge.loader = "needs" ∧ !found.symlinked ∧
              edge.declaredPath = "/" ++ RawPath.relativeText resolved ∧ Within resolved holdirRoot then
            holdirRoot
          else capture.roots.root
      | none => capture.roots.root
  | _ => capture.roots.root

/-- The record of an edge before its file is looked at. -/
def unresolvedRecord (visit : Visit) (edge : LoadEdge) (found : EdgeResolution) : Record where
  loader := edge.loader
  declaredPath := edge.declaredPath
  declaringFile := portablePath capture.portableRoots visit.current
  declaringPath := visit.current
  sourceLine := edge.sourceLine
  depth := visit.depth
  via := visit.via
  resolution := found.resolution
  symlinked := found.symlinked
  logicalSourceRoot :=
    match found.resolution with
    | .unresolvedMountedSource | .unavailableLogicalSourceRoot | .invalidLogicalSourcePath =>
        found.logicalAlias
    | _ => none
  resolvedPath := none
  resolvedFile := none
  runtimeLiteralPath := none
  packagePath := none
  packageRootBased := false
  legacyHoldirCoordinate := false
  trustedRootPath := none
  sha256 := none
  sizeBytes := none
  traversal := .notFollowed

/-- `os.path.normpath(package_source.parent / declared)`. -/
def besidePackageSource (visit : Visit) (edge : LoadEdge) : Parts :=
  normpath (parent visit.packageSource ++ (RawPath.ofString edge.declaredPath).parts)

/-- The record with the coordinates of the file it resolves to. -/
def placedRecord (visit : Visit) (edge : LoadEdge) (found : EdgeResolution) (resolved : Parts) :
    Record :=
  let record := { capture.unresolvedRecord visit edge found with
    resolvedPath := some resolved
    trustedRootPath := some (capture.recordRoot edge found resolved) }
  match found.resolution with
  | .mountedSource =>
      let logicalAlias := found.logicalAlias.getD ""
      let relative := relativeTo resolved (capture.mountRoot logicalAlias)
      { record with
        resolvedFile := some (logicalAlias :: relative)
        logicalSourceRoot := some logicalAlias
        runtimeLiteralPath := some edge.declaredPath
        packagePath := some ("__logical_roots__" :: logicalAlias :: relative) }
  | .holdirSource =>
      let relative := relativeTo resolved (capture.roots.holdirRoot.getD [])
      if (RawPath.ofString edge.declaredPath).isAbsolute then
        -- The old coordinate is bound to the immutable package at run time.
        { record with
          resolvedFile := some relative
          legacyHoldirCoordinate := true
          runtimeLiteralPath := some edge.declaredPath
          packagePath := some ("__holdir__" :: relative) }
      else
        { record with
          resolvedFile := some relative
          packagePath := some (besidePackageSource visit edge) }
  | .sourceOverlay =>
      { record with
        resolvedFile := some (relativeTo resolved (capture.roots.sourceOverlayRoot.getD []))
        packagePath := some (besidePackageSource visit edge) }
  | .sourceOverlayConflict =>
      { record with
        resolvedFile := some (relativeTo resolved (capture.roots.sourceOverlayRoot.getD [])) }
  | .sourceLocal =>
      let raw := RawPath.ofString edge.declaredPath
      let expanded := (capture.fs.expanduser raw).getD raw
      { record with
        resolvedFile := some (portablePath capture.portableRoots resolved)
        packagePath := some (relativeTo resolved capture.roots.root)
        packageRootBased :=
          safeHoldirLiteral expanded edge.declaredPath &&
            abspath (parent visit.current ++ raw.parts) ≠ resolved &&
            capture.roots.root ++ raw.parts = resolved }
  | _ => { record with resolvedFile := some (portablePath capture.portableRoots resolved) }

/-- The bytes that a record digests. -/
def recordBytes (edge : LoadEdge) (found : EdgeResolution) (resolved : Parts) : Except ReadError Bytes :=
  capture.fs.readBeneath (capture.recordRoot edge found resolved) resolved

/-- The record of an edge that resolves so. -/
def foundRecord (visit : Visit) (edge : LoadEdge) (found : EdgeResolution) : Record :=
  match found.resolved with
  | none => capture.unresolvedRecord visit edge found
  | some resolved =>
      (capture.placedRecord visit edge found resolved).digested capture.sha256
        (capture.recordBytes edge found resolved)

/-- The check of a mounted file against the generation of its mirror. -/
def validateMounted (edge : LoadEdge) (found : EdgeResolution) : Except ClosureError Unit :=
  match found.resolution, found.resolved with
  | .mountedSource, some resolved =>
      match capture.recordBytes edge found resolved with
      | .ok data =>
          let logicalAlias := found.logicalAlias.getD ""
          let managedRoot := capture.mountRoot logicalAlias
          capture.validateManagedSourceFile logicalAlias managedRoot (relativeTo resolved managedRoot)
            (capture.sha256 data) data.length
      | .error _ => pure ()
  | _, _ => pure ()

/-- `_resolve_edge` for a literal load of the file that is open. -/
def resolve (visit : Visit) (edge : LoadEdge) : Option EdgeResolution :=
  resolveEdge capture.fs capture.sha256 capture.roots visit.current edge.declaredPath
    visit.logicalAlias (visit.logicalAlias.bind capture.roots.logicalRoot)

/-- One round of the loop of `visit` up to the choice of `traversal`. -/
def edgeRecord (visit : Visit) (edge : LoadEdge) : Except ClosureError Record :=
  match capture.resolve visit edge with
  | none => throw .homeUnknown
  | some found => do
      capture.validateMounted edge found
      pure (capture.foundRecord visit edge found)

variable {capture}

/-- Everything that a returned record says: it is made of what the edge resolves to. -/
theorem edgeRecord_eq_ok {visit : Visit} {edge : LoadEdge} {record : Record}
    (h : capture.edgeRecord visit edge = .ok record) :
    ∃ found, capture.resolve visit edge = some found ∧ record = capture.foundRecord visit edge found := by
  unfold edgeRecord at h
  split at h
  · cases h
  · rename_i found hfound
    obtain ⟨-, -, h⟩ := bind_eq_ok.mp h
    cases h
    exact ⟨found, hfound, rfl⟩

end Capture

/-! ## What all records have -/

/-- The fields that a record takes from its place and its literal. -/
structure Record.MadeFor (record : Record) (capture : Capture) (visit : Visit) (edge : LoadEdge)
    (found : EdgeResolution) : Prop where
  loader : record.loader = edge.loader
  declaredPath : record.declaredPath = edge.declaredPath
  sourceLine : record.sourceLine = edge.sourceLine
  declaringFile : record.declaringFile = portablePath capture.portableRoots visit.current
  declaringPath : record.declaringPath = visit.current
  depth : record.depth = visit.depth
  resolution : record.resolution = found.resolution
  symlinked : record.symlinked = found.symlinked
  resolvedPath : record.resolvedPath = found.resolved
  traversal : record.traversal = .notFollowed

namespace Capture

variable {capture : Capture}

theorem unresolvedRecord_madeFor (visit : Visit) (edge : LoadEdge) (found : EdgeResolution)
    (h : found.resolved = none) :
    (capture.unresolvedRecord visit edge found).MadeFor capture visit edge found :=
  ⟨rfl, rfl, rfl, rfl, rfl, rfl, rfl, rfl, h.symm, rfl⟩

theorem placedRecord_madeFor (visit : Visit) (edge : LoadEdge) (found : EdgeResolution)
    (resolved : Parts) (h : found.resolved = some resolved) :
    (capture.placedRecord visit edge found resolved).MadeFor capture visit edge found := by
  unfold placedRecord
  dsimp only
  split
  · exact ⟨rfl, rfl, rfl, rfl, rfl, rfl, rfl, rfl, h.symm, rfl⟩
  · split <;> exact ⟨rfl, rfl, rfl, rfl, rfl, rfl, rfl, rfl, h.symm, rfl⟩
  all_goals exact ⟨rfl, rfl, rfl, rfl, rfl, rfl, rfl, rfl, h.symm, rfl⟩

theorem foundRecord_madeFor (visit : Visit) (edge : LoadEdge) (found : EdgeResolution) :
    (capture.foundRecord visit edge found).MadeFor capture visit edge found := by
  unfold foundRecord
  split
  · rename_i hnone
    exact unresolvedRecord_madeFor visit edge found hnone
  · rename_i resolved hsome
    have hplaced : (capture.placedRecord visit edge found resolved).MadeFor capture visit edge found :=
      placedRecord_madeFor visit edge found resolved hsome
    unfold Record.digested
    split
    · exact ⟨hplaced.loader, hplaced.declaredPath, hplaced.sourceLine, hplaced.declaringFile,
        hplaced.declaringPath, hplaced.depth, hplaced.resolution, hplaced.symlinked,
        hplaced.resolvedPath, hplaced.traversal⟩
    · exact hplaced

end Capture

end Hearth.Closure
