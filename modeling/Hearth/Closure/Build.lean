import Hearth.Closure.Record

/-!
# The depth-first capture of a closure

`build_source_dependency_closure`.  `visitFile` opens one source file and walks its
literal loads in lexical order; an admitted file that was not seen before is visited one
level deeper.  The set `active` of the source is the stack of files that are open, so it
is an argument here, with the file itself on top.
-/

namespace Hearth.Closure

open Hearth.Library
open Hearth.Library.Parts

/-- A dynamic row with the file that declares it. -/
structure Declared (α : Type) where
  row : α
  declaringFile : Parts
  declaringPath : Parts
  deriving DecidableEq, Repr

/-- The variables that `visit` shares between its calls. -/
structure Walk where
  records : List Record
  visited : List Parts
  scannedFiles : ℕ
  /-- `unreadable:` with the portable path. -/
  limitReasons : List Parts
  dynamicLoaders : List (Declared DynamicLoader)
  artifactReferences : List (ArtifactRef × Parts)
  dynamicArtifacts : List (Declared DynamicArtifactRef)
  deriving DecidableEq, Repr

/-- The file that a record leads the traversal to. -/
def Record.followable (record : Record) : Option Parts :=
  if record.resolution.admitted then record.resolvedPath else none

namespace Walk

/-- The record is appended with its `traversal`. -/
def emit (walk : Walk) (record : Record) (traversal : Traversal) : Walk :=
  { walk with records := walk.records ++ [record.flagged traversal] }

def enter (walk : Walk) (resolved : Parts) : Walk :=
  { walk with visited := resolved :: walk.visited, scannedFiles := walk.scannedFiles + 1 }

def limit (walk : Walk) (reason : Parts) : Walk :=
  { walk with limitReasons := walk.limitReasons ++ [reason] }

/-- The rows that `visit` collects before it walks the edges of a file. -/
def collect (walk : Walk) (roots : PortableRoots) (current : Parts) (analysis : Analysis) : Walk :=
  { walk with
    dynamicLoaders := walk.dynamicLoaders ++
      analysis.dynamic.map fun row => ⟨row, portablePath roots current, current⟩
    artifactReferences := walk.artifactReferences ++ analysis.artifactRefs.map fun row => (row, current)
    dynamicArtifacts := walk.dynamicArtifacts ++ analysis.dynamicArtifactRefs.map fun row =>
      ⟨row, portablePath { roots with logicalSourceRoots := [] } current, current⟩ }

end Walk

namespace Capture

variable (capture : Capture)

/-- The call of `visit` for a followed record. -/
def childVisit (visit : Visit) (record : Record) (resolved : Parts) : Visit where
  current := resolved
  packageSource := record.packagePath.getD []
  depth := visit.depth + 1
  via := visit.via ++ [record.declaredPath]
  logicalAlias := if record.resolution = .mountedSource then record.logicalSourceRoot else none
  trustedRoot := record.trustedRootPath.getD []

/-- The loop of `visit` over the literal loads of a file. -/
def visitEdges (descend : Visit → List Parts → Walk → Except ClosureError Walk) (visit : Visit)
    (active : List Parts) : List LoadEdge → Walk → Except ClosureError Walk
  | [], walk => pure walk
  | edge :: rest, walk => do
      let record ← capture.edgeRecord visit edge
      match record.followable with
      | none => visitEdges descend visit active rest (walk.emit record .notFollowed)
      | some resolved =>
          if resolved ∈ active then
            visitEdges descend visit active rest (walk.emit record .cycle)
          else if resolved ∈ walk.visited then
            visitEdges descend visit active rest (walk.emit record .alreadySeen)
          else if capture.maxDepth < visit.depth then
            throw (.inferenceLimit "depth" capture.maxDepth visit.depth resolved)
          else if capture.maxFiles ≤ walk.scannedFiles then
            throw (.inferenceLimit "files" capture.maxFiles (walk.scannedFiles + 1) resolved)
          else if record.sha256.isNone then
            visitEdges descend visit active rest
              ((walk.emit record .unreadable).limit (record.resolvedFile.getD []))
          else do
            let walk ← descend (childVisit visit record resolved) (resolved :: active)
              ((walk.emit record .followed).enter resolved)
            visitEdges descend visit active rest walk

/-- One call of `visit` with this many levels left; the depth bound of the source is met
before the levels run out. -/
def visitFile : ℕ → Visit → List Parts → Walk → Except ClosureError Walk
  | 0, visit, _, _ =>
      throw (.inferenceLimit "depth" capture.maxDepth (visit.depth - 1) visit.current)
  | levels + 1, visit, active, walk =>
      match capture.fs.readBeneath visit.trustedRoot visit.current with
      | .error _ =>
          pure (walk.limit
            (portablePath { capture.portableRoots with logicalSourceRoots := [] } visit.current))
      | .ok data =>
          let analysis := analyze capture.tables data
          visitEdges capture (visitFile levels) visit active analysis.edges
            (walk.collect capture.portableRoots visit.current analysis)

end Capture

/-! ## Artifacts -/

/-- `resolution` of an artifact record. -/
inductive ArtifactResolution
  | sourceLocal | invalidPath | unreadable | symlinkedPath | unresolved
  deriving DecidableEq, Repr

/-- An artifact record of the closure. -/
structure Artifact where
  loader : String
  name : Option String
  declaredPath : String
  declaringFile : Parts
  declaringPath : Parts
  sourceLine : ℕ
  projectRoot : Parts
  logicalSourceRoot : Option String
  inputPath : Parts
  resolution : ArtifactResolution
  resolvedPath : Option Parts
  packagePath : Option Parts
  runtimeLiteralPath : Option String
  sha256 : Option String
  sizeBytes : Option ℕ
  deriving DecidableEq, Repr

/-- The `entrypoint` of a closure. -/
structure Entrypoint where
  path : Parts
  packagePath : Parts
  sha256 : String
  sizeBytes : ℕ
  deriving DecidableEq, Repr

/-- A closure, without what is derived from its records for display. -/
structure SourceClosure where
  roots : SourceRoots
  projectRoot : Parts
  entrypoint : Entrypoint
  records : List Record
  dynamicLoaders : List (Declared DynamicLoader)
  artifacts : List Artifact
  dynamicArtifacts : List (Declared DynamicArtifactRef)
  limitReasons : List Parts
  deriving DecidableEq, Repr

namespace Capture

variable (capture : Capture)

/-- The logical root that owns a declaring file. -/
def logicalOwner (declaringFile : Parts) : Option (String × Parts) :=
  capture.roots.logicalSourceRoots.find? fun row => Within declaringFile row.2

/-- The roots that `_artifact_record` gives to `_portable_path`: HOLDIR and the overlay
are not among them. -/
def artifactPortableRoots : PortableRoots :=
  { capture.portableRoots with holdirRoot := none, sourceOverlayRoot := none }

/-- The root that the literals of a declaring file are bounded by. -/
def artifactRoot (projectRoot declaringFile : Parts) : Parts :=
  match capture.logicalOwner declaringFile with
  | some (logicalAlias, logicalRoot) => (capture.logicalProjectRoots.lookup logicalAlias).getD logicalRoot
  | none => projectRoot

/-- The lexical path that an artifact literal names. -/
def artifactLexical (artifactRoot declaringFile : Parts) (declared : String) (raw : RawPath) : Parts :=
  abspath <|
    if raw.isAbsolute then raw.parts
    else if startsDotted declared.toList then parent declaringFile ++ raw.parts
    else artifactRoot ++ raw.parts

/-- An artifact record before its file is looked at. -/
def declaredArtifact (projectRoot : Parts) (reference : ArtifactRef) (declaringFile : Parts)
    (raw : RawPath) : Artifact where
  loader := reference.loader
  name := reference.name
  declaredPath := reference.path
  declaringFile := portablePath capture.artifactPortableRoots declaringFile
  declaringPath := declaringFile
  sourceLine := reference.sourceLine
  projectRoot := capture.artifactRoot projectRoot declaringFile
  logicalSourceRoot := (capture.logicalOwner declaringFile).map Prod.fst
  inputPath :=
    artifactLexical (capture.artifactRoot projectRoot declaringFile) declaringFile reference.path raw
  resolution := .invalidPath
  resolvedPath := none
  packagePath := none
  runtimeLiteralPath := none
  sha256 := none
  sizeBytes := none

/-- `_artifact_record`, for a literal whose expansion is `raw`. -/
def artifactOf (projectRoot : Parts) (reference : ArtifactRef) (declaringFile : Parts) (raw : RawPath) :
    Artifact :=
  let record := capture.declaredArtifact projectRoot reference declaringFile raw
  let lexical := record.inputPath
  if reference.path ∈ ["", ".", ".."] ∨ raw.anchor = .doubleRoot ∨ ¬ Within lexical record.projectRoot then
    record
  else
    match capture.fs.resolve lexical with
    | none => { record with resolution := .unreadable }
    | some resolved =>
        if resolved ≠ lexical then
          { record with resolution := .symlinkedPath, resolvedPath := some resolved }
        else
          match capture.fs.readBeneath record.projectRoot lexical with
          | .error .notFound => { record with resolution := .unresolved, resolvedPath := some resolved }
          | .error .refused => { record with resolution := .unreadable, resolvedPath := some resolved }
          | .ok data =>
              { record with
                resolution := .sourceLocal
                resolvedPath := some resolved
                packagePath :=
                  match record.logicalSourceRoot with
                  | some logicalAlias =>
                      some ("__logical_roots__" :: logicalAlias :: relativeTo resolved record.projectRoot)
                  | none => some (relativeTo resolved projectRoot)
                runtimeLiteralPath := some reference.path
                sha256 := some (capture.sha256 data)
                sizeBytes := some data.length }

/-- `_artifact_record`, for a reference and the file that declares it. -/
def artifactRecord (projectRoot : Parts) (reference : ArtifactRef × Parts) :
    Except ClosureError Artifact :=
  match capture.fs.expanduser (RawPath.ofString reference.1.path) with
  | none => throw .homeUnknown
  | some raw => pure (capture.artifactOf projectRoot reference.1 reference.2 raw)

/-- The check of the artifacts of managed mirrors. -/
def validateArtifact (artifact : Artifact) : Except ClosureError Unit :=
  match artifact.resolution, artifact.logicalSourceRoot with
  | .sourceLocal, some logicalAlias =>
      let logicalRoot := capture.mountRoot logicalAlias
      capture.validateManagedSourceFile logicalAlias logicalRoot
        (relativeTo (artifact.resolvedPath.getD []) logicalRoot) (artifact.sha256.getD "")
        (artifact.sizeBytes.getD 0)
  | _, _ => pure ()

/-- Whatever becomes of its file, an artifact record names its reference and the file that
declares it. -/
theorem artifactOf_declared (projectRoot : Parts) (reference : ArtifactRef) (declaringFile : Parts)
    (raw : RawPath) :
    (capture.artifactOf projectRoot reference declaringFile raw).loader = reference.loader ∧
    (capture.artifactOf projectRoot reference declaringFile raw).declaredPath = reference.path ∧
    (capture.artifactOf projectRoot reference declaringFile raw).declaringPath = declaringFile ∧
    (capture.artifactOf projectRoot reference declaringFile raw).declaringFile =
      portablePath capture.artifactPortableRoots declaringFile := by
  unfold artifactOf
  dsimp only
  split
  · exact ⟨rfl, rfl, rfl, rfl⟩
  split
  · exact ⟨rfl, rfl, rfl, rfl⟩
  split
  · exact ⟨rfl, rfl, rfl, rfl⟩
  split <;> exact ⟨rfl, rfl, rfl, rfl⟩

/-! ## The builder -/

/-- The first call of `visit`. -/
def entryVisit : Visit where
  current := capture.entrypoint
  packageSource := relativeTo capture.entrypoint capture.roots.root
  depth := 1
  via := []
  logicalAlias := none
  trustedRoot := capture.roots.root

def entryWalk : Walk where
  records := []
  visited := [capture.entrypoint]
  scannedFiles := 0
  limitReasons := []
  dynamicLoaders := []
  artifactReferences := []
  dynamicArtifacts := []

/-- Every mapped logical root is declared by the profile. -/
def MapsDeclaredRoots : Prop :=
  ∀ row ∈ capture.roots.logicalSourceRoots, row.1 ∈ capture.roots.declaredAliases

/-- The project roots are mapped for the logical roots, and for nothing else. -/
def MapsProjectRoots : Prop :=
  (∀ row ∈ capture.logicalProjectRoots, row.1 ∈ capture.roots.logicalSourceRoots.map Prod.fst) ∧
    ∀ row ∈ capture.roots.logicalSourceRoots, row.1 ∈ capture.logicalProjectRoots.map Prod.fst

instance : Decidable capture.MapsDeclaredRoots :=
  inferInstanceAs (Decidable (∀ row ∈ capture.roots.logicalSourceRoots, _))

instance : Decidable capture.MapsProjectRoots :=
  inferInstanceAs (Decidable ((∀ row ∈ capture.logicalProjectRoots, _) ∧ _))

/-- `build_source_dependency_closure`. -/
def buildSourceDependencyClosure : Except ClosureError SourceClosure := do
  if ¬ capture.MapsDeclaredRoots then
    throw (.mapping "logical source-root runtime mapping is not declared by the portable profile contract")
  if ¬ capture.MapsProjectRoots then
    throw (.mapping "logical project-root mapping must match the resolved logical source roots")
  match capture.fs.fileDigest capture.sha256 capture.entrypoint with
  | none => throw .entrypointUnreadable
  | some digest => do
      let walk ← capture.visitFile (capture.maxDepth + 1) capture.entryVisit [capture.entrypoint]
        capture.entryWalk
      let projectRoot := capture.projectRoot (walk.artifactReferences.map fun reference => reference.1.path)
      let artifacts ← walk.artifactReferences.mapM (capture.artifactRecord projectRoot)
      artifacts.forM capture.validateArtifact
      pure
        { roots := capture.roots
          projectRoot
          entrypoint :=
            ⟨capture.entrypoint, relativeTo capture.entrypoint capture.roots.root, digest,
              capture.fs.sizeOf capture.entrypoint⟩
          records := walk.records
          dynamicLoaders := walk.dynamicLoaders
          artifacts
          dynamicArtifacts := walk.dynamicArtifacts
          limitReasons := walk.limitReasons }

end Capture

/-- A capture of a tree without symbolic links, HOLDIR, overlay or logical roots, with the
limits of the source. -/
def Capture.ofFiles (sha256 : Bytes → String) (files : List (Parts × Bytes)) (root entrypoint : Parts) :
    Capture where
  fs := .ofFiles files
  sha256 := sha256
  tables := .ascii
  entrypoint := entrypoint
  roots :=
    { root
      holdirRoot := none
      legacyHoldirRoots := []
      sourceOverlayRoot := none
      declarations := []
      logicalSourceRoots := [] }
  logicalProjectRoots := []
  managedGeneration _ := none
  projectRoot _ := root
  maxDepth := 32
  maxFiles := 200

/-! ## What the closure document derives -/

/-- `role` of a packaged file. -/
inductive PackageRole
  | entrypoint | dependency | holdirDependency | mountedSourceDependency | sourceOverlayDependency
  | literalElfArtifact
  deriving DecidableEq, Repr

/-- `_package_role`. -/
def packageRole : Resolution → PackageRole
  | .holdirSource => .holdirDependency
  | .mountedSource => .mountedSourceDependency
  | .sourceOverlay => .sourceOverlayDependency
  | _ => .dependency

/-- The identity that a package path is claimed for. -/
structure PackageIdentity where
  role : PackageRole
  sha256 : Option String
  sizeBytes : Option ℕ
  resolvedPath : Option Parts
  deriving DecidableEq, Repr

/-- The record's file goes into the package. -/
def Record.packaged (record : Record) : Bool :=
  record.resolution.admitted && record.traversal ≠ .notFollowed && record.traversal ≠ .unreadable

def Record.identity (record : Record) : PackageIdentity :=
  ⟨packageRole record.resolution, record.sha256, record.sizeBytes, record.resolvedPath⟩

namespace SourceClosure

variable (closure : SourceClosure)

/-- The claims of `_package_collisions` in their order. -/
def packageClaims : List (Parts × PackageIdentity) :=
  (closure.entrypoint.packagePath, ⟨.entrypoint, some closure.entrypoint.sha256,
      some closure.entrypoint.sizeBytes, some closure.entrypoint.path⟩) ::
    (closure.records.filter Record.packaged).filterMap (fun record =>
      record.packagePath.map fun portable => (portable, record.identity)) ++
    (closure.artifacts.filter fun artifact => artifact.resolution = .sourceLocal).filterMap
      fun artifact => artifact.packagePath.map fun portable =>
        (portable, ⟨.literalElfArtifact, artifact.sha256, artifact.sizeBytes, artifact.resolvedPath⟩)

/-- `_package_collisions`: some claim differs from the first for its path. -/
def packageCollision : Bool :=
  closure.packageClaims.any fun claim =>
    (closure.packageClaims.find? fun first => first.1 = claim.1).any fun first => first.2 ≠ claim.2

/-- `_logical_name_collisions`: two artifacts of one name. -/
def logicalNameCollision : Bool :=
  let names := (closure.artifacts.filterMap Artifact.name ++
    closure.dynamicArtifacts.filterMap fun artifact => artifact.row.name).filter (· ≠ "")
  decide ¬ names.Nodup

/-- The status of `build_project_input_projection` is `blocked`. -/
def projectInputsBlocked : Bool :=
  closure.packageCollision || closure.logicalNameCollision ||
    closure.artifacts.any fun artifact => artifact.resolution ≠ .sourceLocal

/-- `resolved_literal_closure`. -/
def resolvedLiteralClosure : Bool :=
  closure.records.all (fun record => record.resolution.admitted) &&
    closure.artifacts.all (fun artifact => artifact.resolution = .sourceLocal) &&
    closure.limitReasons.isEmpty && !closure.projectInputsBlocked

/-- `semantic_identity_complete`. -/
def semanticIdentityComplete : Bool :=
  closure.resolvedLiteralClosure && closure.dynamicLoaders.isEmpty && closure.dynamicArtifacts.isEmpty

end SourceClosure

end Hearth.Closure
