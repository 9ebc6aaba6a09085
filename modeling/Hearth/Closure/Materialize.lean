import Hearth.Closure.RecordFacts
import Hearth.Library.JsonDict
import Hearth.Library.Raising

/-!
# The two materializations of a package

`materialize_dependency_package` writes a durable package with the entrypoint in it, and
`materialize_session_dependency_package` a session package without.  Both stage the package
in a private directory, copy one file after the other, and rename the directory to its
destination at the end.  A call meets a source tree that may be another one at each of its
reads, a destination that others may occupy at any time, and operations that fail.
-/

namespace Hearth.Closure

open Hearth.Library
open Hearth.Library.Parts
open Hearth.Library.Raising

/-! ## What a call meets -/

/-- What either materialization raises. -/
inductive MaterializeError
  /-- A refusal, or the `OSError` of two paths that cannot both be files. -/
  | package (error : PackageError)
  /-- The `FileExistsError` of the destination. -/
  | destinationExists
  /-- Another `OSError`. -/
  | operationFailed
  deriving DecidableEq, Repr

def MaterializeError.refused (status : String) : MaterializeError :=
  .package (.refused status)

/-- What others have at the destination. -/
inductive Occupant
  | absent | emptyDirectory | occupied
  deriving DecidableEq, Repr

/-- The operations on directories and files that may fail. -/
inductive PackageOperation
  | expandDestination | makeParent | makeStaging | makePackage | writeEntrypoint
  | write (index : ℕ) | rename | removeStaging
  deriving DecidableEq, Repr

/-- What one call meets: the source tree of its reads, the destination when it is looked at
and renamed onto, and the operations that fail. -/
structure Surroundings where
  tree : ℕ → FileSystem
  destination : ℕ → Occupant
  fails : PackageOperation → Bool

/-- One tree that never changes, and a destination of one's own. -/
def Surroundings.steady (fs : FileSystem) : Surroundings :=
  ⟨fun _ => fs, fun _ => .absent, fun _ => false⟩

/-- What the call itself has written: its staged package, and the package that it has put at
the destination. -/
structure Disk where
  staging : Option (List (Parts × Bytes))
  published : Option (List (Parts × Bytes))
  deriving DecidableEq, Repr

def Disk.start : Disk := ⟨none, none⟩

def Disk.make (disk : Disk) : Disk :=
  { disk with staging := some [] }

def Disk.write (files : List (Parts × Bytes)) (disk : Disk) : Disk :=
  { disk with staging := disk.staging.map fun written => written ++ files }

/-- `staging.rename(destination)`. -/
def Disk.rename (disk : Disk) : Disk :=
  { staging := none, published := disk.staging }

/-- `shutil.rmtree(staging_parent, ignore_errors=True)`. -/
def Disk.clear (fails : Bool) (disk : Disk) : Disk :=
  { disk with staging := if fails then disk.staging else none }

@[simp] theorem Disk.make_published (disk : Disk) : disk.make.published = disk.published := rfl

@[simp] theorem Disk.write_published (files : List (Parts × Bytes)) (disk : Disk) :
    (disk.write files).published = disk.published := rfl

@[simp] theorem Disk.clear_published (fails : Bool) (disk : Disk) :
    (disk.clear fails).published = disk.published := rfl

/-- One of the two functions, or a part of it. -/
abbrev Materialization (α : Type) : Type :=
  Raising Disk MaterializeError α

/-! ## Manifests -/

/-- A row of `files`; a key that the row does not have is `none`. -/
structure ManifestRow where
  role : PackageRole
  packagePath : Parts
  sha256 : Option String
  sizeBytes : Option ℕ
  loader : Option String
  name : Option String
  runtimeLiteralPath : Option String
  legacyHoldirCoordinate : Option Bool
  materializedFromSymlink : Option Bool
  executedBytesInstrumented : Option Bool
  deriving DecidableEq, Repr

/-- The row records the digest and the size of these bytes. -/
def ManifestRow.Records (sha256 : Bytes → String) (row : ManifestRow) (contents : Bytes) : Prop :=
  row.sha256 = some (sha256 contents) ∧ row.sizeBytes = some contents.length

instance (sha256 : Bytes → String) (row : ManifestRow) (contents : Bytes) :
    Decidable (row.Records sha256 contents) :=
  inferInstanceAs (Decidable (_ ∧ _))

/-- A row whose path is a non-empty text, as `if record.get("runtime_literal_path")` asks. -/
def Record.candidateLiteral (record : Record) : Option String :=
  record.runtimeLiteralPath.filter fun literal => literal ≠ ""

/-- The row of a record in a session package. -/
def sessionRow (record : Record) : ManifestRow where
  role := packageRole record.resolution
  packagePath := record.packagePath.getD []
  sha256 := record.sha256
  sizeBytes := record.sizeBytes
  loader := none
  name := none
  runtimeLiteralPath :=
    if record.resolution = .mountedSource ∨ record.resolution = .holdirSource then record.candidateLiteral
    else none
  legacyHoldirCoordinate :=
    if record.resolution = .holdirSource ∧ record.candidateLiteral.isSome then
      some record.legacyHoldirCoordinate
    else none
  materializedFromSymlink := some record.symlinked
  executedBytesInstrumented := none

/-- The row of a record in a durable package. -/
def durableRow (record : Record) : ManifestRow where
  role := packageRole record.resolution
  packagePath := record.packagePath.getD []
  sha256 := record.sha256
  sizeBytes := record.sizeBytes
  loader := none
  name := none
  runtimeLiteralPath :=
    match record.resolution with
    | .mountedSource => record.candidateLiteral
    | .holdirSource => record.candidateLiteral
    | _ => none
  legacyHoldirCoordinate :=
    match record.resolution with
    | .holdirSource => record.candidateLiteral.map fun _ => record.legacyHoldirCoordinate
    | _ => none
  materializedFromSymlink := some record.symlinked
  executedBytesInstrumented := none

/-- The row of an artifact, in either package. -/
def artifactRow (artifact : Artifact) : ManifestRow where
  role := .literalElfArtifact
  packagePath := artifact.packagePath.getD []
  sha256 := artifact.sha256
  sizeBytes := artifact.sizeBytes
  loader := some artifact.loader
  name := artifact.name
  runtimeLiteralPath := artifact.runtimeLiteralPath
  legacyHoldirCoordinate := none
  materializedFromSymlink := some (artifact.resolution = .symlinkedPath)
  executedBytesInstrumented := none

/-- The row of the entrypoint; it records the captured bytes, whichever bytes are written. -/
def entrypointRow (entrypoint : Entrypoint) (output : Option Bytes) : ManifestRow where
  role := .entrypoint
  packagePath := entrypoint.packagePath
  sha256 := some entrypoint.sha256
  sizeBytes := some entrypoint.sizeBytes
  loader := none
  name := none
  runtimeLiteralPath := none
  legacyHoldirCoordinate := none
  materializedFromSymlink := none
  executedBytesInstrumented := some output.isSome

/-- The two spellings of a row's literal and of its coordinate agree. -/
theorem sessionRow_eq_durableRow (record : Record) : sessionRow record = durableRow record := by
  unfold sessionRow durableRow
  cases hresolution : record.resolution <;> cases hliteral : record.candidateLiteral <;> simp

/-! ## The loops -/

/-- What one turn of a loop reads of its record or artifact. -/
structure PackageCandidate where
  packagePath : Parts
  identity : PackageIdentity
  trustedRoot : Option Parts
  row : ManifestRow
  deriving DecidableEq, Repr

def Record.candidate (row : Record → ManifestRow) (record : Record) : PackageCandidate :=
  ⟨record.packagePath.getD [], record.identity, record.trustedRootPath, row record⟩

def Artifact.candidate (artifact : Artifact) : PackageCandidate :=
  ⟨artifact.packagePath.getD [],
    ⟨.literalElfArtifact, artifact.sha256, artifact.sizeBytes, artifact.resolvedPath⟩,
    some artifact.projectRoot, artifactRow artifact⟩

/-- What the two loops go over: the packaged records, then the artifacts. -/
def SourceClosure.candidates (closure : SourceClosure) (row : Record → ManifestRow) :
    List PackageCandidate :=
  (closure.records.filter Record.packaged).map (Record.candidate row) ++
    (closure.artifacts.filter fun artifact => artifact.resolution = .sourceLocal).map Artifact.candidate

/-- `claimed_paths` with the files that were claimed for, and the rows written so far. -/
structure PackageState where
  files : List PackagedFile
  rows : List ManifestRow
  deriving DecidableEq, Repr

section

variable (surroundings : Surroundings) (sha256 : Bytes → String)

/-- The operation raises where it fails. -/
def Surroundings.attempt (operation : PackageOperation) : Materialization Unit :=
  check (surroundings.fails operation = true) .operationFailed

/-- `destination.exists() or destination.is_symlink()`. -/
def Surroundings.checkDestination (look : ℕ) : Materialization Unit :=
  check (surroundings.destination look ≠ .absent) .destinationExists

/-- A step that writes nothing. -/
def ofPackage {α : Type} (x : Except PackageError α) : Materialization α :=
  ofExcept (x.mapError MaterializeError.package)

/-- One turn of a loop. -/
def copyCandidate (index : ℕ) (state : PackageState) (candidate : PackageCandidate) :
    Materialization PackageState := do
  let files ← ofPackage (packageFile (surroundings.tree index) sha256 state.files
    candidate.packagePath candidate.identity candidate.trustedRoot)
  -- The path was claimed for the same identity: `continue`.
  if files.length = state.files.length then pure state
  else do
    surroundings.attempt (.write index)
    update (Disk.write ((files.drop state.files.length).map fun file => (file.packagePath, file.contents)))
    pure ⟨files, state.rows ++ [candidate.row]⟩

/-- The turns of a loop; each has its own read of the source tree. -/
def copyCandidates : ℕ → PackageState → List PackageCandidate → Materialization PackageState
  | _, state, [] => pure state
  | index, state, candidate :: candidates => do
      let state ← copyCandidate surroundings sha256 index state candidate
      copyCandidates (index + 1) state candidates

end

/-! ## The durable package -/

/-- The profile-satisfaction document: its decision, and its edges as the manifests and the
projection repeat them. -/
structure ProfileSatisfaction where
  decision : ProfileDecision
  edges : List Json
  deriving DecidableEq

/-- The manifest of a durable package, with paths below the package root. -/
structure PackageManifest where
  transportStatus : TransportStatus
  logicalSourceRoots : List LogicalDeclaration
  entrypoint : Parts
  runtimeCwd : Option Parts
  files : List ManifestRow
  deriving DecidableEq, Repr

section

variable (surroundings : Surroundings) (sha256 : Bytes → String) (closure : SourceClosure)
  (profile : ProfileSatisfaction)

/-- The entrypoint, read again and compared. -/
def readEntrypoint (fs : FileSystem) (source : Parts) : Except PackageError Bytes :=
  match fs.readBeneath closure.roots.root source with
  | .error _ => throw (.refused "refused_source_changed")
  | .ok data =>
      if sha256 data ≠ closure.entrypoint.sha256 ∨ data.length ≠ closure.entrypoint.sizeBytes then
        throw (.refused "refused_source_changed")
      else pure data

/-- `runtime_cwd`: beside the entrypoint for `#use`, at the package root for ELF files. -/
def runtimeCwd (files : List PackagedFile) : Option Parts :=
  if closure.records.any fun record => record.loader = "#use" then
    some (parent closure.entrypoint.packagePath)
  else if files.any fun file => file.role = .literalElfArtifact then some []
  else none

/-- `_materialize_dependency_package_unpublished`. -/
def materializeDependencyPackageUnpublished (source : Parts) (output : Option Bytes) :
    Materialization PackageManifest :=
  match closure.dependencyTransportStatus profile.decision with
  | .refused status _ => raise (.refused status)
  | status => do
      surroundings.attempt .makePackage
      update Disk.make
      let data ← ofPackage (readEntrypoint sha256 closure (surroundings.tree 0) source)
      ofPackage (safePackagePath closure.entrypoint.packagePath)
      surroundings.attempt .writeEntrypoint
      update (Disk.write [(closure.entrypoint.packagePath, output.getD data)])
      let state ← copyCandidates surroundings sha256 1
        ⟨[⟨.entrypoint, closure.entrypoint.packagePath, source, sha256 data, data⟩],
          [entrypointRow closure.entrypoint output]⟩
        (closure.candidates durableRow)
      pure
        { transportStatus := status
          logicalSourceRoots := closure.roots.declarations
          entrypoint := closure.entrypoint.packagePath
          runtimeCwd := runtimeCwd closure state.files
          files := state.rows }

/-- The staged package is renamed: onto nothing, or onto an empty directory. -/
def Surroundings.publish {α : Type} (manifest : α) : Materialization α := do
  surroundings.checkDestination 2
  surroundings.attempt .rename
  check (surroundings.destination 3 = .occupied) .operationFailed
  update Disk.rename
  pure manifest

/-- `materialize_dependency_package`. -/
def materializeDependencyPackageAt (source : Parts) (output : Option Bytes) :
    Materialization PackageManifest := do
  surroundings.attempt .expandDestination
  surroundings.checkDestination 0
  surroundings.attempt .makeParent
  surroundings.checkDestination 1
  surroundings.attempt .makeStaging
  ensuring (do
    let manifest ←
      materializeDependencyPackageUnpublished surroundings sha256 closure profile source output
    surroundings.publish manifest) (Disk.clear (surroundings.fails .removeStaging))

end

/-! ## The session package -/

/-- A row of `files` of the projection. -/
structure ProjectionRow where
  loader : String
  resolution : Option Resolution
  declaredPath : Option String
  name : Option String
  runtimeLiteralPath : Option String
  packagePath : Option Parts
  logicalSourceRoot : Option String
  sha256 : Option String
  sizeBytes : Option ℕ
  deriving DecidableEq, Repr

/-- What `session_dependency_projection` returns, before its digest. -/
structure SessionProjection where
  entrypointPackagePath : Parts
  logicalSourceRoots : List LogicalDeclaration
  transportStatus : TransportStatus
  files : List ProjectionRow
  profileEdges : List Json
  deriving DecidableEq

/-- The manifest of a session package, with paths below the package root. -/
structure SessionManifest where
  virtualEntrypoint : Parts
  files : List ManifestRow
  deriving DecidableEq, Repr

def Record.projectionRow (record : Record) : ProjectionRow where
  loader := record.loader
  resolution := some record.resolution
  declaredPath := some record.declaredPath
  name := none
  runtimeLiteralPath := record.runtimeLiteralPath
  packagePath := record.packagePath
  logicalSourceRoot := record.logicalSourceRoot
  sha256 := record.sha256
  sizeBytes := record.sizeBytes

def Artifact.projectionRow (artifact : Artifact) : ProjectionRow where
  loader := artifact.loader
  resolution := none
  declaredPath := none
  name := artifact.name
  runtimeLiteralPath := artifact.runtimeLiteralPath
  packagePath := artifact.packagePath
  logicalSourceRoot := artifact.logicalSourceRoot
  sha256 := artifact.sha256
  sizeBytes := artifact.sizeBytes

section

variable (surroundings : Surroundings) (sha256 : Bytes → String) (closure : SourceClosure)
  (profile : ProfileSatisfaction)

/-- `session_dependency_projection`. -/
def sessionDependencyProjection : Except PackageError SessionProjection :=
  match closure.dependencyTransportStatus profile.decision with
  | .refused status _ => throw (.refused status)
  | status => pure
      { entrypointPackagePath := closure.entrypoint.packagePath
        logicalSourceRoots := closure.roots.declarations
        transportStatus := status
        files := (closure.records.filter Record.packaged).map Record.projectionRow ++
          (closure.artifacts.filter fun artifact => artifact.resolution = .sourceLocal).map
            Artifact.projectionRow
        profileEdges := profile.edges }

/-- `exists()` of a path below the staged package: a file, or a directory of one. -/
def occupied (files : List PackagedFile) (path : Parts) : Bool :=
  files.any fun file => Within file.packagePath path

/-- `_materialize_session_dependency_package_unpublished`. -/
def materializeSessionDependencyPackageUnpublished (projection : SessionProjection) :
    Materialization SessionManifest := do
  let current ← ofPackage (sessionDependencyProjection closure profile)
  check (current ≠ projection) (.refused "refused_dependency_projection_changed")
  surroundings.attempt .makePackage
  update Disk.make
  let state ← copyCandidates surroundings sha256 1 ⟨[], []⟩ (closure.candidates sessionRow)
  ofPackage (safePackagePath projection.entrypointPackagePath)
  check (occupied state.files projection.entrypointPackagePath = true)
    (.refused "refused_package_path_collision")
  pure
    { virtualEntrypoint := projection.entrypointPackagePath
      files := state.rows }

/-- `materialize_session_dependency_package`. -/
def materializeSessionDependencyPackage (projection : SessionProjection) :
    Materialization SessionManifest := do
  surroundings.attempt .expandDestination
  surroundings.checkDestination 0
  surroundings.attempt .makeParent
  surroundings.attempt .makeStaging
  ensuring (do
    let manifest ← materializeSessionDependencyPackageUnpublished surroundings sha256 closure profile
      projection
    surroundings.publish manifest) (Disk.clear (surroundings.fails .removeStaging))

end

end Hearth.Closure
