import Hearth.Closure.Traversal
import Hearth.Closure.Transport
import Hearth.Loader.ProveBindings

/-!
# The working directory of literal ELF files

`elf_package_transport` lets relative ELF literals stand when one working directory in the package gives each of them
its captured file; it looks at the project in place of the package.  `source_execution_prelude` computes the directory
again in the package itself.  The two agree as long as no literal leaves the package on its way.
-/

namespace Hearth.Closure

open Hearth.Library
open Hearth.Library.Parts
open Hearth.Loader (ByteSpan lexedTokens scanOcamlLoaders)

/-! ## `literal_elf_artifact_runtime_cwd` -/

/-- What `literal_elf_artifact_runtime_cwd` raises. -/
inductive ElfError
  /-- `DependencyPackageError` with its status and message. -/
  | refused (status message : String)
  | osError
  deriving DecidableEq, Repr

/-- A resolution, or its `OSError`. -/
def resolvedOr (place : Option Parts) : Except ElfError Parts :=
  place.elim (throw .osError) pure

/-- `Path.resolve(strict=True)`. -/
def FileSystem.resolveStrict (fs : FileSystem) (path : Parts) : Option Parts :=
  (fs.resolve path).filter fs.isPresent

section

variable (fs : FileSystem) (processCwd : Parts)

/-- One round of the loop: the working directory that gives the literal of `artifact` its file in the package. -/
def artifactRuntimeCwd (cwd packageRoot : Parts) (artifact : Artifact) : Except ElfError Parts := do
  let literal := RawPath.ofString (artifact.runtimeLiteralPath.getD "")
  let packagePath := artifact.packagePath.getD []
  if literal.isAbsolute ∨ literal.parts = [] ∨ packagePath = [] then
    throw (.refused "refused_artifact_runtime_path"
      ("literal ELF path cannot be reproduced inside the cold package: " ++ literal.text))
  let projectRoot ← resolvedOr (fs.resolveStrict artifact.projectRoot)
  let resolvedPath ← resolvedOr (fs.resolveStrict (artifact.resolvedPath.getD processCwd))
  if ¬ Within cwd projectRoot ∨ ¬ Within resolvedPath projectRoot then
    throw (.refused "refused_artifact_runtime_cwd"
      ("cold replay cwd or artifact is outside its source project root: " ++ RawPath.absoluteText projectRoot))
  let projectArtifact := relativeTo resolvedPath projectRoot
  let expected ← resolvedOr (fs.resolve (packageRoot ++ packagePath))
  let packagedProjectRoot := expected.take (expected.length - projectArtifact.length)
  let candidateCwd := packagedProjectRoot ++ relativeTo cwd projectRoot
  let observed ← resolvedOr (fs.resolve (candidateCwd ++ literal.parts))
  let refusal : ElfError := .refused "refused_artifact_runtime_path"
    ("literal ELF path does not resolve to its captured package file: " ++ literal.text ++ " -> " ++
      RawPath.absoluteText observed ++ ", expected " ++ RawPath.absoluteText expected)
  if observed ≠ expected ∨ ¬ Within expected packageRoot then throw refusal
  let resolvedCwd ← resolvedOr (fs.resolve candidateCwd)
  if ¬ Within resolvedCwd packageRoot then throw refusal
  return candidateCwd

/-- The loop, with the working directory of the rounds before. -/
def runtimeCwdFrom (cwd packageRoot : Parts) : Option Parts → List Artifact → Except ElfError (Option Parts)
  | runtimeCwd, [] => pure runtimeCwd
  | runtimeCwd, artifact :: artifacts => do
      let candidateCwd ← artifactRuntimeCwd fs processCwd cwd packageRoot artifact
      if runtimeCwd.any (· ≠ candidateCwd) then
        throw (.refused "refused_artifact_runtime_cwd"
          "literal ELF artifacts require different packaged working directories")
      runtimeCwdFrom cwd packageRoot (some candidateCwd) artifacts

/-- The artifacts that the package has files for. -/
def SourceClosure.localArtifacts (closure : SourceClosure) : List Artifact :=
  closure.artifacts.filter fun artifact => artifact.resolution = .sourceLocal

/-- `literal_elf_artifact_runtime_cwd`, for an absolute `original_cwd`. -/
def literalElfArtifactRuntimeCwd (closure : SourceClosure) (originalCwd packageRoot : Parts) :
    Except ElfError (Option Parts) := do
  if closure.localArtifacts = [] then return none
  let cwd ← resolvedOr (fs.resolveStrict originalCwd)
  runtimeCwdFrom fs processCwd cwd packageRoot none closure.localArtifacts

/-! ## `elf_package_transport` -/

/-- How the ELF literals of a package get their files; `mode`, and what goes with it. -/
inductive ElfTransport
  | none
  | mappedLoaders (wrappedLoaders : List String)
  | packageCwd (cwdFromPackageRoot : Parts)
  deriving DecidableEq, Repr

/-- The loaders of ELF files that the closure uses, sorted. -/
def SourceClosure.elfLoaders (closure : SourceClosure) : List String :=
  ["define_assert_from_elf", "define_from_elf"].filter fun loader =>
    closure.artifacts.any fun artifact => artifact.loader = loader

/-- `source_may_change_cwd`. -/
def sourceMayChangeCwd (tables : Loader.UnicodeTables) (source : Bytes) : Bool :=
  if utf8 "chdir" <:+: source ∨ utf8 "external" <:+: source then
    if (scanOcamlLoaders tables source).status ≠ .ok then true
    else ((lexedTokens tables source).getD []).any fun token =>
      token.kind = .ident ∧ token.value ∈ ["chdir", "fchdir", "external"]
  else false

/-- The loop over the sources of the closure: every digest is that of the file now, and no file changes the
directory. -/
def sourcesHold (sha256 : Bytes → String) (tables : Loader.UnicodeTables) :
    List (Parts × String) → List (Option Parts × Option Parts × Option String) → Bool
  | _, [] => true
  | checked, (some root, some path, some digest) :: sources =>
      match checked.lookup path with
      | some previous => previous = digest && sourcesHold sha256 tables checked sources
      | none =>
          match fs.readBeneath root path with
          | .error _ => false
          | .ok data => digest ≠ "" && sha256 data = digest && !sourceMayChangeCwd tables data &&
              sourcesHold sha256 tables ((path, digest) :: checked) sources
  | _, _ :: _ => false

/-- The sources that `elf_package_transport` reads again. -/
def SourceClosure.sources (closure : SourceClosure) : List (Option Parts × Option Parts × Option String) :=
  (some closure.roots.root, some closure.entrypoint.path, some closure.entrypoint.sha256) ::
    closure.records.map fun record => (record.trustedRootPath, record.resolvedPath, record.sha256)

/-- `elf_package_transport`; `identityMatches` is `source_dependency_closure_identity_matches` of the closure. -/
def elfPackageTransport (sha256 : Bytes → String) (tables : Loader.UnicodeTables) (identityMatches : Bool)
    (closure : SourceClosure) : ElfTransport :=
  let fallback : ElfTransport :=
    if closure.elfLoaders = [] then .none else .mappedLoaders closure.elfLoaders
  if closure.elfLoaders = [] ∨ identityMatches = false then fallback
  else
    match fs.resolveStrict closure.projectRoot with
    | none => fallback
    | some projectRoot =>
        match literalElfArtifactRuntimeCwd fs processCwd closure projectRoot projectRoot with
        | .ok (some candidate) =>
            if Within candidate projectRoot ∧ sourcesHold fs sha256 tables [] closure.sources then
              .packageCwd (relativeTo candidate projectRoot)
            else fallback
        | _ => fallback

/-! ## `source_execution_prelude` -/

/-- What the prelude raises. -/
inductive PreludeError
  | elf (error : ElfError)
  | osError
  | valueError (message : String)
  deriving DecidableEq, Repr

/-- The working directory of the prelude, where no caller has computed it. -/
def preludeElfRuntimeCwd (closure : SourceClosure) (packageRoot : Parts) :
    ElfTransport → Except PreludeError (Option Parts)
  | .packageCwd cwdFromPackageRoot =>
      let differs : PreludeError := .valueError "ELF package working directory differs from its captured transport"
      match literalElfArtifactRuntimeCwd fs processCwd closure closure.projectRoot packageRoot with
      | .error error => throw (.elf error)
      | .ok none => throw differs
      | .ok (some cwd) =>
          match fs.resolve packageRoot with
          | none => throw .osError
          | some root =>
              if Within cwd root ∧ relativeTo cwd root = cwdFromPackageRoot then pure (some cwd)
              else throw differs
  | _ => pure none

end

/-! ## Resolution in a package -/

/-- Resolution goes component by component: what a path resolves to stands for it, and what is resolved has its
directories above it. -/
structure FileSystem.Walks (fs : FileSystem) : Prop where
  clean : ∀ {path resolved : Parts}, fs.resolve path = some resolved → Clean resolved
  ancestors : ∀ {path resolved directory : Parts}, fs.resolve path = some resolved → Within resolved directory →
    fs.resolve directory = some directory
  onward : ∀ {path resolved : Parts}, fs.resolve path = some resolved →
    ∀ rest, fs.resolve (path ++ rest) = fs.resolve (resolved ++ rest)
  up : ∀ {path : Parts}, fs.resolve path = some path → fs.resolve (path ++ [".."]) = some (parent path)

/-- Below the directory there are no symbolic links, as in a package that is written or about to be written. -/
def FileSystem.LinkFree (fs : FileSystem) (directory : Parts) : Prop :=
  ∀ root, fs.resolve directory = some root → ∀ path, Clean path → fs.resolve (root ++ path) = some (root ++ path)

/-- The way along a relative path from a place below a directory: the place where it ends, or, where it leaves the
directory, what is left of it. -/
def walkBelow : Parts → Parts → Except Parts Parts
  | place, [] => .ok place
  | place, part :: rest =>
      if part = ".." then if place = [] then .error rest else walkBelow (parent place) rest
      else walkBelow (place ++ [part]) rest

/-- Where a relative path leads from a place below the directory `root`. -/
def FileSystem.leadsTo (fs : FileSystem) (root place path : Parts) : Option Parts :=
  match walkBelow place path with
  | .ok final => some (root ++ final)
  | .error rest => fs.resolve (parent root ++ rest)

/-- In a directory without links a path leads where its components say, until it leaves the directory. -/
theorem FileSystem.Walks.resolve_below {fs : FileSystem} (hwalks : fs.Walks) {root : Parts}
    (hroot : fs.resolve root = some root) (hfree : fs.LinkFree root) {place : Parts} (hplace : Clean place)
    (path : Parts) : fs.resolve (root ++ place ++ path) = fs.leadsTo root place path := by
  induction path generalizing place with
  | nil =>
      rw [List.append_nil]
      exact hfree root hroot place hplace
  | cons part path ih =>
      have hhere := hfree root hroot place hplace
      unfold FileSystem.leadsTo
      rw [walkBelow]
      by_cases hup : part = ".."
      · subst hup
        have hparent := hwalks.onward (hwalks.up hhere) path
        rw [List.append_assoc (root ++ place), List.singleton_append] at hparent
        rw [if_pos rfl, hparent]
        by_cases hnil : place = []
        · rw [if_pos hnil, hnil, List.append_nil]
        · have hsplit : parent (root ++ place) = root ++ parent place := by
            unfold parent
            rw [List.dropLast_append_of_ne_nil hnil]
          rw [if_neg hnil, hsplit]
          exact ih hplace.parent
      · have hinner : Clean (place ++ [part]) := hplace.append fun hmem => hup (List.mem_singleton.mp hmem).symm
        have hrest := ih hinner
        rw [← List.append_assoc, List.append_assoc (root ++ place), List.singleton_append] at hrest
        rw [if_neg hup]
        exact hrest

/-! ## The rows of a closure -/

/-- The directory of the package that stands for the working directory: that of the project's files, and on from there. -/
def Artifact.packageCwd (artifact : Artifact) (cwd : Parts) : Parts :=
  let packagePath := artifact.packagePath.getD []
  let file := relativeTo (artifact.resolvedPath.getD []) artifact.projectRoot
  packagePath.take (packagePath.length - file.length) ++ relativeTo cwd artifact.projectRoot

/-- The literal, read from the directory `cwd` of the package, leads to the captured file in the package. -/
def Artifact.Reached (fs : FileSystem) (packageRoot cwd : Parts) (artifact : Artifact) : Prop :=
  fs.leadsTo packageRoot cwd (RawPath.ofString (artifact.runtimeLiteralPath.getD "")).parts =
    some (packageRoot ++ artifact.packagePath.getD [])

/-- What the builder makes of an ELF literal that has a file: a file below the project root of the declaring file, which
the package has below a directory of its own. -/
structure ArtifactPlaced (fs : FileSystem) (artifact : Artifact) (base file : Parts) : Prop where
  root : fs.resolve artifact.projectRoot = some artifact.projectRoot
  resolvedPath : artifact.resolvedPath = some (artifact.projectRoot ++ file)
  resolved : fs.resolve (artifact.projectRoot ++ file) = some (artifact.projectRoot ++ file)
  packagePath : artifact.packagePath = some (base ++ file)
  clean : Clean (base ++ file)

section

variable {capture : Capture}

theorem logicalOwner_mem {declaringFile : Parts} {row : String × Parts}
    (h : capture.logicalOwner declaringFile = some row) : row ∈ capture.roots.logicalSourceRoots :=
  List.mem_of_find?_eq_some h

/-- An artifact record with a file of its own. -/
theorem artifactOf_placed (hwalks : capture.fs.Walks)
    (haliases : ∀ row ∈ capture.roots.logicalSourceRoots, row.1 ≠ "..") {projectRoot : Parts} {reference : ArtifactRef}
    {declaringFile : Parts} {raw : RawPath}
    (h : (capture.artifactOf projectRoot reference declaringFile raw).resolution = .sourceLocal) :
    ∃ base file, ArtifactPlaced capture.fs (capture.artifactOf projectRoot reference declaringFile raw) base file := by
  have hpackaged : ∀ resolved, ∃ base, Clean base ∧
      (match (capture.logicalOwner declaringFile).map Prod.fst with
        | some logicalAlias => some ("__logical_roots__" :: logicalAlias ::
            relativeTo resolved (capture.artifactRoot projectRoot declaringFile))
        | none => some (relativeTo resolved projectRoot)) =
      some (base ++ relativeTo resolved (capture.artifactRoot projectRoot declaringFile)) := by
    intro resolved
    cases howner : capture.logicalOwner declaringFile with
    | none =>
        refine ⟨[], List.not_mem_nil, ?_⟩
        unfold Capture.artifactRoot
        rw [howner]
        rfl
    | some row =>
        refine ⟨["__logical_roots__", row.1], ?_, rfl⟩
        have halias := haliases row (logicalOwner_mem howner)
        simpa [Clean] using halias.symm
  unfold Capture.artifactOf at h ⊢
  dsimp only at h ⊢
  split at h
  · cases h
  rename_i hinside
  rw [if_neg hinside]
  rw [not_or, not_or, not_not] at hinside
  split at h
  · cases h
  rename_i resolved hresolve
  split at h
  · cases h
  rename_i hlexical
  rw [not_not] at hlexical
  subst hlexical
  split at h
  · cases h
  · cases h
  rename_i data hread
  rw [if_neg (not_not.mpr rfl)]
  -- The file lies below the root of its project, and keeps this part of its path in the package.
  have hwithin := hinside.2.2
  have hfile := hwithin.eq_append
  obtain ⟨base, hbase, hpath⟩ := hpackaged (capture.declaredArtifact projectRoot reference declaringFile raw).inputPath
  generalize (capture.declaredArtifact projectRoot reference declaringFile raw).inputPath = lexical at *
  have hclean := hwalks.clean hresolve
  rw [hfile] at hclean
  refine ⟨base, relativeTo lexical (capture.artifactRoot projectRoot declaringFile), ?_⟩
  constructor
  · exact hwalks.ancestors hresolve hwithin
  · exact congrArg some hfile
  · exact hfile ▸ hresolve
  · exact hpath
  · exact hbase.append hclean.of_append_right

/-- Every artifact of a closure that has a file is placed in the package. -/
theorem localArtifacts_placed (hwalks : capture.fs.Walks)
    (haliases : ∀ row ∈ capture.roots.logicalSourceRoots, row.1 ≠ "..") {closure : SourceClosure}
    (hbuild : capture.buildSourceDependencyClosure = .ok closure) {artifact : Artifact}
    (h : artifact ∈ closure.localArtifacts) : ∃ base file, ArtifactPlaced capture.fs artifact base file := by
  obtain ⟨hmem, hlocal⟩ := List.mem_filter.mp h
  obtain ⟨walk, hbuilt⟩ := capture.buildSourceDependencyClosure_ok hbuild
  obtain ⟨reference, -, hrecord⟩ := exists_mem_of_forall₂' hbuilt.artifacts hmem
  unfold Capture.artifactRecord at hrecord
  split at hrecord
  · nomatch hrecord
  · rw [← Except.ok.inj hrecord] at hlocal ⊢
    exact artifactOf_placed hwalks haliases (of_decide_eq_true hlocal)

end

/-! ## One round -/

section

variable {fs : FileSystem} {processCwd : Parts}

@[simp] theorem resolvedOr_eq_ok {place : Option Parts} {path : Parts} :
    resolvedOr place = .ok path ↔ place = some path := by
  cases place with
  | none => exact ⟨nofun, nofun⟩
  | some other =>
      show Except.ok other = _ ↔ _
      rw [Except.ok.injEq, Option.some.injEq]

theorem FileSystem.resolve_of_strict {path resolved : Parts} (h : fs.resolveStrict path = some resolved) :
    fs.resolve path = some resolved :=
  (Option.filter_eq_some_iff.mp h).1

/-- What a round has found out before it looks at the package. -/
structure RoundReady (fs : FileSystem) (cwd : Parts) (artifact : Artifact) (base file : Parts) : Prop where
  relative : (RawPath.ofString (artifact.runtimeLiteralPath.getD "")).isAbsolute = false
  literal : (RawPath.ofString (artifact.runtimeLiteralPath.getD "")).parts ≠ []
  package : base ++ file ≠ []
  root : fs.resolveStrict artifact.projectRoot = some artifact.projectRoot
  resolved : fs.resolveStrict (artifact.projectRoot ++ file) = some (artifact.projectRoot ++ file)
  within : Within cwd artifact.projectRoot

/-- A successful round, step by step. -/
theorem artifactRuntimeCwd_eq_ok {artifact : Artifact} {base file : Parts} (hplaced : ArtifactPlaced fs artifact base file)
    {cwd packageRoot candidate : Parts} : artifactRuntimeCwd fs processCwd cwd packageRoot artifact = .ok candidate ↔
      RoundReady fs cwd artifact base file ∧ ∃ expected, fs.resolve (packageRoot ++ (base ++ file)) = some expected ∧
        candidate = expected.take (expected.length - file.length) ++ relativeTo cwd artifact.projectRoot ∧
        fs.resolve (candidate ++ (RawPath.ofString (artifact.runtimeLiteralPath.getD "")).parts) = some expected ∧
        Within expected packageRoot ∧ ∃ resolved, fs.resolve candidate = some resolved ∧ Within resolved packageRoot := by
  unfold artifactRuntimeCwd
  simp only [guard_eq_ok, bind_eq_ok, pure_eq_ok, resolvedOr_eq_ok, hplaced.resolvedPath, hplaced.packagePath,
    Option.getD_some, not_or, not_not]
  constructor
  · rintro ⟨⟨hrelative, hliteral, hpackage⟩, root, hroot, resolved, hresolved, ⟨hcwd, -⟩, expected, hexpected, observed,
      hobserved, ⟨rfl, hinside⟩, place, hplace, hbelow, rfl⟩
    obtain rfl : artifact.projectRoot = root :=
      Option.some.inj (hplaced.root.symm.trans (FileSystem.resolve_of_strict hroot))
    obtain rfl : artifact.projectRoot ++ file = resolved :=
      Option.some.inj (hplaced.resolved.symm.trans (FileSystem.resolve_of_strict hresolved))
    rw [relativeTo_append] at hobserved hplace ⊢
    exact ⟨⟨Bool.eq_false_iff.mpr hrelative, hliteral, hpackage, hroot, hresolved, hcwd⟩, observed, hexpected, rfl, hobserved,
      hinside, place, hplace, hbelow⟩
  · rintro ⟨hready, expected, hexpected, rfl, hobserved, hinside, place, hplace, hbelow⟩
    refine ⟨⟨Bool.eq_false_iff.mp hready.relative, hready.literal, hready.package⟩, _, hready.root, _, hready.resolved,
      ⟨hready.within, within_append _ _⟩, expected, hexpected, expected, ?_, ⟨rfl, hinside⟩, place, ?_, hbelow, ?_⟩
    · rw [relativeTo_append]
      exact hobserved
    · rw [relativeTo_append]
      exact hplace
    · rw [relativeTo_append]

theorem ArtifactPlaced.packageCwd {artifact : Artifact} {base file : Parts} (h : ArtifactPlaced fs artifact base file)
    (cwd : Parts) : artifact.packageCwd cwd = base ++ relativeTo cwd artifact.projectRoot := by
  unfold Artifact.packageCwd
  simp [h.packagePath, h.resolvedPath]

theorem ArtifactPlaced.clean_packageCwd {artifact : Artifact} {base file : Parts} (h : ArtifactPlaced fs artifact base file)
    {cwd : Parts} (hcwd : Clean cwd) (hwithin : Within cwd artifact.projectRoot) : Clean (artifact.packageCwd cwd) := by
  rw [hwithin.eq_append] at hcwd
  rw [h.packageCwd]
  exact h.clean.of_append_left.append hcwd.of_append_right

/-- A round in a package without links succeeds with its directory exactly when the literal leads to its file. -/
theorem artifactRuntimeCwd_package (hwalks : fs.Walks) {artifact : Artifact} {base file : Parts}
    (hplaced : ArtifactPlaced fs artifact base file) {cwd packageRoot candidate : Parts} (hcwd : Clean cwd)
    (hready : RoundReady fs cwd artifact base file) (hfree : fs.LinkFree packageRoot) :
    artifactRuntimeCwd fs processCwd cwd packageRoot artifact = .ok candidate ↔
      fs.resolve packageRoot = some packageRoot ∧ candidate = packageRoot ++ artifact.packageCwd cwd ∧
        artifact.Reached fs packageRoot (artifact.packageCwd cwd) := by
  have hplace := hplaced.clean_packageCwd hcwd hready.within
  have hstrip : (packageRoot ++ (base ++ file)).take ((packageRoot ++ (base ++ file)).length - file.length) ++
      relativeTo cwd artifact.projectRoot = packageRoot ++ artifact.packageCwd cwd := by
    rw [hplaced.packageCwd, ← List.append_assoc, List.length_append, Nat.add_sub_cancel, List.take_left,
      List.append_assoc]
  rw [artifactRuntimeCwd_eq_ok hplaced]
  unfold Artifact.Reached
  rw [hplaced.packagePath, Option.getD_some]
  constructor
  · rintro ⟨-, expected, hexpected, hcandidate, hobserved, hinside, -⟩
    have hroot := hwalks.ancestors hexpected hinside
    rw [hfree _ hroot _ hplaced.clean] at hexpected
    obtain rfl := Option.some.inj hexpected
    rw [hstrip] at hcandidate
    subst hcandidate
    rw [hwalks.resolve_below hroot hfree hplace] at hobserved
    exact ⟨hroot, rfl, hobserved⟩
  · rintro ⟨hroot, rfl, hreached⟩
    refine ⟨hready, packageRoot ++ (base ++ file), hfree _ hroot _ hplaced.clean, hstrip.symm, ?_, within_append _ _, _,
      hfree _ hroot _ hplace, within_append _ _⟩
    rw [hwalks.resolve_below hroot hfree hplace]
    exact hreached

/-! ## All rounds -/

theorem runtimeCwdFrom_eq_ok {cwd packageRoot candidate : Parts} {artifacts : List Artifact} (start : Option Parts) :
    runtimeCwdFrom fs processCwd cwd packageRoot start artifacts = .ok (some candidate) ↔
      (∀ artifact ∈ artifacts, artifactRuntimeCwd fs processCwd cwd packageRoot artifact = .ok candidate) ∧
        (start = some candidate ∨ start = none ∧ artifacts ≠ []) := by
  induction artifacts generalizing start with
  | nil =>
      rw [runtimeCwdFrom, pure_eq_ok]
      simp
  | cons artifact artifacts ih =>
      simp only [runtimeCwdFrom, bind_eq_ok, guard_eq_ok, ih, List.forall_mem_cons]
      cases start with
      | none => simp
      | some first =>
          simp only [Option.any_some, decide_eq_true_eq, ne_eq, not_not, Option.some.injEq]
          constructor
          · rintro ⟨place, hplace, rfl, hrest, rfl | hnone⟩
            · exact ⟨⟨hplace, hrest⟩, .inl rfl⟩
            · nomatch hnone.1
          · rintro ⟨⟨hplace, hrest⟩, rfl | hnone⟩
            · exact ⟨_, hplace, rfl, hrest, .inl rfl⟩
            · nomatch hnone.1

/-- The working directory of a closure, in terms of its rounds. -/
theorem literalElfArtifactRuntimeCwd_eq_ok {closure : SourceClosure} {originalCwd packageRoot candidate : Parts} :
    literalElfArtifactRuntimeCwd fs processCwd closure originalCwd packageRoot = .ok (some candidate) ↔
      closure.localArtifacts ≠ [] ∧ ∃ cwd, fs.resolveStrict originalCwd = some cwd ∧
        ∀ artifact ∈ closure.localArtifacts, artifactRuntimeCwd fs processCwd cwd packageRoot artifact = .ok candidate := by
  unfold literalElfArtifactRuntimeCwd
  by_cases hnil : closure.localArtifacts = []
  · rw [if_pos hnil, pure_eq_ok]
    exact ⟨nofun, fun h => absurd hnil h.1⟩
  · rw [if_neg hnil]
    simp only [bind_eq_ok, resolvedOr_eq_ok, runtimeCwdFrom_eq_ok]
    constructor
    · rintro ⟨cwd, hcwd, hrounds, -⟩
      exact ⟨hnil, cwd, hcwd, hrounds⟩
    · rintro ⟨-, cwd, hcwd, hrounds⟩
      exact ⟨cwd, hcwd, hrounds, .inr ⟨trivial, hnil⟩⟩

/-- What `elf_package_transport` has found when it lets the literals stand. -/
theorem elfPackageTransport_packageCwd {sha256 : Bytes → String} {tables : Loader.UnicodeTables} {identityMatches : Bool}
    {closure : SourceClosure} {r : Parts}
    (h : elfPackageTransport fs processCwd sha256 tables identityMatches closure = .packageCwd r) :
    ∃ projectRoot, fs.resolveStrict closure.projectRoot = some projectRoot ∧
      literalElfArtifactRuntimeCwd fs processCwd closure projectRoot projectRoot = .ok (some (projectRoot ++ r)) := by
  have hfallback : ∀ {loaders : List String},
      (if loaders = [] then ElfTransport.none else .mappedLoaders loaders) ≠ .packageCwd r := by
    intro loaders heq
    split at heq <;> nomatch heq
  unfold elfPackageTransport at h
  dsimp only at h
  split at h
  · exact absurd h hfallback
  split at h
  · exact absurd h hfallback
  rename_i projectRoot hproject
  split at h
  · rename_i candidate hcandidate
    split at h
    · rename_i hwithin
      refine ⟨projectRoot, hproject, ?_⟩
      rw [← ElfTransport.packageCwd.inj h, ← hwithin.1.eq_append]
      exact hcandidate
    · exact absurd h hfallback
  · exact absurd h hfallback

/-! ## The project and the package -/

/-- The package has the working directory `r` below its root, and from there each literal leads to its captured file. -/
structure ElfAligned (fs : FileSystem) (closure : SourceClosure) (packageRoot r : Parts) : Prop where
  root : fs.resolve packageRoot = some packageRoot
  cwd : ∀ artifact ∈ closure.localArtifacts, ∀ cwd, fs.resolve closure.projectRoot = some cwd →
    artifact.packageCwd cwd = r
  reached : ∀ artifact ∈ closure.localArtifacts, artifact.Reached fs packageRoot r

theorem FileSystem.Walks.resolveStrict_self (hwalks : fs.Walks) {path resolved : Parts}
    (h : fs.resolveStrict path = some resolved) : fs.resolveStrict resolved = some resolved := by
  obtain ⟨hresolve, hpresent⟩ := Option.filter_eq_some_iff.mp h
  exact Option.filter_eq_some_iff.mpr ⟨hwalks.ancestors hresolve List.prefix_rfl, hpresent⟩

/-- The directory is computed in a package exactly when the package is aligned with the closure. -/
theorem literalElfArtifactRuntimeCwd_package (hwalks : fs.Walks) {closure : SourceClosure}
    (hplaced : ∀ artifact ∈ closure.localArtifacts, ∃ base file, ArtifactPlaced fs artifact base file)
    {projectRoot r : Parts} (hproject : fs.resolveStrict closure.projectRoot = some projectRoot)
    (hcaptured : literalElfArtifactRuntimeCwd fs processCwd closure projectRoot projectRoot = .ok (some (projectRoot ++ r)))
    {packageRoot : Parts} (hfree : fs.LinkFree packageRoot) (candidate : Parts) :
    literalElfArtifactRuntimeCwd fs processCwd closure closure.projectRoot packageRoot = .ok (some candidate) ↔
      fs.resolve packageRoot = some packageRoot ∧ ∀ artifact ∈ closure.localArtifacts,
        candidate = packageRoot ++ artifact.packageCwd projectRoot ∧
          artifact.Reached fs packageRoot (artifact.packageCwd projectRoot) := by
  obtain ⟨hsome, cwd, hcwd, hrounds⟩ := literalElfArtifactRuntimeCwd_eq_ok.mp hcaptured
  obtain rfl : projectRoot = cwd := Option.some.inj ((hwalks.resolveStrict_self hproject).symm.trans hcwd)
  have hclean := hwalks.clean (FileSystem.resolve_of_strict hproject)
  have hround : ∀ artifact ∈ closure.localArtifacts,
      artifactRuntimeCwd fs processCwd projectRoot packageRoot artifact = .ok candidate ↔
        fs.resolve packageRoot = some packageRoot ∧ candidate = packageRoot ++ artifact.packageCwd projectRoot ∧
          artifact.Reached fs packageRoot (artifact.packageCwd projectRoot) := by
    intro artifact hmem
    obtain ⟨base, file, hplace⟩ := hplaced artifact hmem
    have hready := ((artifactRuntimeCwd_eq_ok hplace).mp (hrounds artifact hmem)).1
    exact artifactRuntimeCwd_package hwalks hplace hclean hready hfree
  rw [literalElfArtifactRuntimeCwd_eq_ok]
  constructor
  · rintro ⟨-, cwd, hcwd', hall⟩
    obtain rfl : projectRoot = cwd := Option.some.inj (hproject.symm.trans hcwd')
    obtain ⟨first, hfirst⟩ := List.exists_mem_of_ne_nil _ hsome
    exact ⟨((hround first hfirst).mp (hall first hfirst)).1, fun artifact hmem =>
      ((hround artifact hmem).mp (hall artifact hmem)).2⟩
  · rintro ⟨hroot, hall⟩
    exact ⟨hsome, projectRoot, hproject, fun artifact hmem => (hround artifact hmem).mpr ⟨hroot, hall artifact hmem⟩⟩

end

section

variable {capture : Capture}

/-- The directory of the package is the captured one exactly when the package is aligned with the closure. -/
theorem runtimeCwd_iff_aligned {fs : FileSystem} {processCwd : Parts} (hwalks : fs.Walks) {closure : SourceClosure}
    (hplaced : ∀ artifact ∈ closure.localArtifacts, ∃ base file, ArtifactPlaced fs artifact base file)
    {projectRoot r : Parts} (hproject : fs.resolveStrict closure.projectRoot = some projectRoot)
    (hcaptured : literalElfArtifactRuntimeCwd fs processCwd closure projectRoot projectRoot = .ok (some (projectRoot ++ r)))
    {packageRoot : Parts} (hfree : fs.LinkFree packageRoot) :
    literalElfArtifactRuntimeCwd fs processCwd closure closure.projectRoot packageRoot = .ok (some (packageRoot ++ r)) ↔
      ElfAligned fs closure packageRoot r := by
  have hresolve := FileSystem.resolve_of_strict hproject
  rw [literalElfArtifactRuntimeCwd_package hwalks hplaced hproject hcaptured hfree]
  constructor
  · rintro ⟨hroot, hall⟩
    have hcwd : ∀ artifact ∈ closure.localArtifacts, artifact.packageCwd projectRoot = r :=
      fun artifact hmem => (List.append_cancel_left (hall artifact hmem).1).symm
    refine ⟨hroot, fun artifact hmem cwd h => ?_, fun artifact hmem => hcwd artifact hmem ▸ (hall artifact hmem).2⟩
    rw [← Option.some.inj (hresolve.symm.trans h)]
    exact hcwd artifact hmem
  · rintro ⟨hroot, hcwd, hreached⟩
    refine ⟨hroot, fun artifact hmem => ?_⟩
    rw [hcwd artifact hmem projectRoot hresolve]
    exact ⟨rfl, hreached artifact hmem⟩

/-- **When the captured working directory is that of the package.**  A closure whose ELF literals may stand is prepared in
a package exactly when every literal, read from the captured directory of the package, leads to its file there. -/
theorem elf_transport_translates_iff (hwalks : capture.fs.Walks)
    (haliases : ∀ row ∈ capture.roots.logicalSourceRoots, row.1 ≠ "..") {closure : SourceClosure}
    (hbuild : capture.buildSourceDependencyClosure = .ok closure) {processCwd : Parts} {sha256 : Bytes → String}
    {tables : Loader.UnicodeTables} {identityMatches : Bool} {r : Parts}
    (htransport : elfPackageTransport capture.fs processCwd sha256 tables identityMatches closure = .packageCwd r)
    {packageRoot : Parts} (hfree : capture.fs.LinkFree packageRoot) :
    (literalElfArtifactRuntimeCwd capture.fs processCwd closure closure.projectRoot packageRoot =
        .ok (some (packageRoot ++ r)) ↔ ElfAligned capture.fs closure packageRoot r) ∧
      ((∃ cwd, preludeElfRuntimeCwd capture.fs processCwd closure packageRoot (.packageCwd r) = .ok cwd) ↔
        ElfAligned capture.fs closure packageRoot r) := by
  obtain ⟨projectRoot, hproject, hcaptured⟩ := elfPackageTransport_packageCwd htransport
  have hplaced : ∀ artifact ∈ closure.localArtifacts, ∃ base file, ArtifactPlaced capture.fs artifact base file :=
    fun artifact hmem => localArtifacts_placed hwalks haliases hbuild hmem
  have hpackage := literalElfArtifactRuntimeCwd_package hwalks hplaced hproject hcaptured hfree
  have haligned := runtimeCwd_iff_aligned hwalks hplaced hproject hcaptured hfree
  refine ⟨haligned, ?_⟩
  rw [← haligned]
  unfold preludeElfRuntimeCwd
  constructor
  · rintro ⟨cwd, hcwd⟩
    dsimp only at hcwd
    split at hcwd
    · nomatch hcwd
    · nomatch hcwd
    rename_i candidate hcandidate
    rw [((hpackage candidate).mp hcandidate).1] at hcwd
    dsimp only at hcwd
    split at hcwd
    · rename_i hdirectory
      rw [hcandidate, ← hdirectory.2, ← hdirectory.1.eq_append]
    · nomatch hcwd
  · intro hcandidate
    have hroot := ((hpackage _).mp hcandidate).1
    refine ⟨some (packageRoot ++ r), ?_⟩
    rw [hcandidate, hroot]
    exact if_pos ⟨within_append _ _, relativeTo_append _ _⟩

/-- **Translation.**  Where the project has no links and no literal leaves it, the captured directory is that of every
package. -/
theorem elf_transport_translates (hwalks : capture.fs.Walks)
    (haliases : ∀ row ∈ capture.roots.logicalSourceRoots, row.1 ≠ "..") {closure : SourceClosure}
    (hbuild : capture.buildSourceDependencyClosure = .ok closure) {processCwd : Parts} {sha256 : Bytes → String}
    {tables : Loader.UnicodeTables} {identityMatches : Bool} {r : Parts}
    (htransport : elfPackageTransport capture.fs processCwd sha256 tables identityMatches closure = .packageCwd r)
    (hproject : capture.fs.LinkFree closure.projectRoot)
    (hinside : ∀ artifact ∈ closure.localArtifacts, ∃ final,
      walkBelow r (RawPath.ofString (artifact.runtimeLiteralPath.getD "")).parts = .ok final)
    {packageRoot : Parts} (hroot : capture.fs.resolve packageRoot = some packageRoot)
    (hfree : capture.fs.LinkFree packageRoot) :
    literalElfArtifactRuntimeCwd capture.fs processCwd closure closure.projectRoot packageRoot =
      .ok (some (packageRoot ++ r)) := by
  obtain ⟨projectRoot, hstrict, hcaptured⟩ := elfPackageTransport_packageCwd htransport
  have hresolve := FileSystem.resolve_of_strict hstrict
  obtain ⟨-, cwd, hcwd, hrounds⟩ := literalElfArtifactRuntimeCwd_eq_ok.mp hcaptured
  obtain rfl : projectRoot = cwd := Option.some.inj ((hwalks.resolveStrict_self hstrict).symm.trans hcwd)
  have hself : capture.fs.LinkFree projectRoot := by
    intro root h
    obtain rfl : projectRoot = root :=
      Option.some.inj ((FileSystem.resolve_of_strict (hwalks.resolveStrict_self hstrict)).symm.trans h)
    exact hproject _ hresolve
  have hproper : ∀ artifact ∈ closure.localArtifacts,
      artifact.packageCwd projectRoot = r ∧ artifact.Reached capture.fs projectRoot r := by
    intro artifact hmem
    obtain ⟨base, file, hplace⟩ := localArtifacts_placed hwalks haliases hbuild hmem
    have hready := ((artifactRuntimeCwd_eq_ok hplace).mp (hrounds artifact hmem)).1
    obtain ⟨-, hcandidate, hreached⟩ := (artifactRuntimeCwd_package hwalks hplace (hwalks.clean hresolve) hready hself).mp
      (hrounds artifact hmem)
    have hr : artifact.packageCwd projectRoot = r := (List.append_cancel_left hcandidate).symm
    exact ⟨hr, hr ▸ hreached⟩
  have hplaced : ∀ artifact ∈ closure.localArtifacts, ∃ base file, ArtifactPlaced capture.fs artifact base file :=
    fun artifact hmem => localArtifacts_placed hwalks haliases hbuild hmem
  rw [runtimeCwd_iff_aligned hwalks hplaced hstrict hcaptured hfree]
  refine ⟨hroot, fun artifact hmem cwd h => ?_, fun artifact hmem => ?_⟩
  · rw [← Option.some.inj (hresolve.symm.trans h)]
    exact (hproper artifact hmem).1
  · -- The walk does not depend on the directory that it stays in.
    obtain ⟨final, hfinal⟩ := hinside artifact hmem
    have hreached := (hproper artifact hmem).2
    unfold Artifact.Reached FileSystem.leadsTo at hreached ⊢
    rw [hfinal] at hreached ⊢
    rw [List.append_cancel_left (Option.some.inj hreached)]

end

/-! ## A project without links -/

theorem abspath_append (path rest : Parts) : abspath (abspath path ++ rest) = abspath (path ++ rest) := by
  have hclean := foldl_pushAbsolute_clean (abspath_isClean path) []
  unfold abspath at hclean ⊢
  rw [List.foldl_append, List.foldl_append, hclean]
  simp

theorem ofFiles_walks (files : List (Parts × Bytes)) : (FileSystem.ofFiles files).Walks where
  clean := by
    rintro path resolved h
    rw [← Option.some.inj h]
    exact abspath_isClean path
  ancestors := by
    rintro path resolved directory h ⟨rest, hrest⟩
    have hclean : Clean resolved := by
      rw [← Option.some.inj h]
      exact abspath_isClean path
    rw [← hrest] at hclean
    exact congrArg some (abspath_clean hclean.of_append_left)
  onward := by
    intro path resolved h rest
    rw [← Option.some.inj h]
    exact congrArg some (abspath_append path rest).symm
  up := by
    intro path h
    have hclean : Clean path := by
      rw [← Option.some.inj h]
      exact abspath_isClean path
    have hstack := foldl_pushAbsolute_clean hclean []
    refine congrArg some ?_
    unfold abspath
    rw [List.foldl_append, hstack]
    simp [pushAbsolute, parent]

theorem ofFiles_linkFree (files : List (Parts × Bytes)) (directory : Parts) :
    (FileSystem.ofFiles files).LinkFree directory := by
  intro root h path hpath
  have hclean : Clean root := by
    rw [← Option.some.inj h]
    exact abspath_isClean directory
  exact congrArg some (abspath_clean (hclean.append hpath))

/-- A project with an ELF file that its source names by `literal`. -/
def elfProject (literal : String) : Capture :=
  .ofFiles (fun _ => "digest")
    [(["proj", "main.ml"], utf8 ("let a = define_from_elf \"a\" \"" ++ literal ++ "\";;")), (["proj", "x.o"], [127])]
    ["proj"] ["proj", "main.ml"]

/-- The transport of the project, and the prelude in a package. -/
def elfOutcome (literal : String) (packageRoot : Parts) : Option (ElfTransport × Except PreludeError (Option Parts)) :=
  (elfProject literal).buildSourceDependencyClosure.toOption.map fun closure =>
    let transport := elfPackageTransport (elfProject literal).fs [] (fun _ => "digest") .ascii true closure
    (transport, preludeElfRuntimeCwd (elfProject literal).fs [] closure packageRoot transport)

/-- The literal leaves the project and enters it again by its name, which the package does not have: the literals may
stand, and the prelude raises. -/
theorem climbing_literal_raises : (elfProject "../proj/x.o").fs.LinkFree ["pkg"] ∧
    elfOutcome "../proj/x.o" ["pkg"] = some (.packageCwd [], .error (.elf (.refused "refused_artifact_runtime_path"
      ("literal ELF path does not resolve to its captured package file: ../proj/x.o -> /proj/x.o, " ++
        "expected /pkg/x.o")))) :=
  ⟨ofFiles_linkFree _ _, by decide +kernel⟩

/-- A literal that stays in the project has its file in the package. -/
theorem inside_literal_aligned : ∃ closure, (elfProject "x.o").buildSourceDependencyClosure = .ok closure ∧
    ElfAligned (elfProject "x.o").fs closure ["pkg"] [] := by
  have houtcome : elfOutcome "x.o" ["pkg"] = some (.packageCwd [], .ok (some ["pkg"])) := by
    decide +kernel
  unfold elfOutcome at houtcome
  cases hbuild : (elfProject "x.o").buildSourceDependencyClosure with
  | error error =>
      rw [hbuild] at houtcome
      nomatch houtcome
  | ok closure =>
      rw [hbuild] at houtcome
      obtain ⟨htransport, hprelude⟩ := Prod.mk.inj (Option.some.inj houtcome)
      rw [htransport] at hprelude
      have haliases : ∀ row ∈ (elfProject "x.o").roots.logicalSourceRoots, row.1 ≠ ".." := nofun
      have hiff := elf_transport_translates_iff (ofFiles_walks _) haliases hbuild htransport (ofFiles_linkFree _ ["pkg"])
      exact ⟨closure, rfl, hiff.2.mp ⟨some ["pkg"], hprelude⟩⟩

end Hearth.Closure
