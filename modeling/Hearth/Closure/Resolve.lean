import Hearth.Library.PosixPath
import Hearth.Loader.Scan

/-!
# Resolution of one literal load

`classify_logical_literal` and `_resolve_edge`: which file a literal in a declaring file
means.  The file system answers as one fixed tree does; the only question that may be
refused is the resolution of a path, and `~user` of a user that does not exist.
-/

namespace Hearth.Closure

open Hearth.Library
open Hearth.Library.Parts

/-- Why a no-follow read fails: `FileNotFoundError`, or another `OSError`. -/
inductive ReadError
  | notFound | refused
  deriving DecidableEq, Repr

/-- What `Path` and `os` report about one fixed tree of files. -/
structure FileSystem where
  /-- `Path.resolve()` of an absolute path that may contain `..`; `none` is an `OSError`. -/
  resolve : Parts → Option Parts
  isFile : Parts → Bool
  isSymlink : Parts → Bool
  isPresent : Parts → Bool
  /-- The bytes of a regular file no component of whose path is a symbolic link. -/
  readNoFollow : Parts → Except ReadError Bytes
  /-- `st_size`. -/
  sizeOf : Parts → ℕ
  /-- The home directory that `~` or `~user` names; `none` is a `RuntimeError`. -/
  home : String → Option Parts

namespace FileSystem

variable (fs : FileSystem)

/-- `Path.expanduser()`. -/
def expanduser (raw : RawPath) : Option RawPath :=
  match raw.anchor, raw.parts with
  | .relative, user :: rest =>
      if user.toList.head? = some '~' then (fs.home user).map fun home => ⟨.root, home ++ rest⟩
      else some raw
  | _, _ => some raw

/-- The path resolves to a regular file. -/
def existing (candidate : Parts) : Option Parts :=
  (fs.resolve candidate).filter fs.isFile

/-- A symbolic link that leads to no regular file. -/
def dangling (candidate : Parts) : Bool :=
  fs.isSymlink candidate && (fs.existing candidate).isNone

/-- `read_regular_file_beneath`. -/
def readBeneath (root path : Parts) : Except ReadError Bytes :=
  if Within path root ∧ path ≠ root then fs.readNoFollow path else .error .refused

/-- `sha256_file` of a path without symbolic links. -/
def fileDigest (sha256 : Bytes → String) (path : Parts) : Option String :=
  (fs.readNoFollow path).toOption.map sha256

/-- The tree of these files, without symbolic links. -/
def ofFiles (files : List (Parts × Bytes)) : FileSystem where
  resolve candidate := some (abspath candidate)
  isFile path := files.any fun file => file.1 = abspath path
  isSymlink _ := false
  isPresent path := files.any fun file => Within file.1 (abspath path)
  readNoFollow path := ((files.lookup path).map Except.ok).getD (.error .notFound)
  sizeOf path := ((files.lookup path).getD []).length
  home _ := none

end FileSystem

/-! ## Logical literals -/

/-- `literal_kind` of `classify_logical_literal`. -/
inductive LiteralKind
  | absolute | declaringRelative | ordinaryRelative
  | invalidLogical (logicalAlias : String)
  | logical (logicalAlias : String) (suffix : Parts)
  deriving DecidableEq, Repr

/-- The text starts with `./` or `../`. -/
def startsDotted : List Char → Bool
  | '.' :: '/' :: _ => true
  | '.' :: '.' :: '/' :: _ => true
  | _ => false

/-- `declared.split("/", 1)`. -/
def splitFirstSlash : List Char → List Char × Option (List Char)
  | [] => ([], none)
  | char :: rest =>
      if char = '/' then ([], some rest)
      else ((char :: (splitFirstSlash rest).1), (splitFirstSlash rest).2)

def hasDoubleSlash : List Char → Bool
  | '/' :: '/' :: _ => true
  | _ :: rest => hasDoubleSlash rest
  | [] => false

/-- `classify_logical_literal`, for a literal whose expansion is `raw`. -/
def classifyLogicalLiteral (raw : RawPath) (declared : String) (declaredAliases : List String) :
    LiteralKind :=
  if raw.isAbsolute then .absolute
  else if startsDotted declared.toList then .declaringRelative
  else
    let first := String.ofList (splitFirstSlash declared.toList).1
    if first ∉ declaredAliases then .ordinaryRelative
    else
      match (splitFirstSlash declared.toList).2 with
      | none => .invalidLogical first
      | some suffixText =>
          let suffix := RawPath.partsOf suffixText
          if suffix = [] ∨ ¬ Clean suffix ∨
              first ++ "/" ++ RawPath.relativeText suffix ≠ declared ∨
              hasDoubleSlash declared.toList then
            .invalidLogical first
          else .logical first suffix

/-- `_safe_holdir_literal`, for a literal whose expansion is `raw`. -/
def safeHoldirLiteral (raw : RawPath) (declared : String) : Bool :=
  declared ≠ "" && !raw.isAbsolute && declared ≠ "." && declared ≠ ".." &&
    !startsDotted declared.toList && decide (Clean raw.parts)

/-! ## Resolution -/

/-- `resolution` of a closure record. -/
inductive Resolution
  | sourceLocal | sourceOverlay | holdirSource | mountedSource
  | externalResolved | unresolved | unresolvedSourceRoot | unresolvedMountedSource
  | unavailableLogicalSourceRoot | invalidLogicalSourcePath | sourceOverlayConflict
  deriving DecidableEq, Repr

/-- `resolved_source_kinds`: the resolutions that the traversal follows. -/
def Resolution.admitted : Resolution → Bool
  | .sourceLocal | .sourceOverlay | .holdirSource | .mountedSource => true
  | _ => false

/-- The result of `_resolve_edge`. -/
structure EdgeResolution where
  resolution : Resolution
  resolved : Option Parts
  symlinked : Bool
  logicalAlias : Option String
  deriving DecidableEq, Repr

/-- `source_role` of a declared logical root. -/
inductive SourceRole
  | managedMirror | entrypointRepository
  deriving DecidableEq, Repr

/-- `execution_role` of a declared logical root. -/
inductive ExecutionRole
  | none | profileCwd
  deriving DecidableEq, Repr

/-- A row of `logical_source_root_declarations`. -/
structure LogicalDeclaration where
  logicalAlias : String
  sourceRole : SourceRole
  executionRole : ExecutionRole
  deriving DecidableEq, Repr

/-- The roots that a closure is resolved against. -/
structure SourceRoots where
  root : Parts
  holdirRoot : Option Parts
  legacyHoldirRoots : List Parts
  sourceOverlayRoot : Option Parts
  declarations : List LogicalDeclaration
  /-- `logical_source_roots`, sorted by alias. -/
  logicalSourceRoots : List (String × Parts)
  deriving DecidableEq, Repr

def SourceRoots.declaredAliases (roots : SourceRoots) : List String :=
  roots.declarations.map LogicalDeclaration.logicalAlias

/-- `logical_source_roots.get(alias)`. -/
def SourceRoots.logicalRoot (roots : SourceRoots) (logicalAlias : String) : Option Parts :=
  roots.logicalSourceRoots.lookup logicalAlias

/-- The path lies within a root that is there. -/
def withinSome (path : Parts) (root : Option Parts) : Bool :=
  root.any fun root => Within path root

section

variable (fs : FileSystem) (sha256 : Bytes → String) (roots : SourceRoots)

/-- Equal `sha256_file` and equal `st_size`; two unreadable files have equal digests. -/
def sameContent (first second : Parts) : Bool :=
  fs.fileDigest sha256 first = fs.fileDigest sha256 second && fs.sizeOf first = fs.sizeOf second

/-- The branch of `_resolve_edge` for a literal `ALIAS/path`. -/
def resolveLogical (logicalAlias : String) (suffix : Parts) : EdgeResolution :=
  match roots.logicalRoot logicalAlias with
  | none => ⟨.unavailableLogicalSourceRoot, none, false, some logicalAlias⟩
  | some logicalRoot =>
      let candidate := logicalRoot ++ suffix
      match fs.existing candidate with
      | none => ⟨.unresolvedMountedSource, none, fs.isSymlink candidate, some logicalAlias⟩
      | some resolved =>
          if abspath candidate ≠ resolved ∨ ¬ Within resolved logicalRoot then
            ⟨.externalResolved, some resolved, true, some logicalAlias⟩
          else ⟨.mountedSource, some resolved, false, some logicalAlias⟩

/-- `_legacy_holdir_coordinate`: the candidate below the active HOLDIR and the file. -/
def legacyHoldirCoordinate (raw : RawPath) : Option (Parts × Parts) :=
  match roots.holdirRoot with
  | none => none
  | some holdirRoot =>
      if !raw.isAbsolute || (raw.anchor = .root && decide (Within raw.parts holdirRoot)) then none
      else
        roots.legacyHoldirRoots.findSome? fun legacyRoot =>
          let suffix := relativeTo raw.parts legacyRoot
          if raw.anchor = .root ∧ Within raw.parts legacyRoot ∧ suffix ≠ [] ∧ Clean suffix then
            match fs.existing (holdirRoot ++ suffix) with
            | some resolved =>
                if Within resolved holdirRoot then some (holdirRoot ++ suffix, resolved) else none
            | none => none
          else none

/-- The branch of `_resolve_edge` for an absolute literal. -/
def resolveAbsolute (raw : RawPath) : EdgeResolution :=
  match legacyHoldirCoordinate fs roots raw with
  | some (candidate, resolved) =>
      ⟨.holdirSource, some resolved, abspath candidate ≠ resolved, none⟩
  | none =>
      match fs.existing raw.parts with
      | some resolved =>
          ⟨.externalResolved, some resolved,
            raw.anchor = .doubleRoot || abspath raw.parts ≠ resolved, none⟩
      | none => ⟨.unresolved, none, false, none⟩

/-- A file below the registered overlay, against its counterpart below HOLDIR. -/
def resolveInOverlay (resolved : Parts) (symlinked : Bool) (overlayRoot : Parts) : EdgeResolution :=
  match roots.holdirRoot with
  | none => ⟨.sourceOverlay, some resolved, symlinked, none⟩
  | some holdirRoot =>
      let candidate := holdirRoot ++ relativeTo resolved overlayRoot
      if fs.dangling candidate then ⟨.externalResolved, fs.resolve candidate, true, none⟩
      else
        match fs.existing candidate with
        | none => ⟨.sourceOverlay, some resolved, symlinked, none⟩
        | some holdirResolved =>
            let holdirSymlinked := abspath candidate ≠ holdirResolved
            if ¬ Within holdirResolved holdirRoot then
              ⟨.externalResolved, some holdirResolved, holdirSymlinked, none⟩
            else if sameContent fs sha256 resolved holdirResolved then
              ⟨.holdirSource, some holdirResolved, holdirSymlinked, none⟩
            else ⟨.sourceOverlayConflict, some resolved, symlinked, none⟩

/-- A file below HOLDIR, against its counterpart below the registered overlay. -/
def resolveInHoldir (resolved : Parts) (symlinked : Bool) (holdirRoot : Parts) : EdgeResolution :=
  match roots.sourceOverlayRoot with
  | none => ⟨.holdirSource, some resolved, symlinked, none⟩
  | some overlayRoot =>
      let candidate := overlayRoot ++ relativeTo resolved holdirRoot
      if fs.dangling candidate then ⟨.externalResolved, fs.resolve candidate, true, none⟩
      else
        match fs.existing candidate with
        | none => ⟨.holdirSource, some resolved, symlinked, none⟩
        | some overlayResolved =>
            let overlaySymlinked := abspath candidate ≠ overlayResolved
            if ¬ Within overlayResolved overlayRoot then
              ⟨.externalResolved, some overlayResolved, overlaySymlinked, none⟩
            else if sameContent fs sha256 overlayResolved resolved then
              ⟨.holdirSource, some resolved, symlinked, none⟩
            else ⟨.sourceOverlayConflict, some overlayResolved, overlaySymlinked, none⟩

/-- The branch of `_resolve_edge` for a relative literal whose file exists beside the
declaring file. -/
def resolveBeside (candidate resolved : Parts) (logicalAlias : Option String) (aliasRoot : Option Parts) :
    EdgeResolution :=
  let symlinked := abspath candidate ≠ resolved
  if withinSome resolved aliasRoot then
    if symlinked then ⟨.externalResolved, some resolved, true, logicalAlias⟩
    else ⟨.mountedSource, some resolved, false, logicalAlias⟩
  else if Within resolved roots.root then ⟨.sourceLocal, some resolved, symlinked, none⟩
  else
    match roots.sourceOverlayRoot.filter fun root => Within resolved root with
    | some overlayRoot => resolveInOverlay fs sha256 roots resolved symlinked overlayRoot
    | none =>
        match roots.holdirRoot.filter fun root => Within resolved root with
        | some holdirRoot => resolveInHoldir fs sha256 roots resolved symlinked holdirRoot
        | none => ⟨.externalResolved, some resolved, symlinked, none⟩

/-- The search below the logical root of a mounted declaring file. -/
def searchLogicalRoot (parts : Parts) (logicalAlias : Option String) (aliasRoot : Parts) :
    Option EdgeResolution :=
  let candidate := aliasRoot ++ parts
  if fs.dangling candidate then some ⟨.externalResolved, fs.resolve candidate, true, logicalAlias⟩
  else
    (fs.existing candidate).map fun resolved =>
      if abspath candidate ≠ resolved ∨ ¬ Within resolved aliasRoot then
        ⟨.externalResolved, some resolved, true, logicalAlias⟩
      else ⟨.mountedSource, some resolved, false, logicalAlias⟩

/-- The search below the source package root. -/
def searchPackageRoot (parts : Parts) : Option EdgeResolution :=
  let candidate := roots.root ++ parts
  let symlinked := (fs.resolve candidate).any fun resolved => abspath candidate ≠ resolved
  if fs.isSymlink candidate || symlinked then
    some ⟨.externalResolved, fs.resolve candidate, true, none⟩
  else
    match fs.existing candidate with
    | some resolved =>
        if ¬ Within resolved roots.root then some ⟨.externalResolved, some resolved, true, none⟩
        else some ⟨.sourceLocal, some resolved, false, none⟩
    | none =>
        -- An existing local namespace owns its missing descendants too.
        let owner := roots.root ++ parts.take 1
        if fs.isPresent owner || fs.isSymlink owner then
          some ⟨.unresolvedSourceRoot, some candidate, false, none⟩
        else none

/-- The search below one of the two shared roots: a refusal, or the file if there is one. -/
def searchSharedRoot (parts : Parts) (sharedRoot : Option Parts) :
    EdgeResolution ⊕ Option (Parts × Bool) :=
  match sharedRoot with
  | none => .inr none
  | some sharedRoot =>
      let candidate := sharedRoot ++ parts
      if fs.dangling candidate then .inl ⟨.externalResolved, fs.resolve candidate, true, none⟩
      else
        match fs.existing candidate with
        | none => .inr none
        | some resolved =>
            let symlinked := abspath candidate ≠ resolved
            if ¬ Within resolved sharedRoot then
              .inl ⟨.externalResolved, some resolved, symlinked, none⟩
            else .inr (some (resolved, symlinked))

/-- The search below the registered overlay and the exact HOLDIR. -/
def searchSharedRoots (parts : Parts) (missing : EdgeResolution) : EdgeResolution :=
  match searchSharedRoot fs parts roots.sourceOverlayRoot with
  | .inl refusal => refusal
  | .inr overlay =>
      match searchSharedRoot fs parts roots.holdirRoot with
      | .inl refusal => refusal
      | .inr holdir =>
          match overlay, holdir with
          | some (overlayResolved, overlaySymlinked), some (holdirResolved, holdirSymlinked) =>
              if (fs.fileDigest sha256 overlayResolved).isSome ∧
                  sameContent fs sha256 overlayResolved holdirResolved then
                ⟨.holdirSource, some holdirResolved, holdirSymlinked, none⟩
              else ⟨.sourceOverlayConflict, some overlayResolved, overlaySymlinked, none⟩
          | some (overlayResolved, overlaySymlinked), none =>
              ⟨.sourceOverlay, some overlayResolved, overlaySymlinked, none⟩
          | none, some (holdirResolved, holdirSymlinked) =>
              ⟨.holdirSource, some holdirResolved, holdirSymlinked, none⟩
          | none, none => missing

/-- The branch of `_resolve_edge` for a relative literal with no file beside the declaring
file: the logical root, the package root, and the shared roots, in this order. -/
def resolveElsewhere (declaringFile : Parts) (raw : RawPath) (declared : String)
    (logicalAlias : Option String) (aliasRoot : Option Parts) : EdgeResolution :=
  let safe := safeHoldirLiteral raw declared
  let missing : EdgeResolution :=
    if aliasRoot.isSome then ⟨.unresolvedMountedSource, none, false, logicalAlias⟩
    else ⟨.unresolved, none, false, none⟩
  match aliasRoot.bind fun root => if safe then searchLogicalRoot fs raw.parts logicalAlias root else none with
  | some found => found
  | none =>
      match if Within declaringFile roots.root ∧ safe then searchPackageRoot fs roots raw.parts else none with
      | some found => found
      | none =>
          if roots.holdirRoot.isNone || !safe then missing
          else searchSharedRoots fs sha256 roots raw.parts missing

/-- `_resolve_edge`; `none` where `expanduser` raises. -/
def resolveEdge (declaringFile : Parts) (declared : String) (logicalAlias : Option String)
    (aliasRoot : Option Parts) : Option EdgeResolution :=
  (fs.expanduser (RawPath.ofString declared)).map fun raw =>
    match classifyLogicalLiteral raw declared roots.declaredAliases with
    | .invalidLogical selected => ⟨.invalidLogicalSourcePath, none, false, some selected⟩
    | .logical selected suffix => resolveLogical fs roots selected suffix
    | .absolute => resolveAbsolute fs roots raw
    | _ =>
        let candidate := parent declaringFile ++ raw.parts
        match fs.existing candidate with
        | some resolved => resolveBeside fs sha256 roots candidate resolved logicalAlias aliasRoot
        | none =>
            if fs.isSymlink candidate then ⟨.externalResolved, fs.resolve candidate, true, logicalAlias⟩
            else resolveElsewhere fs sha256 roots declaringFile raw declared logicalAlias aliasRoot

end

/-! ## Where resolved files lie -/

/-- The file of an admitted resolution lies below the root that the resolution names. -/
def EdgeResolution.Placed (roots : SourceRoots) (found : EdgeResolution) : Prop :=
  match found.resolution with
  | .sourceLocal => ∃ resolved, found.resolved = some resolved ∧ Within resolved roots.root
  | .holdirSource => ∃ resolved root, found.resolved = some resolved ∧
      roots.holdirRoot = some root ∧ Within resolved root
  | .sourceOverlay | .sourceOverlayConflict => ∃ resolved root, found.resolved = some resolved ∧
      roots.sourceOverlayRoot = some root ∧ Within resolved root
  | .mountedSource => ∃ resolved logicalAlias root, found.resolved = some resolved ∧
      found.logicalAlias = some logicalAlias ∧ roots.logicalRoot logicalAlias = some root ∧
      Within resolved root
  | _ => True

section

variable {fs : FileSystem} {sha256 : Bytes → String} {roots : SourceRoots}

theorem filter_within_eq_some {root : Option Parts} {path found : Parts}
    (h : (root.filter fun root => Within path root) = some found) : root = some found ∧ Within path found := by
  rw [Option.filter_eq_some_iff] at h
  exact ⟨h.1, of_decide_eq_true h.2⟩

theorem resolveLogical_placed (logicalAlias : String) (suffix : Parts) :
    (resolveLogical fs roots logicalAlias suffix).Placed roots := by
  unfold resolveLogical
  split
  · trivial
  · rename_i root hroot
    dsimp only
    split
    · trivial
    · rename_i resolved _
      split
      · trivial
      · rename_i hclean
        have hwithin : Within resolved root := by
          by_contra hout
          exact hclean (.inr hout)
        exact ⟨resolved, logicalAlias, root, rfl, rfl, hroot, hwithin⟩

/-- The legacy coordinate lies below the active HOLDIR. -/
theorem legacyHoldirCoordinate_within {raw : RawPath} {candidate resolved : Parts}
    (h : legacyHoldirCoordinate fs roots raw = some (candidate, resolved)) :
    ∃ root, roots.holdirRoot = some root ∧ Within resolved root := by
  unfold legacyHoldirCoordinate at h
  split at h
  · cases h
  · rename_i root hroot
    split at h
    · cases h
    · obtain ⟨legacyRoot, -, h⟩ := List.exists_of_findSome?_eq_some h
      dsimp only at h
      split at h
      · split at h
        · split at h
          · rename_i hwithin
            cases h
            exact ⟨root, hroot, hwithin⟩
          · cases h
        · cases h
      · cases h

theorem resolveAbsolute_placed (raw : RawPath) : (resolveAbsolute fs roots raw).Placed roots := by
  unfold resolveAbsolute
  split
  · rename_i candidate resolved hlegacy
    obtain ⟨root, hroot, hwithin⟩ := legacyHoldirCoordinate_within hlegacy
    exact ⟨resolved, root, rfl, hroot, hwithin⟩
  · split <;> trivial

theorem resolveInOverlay_placed {resolved overlayRoot : Parts} (symlinked : Bool)
    (hroot : roots.sourceOverlayRoot = some overlayRoot) (hwithin : Within resolved overlayRoot) :
    (resolveInOverlay fs sha256 roots resolved symlinked overlayRoot).Placed roots := by
  unfold resolveInOverlay
  split
  · exact ⟨resolved, overlayRoot, rfl, hroot, hwithin⟩
  · rename_i holdirRoot hholdir
    dsimp only
    split
    · trivial
    split
    · exact ⟨resolved, overlayRoot, rfl, hroot, hwithin⟩
    · rename_i holdirResolved _
      split
      · trivial
      · rename_i hin
        split
        · exact ⟨holdirResolved, holdirRoot, rfl, hholdir, not_not.mp hin⟩
        · exact ⟨resolved, overlayRoot, rfl, hroot, hwithin⟩

theorem resolveInHoldir_placed {resolved holdirRoot : Parts} (symlinked : Bool)
    (hroot : roots.holdirRoot = some holdirRoot) (hwithin : Within resolved holdirRoot) :
    (resolveInHoldir fs sha256 roots resolved symlinked holdirRoot).Placed roots := by
  unfold resolveInHoldir
  split
  · exact ⟨resolved, holdirRoot, rfl, hroot, hwithin⟩
  · rename_i overlayRoot hoverlay
    dsimp only
    split
    · trivial
    split
    · exact ⟨resolved, holdirRoot, rfl, hroot, hwithin⟩
    · rename_i overlayResolved _
      split
      · trivial
      · rename_i hin
        split
        · exact ⟨resolved, holdirRoot, rfl, hroot, hwithin⟩
        · exact ⟨overlayResolved, overlayRoot, rfl, hoverlay, not_not.mp hin⟩

theorem resolveBeside_placed (candidate resolved : Parts) (logicalAlias : Option String) :
    (resolveBeside fs sha256 roots candidate resolved logicalAlias
      (logicalAlias.bind roots.logicalRoot)).Placed roots := by
  unfold resolveBeside
  dsimp only
  split
  · rename_i hmounted
    split
    · trivial
    · obtain ⟨root, hroot, hwithin⟩ := (Option.any_eq_true _ _).mp hmounted
      obtain ⟨selected, hselected, hroot⟩ := Option.bind_eq_some_iff.mp hroot
      exact ⟨resolved, selected, root, rfl, hselected, hroot, of_decide_eq_true hwithin⟩
  split
  · rename_i hlocal
    exact ⟨resolved, rfl, hlocal⟩
  split
  · rename_i overlayRoot hoverlay
    obtain ⟨hroot, hwithin⟩ := filter_within_eq_some hoverlay
    exact resolveInOverlay_placed _ hroot hwithin
  split
  · rename_i holdirRoot hholdir
    obtain ⟨hroot, hwithin⟩ := filter_within_eq_some hholdir
    exact resolveInHoldir_placed _ hroot hwithin
  · trivial

theorem searchLogicalRoot_placed {parts root : Parts} {logicalAlias : Option String}
    {found : EdgeResolution} (hroot : logicalAlias.bind roots.logicalRoot = some root)
    (h : searchLogicalRoot fs parts logicalAlias root = some found) : found.Placed roots := by
  unfold searchLogicalRoot at h
  dsimp only at h
  split at h
  · cases h
    trivial
  · obtain ⟨resolved, -, rfl⟩ := Option.map_eq_some_iff.mp h
    split
    · trivial
    · rename_i hclean
      have hwithin : Within resolved root := by
        by_contra hout
        exact hclean (.inr hout)
      obtain ⟨selected, hselected, hroot⟩ := Option.bind_eq_some_iff.mp hroot
      exact ⟨resolved, selected, root, rfl, hselected, hroot, hwithin⟩

theorem searchPackageRoot_placed {parts : Parts} {found : EdgeResolution}
    (h : searchPackageRoot fs roots parts = some found) : found.Placed roots := by
  unfold searchPackageRoot at h
  dsimp only at h
  split at h
  · cases h
    trivial
  split at h
  · rename_i resolved _
    split at h
    · cases h
      trivial
    · rename_i hin
      cases h
      exact ⟨resolved, rfl, not_not.mp hin⟩
  · split at h
    · cases h
      trivial
    · cases h

/-- What the search below a shared root finds lies below it; a refusal is not admitted. -/
theorem searchSharedRoot_within {parts : Parts} {sharedRoot : Option Parts} {resolved : Parts}
    {symlinked : Bool} (h : searchSharedRoot fs parts sharedRoot = .inr (some (resolved, symlinked))) :
    ∃ root, sharedRoot = some root ∧ Within resolved root := by
  unfold searchSharedRoot at h
  split at h
  · cases h
  · rename_i root
    dsimp only at h
    split at h
    · cases h
    split at h
    · cases h
    split at h
    · cases h
    · rename_i hin
      cases h
      exact ⟨root, rfl, not_not.mp hin⟩

theorem searchSharedRoot_refusal {parts : Parts} {sharedRoot : Option Parts} {refusal : EdgeResolution}
    (h : searchSharedRoot fs parts sharedRoot = .inl refusal) :
    refusal.resolution = .externalResolved := by
  unfold searchSharedRoot at h
  split at h
  · cases h
  · dsimp only at h
    split at h
    · cases h
      rfl
    split at h
    · cases h
    split at h
    · cases h
      rfl
    · cases h

theorem placed_of_external {found : EdgeResolution} (h : found.resolution = .externalResolved) :
    found.Placed roots := by
  unfold EdgeResolution.Placed
  rw [h]
  trivial

theorem searchSharedRoots_placed {parts : Parts} {missing : EdgeResolution}
    (hmissing : missing.Placed roots) :
    (searchSharedRoots fs sha256 roots parts missing).Placed roots := by
  unfold searchSharedRoots
  split
  · rename_i hrefusal
    exact placed_of_external (searchSharedRoot_refusal hrefusal)
  rename_i overlay hoverlay
  split
  · rename_i hrefusal
    exact placed_of_external (searchSharedRoot_refusal hrefusal)
  rename_i holdir hholdir
  split
  · obtain ⟨overlayRoot, hoverlayRoot, hoverlayIn⟩ := searchSharedRoot_within hoverlay
    obtain ⟨holdirRoot, hholdirRoot, hholdirIn⟩ := searchSharedRoot_within hholdir
    split
    · exact ⟨_, holdirRoot, rfl, hholdirRoot, hholdirIn⟩
    · exact ⟨_, overlayRoot, rfl, hoverlayRoot, hoverlayIn⟩
  · obtain ⟨overlayRoot, hoverlayRoot, hoverlayIn⟩ := searchSharedRoot_within hoverlay
    exact ⟨_, overlayRoot, rfl, hoverlayRoot, hoverlayIn⟩
  · obtain ⟨holdirRoot, hholdirRoot, hholdirIn⟩ := searchSharedRoot_within hholdir
    exact ⟨_, holdirRoot, rfl, hholdirRoot, hholdirIn⟩
  · exact hmissing

theorem resolveElsewhere_placed (declaringFile : Parts) (raw : RawPath) (declared : String)
    (logicalAlias : Option String) :
    (resolveElsewhere fs sha256 roots declaringFile raw declared logicalAlias
      (logicalAlias.bind roots.logicalRoot)).Placed roots := by
  have hmissing : (if (logicalAlias.bind roots.logicalRoot).isSome then
      (⟨.unresolvedMountedSource, none, false, logicalAlias⟩ : EdgeResolution)
      else ⟨.unresolved, none, false, none⟩).Placed roots := by
    split <;> trivial
  unfold resolveElsewhere
  dsimp only
  split
  · rename_i found hfound
    obtain ⟨root, hroot, hsearch⟩ := Option.bind_eq_some_iff.mp hfound
    split at hsearch
    · exact searchLogicalRoot_placed hroot hsearch
    · cases hsearch
  split
  · rename_i found hfound
    split at hfound
    · exact searchPackageRoot_placed hfound
    · cases hfound
  split
  · exact hmissing
  · exact searchSharedRoots_placed hmissing

/-- The file of every admitted edge lies below the root that its resolution names. -/
theorem resolveEdge_placed {declaringFile : Parts} {declared : String} {logicalAlias : Option String}
    {found : EdgeResolution}
    (h : resolveEdge fs sha256 roots declaringFile declared logicalAlias
      (logicalAlias.bind roots.logicalRoot) = some found) : found.Placed roots := by
  obtain ⟨raw, -, rfl⟩ := Option.map_eq_some_iff.mp h
  split
  · trivial
  · exact resolveLogical_placed _ _
  · exact resolveAbsolute_placed raw
  · dsimp only
    split
    · exact resolveBeside_placed _ _ _
    · split
      · trivial
      · exact resolveElsewhere_placed _ _ _ _

/-- An admitted edge has a file. -/
theorem EdgeResolution.Placed.resolved_isSome {found : EdgeResolution} (h : found.Placed roots)
    (hadmitted : found.resolution.admitted = true) : ∃ resolved, found.resolved = some resolved := by
  unfold EdgeResolution.Placed at h
  cases hresolution : found.resolution <;> rw [hresolution] at h hadmitted <;> try cases hadmitted
  · obtain ⟨resolved, hresolved, -⟩ := h
    exact ⟨resolved, hresolved⟩
  · obtain ⟨resolved, -, hresolved, -⟩ := h
    exact ⟨resolved, hresolved⟩
  · obtain ⟨resolved, -, hresolved, -⟩ := h
    exact ⟨resolved, hresolved⟩
  · obtain ⟨resolved, -, -, hresolved, -⟩ := h
    exact ⟨resolved, hresolved⟩

end

end Hearth.Closure
