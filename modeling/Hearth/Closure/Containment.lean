import Hearth.Closure.Resolve

/-!
# Containment of a resolved load

Which files an admitted resolution can lead to.  `resolveEdge_placed` says below which root the
file lies; here is how it is reached (`resolveEdge_reached`), what becomes of a literal that
leaves the root it is looked up in (`Escapes`, one case for each place of the lookup), and that
the file beside the declaring file is not exchanged for another one (`resolveEdge_sibling`).
-/

namespace Hearth.Closure

open Hearth.Library
open Hearth.Library.Parts

section

variable (fs : FileSystem) (sha256 : Bytes → String) (roots : SourceRoots)

/-! ## How a file is reached -/

/-- The path of a literal beside its declaring file. -/
def besideCandidate (declaringFile : Parts) (raw : RawPath) : Parts :=
  parent declaringFile ++ raw.parts

/-- An admitted resolution leads to a regular file, which its candidate resolves to; for a mounted
source the candidate, beside the declaring file or below the logical root, is that file's own path
as soon as its dots are dropped. -/
structure EdgeResolution.Reached (declaringFile : Parts) (raw : RawPath) (found : EdgeResolution) :
    Prop where
  file : found.resolution.admitted = true →
    ∃ candidate resolved, found.resolved = some resolved ∧ fs.resolve candidate = some resolved ∧
      fs.isFile resolved = true
  mounted : found.resolution = .mountedSource → found.symlinked = false ∧
    ∃ candidate resolved logicalAlias root, found.resolved = some resolved ∧
      found.logicalAlias = some logicalAlias ∧ roots.logicalRoot logicalAlias = some root ∧
      (candidate = besideCandidate declaringFile raw ∨ Within candidate root) ∧
      fs.resolve candidate = some resolved ∧ abspath candidate = resolved

end

section

variable {fs : FileSystem} {sha256 : Bytes → String} {roots : SourceRoots} {declaringFile : Parts}
  {raw : RawPath} {found : EdgeResolution}

theorem existing_eq_some {candidate resolved : Parts} (h : fs.existing candidate = some resolved) :
    fs.resolve candidate = some resolved ∧ fs.isFile resolved = true :=
  Option.filter_eq_some_iff.mp h

/-- A resolution that is not admitted leads nowhere. -/
theorem reached_of_not_admitted (h : found.resolution.admitted = false) :
    found.Reached fs roots declaringFile raw where
  file hadmitted := by
    rw [h] at hadmitted
    cases hadmitted
  mounted hmounted := by
    rw [hmounted] at h
    cases h

/-- A file below a root that is not a logical one. -/
theorem reached_of_existing {candidate resolved : Parts} (hresolved : found.resolved = some resolved)
    (hexisting : fs.existing candidate = some resolved) (hmounted : found.resolution ≠ .mountedSource) :
    found.Reached fs roots declaringFile raw where
  file _ := by
    obtain ⟨hresolve, hfile⟩ := existing_eq_some hexisting
    exact ⟨candidate, resolved, hresolved, hresolve, hfile⟩
  mounted h := absurd h hmounted

/-- A mounted file. -/
theorem reached_of_mounted {candidate resolved root : Parts} {logicalAlias : String}
    (hexisting : fs.existing candidate = some resolved) (hclean : abspath candidate = resolved)
    (hroot : roots.logicalRoot logicalAlias = some root)
    (hcandidate : candidate = besideCandidate declaringFile raw ∨ Within candidate root) :
    (⟨.mountedSource, some resolved, false, some logicalAlias⟩ : EdgeResolution).Reached fs roots
      declaringFile raw := by
  obtain ⟨hresolve, hfile⟩ := existing_eq_some hexisting
  constructor
  · intro _
    exact ⟨candidate, resolved, rfl, hresolve, hfile⟩
  · intro _
    exact ⟨rfl, candidate, resolved, logicalAlias, root, rfl, rfl, hroot, hcandidate, hresolve, hclean⟩

theorem resolveLogical_reached (logicalAlias : String) (suffix : Parts) :
    (resolveLogical fs roots logicalAlias suffix).Reached fs roots declaringFile raw := by
  unfold resolveLogical
  split
  · exact reached_of_not_admitted rfl
  · rename_i root hroot
    dsimp only
    split
    · exact reached_of_not_admitted rfl
    · rename_i resolved hexisting
      split
      · exact reached_of_not_admitted rfl
      · rename_i hclean
        rw [not_or, not_not] at hclean
        exact reached_of_mounted hexisting hclean.1 hroot (.inr (within_append root suffix))

theorem legacyHoldirCoordinate_existing {candidate resolved : Parts}
    (h : legacyHoldirCoordinate fs roots raw = some (candidate, resolved)) :
    fs.existing candidate = some resolved := by
  unfold legacyHoldirCoordinate at h
  split at h
  · cases h
  split at h
  · cases h
  obtain ⟨legacyRoot, -, h⟩ := List.exists_of_findSome?_eq_some h
  dsimp only at h
  split at h
  · split at h
    · rename_i hexisting
      split at h
      · cases h
        exact hexisting
      · cases h
    · cases h
  · cases h

theorem resolveAbsolute_reached :
    (resolveAbsolute fs roots raw).Reached fs roots declaringFile raw := by
  unfold resolveAbsolute
  split
  · rename_i candidate resolved hlegacy
    exact reached_of_existing rfl (legacyHoldirCoordinate_existing hlegacy) nofun
  · split <;> exact reached_of_not_admitted rfl

theorem resolveInOverlay_reached {candidate resolved : Parts} (symlinked : Bool) (overlayRoot : Parts)
    (h : fs.existing candidate = some resolved) :
    (resolveInOverlay fs sha256 roots resolved symlinked overlayRoot).Reached fs roots declaringFile
      raw := by
  unfold resolveInOverlay
  split
  · exact reached_of_existing rfl h nofun
  dsimp only
  split
  · exact reached_of_not_admitted rfl
  split
  · exact reached_of_existing rfl h nofun
  · rename_i holdirResolved hexisting
    split
    · exact reached_of_not_admitted rfl
    split
    · exact reached_of_existing rfl hexisting nofun
    · exact reached_of_not_admitted rfl

theorem resolveInHoldir_reached {candidate resolved : Parts} (symlinked : Bool) (holdirRoot : Parts)
    (h : fs.existing candidate = some resolved) :
    (resolveInHoldir fs sha256 roots resolved symlinked holdirRoot).Reached fs roots declaringFile
      raw := by
  unfold resolveInHoldir
  split
  · exact reached_of_existing rfl h nofun
  dsimp only
  split
  · exact reached_of_not_admitted rfl
  split
  · exact reached_of_existing rfl h nofun
  · split
    · exact reached_of_not_admitted rfl
    split
    · exact reached_of_existing rfl h nofun
    · exact reached_of_not_admitted rfl

theorem resolveBeside_reached {resolved : Parts} (logicalAlias : Option String)
    (h : fs.existing (besideCandidate declaringFile raw) = some resolved) :
    (resolveBeside fs sha256 roots (besideCandidate declaringFile raw) resolved logicalAlias
      (logicalAlias.bind roots.logicalRoot)).Reached fs roots declaringFile raw := by
  unfold resolveBeside
  dsimp only
  split
  · rename_i hmounted
    split
    · exact reached_of_not_admitted rfl
    · rename_i hclean
      obtain ⟨root, hroot, -⟩ := (Option.any_eq_true _ _).mp hmounted
      obtain ⟨selected, rfl, hroot⟩ := Option.bind_eq_some_iff.mp hroot
      exact reached_of_mounted h (by simpa using hclean) hroot (.inl rfl)
  split
  · exact reached_of_existing rfl h nofun
  split
  · exact resolveInOverlay_reached _ _ h
  split
  · exact resolveInHoldir_reached _ _ h
  · exact reached_of_not_admitted rfl

theorem searchLogicalRoot_reached {parts root : Parts} {logicalAlias : Option String}
    (hroot : logicalAlias.bind roots.logicalRoot = some root)
    (h : searchLogicalRoot fs parts logicalAlias root = some found) :
    found.Reached fs roots declaringFile raw := by
  unfold searchLogicalRoot at h
  dsimp only at h
  split at h
  · cases h
    exact reached_of_not_admitted rfl
  · obtain ⟨resolved, hexisting, rfl⟩ := Option.map_eq_some_iff.mp h
    split
    · exact reached_of_not_admitted rfl
    · rename_i hclean
      rw [not_or, not_not] at hclean
      obtain ⟨selected, rfl, hroot⟩ := Option.bind_eq_some_iff.mp hroot
      exact reached_of_mounted hexisting hclean.1 hroot (.inr (within_append root parts))

theorem searchPackageRoot_reached {parts : Parts} (h : searchPackageRoot fs roots parts = some found) :
    found.Reached fs roots declaringFile raw := by
  unfold searchPackageRoot at h
  dsimp only at h
  split at h
  · cases h
    exact reached_of_not_admitted rfl
  split at h
  · rename_i resolved hexisting
    split at h
    · cases h
      exact reached_of_not_admitted rfl
    · cases h
      exact reached_of_existing rfl hexisting nofun
  · split at h
    · cases h
      exact reached_of_not_admitted rfl
    · cases h

theorem searchSharedRoot_existing {parts : Parts} {sharedRoot : Option Parts} {resolved : Parts}
    {symlinked : Bool} (h : searchSharedRoot fs parts sharedRoot = .inr (some (resolved, symlinked))) :
    ∃ root, sharedRoot = some root ∧ fs.existing (root ++ parts) = some resolved := by
  unfold searchSharedRoot at h
  split at h
  · cases h
  · rename_i root
    dsimp only at h
    split at h
    · cases h
    split at h
    · cases h
    rename_i hexisting
    split at h
    · cases h
    · cases h
      exact ⟨root, rfl, hexisting⟩

theorem searchSharedRoots_reached {parts : Parts} {missing : EdgeResolution}
    (hmissing : missing.resolution.admitted = false) :
    (searchSharedRoots fs sha256 roots parts missing).Reached fs roots declaringFile raw := by
  unfold searchSharedRoots
  split
  · rename_i hrefusal
    exact reached_of_not_admitted (by rw [searchSharedRoot_refusal hrefusal]; rfl)
  rename_i overlay hoverlay
  split
  · rename_i hrefusal
    exact reached_of_not_admitted (by rw [searchSharedRoot_refusal hrefusal]; rfl)
  rename_i holdir hholdir
  split
  · obtain ⟨holdirRoot, -, hholdir⟩ := searchSharedRoot_existing hholdir
    split
    · exact reached_of_existing rfl hholdir nofun
    · exact reached_of_not_admitted rfl
  · obtain ⟨overlayRoot, -, hoverlay⟩ := searchSharedRoot_existing hoverlay
    exact reached_of_existing rfl hoverlay nofun
  · obtain ⟨holdirRoot, -, hholdir⟩ := searchSharedRoot_existing hholdir
    exact reached_of_existing rfl hholdir nofun
  · exact reached_of_not_admitted hmissing

theorem resolveElsewhere_reached (declared : String) (logicalAlias : Option String) :
    (resolveElsewhere fs sha256 roots declaringFile raw declared logicalAlias
      (logicalAlias.bind roots.logicalRoot)).Reached fs roots declaringFile raw := by
  have hmissing : (if (logicalAlias.bind roots.logicalRoot).isSome then
      (⟨.unresolvedMountedSource, none, false, logicalAlias⟩ : EdgeResolution)
      else ⟨.unresolved, none, false, none⟩).resolution.admitted = false := by
    split <;> rfl
  unfold resolveElsewhere
  dsimp only
  split
  · rename_i found hfound
    obtain ⟨root, hroot, hsearch⟩ := Option.bind_eq_some_iff.mp hfound
    split at hsearch
    · exact searchLogicalRoot_reached hroot hsearch
    · cases hsearch
  split
  · rename_i found hfound
    split at hfound
    · exact searchPackageRoot_reached hfound
    · cases hfound
  split
  · exact reached_of_not_admitted hmissing
  · exact searchSharedRoots_reached hmissing

/-- What `resolveEdge` computes for a literal whose expansion is `raw`. -/
theorem resolveEdge_eq_some {declared : String} {logicalAlias : Option String} {aliasRoot : Option Parts}
    (hraw : fs.expanduser (RawPath.ofString declared) = some raw) :
    resolveEdge fs sha256 roots declaringFile declared logicalAlias aliasRoot = some
      (match classifyLogicalLiteral raw declared roots.declaredAliases with
      | .invalidLogical selected => ⟨.invalidLogicalSourcePath, none, false, some selected⟩
      | .logical selected suffix => resolveLogical fs roots selected suffix
      | .absolute => resolveAbsolute fs roots raw
      | _ =>
          match fs.existing (besideCandidate declaringFile raw) with
          | some resolved => resolveBeside fs sha256 roots (besideCandidate declaringFile raw) resolved
              logicalAlias aliasRoot
          | none =>
              if fs.isSymlink (besideCandidate declaringFile raw) then
                ⟨.externalResolved, fs.resolve (besideCandidate declaringFile raw), true, logicalAlias⟩
              else resolveElsewhere fs sha256 roots declaringFile raw declared logicalAlias aliasRoot) := by
  unfold resolveEdge
  rw [hraw]
  rfl

theorem resolveEdge_reached {declared : String} {logicalAlias : Option String}
    (hraw : fs.expanduser (RawPath.ofString declared) = some raw)
    (h : resolveEdge fs sha256 roots declaringFile declared logicalAlias
      (logicalAlias.bind roots.logicalRoot) = some found) :
    found.Reached fs roots declaringFile raw := by
  rw [resolveEdge_eq_some hraw] at h
  obtain rfl := Option.some.inj h
  split
  · exact reached_of_not_admitted rfl
  · exact resolveLogical_reached _ _
  · exact resolveAbsolute_reached
  · split
    · rename_i resolved hexisting
      exact resolveBeside_reached logicalAlias hexisting
    · split
      · exact reached_of_not_admitted rfl
      · exact resolveElsewhere_reached declared logicalAlias

end

/-! ## Literals that leave their root -/

/-- A literal relative to its declaring file, or to a root in which it is searched. -/
def RelativeLiteral (roots : SourceRoots) (raw : RawPath) (declared : String) : Prop :=
  classifyLogicalLiteral raw declared roots.declaredAliases = .declaringRelative ∨
    classifyLogicalLiteral raw declared roots.declaredAliases = .ordinaryRelative

/-- The candidate below this root is a file outside of it. -/
def EscapesBelow (fs : FileSystem) (root parts : Parts) : Prop :=
  ∃ resolved, fs.existing (root ++ parts) = some resolved ∧ ¬ Within resolved root

/-- A literal leaves the root that it is looked up in. -/
inductive Escapes (fs : FileSystem) (roots : SourceRoots) (declaringFile : Parts) (raw : RawPath)
    (declared : String) (logicalAlias : Option String) (aliasRoot : Option Parts) : Prop
  /-- `ALIAS/path`, where the path climbs, or is not spelled as a path. -/
  | spelling {selected : String}
      (hkind : classifyLogicalLiteral raw declared roots.declaredAliases = .invalidLogical selected)
  /-- `ALIAS/path`, which leads out of the logical root. -/
  | logical {selected : String} {suffix root : Parts}
      (hkind : classifyLogicalLiteral raw declared roots.declaredAliases = .logical selected suffix)
      (hroot : roots.logicalRoot selected = some root) (hescapes : EscapesBelow fs root suffix)
  /-- An absolute path that is no old coordinate of the active HOLDIR. -/
  | absolute (hkind : classifyLogicalLiteral raw declared roots.declaredAliases = .absolute)
      (hlegacy : legacyHoldirCoordinate fs roots raw = none)
  /-- The file beside the declaring file is below none of the roots. -/
  | beside {resolved : Parts} (hkind : RelativeLiteral roots raw declared)
      (hexisting : fs.existing (besideCandidate declaringFile raw) = some resolved)
      (hlogical : withinSome resolved aliasRoot = false) (hpackage : ¬ Within resolved roots.root)
      (hoverlay : withinSome resolved roots.sourceOverlayRoot = false)
      (hholdir : withinSome resolved roots.holdirRoot = false)
  /-- A path that climbs, or names a home directory, and has no file there. -/
  | climbing (hkind : RelativeLiteral roots raw declared)
      (hmissing : fs.existing (besideCandidate declaringFile raw) = none)
      (hescaping : safeHoldirLiteral raw declared = false)
  /-- A search that leads out of the logical root of the declaring file. -/
  | belowLogicalRoot {root : Parts} (hkind : RelativeLiteral roots raw declared)
      (hmissing : fs.existing (besideCandidate declaringFile raw) = none)
      (hsafe : safeHoldirLiteral raw declared = true) (hroot : aliasRoot = some root)
      (hescapes : EscapesBelow fs root raw.parts)
  /-- A search that finds nothing there, and leads out of the package root. -/
  | belowPackageRoot (hkind : RelativeLiteral roots raw declared)
      (hmissing : fs.existing (besideCandidate declaringFile raw) = none)
      (hsafe : safeHoldirLiteral raw declared = true)
      (hlogical : ∀ root, aliasRoot = some root → searchLogicalRoot fs raw.parts logicalAlias root = none)
      (hdeclaring : Within declaringFile roots.root) (hescapes : EscapesBelow fs roots.root raw.parts)
  /-- A search that finds nothing in either, and leads out of the overlay or of HOLDIR. -/
  | belowSharedRoot {root : Parts} (hkind : RelativeLiteral roots raw declared)
      (hmissing : fs.existing (besideCandidate declaringFile raw) = none)
      (hsafe : safeHoldirLiteral raw declared = true)
      (hlogical : ∀ root, aliasRoot = some root → searchLogicalRoot fs raw.parts logicalAlias root = none)
      (hpackage : Within declaringFile roots.root → searchPackageRoot fs roots raw.parts = none)
      (hholdir : roots.holdirRoot.isSome = true)
      (hroot : roots.sourceOverlayRoot = some root ∨ roots.holdirRoot = some root)
      (hescapes : EscapesBelow fs root raw.parts)

/-- What a literal that leaves its root is classified as: of a declared alias it is invalid, and from
a mounted file it is unresolved there. -/
def Resolution.turnedAway : Resolution → Bool
  | .externalResolved | .unresolved | .unresolvedMountedSource | .invalidLogicalSourcePath => true
  | _ => false

section

variable {fs : FileSystem} {sha256 : Bytes → String} {roots : SourceRoots} {declaringFile : Parts}
  {raw : RawPath} {found : EdgeResolution} {declared : String} {logicalAlias : Option String}
  {aliasRoot : Option Parts}

/-- A relative literal is looked up beside its declaring file first. -/
theorem resolveEdge_relative (hraw : fs.expanduser (RawPath.ofString declared) = some raw)
    (hkind : RelativeLiteral roots raw declared) :
    resolveEdge fs sha256 roots declaringFile declared logicalAlias aliasRoot = some
      (match fs.existing (besideCandidate declaringFile raw) with
      | some resolved => resolveBeside fs sha256 roots (besideCandidate declaringFile raw) resolved
          logicalAlias aliasRoot
      | none =>
          if fs.isSymlink (besideCandidate declaringFile raw) then
            ⟨.externalResolved, fs.resolve (besideCandidate declaringFile raw), true, logicalAlias⟩
          else resolveElsewhere fs sha256 roots declaringFile raw declared logicalAlias aliasRoot) := by
  rw [resolveEdge_eq_some hraw]
  rcases hkind with hkind | hkind
  · rw [hkind]
  · rw [hkind]

/-- A file that is there does not dangle. -/
theorem not_dangling {candidate resolved : Parts} (h : fs.existing candidate = some resolved) :
    ¬ fs.dangling candidate = true := by
  unfold FileSystem.dangling
  rw [h]
  simp

theorem searchLogicalRoot_escapes {parts root : Parts} (logicalAlias : Option String) (h : EscapesBelow fs root parts) :
    ∃ found, searchLogicalRoot fs parts logicalAlias root = some found ∧
      found.resolution = .externalResolved := by
  obtain ⟨resolved, hexisting, hout⟩ := h
  unfold searchLogicalRoot
  dsimp only
  rw [if_neg (not_dangling hexisting), hexisting, Option.map_some, if_pos (.inr hout)]
  exact ⟨_, rfl, rfl⟩

theorem searchPackageRoot_escapes {parts : Parts} (h : EscapesBelow fs roots.root parts) :
    ∃ found, searchPackageRoot fs roots parts = some found ∧ found.resolution = .externalResolved := by
  obtain ⟨resolved, hexisting, hout⟩ := h
  unfold searchPackageRoot
  dsimp only
  split
  · exact ⟨_, rfl, rfl⟩
  · rw [hexisting]
    dsimp only
    rw [if_pos hout]
    exact ⟨_, rfl, rfl⟩

theorem searchSharedRoot_escapes {parts root : Parts} (h : EscapesBelow fs root parts) :
    ∃ refusal, searchSharedRoot fs parts (some root) = .inl refusal := by
  obtain ⟨resolved, hexisting, hout⟩ := h
  unfold searchSharedRoot
  dsimp only
  rw [if_neg (not_dangling hexisting), hexisting]
  dsimp only
  rw [if_pos hout]
  exact ⟨_, rfl⟩

/-- Either shared root turns the literal away. -/
theorem searchSharedRoots_escapes {parts root : Parts} (missing : EdgeResolution)
    (hroot : roots.sourceOverlayRoot = some root ∨ roots.holdirRoot = some root)
    (h : EscapesBelow fs root parts) :
    (searchSharedRoots fs sha256 roots parts missing).resolution = .externalResolved := by
  obtain ⟨refusal, hrefusal⟩ := searchSharedRoot_escapes h
  unfold searchSharedRoots
  rcases hroot with hroot | hroot
  · rw [hroot, hrefusal]
    exact searchSharedRoot_refusal hrefusal
  · split
    · rename_i hoverlay
      exact searchSharedRoot_refusal hoverlay
    · rw [hroot, hrefusal]
      exact searchSharedRoot_refusal hrefusal

theorem resolveBeside_escapes {candidate resolved : Parts} (hlogical : withinSome resolved aliasRoot = false)
    (hpackage : ¬ Within resolved roots.root)
    (hoverlay : withinSome resolved roots.sourceOverlayRoot = false)
    (hholdir : withinSome resolved roots.holdirRoot = false) :
    (resolveBeside fs sha256 roots candidate resolved logicalAlias aliasRoot).resolution =
      .externalResolved := by
  have hfilter : ∀ root : Option Parts, withinSome resolved root = false →
      (root.filter fun root => Within resolved root) = none := by
    intro root hout
    rw [Option.filter_eq_none_iff]
    intro path hpath hwithin
    unfold withinSome at hout
    rw [hpath, Option.any_some, hwithin] at hout
    cases hout
  unfold resolveBeside
  dsimp only
  rw [if_neg (by simp [hlogical]), if_neg hpackage, hfilter _ hoverlay]
  dsimp only
  rw [hfilter _ hholdir]

/-- A search elsewhere that leads out of the root where it ends. -/
theorem resolveElsewhere_logical {root : Parts} (hsafe : safeHoldirLiteral raw declared = true)
    (hroot : aliasRoot = some root) (h : EscapesBelow fs root raw.parts) :
    (resolveElsewhere fs sha256 roots declaringFile raw declared logicalAlias aliasRoot).resolution =
      .externalResolved := by
  obtain ⟨found, hfound, hexternal⟩ := searchLogicalRoot_escapes logicalAlias h
  unfold resolveElsewhere
  dsimp only
  rw [hroot, Option.bind_some, if_pos hsafe, hfound]
  exact hexternal

/-- Nothing is found below the logical root of the declaring file. -/
theorem searched_none (hsafe : safeHoldirLiteral raw declared = true)
    (h : ∀ root, aliasRoot = some root → searchLogicalRoot fs raw.parts logicalAlias root = none) :
    (aliasRoot.bind fun root => if safeHoldirLiteral raw declared = true then
      searchLogicalRoot fs raw.parts logicalAlias root else none) = none := by
  cases hroot : aliasRoot with
  | none => rfl
  | some root =>
      rw [Option.bind_some, if_pos hsafe]
      exact h root hroot

theorem resolveElsewhere_package (hsafe : safeHoldirLiteral raw declared = true)
    (hlogical : ∀ root, aliasRoot = some root → searchLogicalRoot fs raw.parts logicalAlias root = none)
    (hdeclaring : Within declaringFile roots.root) (h : EscapesBelow fs roots.root raw.parts) :
    (resolveElsewhere fs sha256 roots declaringFile raw declared logicalAlias aliasRoot).resolution =
      .externalResolved := by
  obtain ⟨found, hfound, hexternal⟩ := searchPackageRoot_escapes h
  unfold resolveElsewhere
  dsimp only
  rw [searched_none hsafe hlogical]
  dsimp only
  rw [if_pos ⟨hdeclaring, hsafe⟩, hfound]
  exact hexternal

theorem resolveElsewhere_shared {root : Parts} (hsafe : safeHoldirLiteral raw declared = true)
    (hlogical : ∀ root, aliasRoot = some root → searchLogicalRoot fs raw.parts logicalAlias root = none)
    (hpackage : Within declaringFile roots.root → searchPackageRoot fs roots raw.parts = none)
    (hholdir : roots.holdirRoot.isSome = true)
    (hroot : roots.sourceOverlayRoot = some root ∨ roots.holdirRoot = some root)
    (h : EscapesBelow fs root raw.parts) :
    (resolveElsewhere fs sha256 roots declaringFile raw declared logicalAlias aliasRoot).resolution =
      .externalResolved := by
  have hnone : (if Within declaringFile roots.root ∧ safeHoldirLiteral raw declared = true then
      searchPackageRoot fs roots raw.parts else none) = none := by
    split
    · rename_i hboth
      exact hpackage hboth.1
    · rfl
  have hshared : ¬ (roots.holdirRoot.isNone || !safeHoldirLiteral raw declared) = true := by
    rw [hsafe]
    cases hroot : roots.holdirRoot with
    | none =>
        rw [hroot] at hholdir
        cases hholdir
    | some root => simp
  unfold resolveElsewhere
  dsimp only
  rw [searched_none hsafe hlogical]
  dsimp only
  rw [hnone]
  dsimp only
  rw [if_neg hshared]
  exact searchSharedRoots_escapes _ hroot h

/-- A path that climbs is searched nowhere else. -/
theorem resolveElsewhere_climbing (hescaping : safeHoldirLiteral raw declared = false) :
    (resolveElsewhere fs sha256 roots declaringFile raw declared logicalAlias
      aliasRoot).resolution.turnedAway = true := by
  have hlogical : (aliasRoot.bind fun root => if safeHoldirLiteral raw declared = true then
      searchLogicalRoot fs raw.parts logicalAlias root else none) = none := by
    rw [hescaping]
    cases aliasRoot <;> rfl
  have hpackage : ¬ (Within declaringFile roots.root ∧ safeHoldirLiteral raw declared = true) := by
    rw [hescaping]
    simp
  unfold resolveElsewhere
  dsimp only
  rw [hlogical]
  dsimp only
  rw [if_neg hpackage]
  dsimp only
  rw [if_pos (by rw [hescaping]; simp)]
  split <;> rfl

theorem resolveLogical_escapes {selected : String} {suffix root : Parts}
    (hroot : roots.logicalRoot selected = some root) (h : EscapesBelow fs root suffix) :
    (resolveLogical fs roots selected suffix).resolution = .externalResolved := by
  obtain ⟨resolved, hexisting, hout⟩ := h
  unfold resolveLogical
  rw [hroot]
  dsimp only
  rw [hexisting]
  dsimp only
  rw [if_pos (.inr hout)]

theorem resolveAbsolute_escapes (hlegacy : legacyHoldirCoordinate fs roots raw = none) :
    (resolveAbsolute fs roots raw).resolution.turnedAway = true := by
  unfold resolveAbsolute
  rw [hlegacy]
  dsimp only
  split <;> rfl

/-- A literal that leaves its root is turned away. -/
theorem resolveEdge_escapes (hraw : fs.expanduser (RawPath.ofString declared) = some raw)
    (hescapes : Escapes fs roots declaringFile raw declared logicalAlias aliasRoot)
    (h : resolveEdge fs sha256 roots declaringFile declared logicalAlias aliasRoot = some found) :
    found.resolution.turnedAway = true := by
  have hexternal : ∀ resolution : Resolution, resolution = .externalResolved →
      resolution.turnedAway = true := by
    rintro resolution rfl
    rfl
  -- A search behind a missing file beside the declaring file ends there if it is a link.
  have hsearch : RelativeLiteral roots raw declared →
      fs.existing (besideCandidate declaringFile raw) = none →
      (resolveElsewhere fs sha256 roots declaringFile raw declared logicalAlias
        aliasRoot).resolution.turnedAway = true → found.resolution.turnedAway = true := by
    intro hkind hmissing helsewhere
    rw [resolveEdge_relative hraw hkind, hmissing] at h
    obtain rfl := Option.some.inj h
    dsimp only
    split
    · rfl
    · exact helsewhere
  cases hescapes with
  | spelling hkind =>
      rw [resolveEdge_eq_some hraw, hkind] at h
      obtain rfl := Option.some.inj h
      rfl
  | logical hkind hroot hescapes =>
      rw [resolveEdge_eq_some hraw, hkind] at h
      obtain rfl := Option.some.inj h
      exact hexternal _ (resolveLogical_escapes hroot hescapes)
  | absolute hkind hlegacy =>
      rw [resolveEdge_eq_some hraw, hkind] at h
      obtain rfl := Option.some.inj h
      exact resolveAbsolute_escapes hlegacy
  | beside hkind hexisting hlogical hpackage hoverlay hholdir =>
      rw [resolveEdge_relative hraw hkind, hexisting] at h
      obtain rfl := Option.some.inj h
      exact hexternal _ (resolveBeside_escapes hlogical hpackage hoverlay hholdir)
  | climbing hkind hmissing hescaping => exact hsearch hkind hmissing (resolveElsewhere_climbing hescaping)
  | belowLogicalRoot hkind hmissing hsafe hroot hescapes =>
      exact hsearch hkind hmissing (hexternal _ (resolveElsewhere_logical hsafe hroot hescapes))
  | belowPackageRoot hkind hmissing hsafe hlogical hdeclaring hescapes =>
      exact hsearch hkind hmissing
        (hexternal _ (resolveElsewhere_package hsafe hlogical hdeclaring hescapes))
  | belowSharedRoot hkind hmissing hsafe hlogical hpackage hholdir hroot hescapes =>
      exact hsearch hkind hmissing
        (hexternal _ (resolveElsewhere_shared hsafe hlogical hpackage hholdir hroot hescapes))

/-! ## The file beside the declaring file -/

/-- A file of HOLDIR that stands for a readable one has its digest and its size. -/
theorem sameContent_readable {first second : Parts} {data : Bytes}
    (h : sameContent fs sha256 first second = true) (hread : fs.readNoFollow first = .ok data) :
    ∃ data', fs.readNoFollow second = .ok data' ∧ sha256 data' = sha256 data ∧
      fs.sizeOf second = fs.sizeOf first := by
  unfold sameContent FileSystem.fileDigest at h
  rw [Bool.and_eq_true, decide_eq_true_eq, decide_eq_true_eq, hread] at h
  obtain ⟨hdigest, hsize⟩ := h
  cases hsecond : fs.readNoFollow second with
  | error error =>
      rw [hsecond] at hdigest
      cases hdigest
  | ok data' =>
      rw [hsecond] at hdigest
      exact ⟨data', rfl, (Option.some.inj hdigest).symm, hsize.symm⟩

variable (fs sha256) in
/-- A file of HOLDIR only stands for the file beside the declaring file if it is this file, or
has its content. -/
def KeepsSibling (sibling : Parts) (found : EdgeResolution) : Prop :=
  found.resolution = .holdirSource → ∃ resolved, found.resolved = some resolved ∧
    (resolved = sibling ∨ sameContent fs sha256 sibling resolved = true)

theorem resolveInOverlay_keepsSibling (sibling : Parts) (symlinked : Bool) (overlayRoot : Parts) :
    KeepsSibling fs sha256 sibling
      (resolveInOverlay fs sha256 roots sibling symlinked overlayRoot) := by
  unfold resolveInOverlay
  split
  · exact nofun
  dsimp only
  split
  · exact nofun
  split
  · exact nofun
  · rename_i holdirResolved _
    split
    · exact nofun
    split
    · rename_i hsame
      exact fun _ => ⟨holdirResolved, rfl, .inr hsame⟩
    · exact nofun

theorem resolveInHoldir_keepsSibling (sibling : Parts) (symlinked : Bool) (holdirRoot : Parts) :
    KeepsSibling fs sha256 sibling
      (resolveInHoldir fs sha256 roots sibling symlinked holdirRoot) := by
  unfold resolveInHoldir
  split
  · exact fun _ => ⟨sibling, rfl, .inl rfl⟩
  dsimp only
  split
  · exact nofun
  split
  · exact fun _ => ⟨sibling, rfl, .inl rfl⟩
  · split
    · exact nofun
    split
    · exact fun _ => ⟨sibling, rfl, .inl rfl⟩
    · exact nofun

theorem resolveBeside_keepsSibling (candidate sibling : Parts) :
    KeepsSibling fs sha256 sibling
      (resolveBeside fs sha256 roots candidate sibling logicalAlias aliasRoot) := by
  unfold resolveBeside
  dsimp only
  split
  · split <;> exact nofun
  split
  · exact nofun
  split
  · exact resolveInOverlay_keepsSibling _ _ _
  split
  · exact resolveInHoldir_keepsSibling _ _ _
  · exact nofun

/-- A readable file beside the declaring file is not exchanged for a file of HOLDIR with another
digest or size. -/
theorem resolveEdge_sibling {sibling : Parts} {data : Bytes}
    (hraw : fs.expanduser (RawPath.ofString declared) = some raw)
    (hkind : RelativeLiteral roots raw declared)
    (hsibling : fs.existing (besideCandidate declaringFile raw) = some sibling)
    (hread : fs.readNoFollow sibling = .ok data)
    (h : resolveEdge fs sha256 roots declaringFile declared logicalAlias aliasRoot = some found)
    (hholdir : found.resolution = .holdirSource) :
    ∃ resolved, found.resolved = some resolved ∧ (resolved = sibling ∨
      ∃ data', fs.readNoFollow resolved = .ok data' ∧ sha256 data' = sha256 data ∧
        fs.sizeOf resolved = fs.sizeOf sibling) := by
  rw [resolveEdge_relative hraw hkind, hsibling] at h
  obtain rfl := Option.some.inj h
  obtain ⟨resolved, hresolved, hsame | hsame⟩ := resolveBeside_keepsSibling _ _ hholdir
  · exact ⟨resolved, hresolved, .inl hsame⟩
  · exact ⟨resolved, hresolved, .inr (sameContent_readable hsame hread)⟩

end

/-! ## Containment -/

/-- What holds of the resolution of one literal: its file lies below its root and is a regular file,
a literal that leaves its root is turned away, and the file beside the declaring file stays. -/
structure Contained (fs : FileSystem) (sha256 : Bytes → String) (roots : SourceRoots)
    (declaringFile : Parts) (raw : RawPath) (declared : String) (logicalAlias : Option String)
    (found : EdgeResolution) : Prop where
  placed : found.Placed roots
  reached : found.Reached fs roots declaringFile raw
  turnedAway : Escapes fs roots declaringFile raw declared logicalAlias
    (logicalAlias.bind roots.logicalRoot) → found.resolution.turnedAway = true
  sibling : ∀ sibling data, RelativeLiteral roots raw declared →
    fs.existing (besideCandidate declaringFile raw) = some sibling →
    fs.readNoFollow sibling = .ok data → found.resolution = .holdirSource →
    ∃ resolved, found.resolved = some resolved ∧ (resolved = sibling ∨
      ∃ data', fs.readNoFollow resolved = .ok data' ∧ sha256 data' = sha256 data ∧
        fs.sizeOf resolved = fs.sizeOf sibling)

/-- The roots of a package with one logical root, and a HOLDIR that was elsewhere before. -/
def movedHoldirRoots : SourceRoots where
  root := ["src"]
  holdirRoot := some ["hol"]
  legacyHoldirRoots := [["old"]]
  sourceOverlayRoot := none
  declarations := [⟨"LIB", .managedMirror, .none⟩]
  logicalSourceRoots := [("LIB", ["lib"])]

/-- A file in the logical root and one beside another declaring file, with its namesake in HOLDIR. -/
def movedHoldirFiles : FileSystem :=
  .ofFiles [(["lib", "x.ml"], [1]), (["old", "b.ml"], [2]), (["hol", "b.ml"], [3])]

end Hearth.Closure
