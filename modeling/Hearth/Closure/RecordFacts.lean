import Hearth.Closure.Traversal
import Hearth.Closure.Transport
import Hearth.Library.Association

/-!
# What the records of a closure have in common

Every record of a returned closure is the record of a literal load of an opened file.
From this follow, once for all later modules, where a record's file goes in the package
and under which literal it is loaded; and from a packaged transport status, what the
records of the closure say about each other.
-/

namespace Hearth.Closure

open Hearth.Library
open Hearth.Library.Parts

namespace Capture

variable {capture : Capture}

/-- The record of a literal load of the file that this call opens. -/
def RecordedBy (capture : Capture) (visit : Visit) (record : Record) : Prop :=
  ∃ edge found, capture.resolve visit edge = some found ∧
    record.flagged .notFollowed = capture.foundRecord visit edge found ∧
    (record.flagged .notFollowed).MadeFor capture visit edge found

theorem Loads.recordedBy {visit : Visit} {records : List Record} (h : capture.Loads visit records)
    {record : Record} (hrecord : record ∈ records) : capture.RecordedBy visit record := by
  unfold Loads at h
  split at h
  · rw [h] at hrecord
    cases hrecord
  · obtain ⟨edge, -, hof⟩ := exists_mem_of_forall₂' h hrecord
    obtain ⟨found, hfound, hmade⟩ := hof.found
    exact ⟨edge, found, hfound, hmade⟩

/-- Every record of a closure is the record of a load of an opened file. -/
theorem CapturedAs.recordedBy {closure : SourceClosure} {walk : Walk} {forest : Forest Visit Record}
    (h : capture.CapturedAs closure walk forest) {record : Record} (hrecord : record ∈ closure.records) :
    ∃ row ∈ capture.opened forest, record ∈ row.2 ∧ capture.RecordedBy row.1 record := by
  rw [h.records] at hrecord
  obtain ⟨row, hrow, hmem⟩ := Searched.mem_preorder.mp hrecord
  have hloads : capture.Loads row.1 row.2 := h.searched.loads_of_mem hrow
  exact ⟨row, hrow, hmem, hloads.recordedBy hmem⟩

/-- Where nothing was unreadable, the file of every admitted record is packaged. -/
theorem CapturedAs.packaged {closure : SourceClosure} {walk : Walk} {forest : Forest Visit Record}
    (h : capture.CapturedAs closure walk forest) (hlimits : closure.limitReasons = []) {record : Record}
    (hrecord : record ∈ closure.records) (hadmitted : record.resolution.admitted = true) :
    record.packaged = true := by
  rw [h.records] at hrecord
  have hreadable : record.traversal ≠ .unreadable :=
    (h.explored.limits (h.built.limitReasons ▸ hlimits)).2.2 record hrecord
  have hfollowed : record.traversal ≠ .notFollowed := by
    intro hskipped
    obtain ⟨target, htarget⟩ := admitted_followable h.searched hrecord hadmitted
    obtain ⟨seen, hwalk⟩ := h.searched.walk
    have hnone := hwalk.target_eq_none hrecord (congrArg Traversal.mark hskipped)
    rw [show capture.search.target record = record.followable from rfl, htarget] at hnone
    cases hnone
  unfold Record.packaged
  simp [hadmitted, hreadable, hfollowed]

/-! ## Absolute literals -/

theorem expanduser_absolute (fs : FileSystem) {raw : RawPath} (h : raw.isAbsolute = true) :
    fs.expanduser raw = some raw := by
  unfold FileSystem.expanduser
  split
  · rename_i hrelative _
    simp [RawPath.isAbsolute, hrelative] at h
  · rfl

/-- What an absolute literal resolves to does not depend on where it stands. -/
theorem resolve_absolute {visit : Visit} {edge : LoadEdge} {found : EdgeResolution}
    (habsolute : (RawPath.ofString edge.declaredPath).isAbsolute = true)
    (h : capture.resolve visit edge = some found) :
    found = resolveAbsolute capture.fs capture.roots (RawPath.ofString edge.declaredPath) := by
  unfold resolve resolveEdge at h
  rw [expanduser_absolute _ habsolute, Option.map_some] at h
  unfold classifyLogicalLiteral at h
  rw [if_pos habsolute] at h
  exact (Option.some.inj h).symm

theorem resolveAbsolute_resolution (raw : RawPath) :
    (resolveAbsolute capture.fs capture.roots raw).resolution = .holdirSource ∨
      (resolveAbsolute capture.fs capture.roots raw).resolution.admitted = false := by
  unfold resolveAbsolute
  split
  · exact .inl rfl
  · split <;> exact .inr rfl

/-- An absolute literal of an admitted record is a legacy HOLDIR coordinate. -/
theorem RecordedBy.holdir_of_absolute {visit : Visit} {record : Record}
    (h : capture.RecordedBy visit record) (hadmitted : record.resolution.admitted = true)
    (habsolute : (RawPath.ofString record.declaredPath).isAbsolute = true) :
    record.resolution = .holdirSource := by
  obtain ⟨edge, found, hfound, -, hmade⟩ := h
  have hdeclared : record.declaredPath = edge.declaredPath := hmade.declaredPath
  have hresolution : record.resolution = found.resolution := hmade.resolution
  rw [hdeclared] at habsolute
  rw [hresolution] at hadmitted ⊢
  rw [resolve_absolute habsolute hfound] at hadmitted ⊢
  rcases resolveAbsolute_resolution (RawPath.ofString edge.declaredPath) with hkind | hkind
  · exact hkind
  · rw [hadmitted] at hkind
    cases hkind

/-! ## Places in the package -/

theorem foundRecord_of_resolved {visit : Visit} {edge : LoadEdge} {found : EdgeResolution}
    {resolved : Parts} (h : found.resolved = some resolved) :
    capture.foundRecord visit edge found =
      (capture.placedRecord visit edge found resolved).digested capture.sha256
        (capture.recordBytes edge found resolved) := by
  unfold foundRecord
  rw [h]

/-- A mounted record is loaded under its literal, which is relative. -/
theorem RecordedBy.mounted {visit : Visit} {record : Record} (h : capture.RecordedBy visit record)
    (hmounted : record.resolution = .mountedSource) :
    record.runtimeLiteralPath = some record.declaredPath ∧ (∃ place, record.packagePath = some place) ∧
      (RawPath.ofString record.declaredPath).isAbsolute = false := by
  have hrelative : (RawPath.ofString record.declaredPath).isAbsolute = false := by
    rw [Bool.eq_false_iff]
    intro habsolute
    have hholdir := h.holdir_of_absolute (by rw [hmounted]; rfl) habsolute
    rw [hmounted] at hholdir
    cases hholdir
  obtain ⟨edge, found, hfound, hrecord, hmade⟩ := h
  have hkind : found.resolution = .mountedSource := hmade.resolution.symm.trans hmounted
  have hadmitted : found.resolution.admitted = true := by rw [hkind]; rfl
  obtain ⟨resolved, hresolved⟩ := (resolveEdge_placed hfound).resolved_isSome hadmitted
  rw [foundRecord_of_resolved hresolved] at hrecord
  have hliteral := congrArg Record.runtimeLiteralPath hrecord
  have hplace := congrArg Record.packagePath hrecord
  simp only [Record.digested_runtimeLiteralPath, Record.digested_packagePath, placedRecord, hkind]
    at hliteral hplace
  refine ⟨?_, ⟨_, hplace⟩, hrelative⟩
  rw [show record.declaredPath = edge.declaredPath from hmade.declaredPath]
  exact hliteral

/-- A legacy record is loaded under its literal. -/
theorem RecordedBy.legacy {visit : Visit} {record : Record} (h : capture.RecordedBy visit record)
    (hholdir : record.resolution = .holdirSource)
    (habsolute : (RawPath.ofString record.declaredPath).isAbsolute = true) :
    record.runtimeLiteralPath = some record.declaredPath ∧
      ∃ resolved, (resolveAbsolute capture.fs capture.roots (RawPath.ofString record.declaredPath)).resolved =
          some resolved ∧
        record.packagePath =
          some ("__holdir__" :: relativeTo resolved (capture.roots.holdirRoot.getD [])) := by
  obtain ⟨edge, found, hfound, hrecord, hmade⟩ := h
  have hdeclared : record.declaredPath = edge.declaredPath := hmade.declaredPath
  have hkind : found.resolution = .holdirSource := hmade.resolution.symm.trans hholdir
  have hadmitted : found.resolution.admitted = true := by rw [hkind]; rfl
  obtain ⟨resolved, hresolved⟩ := (resolveEdge_placed hfound).resolved_isSome hadmitted
  rw [foundRecord_of_resolved hresolved] at hrecord
  have hliteral := congrArg Record.runtimeLiteralPath hrecord
  have hplace := congrArg Record.packagePath hrecord
  rw [hdeclared] at habsolute ⊢
  simp only [Record.digested_runtimeLiteralPath, Record.digested_packagePath, placedRecord, hkind,
    habsolute, if_true] at hliteral hplace
  refine ⟨hliteral, resolved, ?_, hplace⟩
  rw [← resolve_absolute habsolute hfound]
  exact hresolved

/-- A HOLDIR or overlay record of a relative literal goes beside the package source of its
file, and is loaded by its place. -/
theorem RecordedBy.beside {visit : Visit} {record : Record} (h : capture.RecordedBy visit record)
    (hshared : record.resolution = .holdirSource ∨ record.resolution = .sourceOverlay)
    (hrelative : (RawPath.ofString record.declaredPath).isAbsolute = false) :
    record.runtimeLiteralPath = none ∧
      record.packagePath =
        some (normpath (parent visit.packageSource ++ (RawPath.ofString record.declaredPath).parts)) := by
  obtain ⟨edge, found, hfound, hrecord, hmade⟩ := h
  have hdeclared : record.declaredPath = edge.declaredPath := hmade.declaredPath
  have hkind : found.resolution = .holdirSource ∨ found.resolution = .sourceOverlay := by
    rw [← show record.resolution = found.resolution from hmade.resolution]
    exact hshared
  have hadmitted : found.resolution.admitted = true := by rcases hkind with h | h <;> rw [h] <;> rfl
  obtain ⟨resolved, hresolved⟩ := (resolveEdge_placed hfound).resolved_isSome hadmitted
  rw [foundRecord_of_resolved hresolved] at hrecord
  have hliteral := congrArg Record.runtimeLiteralPath hrecord
  have hplace := congrArg Record.packagePath hrecord
  rw [hdeclared] at hrelative ⊢
  rcases hkind with hkind | hkind <;>
    simp only [Record.digested_runtimeLiteralPath, Record.digested_packagePath, placedRecord, hkind,
      hrelative, Bool.false_eq_true, if_false, besidePackageSource] at hliteral hplace
  · exact ⟨hliteral, hplace⟩
  · exact ⟨hliteral, hplace⟩

/-- A local record goes where its file lies below the source root, and is loaded by its
place; a package-root load goes where its literal says. -/
theorem RecordedBy.local {visit : Visit} {record : Record} (h : capture.RecordedBy visit record)
    (hlocal : record.resolution = .sourceLocal) :
    record.runtimeLiteralPath = none ∧
      (∃ resolved, record.resolvedPath = some resolved ∧ Within resolved capture.roots.root ∧
        record.packagePath = some (relativeTo resolved capture.roots.root)) ∧
      (record.packageRootBased = true →
        record.packagePath = some (RawPath.ofString record.declaredPath).parts) := by
  obtain ⟨edge, found, hfound, hrecord, hmade⟩ := h
  have hdeclared : record.declaredPath = edge.declaredPath := hmade.declaredPath
  have hkind : found.resolution = .sourceLocal := hmade.resolution.symm.trans hlocal
  have hplaced := resolveEdge_placed hfound
  unfold EdgeResolution.Placed at hplaced
  rw [hkind] at hplaced
  obtain ⟨resolved, hresolved, hwithin⟩ := hplaced
  rw [foundRecord_of_resolved hresolved] at hrecord
  have hliteral := congrArg Record.runtimeLiteralPath hrecord
  have hplace := congrArg Record.packagePath hrecord
  have hbased := congrArg Record.packageRootBased hrecord
  simp only [Record.digested_runtimeLiteralPath, Record.digested_packagePath,
    Record.digested_packageRootBased, placedRecord, hkind] at hliteral hplace hbased
  refine ⟨hliteral, ⟨resolved, hmade.resolvedPath.trans hresolved, hwithin, hplace⟩, ?_⟩
  intro htrue
  have hall := hbased.symm.trans htrue
  simp only [Bool.and_eq_true, decide_eq_true_eq] at hall
  have hplace' : record.packagePath = some (relativeTo resolved capture.roots.root) := hplace
  rw [hplace', hdeclared, ← hall.2, relativeTo_append]

end Capture

/-! ## Packaged closures -/

/-- What a packaged transport status says of the closure as a whole. -/
structure SourceClosure.Packaged (closure : SourceClosure) (decision : ProfileDecision) : Prop where
  unblocked : closure.projectInputsBlocked = false
  dynamicLoaders : closure.dynamicLoaders = []
  dynamicArtifacts : closure.dynamicArtifacts = []
  limitReasons : closure.limitReasons = []
  decided : decision.declaredEdges = 0 ∨
    (decision.satisfied ∪ decision.runtime).length = decision.declaredEdges
  checked : ∃ fallback,
    checkRecords closure.roots.holdirRoot.isSome decision 0 [] closure.records = .ok fallback

theorem SourceClosure.packaged_of_status {closure : SourceClosure} {decision : ProfileDecision}
    (h : (closure.dependencyTransportStatus decision).isPackaged = true) :
    closure.Packaged decision := by
  unfold SourceClosure.dependencyTransportStatus at h
  split at h
  · cases h
  rename_i hunblocked
  split at h
  · cases h
  rename_i hdynamic
  split at h
  · cases h
  rename_i hartifacts
  split at h
  · cases h
  rename_i hlimits
  split at h
  · cases h
  split at h
  · cases h
  rename_i hdecided
  split at h
  · cases h
  refine ⟨by simpa using hunblocked, hdynamic, by simpa using hartifacts, by simpa using hlimits, ?_, ?_⟩
  · by_contra hnot
    rw [not_or] at hnot
    exact hdecided hnot
  · split at h
    · cases h
    · rename_i hchecked
      exact ⟨_, hchecked⟩
    · rename_i hchecked
      exact ⟨_, hchecked⟩

namespace SourceClosure.Packaged

variable {closure : SourceClosure} {decision : ProfileDecision}

/-- Two claims of one path are for one identity. -/
theorem claim_identity (h : closure.Packaged decision) {path : Parts} {first second : PackageIdentity}
    (hfirst : (path, first) ∈ closure.packageClaims) (hsecond : (path, second) ∈ closure.packageClaims) :
    first = second := by
  have hnone : closure.packageCollision = false := by
    have hblocked := h.unblocked
    unfold SourceClosure.projectInputsBlocked at hblocked
    simp only [Bool.or_eq_false_iff] at hblocked
    exact hblocked.1.1
  unfold SourceClosure.packageCollision at hnone
  rw [List.any_eq_false] at hnone
  have hsame : ∀ identity, (path, identity) ∈ closure.packageClaims →
      ((closure.packageClaims.find? fun claim => claim.1 = path).map Prod.snd) = some identity := by
    intro identity hmem
    have hfound := hnone _ hmem
    cases hfind : closure.packageClaims.find? fun claim => claim.1 = path with
    | none =>
        rw [List.find?_eq_none] at hfind
        exact absurd (by simp) (hfind _ hmem)
    | some claim =>
        simp only [hfind, Option.any_some] at hfound
        simpa using hfound
  exact Option.some.inj ((hsame first hfirst).symm.trans (hsame second hsecond))

/-- The claim of a packaged record. -/
theorem mem_claims {record : Record} (hrecord : record ∈ closure.records)
    (hpackaged : record.packaged = true) {place : Parts} (hplace : record.packagePath = some place) :
    (place, record.identity) ∈ closure.packageClaims := by
  unfold SourceClosure.packageClaims
  apply List.mem_append_left
  apply List.mem_cons_of_mem
  rw [List.mem_filterMap]
  exact ⟨record, List.mem_filter.mpr ⟨hrecord, hpackaged⟩, by rw [hplace]; rfl⟩

end SourceClosure.Packaged

end Hearth.Closure
