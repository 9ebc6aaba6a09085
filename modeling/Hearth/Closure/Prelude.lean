import Hearth.Closure.Transport
import Hearth.Library.Pointwise

/-!
# The load prelude at run time

`source_execution_prelude` composes two tables and a search.  A literal that a wrapped
loader is given goes first through the table of mounted and legacy literals, then through
the table of package-root loads of the current directory, then to the file of this name
below the current directory.  The package is read-only, so its tree is fixed.
-/

namespace Hearth.Closure

open Hearth.Library
open Hearth.Library.Parts

/-! ## The tree of a package -/

/-- The file system at run time: below `root` it has the files of the package and the
directories above them, and nothing else; `root` is a directory. -/
structure PackageTree (root : Parts) (files : List Parts) where
  isFile : Parts → Bool
  isDirectory : Parts → Bool
  file_iff : ∀ path, isFile (root ++ path) = true ↔ path ∈ files
  directory_iff : ∀ path, path ≠ [] →
    (isDirectory (root ++ path) = true ↔ ∃ file ∈ files, Within file path ∧ file ≠ path)
  root_directory : ∀ path, Within root path → isDirectory path = true

namespace PackageTree

variable {root : Parts} {files : List Parts} (tree : PackageTree root files)

/-- `Sys.file_exists` of a path that is normalized. -/
def present (path : Parts) : Bool :=
  tree.isFile path || tree.isDirectory path

/-- Where a path leads from a directory, component by component; `none` where a component
is not there, so that `Sys.file_exists` is false. -/
def follow : Parts → List String → Option Parts
  | current, [] => some current
  | current, part :: rest =>
      if part = ".." then
        if tree.isDirectory current then follow current.dropLast rest else none
      else if tree.present (current ++ [part]) then follow (current ++ [part]) rest
      else none

end PackageTree

/-- A root below which there is the package, and elsewhere only the directories above it. -/
def PackageTree.bare (root : Parts) (files : List Parts) : PackageTree root files where
  isFile path := files.any fun file => root ++ file = path
  isDirectory path := decide (Within root path) ||
    files.any fun file => Within (root ++ file) path && root ++ file ≠ path && Within path root
  file_iff path := by simp
  directory_iff path hpath := by
    have hbelow : ¬ Within root (root ++ path) := by
      intro hsegments
      have hlength := List.IsPrefix.length_le hsegments
      rw [List.length_append] at hlength
      have hpositive : 0 < path.length := List.length_pos_iff.mpr hpath
      omega
    have hwithin : ∀ file : Parts, Within (root ++ file) (root ++ path) ↔ Within file path :=
      fun file => List.prefix_append_right_inj root
    simp only [hbelow, hwithin, decide_false, Bool.false_or, List.any_eq_true, Bool.and_eq_true,
      decide_eq_true_eq, ne_eq, List.append_cancel_left_eq, within_append, and_true]
  root_directory path hpath := by simp [hpath]

/-! ## The tables -/

/-- The tables of the load prelude. -/
structure LoadTables where
  /-- `proof_run_mounted_source_paths`. -/
  mountedSourcePaths : List (String × Parts)
  /-- `proof_run_source_root_paths`. -/
  sourceRootPaths : List ((Parts × String) × Parts)
  deriving DecidableEq, Repr

/-- A row of `mounted_source_package_prelude`.  The `relative_to` check there never fails
for a clean path, and a repeated row changes nothing for `List.assoc`. -/
def mountedRow (packageRoot : Parts) (record : Record) : Except PackageError (Option (String × Parts)) :=
  if record.resolution = .mountedSource ∨ record.resolution = .holdirSource then
    match record.runtimeLiteralPath, record.packagePath with
    | some literal, some packagePath =>
        if literal = "" then pure none
        else do
          safePackagePath packagePath
          pure (some (literal, packageRoot ++ packagePath))
    | _, _ => pure none
  else pure none

/-- The directory of the package that a record's key names. -/
def keyDirectory (closure : SourceClosure) (record : Record) : Parts :=
  parent (if record.declaringFile = ["<entrypoint>"] then closure.entrypoint.packagePath
    else record.declaringFile)

/-- The rows of `root_loads`. -/
def sourceRootRow (packageRoot : Parts) (closure : SourceClosure) (record : Record) :
    Option ((Parts × String) × Parts) :=
  if record.resolution = .sourceLocal ∧ record.packageRootBased then
    record.packagePath.map fun packagePath =>
      ((packageRoot ++ keyDirectory closure record, record.declaredPath), packageRoot ++ packagePath)
  else none

/-- The tables that `source_execution_prelude` composes. -/
def sourceExecutionPrelude (packageRoot : Parts) (closure : SourceClosure) :
    Except PackageError LoadTables := do
  let mounted ← closure.records.mapM (mountedRow packageRoot)
  pure ⟨mounted.filterMap id, closure.records.filterMap (sourceRootRow packageRoot closure)⟩

section

variable {closure : SourceClosure} {packageRoot : Parts} {tables : LoadTables}

/-- A record has a row if it is mounted or legacy, with a literal and a place in the package. -/
theorem mountedRow_eq_some_iff {record : Record} {row : Option (String × Parts)} {literal : String} {packaged : Parts}
    (h : mountedRow packageRoot record = .ok row) :
    row = some (literal, packaged) ↔
      (record.resolution = .mountedSource ∨ record.resolution = .holdirSource) ∧
        record.runtimeLiteralPath = some literal ∧ literal ≠ "" ∧
        record.packagePath.map (packageRoot ++ ·) = some packaged := by
  unfold mountedRow at h
  split at h
  · rename_i hkind
    split at h
    · rename_i own place hliteral hplace
      rw [hliteral, hplace]
      split at h
      · rename_i hempty
        cases h
        simp only [reduceCtorEq, false_iff, not_and]
        rintro - hsame hne
        exact absurd ((Option.some.inj hsame) ▸ hempty) hne
      · rename_i hne
        obtain ⟨-, -, hrow⟩ := bind_eq_ok.mp h
        cases hrow
        simp only [Option.some.injEq, Prod.mk.injEq, Option.map_some, hkind, true_and]
        constructor
        · rintro ⟨rfl, rfl⟩
          exact ⟨rfl, hne, rfl⟩
        · rintro ⟨rfl, -, rfl⟩
          exact ⟨rfl, rfl⟩
    · rename_i hnot
      cases h
      simp only [reduceCtorEq, false_iff, not_and]
      intro _ hliteral _ hplace
      obtain ⟨place, hplace, -⟩ := Option.map_eq_some_iff.mp hplace
      exact hnot _ _ hliteral hplace
  · rename_i hkind
    cases h
    simp [hkind]

/-- The table of literals has the mounted and legacy records and nothing else. -/
theorem mem_mountedSourcePaths (h : sourceExecutionPrelude packageRoot closure = .ok tables)
    {literal : String} {packaged : Parts} :
    (literal, packaged) ∈ tables.mountedSourcePaths ↔
      ∃ record ∈ closure.records,
        (record.resolution = .mountedSource ∨ record.resolution = .holdirSource) ∧
          record.runtimeLiteralPath = some literal ∧ literal ≠ "" ∧
          record.packagePath.map (packageRoot ++ ·) = some packaged := by
  simp only [sourceExecutionPrelude, bind_eq_ok, pure_eq_ok] at h
  obtain ⟨rows, hrows, rfl⟩ := h
  have hforall := mapM_eq_ok.mp hrows
  rw [List.mem_filterMap]
  constructor
  · rintro ⟨row, hmem, hsome⟩
    obtain ⟨record, hrecord, hof⟩ := exists_mem_of_forall₂' hforall hmem
    exact ⟨record, hrecord, (mountedRow_eq_some_iff hof).mp hsome⟩
  · rintro ⟨record, hrecord, hfacts⟩
    obtain ⟨row, hmem, hof⟩ := exists_mem_of_forall₂ hforall hrecord
    exact ⟨row, hmem, (mountedRow_eq_some_iff hof).mpr hfacts⟩

/-- The table of directories has the package-root loads and nothing else. -/
theorem mem_sourceRootPaths (h : sourceExecutionPrelude packageRoot closure = .ok tables)
    {directory : Parts} {literal : String} {packaged : Parts} :
    ((directory, literal), packaged) ∈ tables.sourceRootPaths ↔
      ∃ record ∈ closure.records, record.resolution = .sourceLocal ∧ record.packageRootBased = true ∧
        packageRoot ++ keyDirectory closure record = directory ∧ record.declaredPath = literal ∧
        record.packagePath.map (packageRoot ++ ·) = some packaged := by
  simp only [sourceExecutionPrelude, bind_eq_ok, pure_eq_ok] at h
  obtain ⟨rows, -, rfl⟩ := h
  rw [List.mem_filterMap]
  apply exists_congr
  intro record
  apply and_congr_right
  intro _
  unfold sourceRootRow
  split
  · rename_i hbased
    cases hplace : record.packagePath with
    | none => simp
    | some place =>
        simp only [Option.map_some, Option.some.injEq, Prod.mk.injEq, hbased.1, hbased.2, true_and]
        tauto
  · rename_i hbased
    simp only [reduceCtorEq, false_iff]
    rintro ⟨hlocal, htrue, -⟩
    exact hbased ⟨hlocal, htrue⟩

end

/-! ## Dispatch -/

/-- `proof_run_source_local_path`, below `proof_run_mounted_source_path`: the file that a
wrapped loader is given when the current source directory is `directory`. -/
def selectSource {root : Parts} {files : List Parts} (tree : PackageTree root files)
    (tables : LoadTables) (directory : Parts) (literal : String) : Option Parts :=
  match tables.mountedSourcePaths.lookup literal with
  | some packaged => if tree.present packaged then some packaged else none
  | none =>
      let raw := RawPath.ofString literal
      if raw.isAbsolute then tree.follow [] raw.parts
      else
        match tables.sourceRootPaths.lookup (directory, literal) with
        | some packaged => some packaged
        | none => tree.follow directory raw.parts

end Hearth.Closure
