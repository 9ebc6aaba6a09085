import Hearth.Closure.Materialize

/-!
# What a durable package holds when it is published

The loops are followed through whatever happens around them: `copyCandidate_ok` says what one
turn has written when it returns, `copyCandidates_ok` carries that over a loop, and nothing
before the rename puts anything at the destination (`materializeDependencyPackageUnpublished_keeps`).
A published package is then the entrypoint with the bytes that it was given, and behind it one
file for each further row, with the bytes that the row records.
-/

namespace Hearth.Closure

open Hearth.Library
open Hearth.Library.Parts
open Hearth.Library.Raising

/-! ## One file -/

/-- Neither path is the other, or a directory above it. -/
def Apart (first second : Parts) : Prop :=
  ¬ Within first second ∧ ¬ Within second first

theorem Apart.symm {first second : Parts} (h : Apart first second) : Apart second first :=
  ⟨h.2, h.1⟩

theorem Apart.ne {first second : Parts} (h : Apart first second) : first ≠ second := by
  rintro rfl
  exact h.1 (List.prefix_refl first)

theorem writeReadOnly_eq_ok {files files' : List PackagedFile} {file : PackagedFile} :
    writeReadOnly files file = .ok files' ↔
      (∀ other ∈ files, Apart other.packagePath file.packagePath) ∧ files' = files ++ [file] := by
  unfold writeReadOnly
  split
  · rename_i hany
    constructor
    · intro h
      cases h
    · rintro ⟨hapart, -⟩
      obtain ⟨other, hother, hwithin⟩ := List.any_eq_true.mp hany
      rcases Bool.or_eq_true_iff.mp hwithin with hone | htwo
      · exact absurd (of_decide_eq_true hone) (hapart other hother).1
      · exact absurd (of_decide_eq_true htwo) (hapart other hother).2
  · rename_i hnone
    have hapart : ∀ other ∈ files, Apart other.packagePath file.packagePath := by
      intro other hother
      constructor
      · intro hone
        exact hnone (List.any_eq_true.mpr ⟨other, hother, by simp [hone]⟩)
      · intro htwo
        exact hnone (List.any_eq_true.mpr ⟨other, hother, by simp [htwo]⟩)
    constructor
    · intro h
      cases h
      exact ⟨hapart, rfl⟩
    · rintro ⟨-, rfl⟩
      rfl

/-- A file that is packaged was claimed before, or is read, compared and written. -/
theorem packageFile_eq_ok {fs : FileSystem} {sha256 : Bytes → String} {files files' : List PackagedFile}
    {path : Parts} {identity : PackageIdentity} {trustedRoot : Option Parts}
    (h : packageFile fs sha256 files path identity trustedRoot = .ok files') :
    files' = files ∨
      ∃ file : PackagedFile, file.packagePath = path ∧ identity.sha256 = some (sha256 file.contents) ∧
        identity.sizeBytes = some file.contents.length ∧
        (∀ other ∈ files, Apart other.packagePath path) ∧ files' = files ++ [file] := by
  unfold packageFile at h
  split at h
  · cases h
  · rename_i resolved hresolved
    split at h
    · split at h
      · left
        cases h
        rfl
      · cases h
    · obtain ⟨-, -, h⟩ := bind_eq_ok.mp h
      split at h
      · cases h
      · split at h
        · cases h
        · rename_i data hdata
          split at h
          · cases h
          · rename_i hsame
            right
            rw [not_or, not_not, not_not] at hsame
            obtain ⟨hapart, rfl⟩ := writeReadOnly_eq_ok.mp h
            exact ⟨_, rfl, hsame.1, hsame.2, hapart, rfl⟩

/-! ## The loops -/

@[simp] theorem Disk.write_nil (disk : Disk) : disk.write [] = disk := by
  simp [Disk.write]

theorem Disk.write_write (disk : Disk) (first second : List (Parts × Bytes)) :
    (disk.write first).write second = disk.write (first ++ second) := by
  simp [Disk.write, Function.comp_def]

/-- The row of a candidate is for its path and records its identity. -/
structure PackageCandidate.Consistent (candidate : PackageCandidate) : Prop where
  packagePath : candidate.row.packagePath = candidate.packagePath
  sha256 : candidate.row.sha256 = candidate.identity.sha256
  sizeBytes : candidate.row.sizeBytes = candidate.identity.sizeBytes

theorem candidates_consistent {closure : SourceClosure} {row : Record → ManifestRow}
    (hrow : row = sessionRow ∨ row = durableRow) :
    ∀ candidate ∈ closure.candidates row, candidate.Consistent := by
  intro candidate hmem
  rcases List.mem_append.mp hmem with hrecord | hartifact
  · obtain ⟨record, -, rfl⟩ := List.mem_map.mp hrecord
    rcases hrow with rfl | rfl
    · exact ⟨rfl, rfl, rfl⟩
    · exact ⟨rfl, rfl, rfl⟩
  · obtain ⟨artifact, -, rfl⟩ := List.mem_map.mp hartifact
    exact ⟨rfl, rfl, rfl⟩

/-- The rows describe the files: each the one at its path, with the bytes that it records. -/
def Describe (sha256 : Bytes → String) (rows : List ManifestRow) (tree : List (Parts × Bytes)) : Prop :=
  List.Forall₂ (fun row file => row.packagePath = file.1 ∧ row.Records sha256 file.2) rows tree

section

variable {surroundings : Surroundings} {sha256 : Bytes → String}

theorem ofPackage_on_eq_ok {α : Type} {x : Except PackageError α} {disk disk' : Disk} {a : α}
    (h : (ofPackage x).on disk = (.ok a, disk')) : x = .ok a ∧ disk' = disk := by
  cases x with
  | error error => cases h
  | ok value =>
      cases h
      exact ⟨rfl, rfl⟩

theorem attempt_on_eq_ok {operation : PackageOperation} {disk disk' : Disk} {result : Unit}
    (h : (surroundings.attempt operation).on disk = (.ok result, disk')) : disk' = disk :=
  (check_on_eq_ok.mp h).2.symm

/-- One turn that returns has skipped its candidate, or written one file apart from the others. -/
theorem copyCandidate_ok {index : ℕ} {state state' : PackageState} {candidate : PackageCandidate}
    {disk disk' : Disk} (hcandidate : candidate.Consistent)
    (h : (copyCandidate surroundings sha256 index state candidate).on disk = (.ok state', disk')) :
    ∃ rows tree, state'.rows = state.rows ++ rows ∧ disk' = disk.write tree ∧
      Describe sha256 rows tree ∧
      state'.files.map PackagedFile.packagePath =
        state.files.map PackagedFile.packagePath ++ tree.map Prod.fst ∧
      ((state.files.map PackagedFile.packagePath).Pairwise Apart →
        (state'.files.map PackagedFile.packagePath).Pairwise Apart) := by
  obtain ⟨files, middle, hfiles, hrest⟩ := bind_on_eq_ok.mp h
  obtain ⟨hpackage, rfl⟩ := ofPackage_on_eq_ok hfiles
  split at hrest
  · -- The path was claimed before: nothing is written.
    cases hrest
    exact ⟨[], [], by simp, by simp, .nil, by simp, id⟩
  · rename_i hlength
    obtain ⟨_, _, hattempt, hwrite⟩ := bind_on_eq_ok.mp hrest
    obtain rfl := attempt_on_eq_ok hattempt
    obtain ⟨_, _, hupdate, hpure⟩ := bind_on_eq_ok.mp hwrite
    cases hupdate
    cases hpure
    rcases packageFile_eq_ok hpackage with rfl | ⟨file, hpath, hsha256, hsize, hapart, rfl⟩
    · exact absurd rfl hlength
    · refine ⟨[candidate.row], [(file.packagePath, file.contents)], rfl, ?_, ?_, ?_, ?_⟩
      · simp
      · refine .cons ⟨?_, ?_, ?_⟩ .nil
        · rw [hcandidate.packagePath, hpath]
        · rw [hcandidate.sha256, hsha256]
        · rw [hcandidate.sizeBytes, hsize]
      · simp
      · intro hpairwise
        rw [List.map_append, List.pairwise_append]
        refine ⟨hpairwise, List.pairwise_singleton _ _, ?_⟩
        intro path hmem other hother
        obtain ⟨earlier, hearlier, rfl⟩ := List.mem_map.mp hmem
        obtain rfl := List.mem_singleton.mp hother
        rw [hpath]
        exact hapart earlier hearlier

/-- A loop that returns has written one file for each row that it added. -/
theorem copyCandidates_ok {index : ℕ} {state state' : PackageState} {candidates : List PackageCandidate}
    {disk disk' : Disk} (hcandidates : ∀ candidate ∈ candidates, candidate.Consistent)
    (h : (copyCandidates surroundings sha256 index state candidates).on disk = (.ok state', disk')) :
    ∃ rows tree, state'.rows = state.rows ++ rows ∧ disk' = disk.write tree ∧
      Describe sha256 rows tree ∧
      state'.files.map PackagedFile.packagePath =
        state.files.map PackagedFile.packagePath ++ tree.map Prod.fst ∧
      ((state.files.map PackagedFile.packagePath).Pairwise Apart →
        (state'.files.map PackagedFile.packagePath).Pairwise Apart) := by
  induction candidates generalizing index state disk with
  | nil =>
      cases h
      exact ⟨[], [], by simp, by simp, .nil, by simp, id⟩
  | cons candidate candidates ih =>
      obtain ⟨hfirst, hothers⟩ := List.forall_mem_cons.mp hcandidates
      obtain ⟨middle, disk₁, hturn, hloop⟩ := bind_on_eq_ok.mp h
      obtain ⟨rows, tree, hrows, rfl, hdescribe, hpaths, hpairwise⟩ := copyCandidate_ok hfirst hturn
      obtain ⟨rows', tree', hrows', rfl, hdescribe', hpaths', hpairwise'⟩ := ih hothers hloop
      refine ⟨rows ++ rows', tree ++ tree', ?_, ?_, ?_, ?_, hpairwise' ∘ hpairwise⟩
      · rw [hrows', hrows, List.append_assoc]
      · rw [Disk.write_write]
      · exact List.rel_append hdescribe hdescribe'
      · rw [hpaths', hpaths, List.map_append, List.append_assoc]

/-! ## The destination -/

theorem keeps_write (files : List (Parts × Bytes)) :
    Keeps Disk.published (update (Disk.write files) : Materialization Unit) := fun _ => rfl

theorem keeps_make : Keeps Disk.published (update Disk.make : Materialization Unit) := fun _ => rfl

theorem copyCandidate_keeps (index : ℕ) (state : PackageState) (candidate : PackageCandidate) :
    Keeps Disk.published (copyCandidate surroundings sha256 index state candidate) := by
  refine (keeps_ofExcept _).bind fun files => ?_
  split
  · exact keeps_pure _
  · exact (keeps_check _ _).bind fun _ => (keeps_write _).bind fun _ => keeps_pure _

theorem copyCandidates_keeps (index : ℕ) (state : PackageState) (candidates : List PackageCandidate) :
    Keeps Disk.published (copyCandidates surroundings sha256 index state candidates) := by
  induction candidates generalizing index state with
  | nil => exact keeps_pure _
  | cons candidate candidates ih => exact (copyCandidate_keeps _ _ _).bind fun state => ih _ state

variable {closure : SourceClosure} {profile : ProfileSatisfaction}

/-- Nothing before the rename is written to the destination. -/
theorem materializeDependencyPackageUnpublished_keeps (source : Parts) (output : Option Bytes) :
    Keeps Disk.published
      (materializeDependencyPackageUnpublished surroundings sha256 closure profile source output) := by
  unfold materializeDependencyPackageUnpublished
  split
  · exact keeps_raise _
  · refine (keeps_check _ _).bind fun _ => keeps_make.bind fun _ => ?_
    refine (keeps_ofExcept _).bind fun data => (keeps_ofExcept _).bind fun _ => ?_
    refine (keeps_check _ _).bind fun _ => (keeps_write _).bind fun _ => ?_
    exact (copyCandidates_keeps _ _ _).bind fun state => keeps_pure _

/-- A staged package has the entrypoint with the bytes that it was given, and behind it one file
for each further row. -/
theorem materializeDependencyPackageUnpublished_ok {source : Parts} {output : Option Bytes}
    {disk disk' : Disk} {manifest : PackageManifest}
    (h : (materializeDependencyPackageUnpublished surroundings sha256 closure profile source output).on
      disk = (.ok manifest, disk')) :
    ∃ data rows tree, readEntrypoint sha256 closure (surroundings.tree 0) source = .ok data ∧
      manifest.files = entrypointRow closure.entrypoint output :: rows ∧
      disk'.staging = some ((closure.entrypoint.packagePath, output.getD data) :: tree) ∧
      Describe sha256 rows tree ∧
      (closure.entrypoint.packagePath :: tree.map Prod.fst).Pairwise Apart := by
  unfold materializeDependencyPackageUnpublished at h
  split at h
  · cases h
  · obtain ⟨_, disk₁, hmake, hmade⟩ := bind_on_eq_ok.mp h
    obtain rfl := attempt_on_eq_ok hmake
    rw [on_update_bind] at hmade
    obtain ⟨data, disk₂, hentrypoint, hread⟩ := bind_on_eq_ok.mp hmade
    obtain ⟨hdata, rfl⟩ := ofPackage_on_eq_ok hentrypoint
    obtain ⟨_, disk₃, hsafe, hchecked⟩ := bind_on_eq_ok.mp hread
    obtain ⟨-, rfl⟩ := ofPackage_on_eq_ok hsafe
    obtain ⟨_, disk₄, hattempt, hentry⟩ := bind_on_eq_ok.mp hchecked
    obtain rfl := attempt_on_eq_ok hattempt
    rw [on_update_bind] at hentry
    obtain ⟨state, disk₅, hloop, hpure⟩ := bind_on_eq_ok.mp hentry
    obtain ⟨rows, tree, hrows, rfl, hdescribe, hpaths, hpairwise⟩ :=
      copyCandidates_ok (candidates_consistent (.inr rfl)) hloop
    cases hpure
    refine ⟨data, rows, tree, hdata, hrows, rfl, hdescribe, ?_⟩
    have hapart : (state.files.map PackagedFile.packagePath).Pairwise Apart :=
      hpairwise (List.pairwise_singleton _ _)
    rw [hpaths] at hapart
    exact hapart

theorem readEntrypoint_eq_ok {fs : FileSystem} {source : Parts} {data : Bytes}
    (h : readEntrypoint sha256 closure fs source = .ok data) :
    sha256 data = closure.entrypoint.sha256 ∧ data.length = closure.entrypoint.sizeBytes := by
  unfold readEntrypoint at h
  split at h
  · cases h
  · split at h
    · cases h
    · rename_i hsame
      cases h
      rwa [not_or, not_not, not_not] at hsame

/-- The rename raises and leaves the destination alone, or puts the staged package there. -/
theorem publish_on (manifest : PackageManifest) (disk : Disk) :
    (∃ error, (surroundings.publish manifest).on disk = (.error error, disk)) ∨
      (surroundings.publish manifest).on disk = (.ok manifest, disk.rename) := by
  unfold Surroundings.publish Surroundings.checkDestination Surroundings.attempt
  by_cases happeared : surroundings.destination 2 ≠ .absent
  · left
    rw [check_of happeared]
    exact ⟨_, rfl⟩
  rw [check_of_not happeared]
  by_cases hfails : surroundings.fails .rename = true
  · left
    rw [check_of hfails]
    exact ⟨_, rfl⟩
  rw [check_of_not hfails]
  by_cases hoccupied : surroundings.destination 3 = .occupied
  · left
    rw [check_of hoccupied]
    exact ⟨_, rfl⟩
  · right
    rw [check_of_not hoccupied]
    rfl

end

/-! ## Publication -/

/-- What is at the destination behind the call. -/
inductive Destination
  | others (occupant : Occupant)
  | package (tree : List (Parts × Bytes))
  deriving DecidableEq, Repr

/-- Others keep what they had there, unless the call has put its package in its place. -/
def Surroundings.after (surroundings : Surroundings) (disk : Disk) : Destination :=
  match disk.published with
  | some tree => .package tree
  | none => .others (surroundings.destination 4)

section

variable (surroundings : Surroundings) (sha256 : Bytes → String) (closure : SourceClosure)
  (profile : ProfileSatisfaction) (source : Parts) (output : Option Bytes)

/-- One call of `materialize_dependency_package`. -/
def materializationRun : Except MaterializeError PackageManifest × Disk :=
  (materializeDependencyPackageAt surroundings sha256 closure profile source output).on .start

/-- Every row of a published package is for a path of its own with the bytes that the row
records, and an exception leaves nothing at the destination. -/
def MaterializesAtomically : Prop :=
  let run := materializationRun surroundings sha256 closure profile source output
  (∃ manifest tree, run.1 = .ok manifest ∧ surroundings.after run.2 = .package tree ∧
      Describe sha256 manifest.files tree ∧ (tree.map Prod.fst).Nodup) ∨
    ∃ error, run.1 = .error error ∧ surroundings.after run.2 = .others .absent

/-- The package of a call: the entrypoint with the captured bytes, or with the bytes that are to
be executed in their place, and the file of every further row, with paths apart from each other. -/
def PublishedPackage (manifest : PackageManifest) (tree : List (Parts × Bytes)) : Prop :=
  ∃ data rows rest,
    sha256 data = closure.entrypoint.sha256 ∧ data.length = closure.entrypoint.sizeBytes ∧
      manifest.files = entrypointRow closure.entrypoint output :: rows ∧
      tree = (closure.entrypoint.packagePath, output.getD data) :: rest ∧
      Describe sha256 rows rest ∧ (tree.map Prod.fst).Pairwise Apart

/-- A computation that publishes a package, or raises and publishes nothing. -/
def Publishes (m : Materialization PackageManifest) (disk : Disk) : Prop :=
  (∃ manifest tree disk', m.on disk = (.ok manifest, disk') ∧ disk'.published = some tree ∧
      PublishedPackage sha256 closure output manifest tree) ∨
    ∃ error disk', m.on disk = (.error error, disk') ∧ disk'.published = none

/-- The part behind `try`. -/
theorem publishes_staged {disk : Disk} (hdisk : disk.published = none) :
    Publishes sha256 closure output
      (materializeDependencyPackageUnpublished surroundings sha256 closure profile source output >>=
        surroundings.publish) disk := by
  have hkeeps : Disk.published ((materializeDependencyPackageUnpublished surroundings sha256 closure
      profile source output).on disk).2 = disk.published :=
    materializeDependencyPackageUnpublished_keeps source output disk
  rcases hstaged : (materializeDependencyPackageUnpublished surroundings sha256 closure profile source
    output).on disk with ⟨error | manifest, disk₁⟩
  · right
    rw [hstaged] at hkeeps
    exact ⟨error, disk₁, on_bind_error hstaged, hkeeps.trans hdisk⟩
  · rw [hstaged] at hkeeps
    unfold Publishes
    rw [on_bind_ok hstaged]
    rcases publish_on manifest disk₁ with ⟨error, hraise⟩ | hpublish
    · right
      exact ⟨error, disk₁, hraise, hkeeps.trans hdisk⟩
    · left
      obtain ⟨data, rows, tree, hdata, hrows, hstaging, hdescribe, hapart⟩ :=
        materializeDependencyPackageUnpublished_ok hstaged
      obtain ⟨hsha256, hsize⟩ := readEntrypoint_eq_ok hdata
      exact ⟨manifest, _, _, hpublish, hstaging, data, rows, tree, hsha256, hsize, hrows, rfl, hdescribe,
        hapart⟩

variable {surroundings sha256 closure profile source output}

/-- Removing the staging directory changes nothing at the destination. -/
theorem Publishes.ensuring {m : Materialization PackageManifest} {disk : Disk} (fails : Bool)
    (h : Publishes sha256 closure output m disk) :
    Publishes sha256 closure output (m.ensuring (Disk.clear fails)) disk := by
  rcases h with ⟨manifest, tree, disk', hrun, hpublished, hpackage⟩ | ⟨error, disk', hrun, hnone⟩
  · exact .inl ⟨manifest, tree, disk'.clear fails, by rw [on_ensuring, hrun], hpublished, hpackage⟩
  · exact .inr ⟨error, disk'.clear fails, by rw [on_ensuring, hrun], hnone⟩

/-- A check in front of it raises, or leaves everything as it is. -/
theorem Publishes.behind_check {m : Materialization PackageManifest} {disk : Disk} (p : Prop)
    [Decidable p] (error : MaterializeError) (hdisk : disk.published = none)
    (h : Publishes sha256 closure output m disk) :
    Publishes sha256 closure output (check p error >>= fun _ => m) disk := by
  rcases check_bind_on p error (fun _ => m) disk with hraise | hpass
  · exact .inr ⟨error, disk, hraise, hdisk⟩
  · unfold Publishes
    rw [hpass]
    exact h

variable (surroundings sha256 closure profile source output)

/-- One call publishes the whole package, or raises and leaves the destination to the others. -/
theorem materializeDependencyPackage_atomic :
    let run := materializationRun surroundings sha256 closure profile source output
    (∃ manifest tree, run.1 = .ok manifest ∧ surroundings.after run.2 = .package tree ∧
        PublishedPackage sha256 closure output manifest tree) ∨
      ∃ error, run.1 = .error error ∧ surroundings.after run.2 = .others (surroundings.destination 4) := by
  intro run
  have hpublishes : Publishes sha256 closure output
      (materializeDependencyPackageAt surroundings sha256 closure profile source output) .start := by
    -- The five checks stand in front of `try`, outermost first.
    have hstart : Disk.start.published = none := rfl
    have htry := (publishes_staged surroundings sha256 closure profile source output hstart).ensuring
      (surroundings.fails .removeStaging)
    have hstaging := htry.behind_check (surroundings.fails .makeStaging = true) .operationFailed rfl
    have hsecond := hstaging.behind_check (surroundings.destination 1 ≠ .absent) .destinationExists rfl
    have hparent := hsecond.behind_check (surroundings.fails .makeParent = true) .operationFailed rfl
    have hfirst := hparent.behind_check (surroundings.destination 0 ≠ .absent) .destinationExists rfl
    exact hfirst.behind_check (surroundings.fails .expandDestination = true) .operationFailed rfl
  unfold Surroundings.after
  rcases hpublishes with ⟨manifest, tree, disk, hrun, hpublished, hpackage⟩ | ⟨error, disk, hrun, hnone⟩
  · left
    have hdisk : run = (.ok manifest, disk) := hrun
    rw [hdisk]
    exact ⟨manifest, tree, rfl, by simp only [hpublished], hpackage⟩
  · right
    have hdisk : run = (.error error, disk) := hrun
    rw [hdisk]
    exact ⟨error, rfl, by simp only [hnone]⟩

end

/-- The digests of the example below are the bytes themselves, as text. -/
def spelledBytes (bytes : Bytes) : String :=
  String.ofList (bytes.map fun byte => Char.ofNat byte.toNat)

/-- A closure of an entrypoint alone. -/
def entrypointClosure : SourceClosure where
  roots :=
    { root := ["src"]
      holdirRoot := none
      legacyHoldirRoots := []
      sourceOverlayRoot := none
      declarations := []
      logicalSourceRoots := [] }
  projectRoot := ["src"]
  entrypoint := ⟨["src", "main.ml"], ["main.ml"], "A", 1⟩
  records := []
  dynamicLoaders := []
  artifacts := []
  dynamicArtifacts := []
  limitReasons := []

/-- A package whose entrypoint was given other bytes publishes those, and records the digest of the
captured ones. -/
theorem materializeDependencyPackage_instrumented :
    ¬ MaterializesAtomically (.steady (.ofFiles [(["src", "main.ml"], [65])])) spelledBytes
      entrypointClosure ⟨.none, []⟩ ["src", "main.ml"] (some [66]) := by
  have hrun : materializationRun (.steady (.ofFiles [(["src", "main.ml"], [65])])) spelledBytes
      entrypointClosure ⟨.none, []⟩ ["src", "main.ml"] (some [66]) =
        (.ok ⟨.packaged, [], ["main.ml"], none, [entrypointRow entrypointClosure.entrypoint (some [66])]⟩,
          ⟨none, some [(["main.ml"], [66])]⟩) := by
    rfl
  unfold MaterializesAtomically
  rw [hrun]
  rintro (⟨manifest, tree, hmanifest, htree, hdescribe, -⟩ | ⟨error, herror, -⟩)
  · cases hmanifest
    cases htree
    obtain ⟨-, hsha256, -⟩ := (List.forall₂_cons.mp hdescribe).1
    exact absurd hsha256 (by decide)
  · cases herror

end Hearth.Closure
