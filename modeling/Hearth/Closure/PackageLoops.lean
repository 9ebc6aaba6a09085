import Hearth.Closure.PackagePublication

/-!
# The loops of a package over one tree

What the loops of both materializations do when the source tree never changes and nothing fails.
A candidate whose path was claimed before, for the same identity, changes nothing
(`copyCandidates_distinct`).  A loop over what is left ends in one of three ways
(`copyCandidates_steady`): a path meets an earlier one (`Meets`), every file is written, or a
candidate is refused.
-/

namespace Hearth.Closure

open Hearth.Library
open Hearth.Library.Parts
open Hearth.Library.Raising

/-! ## One candidate -/

section

variable (fs : FileSystem) (sha256 : Bytes → String)

/-- The file of a candidate whose path is new: what `packageFile` reads and compares. -/
def PackageCandidate.read (candidate : PackageCandidate) : Except PackageError PackagedFile :=
  match candidate.identity.resolvedPath with
  | none => throw (.refused "refused_missing_manifest_path")
  | some resolved => do
      safePackagePath candidate.packagePath
      match candidate.trustedRoot with
      | none => throw (.refused "refused_missing_manifest_path")
      | some root =>
          match fs.readBeneath root resolved with
          | .error _ => throw (.refused "refused_dependency_changed")
          | .ok data =>
              if candidate.identity.sha256 ≠ some (sha256 data) ∨
                  candidate.identity.sizeBytes ≠ some data.length then
                throw (.refused "refused_dependency_changed")
              else pure ⟨candidate.identity.role, candidate.packagePath, resolved, sha256 data, data⟩

/-- The candidate has its path and its root, and its file is as it was captured. -/
def PackageCandidate.Sound (candidate : PackageCandidate) : Prop :=
  ∃ file, candidate.read fs sha256 = .ok file

end

/-- The identity that a file was claimed for. -/
def PackagedFile.identity (file : PackagedFile) : PackageIdentity :=
  ⟨file.role, some file.sha256, some file.contents.length, some file.resolvedPath⟩

section

variable {fs : FileSystem} {sha256 : Bytes → String} {candidate : PackageCandidate}

/-- What is read is the file that the candidate's identity claims. -/
theorem PackageCandidate.read_eq_ok {file : PackagedFile} (h : candidate.read fs sha256 = .ok file) :
    file.packagePath = candidate.packagePath ∧ file.identity = candidate.identity ∧
      candidate.packagePath ≠ [] := by
  unfold PackageCandidate.read at h
  split at h
  · cases h
  · rename_i resolved hresolved
    obtain ⟨_, hsafe, h⟩ := bind_eq_ok.mp h
    have hpath : candidate.packagePath ≠ [] := by
      unfold safePackagePath at hsafe
      split at hsafe
      · cases hsafe
      · rename_i hnot
        exact fun hempty => hnot (.inl hempty)
    split at h
    · cases h
    · split at h
      · cases h
      · split at h
        · cases h
        · rename_i data hdata hsame
          cases h
          rw [not_or, not_not, not_not] at hsame
          refine ⟨rfl, ?_, hpath⟩
          unfold PackagedFile.identity
          rw [← hsame.1, ← hsame.2, ← hresolved]

/-- A candidate that cannot be read is refused, but not for its path being taken. -/
theorem PackageCandidate.read_eq_error {error : PackageError}
    (h : candidate.read fs sha256 = .error error) :
    ∃ status, error = .refused status ∧ status ≠ "refused_package_path_collision" := by
  unfold PackageCandidate.read safePackagePath at h
  split at h
  · cases h
    exact ⟨_, rfl, by decide⟩
  · rcases bind_eq_error.mp h with h | ⟨-, -, h⟩
    · split at h
      · cases h
        exact ⟨_, rfl, by decide⟩
      · cases h
    · repeat' split at h
      all_goals
        cases h
        try exact ⟨_, rfl, by decide⟩

/-- A path that nothing has claimed: the file is read and written. -/
theorem packageFile_new {files : List PackagedFile}
    (h : ∀ file ∈ files, file.packagePath ≠ candidate.packagePath) :
    packageFile fs sha256 files candidate.packagePath candidate.identity candidate.trustedRoot =
      candidate.read fs sha256 >>= writeReadOnly files := by
  have hnone : files.find? (fun file => file.packagePath = candidate.packagePath) = none := by
    rw [List.find?_eq_none]
    intro file hfile
    simpa using h file hfile
  unfold packageFile PackageCandidate.read
  cases hresolved : candidate.identity.resolvedPath with
  | none => rfl
  | some resolved =>
      simp only [hnone]
      cases hsafe : safePackagePath candidate.packagePath with
      | error error => rfl
      | ok =>
          cases hroot : candidate.trustedRoot with
          | none => rfl
          | some root =>
              show (match fs.readBeneath root resolved with
                | .error _ => _
                | .ok data => _) = (match fs.readBeneath root resolved with
                | .error _ => _
                | .ok data => _) >>= _
              split
              · rfl
              · split <;> rfl

/-- A path that was claimed for the same identity: the files stay as they are. -/
theorem packageFile_claimed {files : List PackagedFile} {file : PackagedFile} (hfile : file ∈ files)
    (hpath : file.packagePath = candidate.packagePath)
    (hidentity : ∀ other ∈ files, other.packagePath = candidate.packagePath →
      other.identity = candidate.identity) :
    packageFile fs sha256 files candidate.packagePath candidate.identity candidate.trustedRoot =
      .ok files := by
  have hresolved : candidate.identity.resolvedPath = some file.resolvedPath := by
    rw [← hidentity file hfile hpath]
    rfl
  cases hfind : files.find? fun file => file.packagePath = candidate.packagePath with
  | none =>
      rw [List.find?_eq_none] at hfind
      exact absurd hpath (by simpa using hfind file hfile)
  | some previous =>
      have hprevious : previous.identity = candidate.identity :=
        hidentity previous (List.mem_of_find?_eq_some hfind) (by simpa using List.find?_some hfind)
      unfold packageFile
      simp only [hresolved, hfind]
      exact if_pos hprevious

/-! ## One turn -/

variable {index : ℕ} {state : PackageState} {disk : Disk}

theorem writeReadOnly_conflict {files : List PackagedFile} {file : PackagedFile}
    (h : ¬ ∀ other ∈ files, Apart other.packagePath file.packagePath) :
    writeReadOnly files file = .error .pathConflict := by
  unfold writeReadOnly
  apply if_pos
  by_contra hnone
  apply h
  intro other hother
  constructor
  · intro hone
    exact hnone (List.any_eq_true.mpr ⟨other, hother, by simp [hone]⟩)
  · intro htwo
    exact hnone (List.any_eq_true.mpr ⟨other, hother, by simp [htwo]⟩)

theorem copyCandidate_error {error : PackageError}
    (h : packageFile fs sha256 state.files candidate.packagePath candidate.identity
      candidate.trustedRoot = .error error) :
    (copyCandidate (.steady fs) sha256 index state candidate).on disk =
      (.error (.package error), disk) := by
  apply on_bind_error
  show ((packageFile fs sha256 state.files candidate.packagePath candidate.identity
    candidate.trustedRoot).mapError MaterializeError.package, disk) = _
  rw [h]
  rfl

theorem copyCandidate_claimed
    (h : packageFile fs sha256 state.files candidate.packagePath candidate.identity
      candidate.trustedRoot = .ok state.files) :
    (copyCandidate (.steady fs) sha256 index state candidate).on disk = (.ok state, disk) := by
  have hfiles : (ofPackage (packageFile fs sha256 state.files candidate.packagePath
      candidate.identity candidate.trustedRoot)).on disk = (.ok state.files, disk) := by
    rw [h]
    rfl
  calc
    (copyCandidate (.steady fs) sha256 index state candidate).on disk
      = _ := on_bind_ok hfiles
    _ = (.ok state, disk) := by rw [if_pos rfl, on_pure]

theorem copyCandidate_written {file : PackagedFile}
    (h : packageFile fs sha256 state.files candidate.packagePath candidate.identity
      candidate.trustedRoot = .ok (state.files ++ [file])) :
    (copyCandidate (.steady fs) sha256 index state candidate).on disk =
      (.ok ⟨state.files ++ [file], state.rows ++ [candidate.row]⟩,
        disk.write [(file.packagePath, file.contents)]) := by
  have hfiles : (ofPackage (packageFile fs sha256 state.files candidate.packagePath
      candidate.identity candidate.trustedRoot)).on disk = (.ok (state.files ++ [file]), disk) := by
    rw [h]
    rfl
  have hlonger : (state.files ++ [file]).length ≠ state.files.length := by
    rw [List.length_append, List.length_singleton]
    omega
  calc
    (copyCandidate (.steady fs) sha256 index state candidate).on disk
      = _ := on_bind_ok hfiles
    _ = (.ok ⟨state.files ++ [file], state.rows ++ [candidate.row]⟩,
          disk.write (((state.files ++ [file]).drop state.files.length).map fun file =>
            (file.packagePath, file.contents))) := by
        rw [if_neg hlonger]
        rfl
    _ = _ := by rw [List.drop_left, List.map_singleton]

theorem copyCandidate_unread {error : PackageError}
    (hnew : ∀ file ∈ state.files, file.packagePath ≠ candidate.packagePath)
    (hread : candidate.read fs sha256 = .error error) :
    (copyCandidate (.steady fs) sha256 index state candidate).on disk =
      (.error (.package error), disk) := by
  apply copyCandidate_error
  rw [packageFile_new hnew, hread]
  rfl

theorem copyCandidate_conflict {file : PackagedFile}
    (hnew : ∀ file ∈ state.files, file.packagePath ≠ candidate.packagePath)
    (hread : candidate.read fs sha256 = .ok file)
    (hmeets : ¬ ∀ other ∈ state.files, Apart other.packagePath file.packagePath) :
    (copyCandidate (.steady fs) sha256 index state candidate).on disk =
      (.error (.package .pathConflict), disk) := by
  apply copyCandidate_error
  rw [packageFile_new hnew, hread]
  exact writeReadOnly_conflict hmeets

theorem copyCandidate_new {file : PackagedFile}
    (hnew : ∀ file ∈ state.files, file.packagePath ≠ candidate.packagePath)
    (hread : candidate.read fs sha256 = .ok file)
    (hapart : ∀ other ∈ state.files, Apart other.packagePath file.packagePath) :
    (copyCandidate (.steady fs) sha256 index state candidate).on disk =
      (.ok ⟨state.files ++ [file], state.rows ++ [candidate.row]⟩,
        disk.write [(file.packagePath, file.contents)]) := by
  apply copyCandidate_written
  rw [packageFile_new hnew, hread]
  exact writeReadOnly_eq_ok.mpr ⟨hapart, rfl⟩

theorem copyCandidates_cons {candidates : List PackageCandidate} {state' : PackageState} {disk' : Disk}
    (h : (copyCandidate (.steady fs) sha256 index state candidate).on disk = (.ok state', disk')) :
    (copyCandidates (.steady fs) sha256 index state (candidate :: candidates)).on disk =
      (copyCandidates (.steady fs) sha256 (index + 1) state' candidates).on disk' :=
  on_bind_ok h

theorem copyCandidates_cons_error {candidates : List PackageCandidate} {error : MaterializeError}
    {disk' : Disk}
    (h : (copyCandidate (.steady fs) sha256 index state candidate).on disk = (.error error, disk')) :
    (copyCandidates (.steady fs) sha256 index state (candidate :: candidates)).on disk =
      (.error error, disk') :=
  on_bind_error h

/-! ## The loops -/

/-- Package paths are compared part by part. -/
local instance lawfulBEqPackagePath : LawfulBEq Parts := inferInstance

/-- The candidates whose path is neither among these nor an earlier one's. -/
def distinctCandidates : List Parts → List PackageCandidate → List PackageCandidate
  | _, [] => []
  | seen, candidate :: candidates =>
      if candidate.packagePath ∈ seen then distinctCandidates seen candidates
      else candidate :: distinctCandidates (seen ++ [candidate.packagePath]) candidates

theorem mem_distinctCandidates {seen : List Parts} {candidates : List PackageCandidate}
    (h : candidate ∈ distinctCandidates seen candidates) :
    candidate ∈ candidates ∧ candidate.packagePath ∉ seen := by
  induction candidates generalizing seen with
  | nil => cases h
  | cons first candidates ih =>
      unfold distinctCandidates at h
      split at h
      · obtain ⟨hmem, hnew⟩ := ih h
        exact ⟨List.mem_cons_of_mem _ hmem, hnew⟩
      · rename_i hfirst
        rcases List.mem_cons.mp h with rfl | hrest
        · exact ⟨List.mem_cons_self, hfirst⟩
        · obtain ⟨hmem, hnew⟩ := ih hrest
          exact ⟨List.mem_cons_of_mem _ hmem, fun hseen => hnew (List.mem_append_left _ hseen)⟩

theorem distinctCandidates_pairwise (seen : List Parts) (candidates : List PackageCandidate) :
    (distinctCandidates seen candidates).Pairwise fun one other =>
      one.packagePath ≠ other.packagePath := by
  induction candidates generalizing seen with
  | nil => exact .nil
  | cons first candidates ih =>
      unfold distinctCandidates
      split
      · exact ih seen
      · refine .cons ?_ (ih _)
        intro other hother hsame
        have hnew := (mem_distinctCandidates hother).2
        exact hnew (List.mem_append_right _ (by rw [hsame]; exact List.mem_singleton_self _))

/-- Two candidates of one path are for one identity. -/
def SameIdentity (candidates : List PackageCandidate) : Prop :=
  ∀ one ∈ candidates, ∀ other ∈ candidates, one.packagePath = other.packagePath →
    one.packagePath ≠ [] → one.identity = other.identity

/-- A candidate whose path was claimed before changes nothing. -/
theorem copyCandidates_distinct {candidates : List PackageCandidate} (hsame : SameIdentity candidates)
    (hclaimed : ∀ file ∈ state.files, ∀ candidate ∈ candidates,
      file.packagePath = candidate.packagePath → file.identity = candidate.identity)
    (other : ℕ) :
    (copyCandidates (.steady fs) sha256 index state candidates).on disk =
      (copyCandidates (.steady fs) sha256 other state
        (distinctCandidates (state.files.map PackagedFile.packagePath) candidates)).on disk := by
  induction candidates generalizing index state disk other with
  | nil => rfl
  | cons candidate candidates ih =>
      have hrest : SameIdentity candidates := fun one hone two htwo =>
        hsame one (List.mem_cons_of_mem _ hone) two (List.mem_cons_of_mem _ htwo)
      have hothers : ∀ file ∈ state.files, ∀ candidate ∈ candidates,
          file.packagePath = candidate.packagePath → file.identity = candidate.identity :=
        fun file hfile one hone => hclaimed file hfile one (List.mem_cons_of_mem _ hone)
      unfold distinctCandidates
      by_cases hseen : candidate.packagePath ∈ state.files.map PackagedFile.packagePath
      · rw [if_pos hseen]
        obtain ⟨file, hfile, hpath⟩ := List.mem_map.mp hseen
        have hpackage : packageFile fs sha256 state.files candidate.packagePath candidate.identity
            candidate.trustedRoot = .ok state.files :=
          packageFile_claimed hfile hpath fun other hother =>
            hclaimed other hother candidate List.mem_cons_self
        calc
          (copyCandidates (.steady fs) sha256 index state (candidate :: candidates)).on disk
            = (copyCandidates (.steady fs) sha256 (index + 1) state candidates).on disk :=
              copyCandidates_cons (copyCandidate_claimed hpackage)
          _ = _ := ih hrest hothers other
      · rw [if_neg hseen]
        have hnew : ∀ file ∈ state.files, file.packagePath ≠ candidate.packagePath :=
          fun file hfile hpath => hseen (List.mem_map.mpr ⟨file, hfile, hpath⟩)
        cases hread : candidate.read fs sha256 with
        | error error =>
            exact (copyCandidates_cons_error (copyCandidate_unread hnew hread)).trans
              (copyCandidates_cons_error (copyCandidate_unread hnew hread)).symm
        | ok file =>
            by_cases hapart : ∀ other ∈ state.files, Apart other.packagePath file.packagePath
            · -- The candidate's own file joins the claimed ones.
              obtain ⟨hpath, hidentity, hnonempty⟩ := PackageCandidate.read_eq_ok hread
              have hjoined : ∀ claimed ∈ state.files ++ [file], ∀ later ∈ candidates,
                  claimed.packagePath = later.packagePath → claimed.identity = later.identity := by
                intro claimed hmem later hlater hclaim
                rcases List.mem_append.mp hmem with hearlier | hlast
                · exact hothers claimed hearlier later hlater hclaim
                · obtain rfl := List.mem_singleton.mp hlast
                  rw [hidentity]
                  exact hsame candidate List.mem_cons_self later (List.mem_cons_of_mem _ hlater)
                    (hpath.symm.trans hclaim) hnonempty
              have hseen' : state.files.map PackagedFile.packagePath ++ [candidate.packagePath] =
                  (state.files ++ [file]).map PackagedFile.packagePath := by
                rw [List.map_append, List.map_singleton, hpath]
              calc
                (copyCandidates (.steady fs) sha256 index state (candidate :: candidates)).on disk
                  = (copyCandidates (.steady fs) sha256 (index + 1)
                      ⟨state.files ++ [file], state.rows ++ [candidate.row]⟩ candidates).on
                        (disk.write [(file.packagePath, file.contents)]) :=
                    copyCandidates_cons (copyCandidate_new hnew hread hapart)
                _ = (copyCandidates (.steady fs) sha256 (other + 1)
                      ⟨state.files ++ [file], state.rows ++ [candidate.row]⟩
                      (distinctCandidates ((state.files ++ [file]).map PackagedFile.packagePath)
                        candidates)).on (disk.write [(file.packagePath, file.contents)]) :=
                    ih hrest hjoined (other + 1)
                _ = _ := by
                    rw [hseen']
                    exact (copyCandidates_cons (copyCandidate_new hnew hread hapart)).symm
            · exact (copyCandidates_cons_error (copyCandidate_conflict hnew hread hapart)).trans
                (copyCandidates_cons_error (copyCandidate_conflict hnew hread hapart)).symm

/-! ## Where a loop ends -/

variable (fs sha256)

/-- A candidate is copied up to its write, and there its path meets one of these or an earlier
candidate's: one of the two would have to be a directory. -/
def Meets (base : List Parts) (candidates : List PackageCandidate) : Prop :=
  ∃ before candidate after, candidates = before ++ candidate :: after ∧
    (∀ earlier ∈ before, earlier.Sound fs sha256) ∧ candidate.Sound fs sha256 ∧
    ∃ path ∈ base ++ before.map PackageCandidate.packagePath, ¬ Apart path candidate.packagePath

variable {fs sha256}

theorem not_meets_nil (base : List Parts) : ¬ Meets fs sha256 base [] := by
  rintro ⟨before, candidate, after, hsplit, -⟩
  cases before <;> cases hsplit

theorem meets_cons {base : List Parts} {candidates : List PackageCandidate} :
    Meets fs sha256 base (candidate :: candidates) ↔
      candidate.Sound fs sha256 ∧ ((∃ path ∈ base, ¬ Apart path candidate.packagePath) ∨
        Meets fs sha256 (base ++ [candidate.packagePath]) candidates) := by
  constructor
  · rintro ⟨before, found, after, hsplit, hbefore, hsound, path, hpath, hmeets⟩
    cases before with
    | nil =>
        cases hsplit
        exact ⟨hsound, .inl ⟨path, by simpa using hpath, hmeets⟩⟩
    | cons first before =>
        cases hsplit
        obtain ⟨hfirst, hbefore⟩ := List.forall_mem_cons.mp hbefore
        refine ⟨hfirst, .inr ⟨before, found, after, rfl, hbefore, hsound, path, ?_, hmeets⟩⟩
        rwa [List.append_assoc]
  · rintro ⟨hsound, ⟨path, hpath, hmeets⟩ | ⟨before, found, after, rfl, hbefore, hfound, path, hpath, hmeets⟩⟩
    · exact ⟨[], candidate, candidates, rfl, by simp, hsound, path, by simpa using hpath, hmeets⟩
    · refine ⟨candidate :: before, found, after, rfl, List.forall_mem_cons.mpr ⟨hsound, hbefore⟩, hfound,
        path, ?_, hmeets⟩
      rwa [List.append_assoc] at hpath

/-- More paths to meet. -/
theorem Meets.mono {base larger : List Parts} {candidates : List PackageCandidate}
    (hle : ∀ path ∈ base, path ∈ larger) (h : Meets fs sha256 base candidates) :
    Meets fs sha256 larger candidates := by
  obtain ⟨before, found, after, hsplit, hbefore, hfound, path, hpath, hmeets⟩ := h
  refine ⟨before, found, after, hsplit, hbefore, hfound, path, ?_, hmeets⟩
  rcases List.mem_append.mp hpath with hbase | hearlier
  · exact List.mem_append_left _ (hle path hbase)
  · exact List.mem_append_right _ hearlier

variable (fs sha256) in
/-- The three ends of a loop: a path that is met, a package with the file of every candidate, or the
refusal of a candidate that is not sound. -/
inductive LoopEnd (state : PackageState) (disk : Disk) (candidates : List PackageCandidate)
    (loop : Except MaterializeError PackageState × Disk) : Prop
  | met (hmeets : Meets fs sha256 (state.files.map PackagedFile.packagePath) candidates)
      (hloop : loop.1 = .error (.package .pathConflict))
  | written (hmeets : ¬ Meets fs sha256 (state.files.map PackagedFile.packagePath) candidates)
      (files : List PackagedFile)
      (hfiles : List.Forall₂ (fun candidate file => candidate.read fs sha256 = .ok file) candidates files)
      (hloop : loop = (.ok ⟨state.files ++ files, state.rows ++ candidates.map PackageCandidate.row⟩,
        disk.write (files.map fun file => (file.packagePath, file.contents))))
  | refused (hmeets : ¬ Meets fs sha256 (state.files.map PackagedFile.packagePath) candidates)
      (hunsound : ∃ candidate ∈ candidates, ¬ candidate.Sound fs sha256) (status : String)
      (hloop : loop.1 = .error (.refused status)) (hstatus : status ≠ "refused_package_path_collision")

/-- A loop over candidates with paths of their own has one of the three ends. -/
theorem copyCandidates_steady {candidates : List PackageCandidate}
    (hdistinct : candidates.Pairwise fun one other => one.packagePath ≠ other.packagePath)
    (hnew : ∀ file ∈ state.files, ∀ candidate ∈ candidates,
      file.packagePath ≠ candidate.packagePath) :
    LoopEnd fs sha256 state disk candidates
      ((copyCandidates (.steady fs) sha256 index state candidates).on disk) := by
  induction candidates generalizing index state disk with
  | nil =>
      refine .written (not_meets_nil _) [] .nil ?_
      show (Except.ok state, disk) = _
      simp
  | cons candidate candidates ih =>
      have hfresh : ∀ file ∈ state.files, file.packagePath ≠ candidate.packagePath :=
        fun file hfile => hnew file hfile candidate List.mem_cons_self
      cases hread : candidate.read fs sha256 with
      | error error =>
          -- The candidate is refused before its path is looked at.
          have hunsound : ¬ candidate.Sound fs sha256 := by
            rintro ⟨file, hfile⟩
            rw [hread] at hfile
            cases hfile
          obtain ⟨status, rfl, hstatus⟩ := PackageCandidate.read_eq_error hread
          rw [copyCandidates_cons_error (copyCandidate_unread hfresh hread)]
          exact .refused (fun hmeets => hunsound (meets_cons.mp hmeets).1)
            ⟨candidate, List.mem_cons_self, hunsound⟩ status rfl hstatus
      | ok file =>
          have hsound : candidate.Sound fs sha256 := ⟨file, hread⟩
          have hpath : file.packagePath = candidate.packagePath := (PackageCandidate.read_eq_ok hread).1
          by_cases hapart : ∀ other ∈ state.files, Apart other.packagePath file.packagePath
          · obtain ⟨hfirst, hothers⟩ := List.pairwise_cons.mp hdistinct
            have hnew' : ∀ claimed ∈ state.files ++ [file], ∀ later ∈ candidates,
                claimed.packagePath ≠ later.packagePath := by
              intro claimed hclaimed later hlater
              rcases List.mem_append.mp hclaimed with hearlier | hlast
              · exact hnew claimed hearlier later (List.mem_cons_of_mem _ hlater)
              · obtain rfl := List.mem_singleton.mp hlast
                rw [hpath]
                exact hfirst later hlater
            have hpaths : (state.files ++ [file]).map PackagedFile.packagePath =
                state.files.map PackagedFile.packagePath ++ [candidate.packagePath] := by
              rw [List.map_append, List.map_singleton, hpath]
            have hnone : ¬ ∃ path ∈ state.files.map PackagedFile.packagePath,
                ¬ Apart path candidate.packagePath := by
              rintro ⟨path, hmem, hmeets⟩
              obtain ⟨other, hother, rfl⟩ := List.mem_map.mp hmem
              rw [← hpath] at hmeets
              exact hmeets (hapart other hother)
            have hmeets_iff : Meets fs sha256 (state.files.map PackagedFile.packagePath)
                (candidate :: candidates) ↔
                  Meets fs sha256 ((state.files ++ [file]).map PackagedFile.packagePath) candidates := by
              rw [meets_cons, hpaths]
              constructor
              · rintro ⟨-, hbase | hlater⟩
                · exact absurd hbase hnone
                · exact hlater
              · exact fun hlater => ⟨hsound, .inr hlater⟩
            rw [copyCandidates_cons (copyCandidate_new hfresh hread hapart)]
            rcases @ih (index + 1) ⟨state.files ++ [file], state.rows ++ [candidate.row]⟩
              (disk.write [(file.packagePath, file.contents)]) hothers hnew' with
              ⟨hmeets, hloop⟩ | ⟨hmeets, files, hfiles, hloop⟩ |
                ⟨hmeets, ⟨later, hlater, hunsound⟩, status, hloop, hstatus⟩
            · exact .met (hmeets_iff.mpr hmeets) hloop
            · refine .written (hmeets_iff.not.mpr hmeets) (file :: files) (.cons hread hfiles) ?_
              rw [hloop, Disk.write_write, List.append_assoc, List.append_assoc]
              rfl
            · exact .refused (hmeets_iff.not.mpr hmeets)
                ⟨later, List.mem_cons_of_mem _ hlater, hunsound⟩ status hloop hstatus
          · rw [copyCandidates_cons_error (copyCandidate_conflict hfresh hread hapart)]
            refine .met (meets_cons.mpr ⟨hsound, .inl ?_⟩) rfl
            rw [not_forall] at hapart
            obtain ⟨other, hother⟩ := hapart
            rw [Classical.not_imp, hpath] at hother
            exact ⟨other.packagePath, List.mem_map.mpr ⟨other, hother.1, rfl⟩, hother.2⟩

end

end Hearth.Closure
