import Hearth.Closure.PackageLoops

/-!
# The session package against the durable package

With one tree that never changes both materializations go through the same loop, but the durable
one has the entrypoint's file in its package from the start, and the session one looks for
something at the entrypoint's place when it is done.  The loops go over the distinct candidates
(`sessionLoop_eq`, `durableLoop_eq`), since the projection of the project inputs has refused two
identities for one path before either begins.

The two packages and the projection agree, except where a file of the package meets another
one's path on its way (`PathsMeet`).
-/

namespace Hearth.Closure

open Hearth.Library
open Hearth.Library.Parts
open Hearth.Library.Raising

/-! ## Refusals of the status -/

/-- The status of a refused record is not the status of a package path that is taken. -/
theorem checkRecords_status {coldHoldir : Bool} {decision : ProfileDecision} {index : ℕ}
    {paths : List (String × Parts)} {records : List Record} {status reason : String}
    (h : checkRecords coldHoldir decision index paths records = .error (status, reason)) :
    status ≠ "refused_package_path_collision" := by
  induction records generalizing index paths with
  | nil => cases h
  | cons record records ih =>
      simp only [checkRecords, bind_eq_error] at h
      rcases h with hloader | ⟨-, -, hclaim | ⟨paths', -, hown | ⟨fallback, -, hrest | ⟨rest, -, hpure⟩⟩⟩⟩
      · unfold checkRecordLoader at hloader
        repeat' split at hloader
        all_goals
          cases hloader
          try decide
      · unfold claimRuntimePath at hclaim
        repeat' split at hclaim
        all_goals
          cases hclaim
          try decide
      · unfold checkRecord at hown
        dsimp only at hown
        repeat' split at hown
        all_goals
          cases hown
          try decide
      · exact ih hrest
      · cases hpure

namespace SourceClosure

variable {closure : SourceClosure} {decision : ProfileDecision}

theorem dependencyTransportStatus_ne {status reason : String}
    (h : closure.dependencyTransportStatus decision = .refused status reason) :
    status ≠ "refused_package_path_collision" := by
  unfold dependencyTransportStatus at h
  split at h
  · split at h <;> cases h <;> decide
  split at h
  · cases h
    decide
  repeat' split at h
  all_goals
    cases h
    try decide
  rename_i hchecked
  exact checkRecords_status hchecked

/-- A package path that two files claim is refused by the status. -/
theorem dependencyTransportStatus_collision (h : closure.packageCollision = true) :
    ∃ reason, closure.dependencyTransportStatus decision = .refused "project_input_collision" reason := by
  unfold dependencyTransportStatus projectInputsBlocked
  simp [h]

end SourceClosure

/-! ## The two packages -/

section

variable (fs : FileSystem) (sha256 : Bytes → String) (closure : SourceClosure)
  (profile : ProfileSatisfaction) (source : Parts) (output : Option Bytes)

/-- A session package, for the projection of the same closure. -/
def sessionPackaging : Except MaterializeError SessionManifest × Disk :=
  match sessionDependencyProjection closure profile with
  | .error error => (.error (.package error), .start)
  | .ok projection =>
      (materializeSessionDependencyPackage (.steady fs) sha256 closure profile projection).on .start

/-- A durable package. -/
def durablePackaging : Except MaterializeError PackageManifest × Disk :=
  materializationRun (.steady fs) sha256 closure profile source output

variable {fs sha256 closure profile}

/-- The projection of a packaged closure. -/
theorem sessionDependencyProjection_packaged
    (h : (closure.dependencyTransportStatus profile.decision).isPackaged = true) :
    ∃ projection, sessionDependencyProjection closure profile = .ok projection ∧
      projection.entrypointPackagePath = closure.entrypoint.packagePath := by
  unfold sessionDependencyProjection
  split
  · rename_i hrefused
    rw [hrefused] at h
    cases h
  · exact ⟨_, rfl, rfl⟩

variable (closure) in
/-- What follows the loop of a session package. -/
def sealSession (state : PackageState) : Materialization SessionManifest := do
  ofPackage (safePackagePath closure.entrypoint.packagePath)
  check (occupied state.files closure.entrypoint.packagePath = true)
    (.refused "refused_package_path_collision")
  pure ⟨closure.entrypoint.packagePath, state.rows⟩

/-- With one unchanging tree a session package is its loop and what follows. -/
theorem sessionPackaging_eq
    (h : (closure.dependencyTransportStatus profile.decision).isPackaged = true) :
    sessionPackaging fs sha256 closure profile =
      (ensuring ((copyCandidates (.steady fs) sha256 1 ⟨[], []⟩ (closure.candidates sessionRow) >>=
        sealSession closure) >>= (Surroundings.steady fs).publish) (Disk.clear false)).on
          ⟨some [], none⟩ := by
  obtain ⟨projection, hprojection, hentrypoint⟩ := sessionDependencyProjection_packaged h
  have hcurrent : (ofPackage (sessionDependencyProjection closure profile)).on .start =
      (.ok projection, .start) := by
    rw [hprojection]
    rfl
  have hstaged : (materializeSessionDependencyPackageUnpublished (.steady fs) sha256 closure profile
      projection).on .start =
        (copyCandidates (.steady fs) sha256 1 ⟨[], []⟩ (closure.candidates sessionRow) >>=
          sealSession closure).on ⟨some [], none⟩ := by
    refine (on_bind_ok hcurrent).trans ?_
    rw [check_of_not (by simp), hentrypoint]
    rfl
  have hpublished := bind_on_congr hstaged (Surroundings.steady fs).publish
  unfold sessionPackaging
  rw [hprojection, on_ensuring, ← hpublished]
  rfl

variable (closure profile) in
/-- The manifest of a durable package, for what its loop has written. -/
def durableManifest (state : PackageState) : PackageManifest where
  transportStatus := closure.dependencyTransportStatus profile.decision
  logicalSourceRoots := closure.roots.declarations
  entrypoint := closure.entrypoint.packagePath
  runtimeCwd := runtimeCwd closure state.files
  files := state.rows

variable (closure profile) in
/-- What follows the loop of a durable package. -/
def sealDurable (state : PackageState) : Materialization PackageManifest :=
  pure (durableManifest closure profile state)

/-- The durable package has the same loop, behind the entrypoint's file. -/
theorem materializeUnpublished_packaged {surroundings : Surroundings} {disk : Disk}
    (h : (closure.dependencyTransportStatus profile.decision).isPackaged = true) :
    (materializeDependencyPackageUnpublished surroundings sha256 closure profile source output).on disk =
      (do
        surroundings.attempt .makePackage
        update Disk.make
        let data ← ofPackage (readEntrypoint sha256 closure (surroundings.tree 0) source)
        ofPackage (safePackagePath closure.entrypoint.packagePath)
        surroundings.attempt .writeEntrypoint
        update (Disk.write [(closure.entrypoint.packagePath, output.getD data)])
        let state ← copyCandidates surroundings sha256 1
          ⟨[⟨.entrypoint, closure.entrypoint.packagePath, source, sha256 data, data⟩],
            [entrypointRow closure.entrypoint output]⟩
          (closure.candidates durableRow)
        sealDurable closure profile state : Materialization PackageManifest).on disk := by
  unfold materializeDependencyPackageUnpublished
  split
  · rename_i hrefused
    rw [hrefused] at h
    cases h
  · rfl

variable {source output} {data : Bytes}

theorem durablePackaging_unsafe {error : PackageError}
    (h : (closure.dependencyTransportStatus profile.decision).isPackaged = true)
    (hdata : readEntrypoint sha256 closure fs source = .ok data)
    (hsafe : safePackagePath closure.entrypoint.packagePath = .error error) :
    (durablePackaging fs sha256 closure profile source output).1 = .error (.package error) := by
  have hread : (ofPackage (readEntrypoint sha256 closure fs source)).on ⟨some [], none⟩ =
      (.ok data, ⟨some [], none⟩) := by
    rw [hdata]
    rfl
  have hcheck : (ofPackage (safePackagePath closure.entrypoint.packagePath)).on ⟨some [], none⟩ =
      (.error (.package error), ⟨some [], none⟩) := by
    rw [hsafe]
    rfl
  have hstaged : (materializeDependencyPackageUnpublished (.steady fs) sha256 closure profile source
      output).on .start = (.error (.package error), ⟨some [], none⟩) := by
    rw [materializeUnpublished_packaged source output h]
    exact (on_bind_ok hread).trans (on_bind_error hcheck)
  show ((materializeDependencyPackageUnpublished (.steady fs) sha256 closure profile source output >>=
    (Surroundings.steady fs).publish).on .start).1 = _
  rw [on_bind_error hstaged]

theorem durablePackaging_eq
    (h : (closure.dependencyTransportStatus profile.decision).isPackaged = true)
    (hdata : readEntrypoint sha256 closure fs source = .ok data)
    (hsafe : safePackagePath closure.entrypoint.packagePath = .ok ()) :
    durablePackaging fs sha256 closure profile source output =
      (ensuring ((copyCandidates (.steady fs) sha256 1
        ⟨[⟨.entrypoint, closure.entrypoint.packagePath, source, sha256 data, data⟩],
          [entrypointRow closure.entrypoint output]⟩ (closure.candidates durableRow) >>=
        sealDurable closure profile) >>= (Surroundings.steady fs).publish)
          (Disk.clear false)).on
            ⟨some [(closure.entrypoint.packagePath, output.getD data)], none⟩ := by
  have hread : (ofPackage (readEntrypoint sha256 closure fs source)).on ⟨some [], none⟩ =
      (.ok data, ⟨some [], none⟩) := by
    rw [hdata]
    rfl
  have hcheck : (ofPackage (safePackagePath closure.entrypoint.packagePath)).on ⟨some [], none⟩ =
      (.ok (), ⟨some [], none⟩) := by
    rw [hsafe]
    rfl
  have hstaged : (materializeDependencyPackageUnpublished (.steady fs) sha256 closure profile source
      output).on .start = (copyCandidates (.steady fs) sha256 1
        ⟨[⟨.entrypoint, closure.entrypoint.packagePath, source, sha256 data, data⟩],
          [entrypointRow closure.entrypoint output]⟩ (closure.candidates durableRow) >>=
        sealDurable closure profile).on
            ⟨some [(closure.entrypoint.packagePath, output.getD data)], none⟩ := by
    rw [materializeUnpublished_packaged source output h]
    exact (on_bind_ok hread).trans (on_bind_ok hcheck)
  have hpublished := bind_on_congr hstaged (Surroundings.steady fs).publish
  rw [on_ensuring, ← hpublished]
  rfl

end

/-! ## The claims of the candidates -/

section

variable {closure : SourceClosure} {decision : ProfileDecision} {row : Record → ManifestRow}

/-- The projection of the project inputs has a claim for every candidate with a path. -/
theorem candidate_claim {candidate : PackageCandidate} (h : candidate ∈ closure.candidates row)
    (hpath : candidate.packagePath ≠ []) :
    (candidate.packagePath, candidate.identity) ∈ closure.packageClaims := by
  rcases List.mem_append.mp h with hrecord | hartifact
  · obtain ⟨record, hmem, rfl⟩ := List.mem_map.mp hrecord
    obtain ⟨hrecord, hpackaged⟩ := List.mem_filter.mp hmem
    cases hplace : record.packagePath with
    | none =>
        exfalso
        apply hpath
        show record.packagePath.getD [] = []
        rw [hplace]
        rfl
    | some place =>
        show (record.packagePath.getD [], record.identity) ∈ closure.packageClaims
        rw [hplace]
        exact SourceClosure.Packaged.mem_claims hrecord hpackaged hplace
  · obtain ⟨artifact, hmem, rfl⟩ := List.mem_map.mp hartifact
    cases hplace : artifact.packagePath with
    | none =>
        exfalso
        apply hpath
        show artifact.packagePath.getD [] = []
        rw [hplace]
        rfl
    | some place =>
        show (artifact.packagePath.getD [], _) ∈ closure.packageClaims
        rw [hplace]
        apply List.mem_append_right
        rw [List.mem_filterMap]
        exact ⟨artifact, hmem, by rw [hplace]; rfl⟩

theorem candidate_role {candidate : PackageCandidate} (h : candidate ∈ closure.candidates row) :
    candidate.identity.role ≠ .entrypoint := by
  rcases List.mem_append.mp h with hrecord | hartifact
  · obtain ⟨record, -, rfl⟩ := List.mem_map.mp hrecord
    show packageRole record.resolution ≠ .entrypoint
    cases record.resolution <;> decide
  · obtain ⟨artifact, -, rfl⟩ := List.mem_map.mp hartifact
    show PackageRole.literalElfArtifact ≠ .entrypoint
    decide

namespace SourceClosure.Packaged

theorem candidates_sameIdentity (h : closure.Packaged decision) (row : Record → ManifestRow) :
    SameIdentity (closure.candidates row) := by
  intro one hone other hother hsame hpath
  have hclaim := candidate_claim hone hpath
  have hclaim' := candidate_claim hother (hsame ▸ hpath)
  rw [← hsame] at hclaim'
  exact h.claim_identity hclaim hclaim'

theorem candidates_ne_entrypoint (h : closure.Packaged decision) (row : Record → ManifestRow)
    (hentrypoint : closure.entrypoint.packagePath ≠ []) :
    ∀ candidate ∈ closure.candidates row, closure.entrypoint.packagePath ≠ candidate.packagePath := by
  intro candidate hmem hsame
  have hclaim := candidate_claim hmem (hsame ▸ hentrypoint)
  have hentry : (closure.entrypoint.packagePath, (⟨.entrypoint, some closure.entrypoint.sha256,
      some closure.entrypoint.sizeBytes, some closure.entrypoint.path⟩ : PackageIdentity)) ∈
        closure.packageClaims :=
    List.mem_append_left _ List.mem_cons_self
  rw [hsame] at hentry
  have hidentity := h.claim_identity hclaim hentry
  exact candidate_role hmem (congrArg PackageIdentity.role hidentity)

theorem packageCollision (h : closure.Packaged decision) : closure.packageCollision = false := by
  have hblocked := h.unblocked
  unfold SourceClosure.projectInputsBlocked at hblocked
  simp only [Bool.or_eq_false_iff] at hblocked
  exact hblocked.1.1

end SourceClosure.Packaged

/-- A path that no candidate has makes no difference. -/
theorem distinctCandidates_cons {seen : List Parts} {path : Parts} {candidates : List PackageCandidate}
    (h : ∀ candidate ∈ candidates, path ≠ candidate.packagePath) :
    distinctCandidates (path :: seen) candidates = distinctCandidates seen candidates := by
  induction candidates generalizing seen with
  | nil => rfl
  | cons candidate candidates ih =>
      obtain ⟨hfirst, hothers⟩ := List.forall_mem_cons.mp h
      unfold distinctCandidates
      have hmem : candidate.packagePath ∈ path :: seen ↔ candidate.packagePath ∈ seen := by
        rw [List.mem_cons]
        exact or_iff_right (Ne.symm hfirst)
      by_cases hseen : candidate.packagePath ∈ seen
      · rw [if_pos hseen, if_pos (hmem.mpr hseen)]
        exact ih hothers
      · rw [if_neg hseen, if_neg fun hpath => hseen (hmem.mp hpath), List.cons_append]
        exact congrArg _ (ih hothers)

theorem candidates_session_eq_durable (closure : SourceClosure) :
    closure.candidates sessionRow = closure.candidates durableRow := by
  rw [show sessionRow = durableRow from funext sessionRow_eq_durableRow]

end

/-! ## Agreement -/

/-- A package path is taken: the two calls say so themselves, or refuse for the report that does,
or find a file where they need a directory, or the reverse. -/
def HitsCollision {α : Type} (closure : SourceClosure) (result : Except MaterializeError α) : Prop :=
  result = .error (.refused "refused_package_path_collision") ∨
    result = .error (.package .pathConflict) ∨
    result = .error (.refused "project_input_collision") ∧ closure.packageCollision = true

/-- Both refuse; or the rows of the session package are those of the durable one behind its
entrypoint, and so are the files with their bytes. -/
def SamePackages (closure : SourceClosure) (session : Except MaterializeError SessionManifest × Disk)
    (durable : Except MaterializeError PackageManifest × Disk) : Prop :=
  match session.1, durable.1 with
  | .error _, .error _ => True
  | .ok sessionManifest, .ok durableManifest =>
      ∃ row contents tree, row.role = .entrypoint ∧
        durableManifest.files = row :: sessionManifest.files ∧
        session.2.published = some tree ∧
        durable.2.published = some ((closure.entrypoint.packagePath, contents) :: tree)
  | _, _ => False

section

variable (fs : FileSystem) (sha256 : Bytes → String) (closure : SourceClosure)
  (profile : ProfileSatisfaction) (source : Parts) (output : Option Bytes)

/-- The two packages agree, and the projection reports a collision exactly where one of them
hits one. -/
def PackagingAgrees : Prop :=
  let session := sessionPackaging fs sha256 closure profile
  let durable := durablePackaging fs sha256 closure profile source output
  SamePackages closure session durable ∧
    (closure.packageCollision = false ↔
      ¬ HitsCollision closure session.1 ∧ ¬ HitsCollision closure durable.1)

/-- A file of the package is copied up to its write, and there its path is above or below the
entrypoint's or an earlier file's. -/
def PathsMeet : Prop :=
  Meets fs sha256
    (if safePackagePath closure.entrypoint.packagePath = .ok () then [closure.entrypoint.packagePath]
      else [])
    (distinctCandidates [] (closure.candidates durableRow))

variable {fs sha256 closure profile source output}

/-- Both refuse with the status of the closure. -/
theorem packagingAgrees_refused {status reason : String}
    (h : closure.dependencyTransportStatus profile.decision = .refused status reason) :
    PackagingAgrees fs sha256 closure profile source output := by
  have hsession : (sessionPackaging fs sha256 closure profile).1 = .error (.refused status) := by
    unfold sessionPackaging sessionDependencyProjection
    rw [h]
    rfl
  have hdurable : (durablePackaging fs sha256 closure profile source output).1 =
      .error (.refused status) := by
    have hstaged : (materializeDependencyPackageUnpublished (.steady fs) sha256 closure profile source
        output).on .start = (.error (.refused status), .start) := by
      unfold materializeDependencyPackageUnpublished
      rw [h]
      rfl
    show ((materializeDependencyPackageUnpublished (.steady fs) sha256 closure profile source output >>=
      (Surroundings.steady fs).publish).on .start).1 = _
    rw [on_bind_error hstaged]
  have hstatus := SourceClosure.dependencyTransportStatus_ne h
  have hhits : ∀ {α : Type}, HitsCollision closure (.error (.refused status) : Except MaterializeError α) →
      closure.packageCollision = true := by
    rintro α (hhit | hhit | ⟨-, hcollision⟩)
    · injection hhit with hhit
      injection hhit with hhit
      injection hhit with hhit
      exact absurd hhit hstatus
    · cases hhit
    · exact hcollision
  unfold PackagingAgrees SamePackages
  simp only [hsession, hdurable, true_and]
  constructor
  · intro hnone
    have hnot : ∀ {α : Type},
        ¬ HitsCollision closure (.error (.refused status) : Except MaterializeError α) := by
      intro α hhit
      rw [hhits hhit] at hnone
      cases hnone
    exact ⟨hnot, hnot⟩
  · rintro ⟨hnot, -⟩
    by_contra hcollision
    have hcollision : closure.packageCollision = true := by simpa using hcollision
    have hreported : ∃ reason, closure.dependencyTransportStatus profile.decision =
        .refused "project_input_collision" reason :=
      SourceClosure.dependencyTransportStatus_collision hcollision
    obtain ⟨reason', hrefused⟩ := hreported
    rw [h] at hrefused
    cases hrefused
    exact hnot (.inr (.inr ⟨rfl, hcollision⟩))

/-- With one unchanging tree nothing is in the way of the rename. -/
theorem publish_steady {α : Type} (manifest : α) (disk : Disk) :
    ((Surroundings.steady fs).publish manifest).on disk = (.ok manifest, disk.rename) := rfl

/-- A refusal for another reason hits no collision. -/
theorem not_hits_of_refused {α : Type} {status : String} (hnone : closure.packageCollision = false)
    (hstatus : status ≠ "refused_package_path_collision") :
    ¬ HitsCollision closure (.error (.refused status) : Except MaterializeError α) := by
  rintro (hhit | hhit | ⟨-, hcollision⟩)
  · injection hhit with hhit
    injection hhit with hhit
    injection hhit with hhit
    exact hstatus hhit
  · cases hhit
  · rw [hnone] at hcollision
    cases hcollision

theorem not_hits_of_ok {α : Type} (manifest : α) : ¬ HitsCollision closure (.ok manifest) := by
  rintro (hhit | hhit | ⟨hhit, -⟩) <;> cases hhit

/-- What the candidates read as is the same for both loops. -/
theorem read_unique {candidates : List PackageCandidate} {files files' : List PackagedFile}
    (h : List.Forall₂ (fun candidate file => candidate.read fs sha256 = .ok file) candidates files)
    (h' : List.Forall₂ (fun candidate file => candidate.read fs sha256 = .ok file) candidates files') :
    files = files' := by
  induction h generalizing files' with
  | nil =>
      cases h'
      rfl
  | cons hread hrest ih =>
      obtain ⟨file', files', hread', hrest', rfl⟩ := List.forall₂_cons_left_iff.mp h'
      obtain rfl := Except.ok.inj (hread.symm.trans hread')
      rw [ih hrest']

/-- Every file that is below the entrypoint's path meets it. -/
theorem meets_of_occupied {path : Parts} {candidates : List PackageCandidate} {files : List PackagedFile}
    (h : List.Forall₂ (fun candidate file => candidate.read fs sha256 = .ok file) candidates files)
    (hoccupied : occupied files path = true) : Meets fs sha256 [path] candidates := by
  induction h with
  | nil => cases hoccupied
  | @cons candidate file candidates files hread hrest ih =>
      have hpath := (PackageCandidate.read_eq_ok hread).1
      rw [meets_cons]
      refine ⟨⟨file, hread⟩, ?_⟩
      unfold occupied at hoccupied
      rw [List.any_cons, Bool.or_eq_true] at hoccupied
      rcases hoccupied with hwithin | hlater
      · left
        refine ⟨path, List.mem_singleton_self path, fun hapart => hapart.2 ?_⟩
        rw [← hpath]
        exact of_decide_eq_true hwithin
      · right
        exact (ih hlater).mono fun _ hmem => List.mem_append_left _ hmem

/-! ## The two loops -/

variable (fs sha256 closure source output) in
/-- What the session package copies, of the distinct candidates. -/
def sessionLoop : Except MaterializeError PackageState × Disk :=
  (copyCandidates (.steady fs) sha256 1 ⟨[], []⟩
    (distinctCandidates [] (closure.candidates durableRow))).on ⟨some [], none⟩

variable (fs sha256 closure source output) in
/-- What the durable package copies behind the entrypoint with these bytes. -/
def durableLoop (data : Bytes) : Except MaterializeError PackageState × Disk :=
  (copyCandidates (.steady fs) sha256 1
    ⟨[⟨.entrypoint, closure.entrypoint.packagePath, source, sha256 data, data⟩],
      [entrypointRow closure.entrypoint output]⟩
    (distinctCandidates [] (closure.candidates durableRow))).on
      ⟨some [(closure.entrypoint.packagePath, output.getD data)], none⟩

/-- The loop of the session package goes over the distinct candidates. -/
theorem sessionLoop_eq (h : closure.Packaged profile.decision) :
    (copyCandidates (.steady fs) sha256 1 ⟨[], []⟩ (closure.candidates sessionRow)).on
      ⟨some [], none⟩ = sessionLoop fs sha256 closure := by
  rw [candidates_session_eq_durable]
  refine copyCandidates_distinct (h.candidates_sameIdentity durableRow) ?_ 1
  intro file hfile
  exact absurd hfile List.not_mem_nil

/-- So does the loop of the durable package, as no candidate has the entrypoint's path. -/
theorem durableLoop_eq (h : closure.Packaged profile.decision)
    (hpath : closure.entrypoint.packagePath ≠ []) (data : Bytes) :
    (copyCandidates (.steady fs) sha256 1
      ⟨[⟨.entrypoint, closure.entrypoint.packagePath, source, sha256 data, data⟩],
        [entrypointRow closure.entrypoint output]⟩ (closure.candidates durableRow)).on
          ⟨some [(closure.entrypoint.packagePath, output.getD data)], none⟩ =
      durableLoop fs sha256 closure source output data := by
  have hne := h.candidates_ne_entrypoint durableRow hpath
  have hclaimed : ∀ file ∈ [(⟨.entrypoint, closure.entrypoint.packagePath, source, sha256 data,
      data⟩ : PackagedFile)], ∀ candidate ∈ closure.candidates durableRow,
        file.packagePath = candidate.packagePath → file.identity = candidate.identity := by
    intro file hfile candidate hcandidate hsame
    obtain rfl := List.mem_singleton.mp hfile
    exact absurd hsame (hne candidate hcandidate)
  refine (copyCandidates_distinct (h.candidates_sameIdentity durableRow) hclaimed 1).trans ?_
  show (copyCandidates (.steady fs) sha256 1 _
    (distinctCandidates [closure.entrypoint.packagePath] (closure.candidates durableRow))).on _ = _
  rw [distinctCandidates_cons hne]
  rfl

/-! ## What becomes of a session package -/

section

variable (hpackaged : (closure.dependencyTransportStatus profile.decision).isPackaged = true)

include hpackaged

/-- It fails where its loop does. -/
theorem sessionPackaging_loop_error {error : MaterializeError}
    (hloop : (sessionLoop fs sha256 closure).1 = .error error) :
    (sessionPackaging fs sha256 closure profile).1 = .error error := by
  have hrun := (sessionLoop_eq (SourceClosure.packaged_of_status hpackaged)).trans
    (show sessionLoop fs sha256 closure = (.error error, (sessionLoop fs sha256 closure).2) from
      Prod.ext hloop rfl)
  rw [sessionPackaging_eq hpackaged, on_ensuring, on_bind_error (on_bind_error hrun)]

/-- It fails where its entrypoint cannot have its place. -/
theorem sessionPackaging_seal_error {state : PackageState} {disk : Disk} {error : MaterializeError}
    (hloop : sessionLoop fs sha256 closure = (.ok state, disk))
    (hseal : (sealSession closure state).on disk = (.error error, disk)) :
    (sessionPackaging fs sha256 closure profile).1 = .error error := by
  have hrun := (sessionLoop_eq (SourceClosure.packaged_of_status hpackaged)).trans hloop
  rw [sessionPackaging_eq hpackaged, on_ensuring, on_bind_error ((on_bind_ok hrun).trans hseal)]

/-- It is published with what its loop has written. -/
theorem sessionPackaging_ok {state : PackageState} {disk : Disk}
    (hloop : sessionLoop fs sha256 closure = (.ok state, disk))
    (hsafe : safePackagePath closure.entrypoint.packagePath = .ok ())
    (hfree : ¬ occupied state.files closure.entrypoint.packagePath = true) :
    sessionPackaging fs sha256 closure profile =
      (.ok ⟨closure.entrypoint.packagePath, state.rows⟩, ⟨none, disk.staging⟩) := by
  have hrun := (sessionLoop_eq (SourceClosure.packaged_of_status hpackaged)).trans hloop
  have hseal : (sealSession closure state).on disk =
      (.ok ⟨closure.entrypoint.packagePath, state.rows⟩, disk) := by
    have hcheck : (ofPackage (safePackagePath closure.entrypoint.packagePath)).on disk =
        (.ok (), disk) := by
      rw [hsafe]
      rfl
    refine (on_bind_ok hcheck).trans ?_
    rw [check_of_not hfree]
    rfl
  rw [sessionPackaging_eq hpackaged, on_ensuring, on_bind_ok ((on_bind_ok hrun).trans hseal),
    publish_steady]
  rfl

end

/-! ## What becomes of a durable package -/

theorem ne_nil_of_safe {path : Parts} (h : safePackagePath path = .ok ()) : path ≠ [] := by
  intro hempty
  unfold safePackagePath at h
  rw [if_pos (.inl hempty)] at h
  cases h

section

variable (hpackaged : (closure.dependencyTransportStatus profile.decision).isPackaged = true)
  {data : Bytes} (hdata : readEntrypoint sha256 closure fs source = .ok data)
  (hsafe : safePackagePath closure.entrypoint.packagePath = .ok ())

include hpackaged hdata hsafe

/-- It fails where its loop does. -/
theorem durablePackaging_loop_error {error : MaterializeError}
    (hloop : (durableLoop fs sha256 closure source output data).1 = .error error) :
    (durablePackaging fs sha256 closure profile source output).1 = .error error := by
  have hrun := (durableLoop_eq (SourceClosure.packaged_of_status hpackaged) (ne_nil_of_safe hsafe)
    data).trans (show durableLoop fs sha256 closure source output data =
      (.error error, (durableLoop fs sha256 closure source output data).2) from Prod.ext hloop rfl)
  rw [durablePackaging_eq hpackaged hdata hsafe, on_ensuring, on_bind_error (on_bind_error hrun)]

/-- It is published with what its loop has written. -/
theorem durablePackaging_ok {state : PackageState} {disk : Disk}
    (hloop : durableLoop fs sha256 closure source output data = (.ok state, disk)) :
    durablePackaging fs sha256 closure profile source output =
      (.ok (durableManifest closure profile state), ⟨none, disk.staging⟩) := by
  have hrun := (durableLoop_eq (SourceClosure.packaged_of_status hpackaged) (ne_nil_of_safe hsafe)
    data).trans hloop
  have hseal : (sealDurable closure profile state).on disk =
      (.ok (durableManifest closure profile state), disk) := rfl
  rw [durablePackaging_eq hpackaged hdata hsafe, on_ensuring, on_bind_ok ((on_bind_ok hrun).trans hseal),
    publish_steady]
  rfl

end

/-! ## Packaged closures -/

variable (fs sha256 closure) in
/-- The session loop has one of the three ends. -/
theorem sessionLoop_end :
    LoopEnd fs sha256 ⟨[], []⟩ ⟨some [], none⟩ (distinctCandidates [] (closure.candidates durableRow))
      (sessionLoop fs sha256 closure) :=
  copyCandidates_steady (distinctCandidates_pairwise _ _)
    fun _ hfile => absurd hfile List.not_mem_nil

variable (fs sha256 closure source output) in
/-- So has the durable loop, behind the entrypoint. -/
theorem durableLoop_end (h : closure.Packaged profile.decision)
    (hpath : closure.entrypoint.packagePath ≠ []) (data : Bytes) :
    LoopEnd fs sha256
      ⟨[⟨.entrypoint, closure.entrypoint.packagePath, source, sha256 data, data⟩],
        [entrypointRow closure.entrypoint output]⟩
      ⟨some [(closure.entrypoint.packagePath, output.getD data)], none⟩
      (distinctCandidates [] (closure.candidates durableRow))
      (durableLoop fs sha256 closure source output data) := by
  refine copyCandidates_steady (distinctCandidates_pairwise _ _) ?_
  intro file hfile candidate hcandidate
  obtain rfl := List.mem_singleton.mp hfile
  exact h.candidates_ne_entrypoint durableRow hpath candidate (mem_distinctCandidates hcandidate).1

theorem not_sound_of_forall₂ {candidates : List PackageCandidate} {files : List PackagedFile}
    (h : List.Forall₂ (fun candidate file => candidate.read fs sha256 = .ok file) candidates files) :
    ¬ ∃ candidate ∈ candidates, ¬ candidate.Sound fs sha256 := by
  rintro ⟨candidate, hmem, hunsound⟩
  induction h with
  | nil => cases hmem
  | cons hread hrest ih =>
      rcases List.mem_cons.mp hmem with rfl | hlater
      · exact hunsound ⟨_, hread⟩
      · exact ih hlater

/-- The closure of a package has no collision to report. -/
theorem packagingAgrees_of_packaged
    (hpackaged : (closure.dependencyTransportStatus profile.decision).isPackaged = true) :
    PackagingAgrees fs sha256 closure profile source output ↔
      SamePackages closure (sessionPackaging fs sha256 closure profile)
          (durablePackaging fs sha256 closure profile source output) ∧
        ¬ HitsCollision closure (sessionPackaging fs sha256 closure profile).1 ∧
        ¬ HitsCollision closure (durablePackaging fs sha256 closure profile source output).1 := by
  have hnone := (SourceClosure.packaged_of_status hpackaged).packageCollision
  unfold PackagingAgrees
  simp only [hnone, true_iff]

/-- Two refusals for other reasons agree. -/
theorem packagingAgrees_errors {status status' : String}
    (hpackaged : (closure.dependencyTransportStatus profile.decision).isPackaged = true)
    (hsession : (sessionPackaging fs sha256 closure profile).1 = .error (.refused status))
    (hdurable : (durablePackaging fs sha256 closure profile source output).1 = .error (.refused status'))
    (hstatus : status ≠ "refused_package_path_collision")
    (hstatus' : status' ≠ "refused_package_path_collision") :
    PackagingAgrees fs sha256 closure profile source output := by
  have hnone := (SourceClosure.packaged_of_status hpackaged).packageCollision
  rw [packagingAgrees_of_packaged hpackaged]
  refine ⟨?_, ?_, ?_⟩
  · unfold SamePackages
    simp only [hsession, hdurable]
  · rw [hsession]
    exact not_hits_of_refused hnone hstatus
  · rw [hdurable]
    exact not_hits_of_refused hnone hstatus'

/-- Without a place of its own for the entrypoint the durable package is refused, and the two agree
unless the files of the session package meet each other. -/
theorem packagingAgrees_unsafe {data : Bytes} {error : PackageError}
    (hpackaged : (closure.dependencyTransportStatus profile.decision).isPackaged = true)
    (hdata : readEntrypoint sha256 closure fs source = .ok data)
    (hsafe : safePackagePath closure.entrypoint.packagePath = .error error) :
    PackagingAgrees fs sha256 closure profile source output ↔
      ¬ Meets fs sha256 [] (distinctCandidates [] (closure.candidates durableRow)) := by
  have herror : error = .refused "refused_unsafe_path" := by
    unfold safePackagePath at hsafe
    split at hsafe <;> cases hsafe
    rfl
  subst herror
  have hdurable : (durablePackaging fs sha256 closure profile source output).1 =
      .error (.refused "refused_unsafe_path") := durablePackaging_unsafe hpackaged hdata hsafe
  rcases sessionLoop_end fs sha256 closure with
    ⟨hmeets, hloop⟩ | ⟨hmeets, files, hfiles, hloop⟩ | ⟨hmeets, -, status, hloop, hstatus⟩
  · have hsession := sessionPackaging_loop_error hpackaged hloop
    refine iff_of_false ?_ (fun hnot => hnot hmeets)
    rw [packagingAgrees_of_packaged hpackaged, hsession]
    rintro ⟨-, hnot, -⟩
    exact hnot (.inr (.inl rfl))
  · refine iff_of_true ?_ hmeets
    have hseal : ∀ state disk, (sealSession closure state).on disk =
        (.error (.refused "refused_unsafe_path"), disk) := by
      intro state disk
      apply on_bind_error
      rw [hsafe]
      rfl
    exact packagingAgrees_errors hpackaged (sessionPackaging_seal_error hpackaged hloop (hseal _ _))
      hdurable (by decide) (by decide)
  · refine iff_of_true ?_ hmeets
    exact packagingAgrees_errors hpackaged (sessionPackaging_loop_error hpackaged hloop) hdurable hstatus
      (by decide)

/-- With one the two agree unless a file of the package meets the entrypoint or another file. -/
theorem packagingAgrees_safe {data : Bytes}
    (hpackaged : (closure.dependencyTransportStatus profile.decision).isPackaged = true)
    (hdata : readEntrypoint sha256 closure fs source = .ok data)
    (hsafe : safePackagePath closure.entrypoint.packagePath = .ok ()) :
    PackagingAgrees fs sha256 closure profile source output ↔
      ¬ Meets fs sha256 [closure.entrypoint.packagePath]
        (distinctCandidates [] (closure.candidates durableRow)) := by
  have hclosure := SourceClosure.packaged_of_status hpackaged
  -- Whatever meets without the entrypoint's path meets with it.
  have hmore : Meets fs sha256 [] (distinctCandidates [] (closure.candidates durableRow)) →
      Meets fs sha256 [closure.entrypoint.packagePath]
        (distinctCandidates [] (closure.candidates durableRow)) :=
    Meets.mono fun _ hmem => absurd hmem List.not_mem_nil
  rcases durableLoop_end fs sha256 closure source output hclosure (ne_nil_of_safe hsafe) data with
    ⟨hmeets, hloop⟩ | ⟨hmeets, files, hfiles, hloop⟩ | ⟨hmeets, hunsound, status, hloop, hstatus⟩
  · have hdurable := durablePackaging_loop_error hpackaged hdata hsafe hloop
    refine iff_of_false ?_ (fun hnot => hnot hmeets)
    rw [packagingAgrees_of_packaged hpackaged, hdurable]
    rintro ⟨-, -, hnot⟩
    exact hnot (.inr (.inl rfl))
  · refine iff_of_true ?_ hmeets
    rcases sessionLoop_end fs sha256 closure with
      ⟨hmeets', -⟩ | ⟨-, files', hfiles', hloop'⟩ | ⟨-, hunsound, -⟩
    · exact absurd (hmore hmeets') hmeets
    · obtain rfl := read_unique hfiles hfiles'
      have hfree : ¬ occupied files closure.entrypoint.packagePath = true :=
        fun hoccupied => hmeets (meets_of_occupied hfiles hoccupied)
      have hsession := sessionPackaging_ok hpackaged hloop' hsafe hfree
      have hdurable := durablePackaging_ok hpackaged hdata hsafe hloop
      rw [packagingAgrees_of_packaged hpackaged, hsession, hdurable]
      refine ⟨?_, not_hits_of_ok _, not_hits_of_ok _⟩
      exact ⟨entrypointRow closure.entrypoint output, output.getD data, _, rfl, rfl, rfl, rfl⟩
    · exact absurd hunsound (not_sound_of_forall₂ hfiles)
  · refine iff_of_true ?_ hmeets
    have hdurable := durablePackaging_loop_error hpackaged hdata hsafe hloop
    rcases sessionLoop_end fs sha256 closure with
      ⟨hmeets', -⟩ | ⟨-, files, hfiles, -⟩ | ⟨-, -, status', hloop', hstatus'⟩
    · exact absurd (hmore hmeets') hmeets
    · exact absurd hunsound (not_sound_of_forall₂ hfiles)
    · exact packagingAgrees_errors hpackaged (sessionPackaging_loop_error hpackaged hloop') hdurable
        hstatus' hstatus

end

/-- The entrypoint loads `lib/dep.ml`, which needs the file `main` of HOLDIR: its place in the
package is the directory of the entrypoint. -/
def nestedFiles : List (Parts × Bytes) :=
  [(["repo", "lib", "main", "entry.ml"], utf8 "loads \"../dep.ml\";;"),
   (["repo", "lib", "dep.ml"], utf8 "needs \"main\";;"),
   (["hol", "main"], utf8 "let x = 1;;")]

def nestedEntrypoint : Parts := ["repo", "lib", "main", "entry.ml"]

def nestedCapture : Capture :=
  let capture := Capture.ofFiles spelledBytes nestedFiles ["repo"] nestedEntrypoint
  { capture with roots := { capture.roots with holdirRoot := some ["hol"] } }

/-- The session package is published, with a file where its entrypoint needs a directory; the
durable package is refused. -/
theorem nestedCapture_packages :
    nestedCapture.buildSourceDependencyClosure.toOption.map (fun closure =>
      ((sessionPackaging nestedCapture.fs spelledBytes closure ⟨.none, []⟩).1.toOption.isSome,
        (durablePackaging nestedCapture.fs spelledBytes closure ⟨.none, []⟩ nestedEntrypoint
          none).1.toOption.isSome)) = some (true, false) := by
  decide +kernel

theorem not_samePackages {closure : SourceClosure}
    {session : Except MaterializeError SessionManifest × Disk}
    {durable : Except MaterializeError PackageManifest × Disk}
    (hsession : session.1.toOption.isSome = true) (hdurable : durable.1.toOption.isSome = false) :
    ¬ SamePackages closure session durable := by
  unfold SamePackages
  rcases hone : session.1 with error | manifest
  · rw [hone] at hsession
    cases hsession
  · rcases htwo : durable.1 with error | manifest'
    · exact id
    · rw [htwo] at hdurable
      cases hdurable

end Hearth.Closure
