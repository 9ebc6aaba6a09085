import Hearth.Library.PosixPath

/-!
# The report of a readiness run

`orbstack_criu_vanilla_readiness.py` keeps a durable report of the profile groups that it
probes.  This module has what a run computes from the answers that it gets: the groups, the
rows of the report, and what is decided about a report that an earlier run has left.
-/

namespace Hearth.Shelf

open Hearth.Library
open Hearth.Library.Parts

/-- `path.expanduser().resolve()`, where no symbolic link changes: a resolved path stays where it is. -/
structure PathResolution where
  resolve : RawPath → Option Parts
  settled : ∀ {raw : RawPath} {path : Parts}, resolve raw = some path → resolve ⟨.root, path⟩ = some path

/-! ## The groups of a run -/

/-- What `compatibility` answers for a requested profile. -/
structure CompatibilityRow where
  logicalProfile : String
  /-- `compatibility_status` is `compatible`. -/
  compatible : Bool
  runRoot : String
  physicalProfile : String
  deriving DecidableEq, Repr

/-- The compatible rows of one physical profile. -/
structure ProfileGroup where
  physicalRunRoot : String
  physicalProfile : String
  logicalProfiles : List String
  deriving DecidableEq, Repr

/-- `physical_groups.setdefault(key, []).append(row)`. -/
def addToGroup (row : CompatibilityRow) : List ProfileGroup → List ProfileGroup
  | [] => [⟨row.runRoot, row.physicalProfile, [row.logicalProfile]⟩]
  | group :: groups =>
      if group.physicalRunRoot = row.runRoot ∧ group.physicalProfile = row.physicalProfile then
        { group with logicalProfiles := group.logicalProfiles ++ [row.logicalProfile] } :: groups
      else group :: addToGroup row groups

/-- The groups of the compatible rows, in the order of their first rows. -/
def physicalGroups (rows : List CompatibilityRow) : List ProfileGroup :=
  (rows.filter CompatibilityRow.compatible).foldl (fun groups row => addToGroup row groups) []

/-- `Path(text).name`. -/
def nameOfPath (raw : RawPath) : String :=
  raw.parts.getLast?.getD ""

/-- The profile root of a group, if it is one exact component strictly beneath the shelf root. -/
def profileRootOf (paths : PathResolution) (shelfRoot : Parts) (group : ProfileGroup) : Option Parts :=
  let component := RawPath.ofString group.physicalProfile
  if group.physicalProfile = "" ∨ component.isAbsolute ∨ nameOfPath component ≠ group.physicalProfile then none
  else
    let runRoot := RawPath.ofString group.physicalRunRoot
    (paths.resolve ⟨runRoot.anchor, runRoot.parts ++ component.parts⟩).filter fun profileRoot =>
      profileRoot.getLast? = some group.physicalProfile ∧ profileRoot ≠ shelfRoot ∧ Within profileRoot shelfRoot

/-! ## The rows -/

/-- What `_cleanup_state` finds. -/
structure CleanupState where
  verifiedQuiescent : Bool
  basisReusable : Bool
  deriving DecidableEq, Repr

inductive RowStatus
  | ready | failed | skipped | notRun
  deriving DecidableEq, Repr

/-- The row that `_run_group` returns; `none` is a reuse probe that was not made. -/
structure GroupRow where
  logicalProfiles : List String
  physicalProfile : String
  profileRoot : RawPath
  primaryPassed : Bool
  cleanupAfterPrimary : CleanupState
  reusePassed : Option Bool
  cleanupAfterReuse : CleanupState
  deriving DecidableEq, Repr

/-- The `status` of the row. -/
def GroupRow.status (row : GroupRow) : RowStatus :=
  if row.primaryPassed ∧ row.reusePassed = some true ∧ row.cleanupAfterReuse.verifiedQuiescent ∧
      row.cleanupAfterReuse.basisReusable then .ready
  else .failed

/-- `_run_group`: the reuse probe is made where the first one leaves a basis that can be used again. -/
def runGroup (group : ProfileGroup) (profileRoot : Parts) (primaryPassed : Bool) (cleanup : CleanupState)
    (reusePasses : Bool) (finalCleanup : CleanupState) : GroupRow where
  logicalProfiles := group.logicalProfiles
  physicalProfile := group.physicalProfile
  profileRoot := ⟨.root, profileRoot⟩
  primaryPassed
  cleanupAfterPrimary := cleanup
  reusePassed :=
    if primaryPassed ∧ cleanup.verifiedQuiescent ∧ cleanup.basisReusable then some reusePasses else none
  cleanupAfterReuse := finalCleanup

/-- A row of the report; `probe` is what its worker has published. -/
structure ResultRow where
  logicalProfiles : List String
  physicalProfile : String
  status : RowStatus
  failureKind : Option String
  probe : Option GroupRow
  deriving DecidableEq, Repr

/-- The rows of the profiles that are not compatible. -/
def skippedRows (rows : List CompatibilityRow) : List ResultRow :=
  (rows.filter fun row => !row.compatible).map fun row =>
    ⟨[row.logicalProfile], row.physicalProfile, .skipped, none, none⟩

/-- The rows of the groups behind one that has failed. -/
def notRunRows (rest : List ProfileGroup) : List ResultRow :=
  rest.map fun group => ⟨group.logicalProfiles, group.physicalProfile, .notRun, none, none⟩

def failedRow (group : ProfileGroup) (failureKind : String) : ResultRow :=
  ⟨group.logicalProfiles, group.physicalProfile, .failed, some failureKind, none⟩

/-- The row of the group at which a run ends: one that had passed could not be stopped. -/
def ResultRow.ended (row : ResultRow) (passed : Bool) : ResultRow :=
  if passed then { row with status := .failed, failureKind := some "post_smoke_stop_failed" } else row

/-- How a worker ended: its exit status, and the row in its result file. -/
structure WorkerOutcome where
  exitStatus : ℤ
  row : Option GroupRow
  deriving DecidableEq, Repr

/-- `_worker_row_matches`; `_run_group` has no other status than `ready` and `failed`. -/
def workerRowMatches (paths : PathResolution) (group : ProfileGroup) (profileRoot : Parts) (row : GroupRow) : Bool :=
  row.logicalProfiles = group.logicalProfiles && row.physicalProfile = group.physicalProfile &&
    paths.resolve row.profileRoot = some profileRoot

/-- The row that the controller makes of an outcome. -/
def resultRow (paths : PathResolution) (group : ProfileGroup) (profileRoot : Parts) (outcome : WorkerOutcome) :
    ResultRow :=
  match outcome.row.filter (workerRowMatches paths group profileRoot) with
  | none => failedRow group "worker_terminated"
  | some row =>
      if outcome.exitStatus ≠ 0 then
        ⟨group.logicalProfiles, group.physicalProfile, .failed, some "worker_exit_after_result", some row⟩
      else ⟨group.logicalProfiles, group.physicalProfile, row.status, none, some row⟩

/-! ## The report -/

def readinessSchema : String := "hol-workbench.warm-vanilla-readiness.v2"

/-- `controller_record`: the process with its birth identity, which no other process has. -/
structure ControllerRecord where
  process : ℕ
  /-- `controller_identity_complete`. -/
  complete : Bool
  deriving DecidableEq, Repr

inductive ReportStatus
  | running | recoveryFailed | interruptedRecovered | failed | ready
  deriving DecidableEq, Repr

/-- `active_profile`. -/
structure ActiveProfile where
  logicalProfiles : List String
  physicalProfile : String
  profileRoot : RawPath
  /-- `initial_runtime` found the basis live. -/
  initialLive : Bool
  deriving DecidableEq, Repr

/-- `warm-vanilla-readiness.json`. -/
structure Report where
  schema : String
  status : ReportStatus
  controller : ControllerRecord
  active : Option ActiveProfile
  shelfRoot : RawPath
  runRoot : RawPath
  requestedProfiles : List String
  results : List ResultRow
  ready : Bool
  deriving DecidableEq, Repr

/-- The report at the start of a run. -/
def startReport (shelfRoot runRoot : Parts) (controller : ControllerRecord) (profiles : List String)
    (rows : List CompatibilityRow) : Report where
  schema := readinessSchema
  status := .running
  controller
  active := none
  shelfRoot := ⟨.root, shelfRoot⟩
  runRoot := ⟨.root, runRoot⟩
  requestedProfiles := profiles
  results := skippedRows rows
  ready := false

namespace Report

variable (report : Report)

/-- The report while a group is probed. -/
def activate (group : ProfileGroup) (profileRoot : Parts) (initialLive : Bool) : Report :=
  { report with active := some ⟨group.logicalProfiles, group.physicalProfile, ⟨.root, profileRoot⟩, initialLive⟩ }

/-- The report behind a group that was probed, and is kept or stopped. -/
def passed (row : ResultRow) : Report :=
  { report with active := none, results := report.results ++ [row] }

/-- The report of a run that ends at a group which cannot be probed. -/
def endedBefore (row : ResultRow) (rest : List ProfileGroup) : Report :=
  { report with status := .failed, results := report.results ++ row :: notRunRows rest }

/-- The report of a run that ends at a group, for which a stop was tried. -/
def endedAt (row : ResultRow) (rest : List ProfileGroup) (stopped : Bool) : Report :=
  { report with
    status := if stopped then .failed else .recoveryFailed
    active := if stopped then none else report.active
    results := report.results ++ row :: notRunRows rest }

/-- The report behind the last group. -/
def finished : Report :=
  let ready := report.results ≠ [] ∧ ∀ row ∈ report.results, row.status = .ready
  { report with active := none, ready := ready, status := if ready then .ready else .failed }

/-- The report about an earlier run that was interrupted. -/
def interrupted (active : ActiveProfile) (stopped : Bool) : Report :=
  { report with
    status := if stopped then .interruptedRecovered else .recoveryFailed
    active := if stopped then none else some active
    ready := false }

end Report

/-! ## A report of an earlier run -/

/-- What is done about the report that is found. -/
inductive PriorDecision
  /-- Nothing has to be recovered. -/
  | proceed
  | refuse (reason : String)
  | recover (prior : Report) (active : ActiveProfile) (profileRoot : Parts)
  deriving DecidableEq, Repr

/-- A recorded path, if it is absolute and can be resolved. -/
def recordedPath (paths : PathResolution) (raw : RawPath) : Option Parts :=
  if raw.isAbsolute then paths.resolve raw else none

/-- `_interrupted_run_recovery` up to the call of `recover_profile`. -/
def interruptedRunRecovery (paths : PathResolution) (alive : ℕ → Bool) (shelfRoot runRoot : Parts) :
    Option Report → PriorDecision
  | none => .proceed
  | some prior =>
      match prior.active with
      | none => .proceed
      | some active =>
          if prior.status ≠ .running ∧ prior.status ≠ .recoveryFailed then .proceed
          else if prior.schema ≠ readinessSchema then
            .refuse "the prior readiness receipt schema is not trusted for automatic recovery"
          else if ¬ prior.runRoot.isAbsolute ∨ ¬ prior.shelfRoot.isAbsolute then
            .refuse "the prior readiness receipt roots are not exact absolute paths"
          else
            match paths.resolve prior.runRoot, paths.resolve prior.shelfRoot with
            | some recordedRunRoot, some recordedShelfRoot =>
                if recordedRunRoot ≠ runRoot then
                  .refuse "the prior readiness receipt belongs to a different run root"
                else if recordedShelfRoot ≠ shelfRoot then
                  .refuse "the prior readiness receipt belongs to a different shelf root"
                else
                  match (recordedPath paths active.profileRoot).filter fun profileRoot =>
                      profileRoot ≠ shelfRoot ∧ Within profileRoot shelfRoot with
                  | none =>
                      .refuse "the prior readiness receipt has no exact physical profile root beneath this shelf root"
                  | some profileRoot =>
                      if prior.controller.complete ∧ alive prior.controller.process then
                        .refuse "a readiness controller is still live for this run root"
                      else if ¬ prior.controller.complete then
                        .refuse "the prior readiness controller identity is incomplete; automatic recovery is unsafe"
                      else .recover prior active profileRoot
            | _, _ => .refuse "the prior readiness receipt roots could not be resolved safely"

/-! ## Stopping a profile -/

/-- What `recover_and_stop_profile_root` meets; `none` raises. -/
structure StopAnswers where
  /-- `_one_pool`. -/
  onePool : Bool
  /-- `_live_lease_owners` finds an owner. -/
  liveOwners : Bool
  /-- The recovery of the restore transaction and of a displaced broker does not raise. -/
  recovered : Bool
  /-- `stop_pool_runtime_locked`. -/
  stopStatus : Option ℤ
  /-- `_verified_stopped`: the pool and all its sessions are stopped and verified quiescent. -/
  verifiedStopped : Bool
  deriving DecidableEq, Repr

/-- `_recover_profile` over `recover_and_stop_profile_root`: the recovery has the status `stopped`. -/
def recoverProfile (answers : StopAnswers) : Bool :=
  answers.onePool && !answers.liveOwners && answers.recovered && answers.stopStatus = some 0 &&
    answers.verifiedStopped

end Hearth.Shelf
