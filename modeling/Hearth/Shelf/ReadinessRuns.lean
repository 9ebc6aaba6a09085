import Hearth.Library.Transition
import Hearth.Shelf.Readiness
import Mathlib.Logic.Function.Basic

/-!
# Runs of the readiness controller

Any number of invocations with one run root and one shelf root, each of which may die between
any two of its steps.  The lock of the run root lets one of them work at a time; the worker that
it has started is a process of its own, which looks once, before anything else, whether its
controller is alive.

The next invocation recovers the profile that the report still has as active.  A worker that
had made its look by then is not stopped by this, and restores the profile behind its back.
-/

namespace Hearth.Shelf

open Hearth.Library
open Hearth.Library.Parts

/-! ## The system -/

/-- Where a worker is. -/
inductive WorkerPhase
  /-- It has not looked for its controller. -/
  | starting
  /-- It has found its controller alive, and runs `_run_group`. -/
  | admitted
  /-- It holds the lease of a seat. -/
  | evaluating
  | ended (outcome : WorkerOutcome)
  deriving DecidableEq, Repr

/-- The worker of a group, with the record of its controller. -/
structure Worker where
  controller : ControllerRecord
  group : ProfileGroup
  profileRoot : Parts
  phase : WorkerPhase
  deriving DecidableEq, Repr

def Worker.goTo (worker : Worker) (phase : WorkerPhase) : Worker :=
  { worker with phase }

/-- The worker may still restore its profile. -/
def Worker.working (worker : Worker) : Prop :=
  worker.phase = .admitted ∨ worker.phase = .evaluating

/-- The group that a controller has under way, and those behind it. -/
structure GroupRun where
  group : ProfileGroup
  profileRoot : Parts
  initialLive : Bool
  rest : List ProfileGroup
  deriving DecidableEq, Repr

/-- Where the invocation that holds the lock is; `memory` is its own report. -/
inductive ControllerPhase
  /-- Behind the lock. -/
  | entered
  /-- The profile of an earlier run was to be stopped. -/
  | recovered (prior : Report) (active : ActiveProfile) (profileRoot : Parts) (stopped : Bool)
  /-- At the top of the loop. -/
  | next (memory : Report) (rest : List ProfileGroup)
  /-- Behind the checkpoint with the active profile. -/
  | activated (memory : Report) (run : GroupRun)
  /-- In `subprocess.run`. -/
  | waiting (memory : Report) (run : GroupRun)
  /-- The profile is to be stopped, since its group has failed or was stopped before. -/
  | stopping (memory : Report) (run : GroupRun) (row : ResultRow) (passed : Bool)
  | stopAnswered (memory : Report) (run : GroupRun) (row : ResultRow) (passed stopped : Bool)
  /-- The profile was live before, and is kept. -/
  | kept (memory : Report) (run : GroupRun) (row : ResultRow)
  deriving DecidableEq, Repr

/-- An invocation: its process, and what it was asked for. -/
structure Controller where
  record : ControllerRecord
  profiles : List String
  compatibility : String → CompatibilityRow
  phase : ControllerPhase

namespace Controller

variable (controller : Controller)

def process : ℕ :=
  controller.record.process

/-- `[compatibility(profile) for profile in profiles]`. -/
def rows : List CompatibilityRow :=
  controller.profiles.map controller.compatibility

def goTo (phase : ControllerPhase) : Controller :=
  { controller with phase }

end Controller

/-- The durable report, the processes, and which profiles have a live basis. -/
structure ReadinessWorld where
  report : Option Report
  /-- The holder of the lock. -/
  controller : Option Controller
  alive : ℕ → Bool
  /-- The worker that a controller has started last. -/
  workers : ℕ → Option Worker
  live : Parts → Bool
  /-- No process has had this identity or a later one. -/
  fresh : ℕ

namespace ReadinessWorld

variable (s : ReadinessWorld)

/-- The invocation goes on. -/
def goTo (controller : Controller) (phase : ControllerPhase) : ReadinessWorld :=
  { s with controller := some (controller.goTo phase) }

/-- `_checkpoint`, and the invocation goes on. -/
def checkpoint (controller : Controller) (report : Report) (phase : ControllerPhase) : ReadinessWorld :=
  { s with report := some report, controller := some (controller.goTo phase) }

/-- `_checkpoint`, and the invocation gives the lock back. -/
def conclude (report : Report) : ReadinessWorld :=
  { s with report := some report, controller := none }

/-- The invocation gives the lock back, or dies with it. -/
def unlock : ReadinessWorld :=
  { s with controller := none }

def setWorker (process : ℕ) (worker : Option Worker) : ReadinessWorld :=
  { s with workers := Function.update s.workers process worker }

def setLive (profileRoot : Parts) (live : Bool) : ReadinessWorld :=
  { s with live := Function.update s.live profileRoot live }

/-- An invocation takes the lock; its process is new. -/
def enter (controller : Controller) : ReadinessWorld :=
  { s with
    controller := some controller
    alive := Function.update s.alive s.fresh true
    fresh := s.fresh + 1 }

def kill (process : ℕ) : ReadinessWorld :=
  { s with alive := Function.update s.alive process false }

end ReadinessWorld

/-- `run_worker`, where its controller is alive or not.  The row that it publishes is that of `_run_group`. -/
inductive WorkerStep (alive : Bool) (worker : Worker) : Worker → Prop
  /-- `controller_is_live`. -/
  | look (hphase : worker.phase = .starting) (hcomplete : worker.controller.complete = true) (halive : alive = true) :
      WorkerStep alive worker (worker.goTo .admitted)
  | lease (hphase : worker.phase = .admitted) : WorkerStep alive worker (worker.goTo .evaluating)
  | release (hphase : worker.phase = .evaluating) : WorkerStep alive worker (worker.goTo .admitted)
  | publish (primaryPassed : Bool) (cleanup : CleanupState) (reusePasses : Bool) (finalCleanup : CleanupState)
      (hphase : worker.phase = .admitted) :
      WorkerStep alive worker (worker.goTo (.ended ⟨0, some
        (runGroup worker.group worker.profileRoot primaryPassed cleanup reusePasses finalCleanup)⟩))
  /-- It is turned away, raises, or is killed, perhaps behind its result. -/
  | fail (outcome : WorkerOutcome) (hrunning : ∀ other, worker.phase ≠ .ended other)
      (houtcome : outcome.exitStatus ≠ 0 ∨ outcome.row = none) : WorkerStep alive worker (worker.goTo (.ended outcome))

/-- What a step does. -/
inductive ReadinessEvent
  | entered (process : ℕ)
  | refused (process : ℕ)
  /-- `recover_profile` has returned. -/
  | stopTried (process : ℕ) (profileRoot : Parts) (interrupted stopped : Bool)
  | reported (process : ℕ) (report : Report)
  /-- A group is started: its profile is recorded as active, and its worker is spawned. -/
  | activated (process : ℕ) (profileRoot : Parts)
  | spawned (process : ℕ) (profileRoot : Parts)
  | returned (process : ℕ)
  | crashed (process : ℕ)
  | exited (process : ℕ)
  | worked (process : ℕ)
  | restored (process : ℕ) (profileRoot : Parts)
  | lost (profileRoot : Parts)
  deriving DecidableEq, Repr

/-- The stop of a profile takes an admission lease for what it is: no seat of the profile is leased
where no owner is seen, and the basis is gone where the stop was verified. -/
structure Stops (s : ReadinessWorld) (profileRoot : Parts) (answers : StopAnswers) (live : Bool) : Prop where
  owners : answers.liveOwners = false → ∀ process worker, s.workers process = some worker →
    worker.profileRoot = profileRoot → worker.phase ≠ .evaluating
  stopped : recoverProfile answers = true → live = false

section

variable (paths : PathResolution) (shelfRoot runRoot : Parts)

/-- Why a group is not started. -/
inductive NotStarted (group : ProfileGroup) : String → Prop
  | untrusted (hroot : profileRootOf paths shelfRoot group = none) : NotStarted group "untrusted_profile_root"
  /-- `profile_runtime_state` cannot tell. -/
  | unavailable {profileRoot : Parts} (hroot : profileRootOf paths shelfRoot group = some profileRoot) :
      NotStarted group "runtime_prestate_unavailable"

/-- What is done about a group whose worker has ended. -/
def afterWorker (memory : Report) (run : GroupRun) (outcome : WorkerOutcome) : ControllerPhase :=
  let row := resultRow paths run.group run.profileRoot outcome
  if outcome.exitStatus ≠ 0 ∨ row.status ≠ .ready then .stopping memory run row false
  else if run.initialLive then .kept memory run row
  else .stopping memory run row true

/-- The steps of the invocations and of their workers. -/
inductive ReadinessStep (s : ReadinessWorld) : ReadinessEvent → ReadinessWorld → Prop
  | enter (complete : Bool) (profiles : List String) (compatibility : String → CompatibilityRow)
      (hlock : s.controller = none) :
      ReadinessStep s (.entered s.fresh) (s.enter ⟨⟨s.fresh, complete⟩, profiles, compatibility, .entered⟩)
  | refuse {c : Controller} {reason : String} (hlock : s.controller = some c) (hphase : c.phase = .entered)
      (hdecision : interruptedRunRecovery paths s.alive shelfRoot runRoot s.report = .refuse reason) :
      ReadinessStep s (.refused c.process) s.unlock
  | recover {c : Controller} {prior : Report} {active : ActiveProfile} {profileRoot : Parts} {answers : StopAnswers}
      {live : Bool} (hlock : s.controller = some c) (hphase : c.phase = .entered)
      (hdecision : interruptedRunRecovery paths s.alive shelfRoot runRoot s.report = .recover prior active profileRoot)
      (hstops : Stops s profileRoot answers live) :
      ReadinessStep s (.stopTried c.process profileRoot true (recoverProfile answers))
        ((s.setLive profileRoot live).goTo c (.recovered prior active profileRoot (recoverProfile answers)))
  | reportInterrupted {c : Controller} {prior : Report} {active : ActiveProfile} {profileRoot : Parts} {stopped : Bool}
      (hlock : s.controller = some c) (hphase : c.phase = .recovered prior active profileRoot stopped) :
      ReadinessStep s (.reported c.process (prior.interrupted active stopped)) (s.conclude (prior.interrupted active stopped))
  | begin {c : Controller} {memory : Report} (hlock : s.controller = some c) (hphase : c.phase = .entered)
      (hdecision : interruptedRunRecovery paths s.alive shelfRoot runRoot s.report = .proceed)
      (hmemory : memory = startReport shelfRoot runRoot c.record c.profiles c.rows) :
      ReadinessStep s (.reported c.process memory) (s.checkpoint c memory (.next memory (physicalGroups c.rows)))
  | endBefore {c : Controller} {memory : Report} {group : ProfileGroup} {rest : List ProfileGroup} {failureKind : String}
      (hlock : s.controller = some c) (hphase : c.phase = .next memory (group :: rest))
      (hkind : NotStarted paths shelfRoot group failureKind) :
      ReadinessStep s (.reported c.process (memory.endedBefore (failedRow group failureKind) rest))
        (s.conclude (memory.endedBefore (failedRow group failureKind) rest))
  | activate {c : Controller} {memory : Report} {group : ProfileGroup} {rest : List ProfileGroup} {profileRoot : Parts}
      (initialLive : Bool) (hlock : s.controller = some c) (hphase : c.phase = .next memory (group :: rest))
      (hroot : profileRootOf paths shelfRoot group = some profileRoot) :
      ReadinessStep s (.activated c.process profileRoot)
        (s.checkpoint c (memory.activate group profileRoot initialLive)
          (.activated (memory.activate group profileRoot initialLive) ⟨group, profileRoot, initialLive, rest⟩))
  | spawn {c : Controller} {memory : Report} {run : GroupRun} (hlock : s.controller = some c)
      (hphase : c.phase = .activated memory run) :
      ReadinessStep s (.spawned c.process run.profileRoot)
        ((s.setWorker c.process (some ⟨c.record, run.group, run.profileRoot, .starting⟩)).goTo c (.waiting memory run))
  /-- The runner raises before there is a worker. -/
  | spawnRaises {c : Controller} {memory : Report} {run : GroupRun} (hlock : s.controller = some c)
      (hphase : c.phase = .activated memory run) :
      ReadinessStep s (.returned c.process) (s.goTo c (afterWorker paths memory run ⟨1, none⟩))
  | reap {c : Controller} {memory : Report} {run : GroupRun} {worker : Worker} {outcome : WorkerOutcome}
      (hlock : s.controller = some c) (hphase : c.phase = .waiting memory run)
      (hworker : s.workers c.process = some worker) (hended : worker.phase = .ended outcome) :
      ReadinessStep s (.returned c.process)
        ((s.setWorker c.process none).goTo c (afterWorker paths memory run outcome))
  | stop {c : Controller} {memory : Report} {run : GroupRun} {row : ResultRow} {passed : Bool} {answers : StopAnswers}
      {live : Bool} (hlock : s.controller = some c) (hphase : c.phase = .stopping memory run row passed)
      (hstops : Stops s run.profileRoot answers live) :
      ReadinessStep s (.stopTried c.process run.profileRoot false (recoverProfile answers))
        ((s.setLive run.profileRoot live).goTo c (.stopAnswered memory run row passed (recoverProfile answers)))
  | reportEnded {c : Controller} {memory : Report} {run : GroupRun} {row : ResultRow} {passed stopped : Bool}
      (hlock : s.controller = some c) (hphase : c.phase = .stopAnswered memory run row passed stopped)
      (hended : ¬ (passed = true ∧ stopped = true)) :
      ReadinessStep s (.reported c.process (memory.endedAt (row.ended passed) run.rest stopped))
        (s.conclude (memory.endedAt (row.ended passed) run.rest stopped))
  | reportPassed {c : Controller} {memory : Report} {run : GroupRun} {row : ResultRow} (hlock : s.controller = some c)
      (hphase : c.phase = .stopAnswered memory run row true true ∨ c.phase = .kept memory run row) :
      ReadinessStep s (.reported c.process (memory.passed row))
        (s.checkpoint c (memory.passed row) (.next (memory.passed row) run.rest))
  | finish {c : Controller} {memory : Report} (hlock : s.controller = some c) (hphase : c.phase = .next memory []) :
      ReadinessStep s (.reported c.process memory.finished) (s.conclude memory.finished)
  /-- The process that holds the lock dies; its worker does not notice. -/
  | crash {c : Controller} (hlock : s.controller = some c) :
      ReadinessStep s (.crashed c.process) (s.kill c.process).unlock
  /-- A process that has given the lock back ends. -/
  | exit {process : ℕ} (hlock : ∀ c, s.controller = some c → c.process ≠ process) :
      ReadinessStep s (.exited process) (s.kill process)
  | work {process : ℕ} {worker worker' : Worker} (hworker : s.workers process = some worker)
      (hstep : WorkerStep (s.alive process) worker worker') :
      ReadinessStep s (.worked process) (s.setWorker process (some worker'))
  /-- An admitted worker restores the basis of its profile. -/
  | restore {process : ℕ} {worker : Worker} (hworker : s.workers process = some worker) (hworking : worker.working) :
      ReadinessStep s (.restored process worker.profileRoot) (s.setLive worker.profileRoot true)
  /-- A basis ends by itself. -/
  | lose (profileRoot : Parts) : ReadinessStep s (.lost profileRoot) (s.setLive profileRoot false)

end

/-! ## What the report records -/

/-- The report has the profile as active, for a run of this process. -/
def Recording (report : Option Report) (process : ℕ) (profileRoot : Parts) : Prop :=
  ∃ r active, report = some r ∧ r.active = some active ∧ (r.status = .running ∨ r.status = .recoveryFailed) ∧
    active.profileRoot = ⟨.root, profileRoot⟩ ∧ r.controller.process = process

/-- The step reports that the profile, which the process had recorded as active, is stopped. -/
def SettledBy (s t : ReadinessWorld) (process : ℕ) (profileRoot : Parts) : Prop :=
  Recording s.report process profileRoot ∧
    ∃ r, t.report = some r ∧ r.active = none ∧ (r.status = .interruptedRecovered ∨ r.status = .failed)

/-- Before the first invocation: nothing is under way, and no report waits for a recovery. -/
structure ReadinessStart (s : ReadinessWorld) : Prop where
  report : ∀ r, s.report = some r → r.active = none
  controller : s.controller = none
  alive : ∀ process, s.alive process = false
  workers : ∀ process, s.workers process = none

/-- The report and the group of a run that has a profile as active. -/
def ControllerPhase.underWay : ControllerPhase → Option (Report × GroupRun)
  | .activated memory run => some (memory, run)
  | .waiting memory run => some (memory, run)
  | .stopping memory run _ _ => some (memory, run)
  | .stopAnswered memory run _ _ _ => some (memory, run)
  | .kept memory run _ => some (memory, run)
  | _ => none

section

variable (paths : PathResolution)

/-- What the phase of an invocation says about the report and its worker. -/
structure PhaseFacts (s : ReadinessWorld) (c : Controller) : Prop where
  entered : c.phase = .entered → ∀ r, s.report = some r → r.active ≠ none → r.controller.process ≠ c.process
  recovered : ∀ {prior active profileRoot stopped}, c.phase = .recovered prior active profileRoot stopped →
    s.report = some prior ∧ prior.active = some active ∧
      Recording s.report prior.controller.process profileRoot ∧ prior.controller.process ≠ c.process
  next : ∀ {memory rest}, c.phase = .next memory rest →
    s.report = some memory ∧ memory.active = none ∧ memory.status = .running ∧ memory.controller = c.record
  underWay : ∀ {memory run}, c.phase.underWay = some (memory, run) →
    s.report = some memory ∧ Recording s.report c.process run.profileRoot ∧ memory.status = .running ∧
      memory.controller = c.record
  worker : ∀ worker, s.workers c.process = some worker → ∃ memory run, c.phase = .waiting memory run ∧
    run.profileRoot = worker.profileRoot

/-- What holds of every run. -/
structure ReadinessFacts (s : ReadinessWorld) : Prop where
  fresh : ∀ process, s.fresh ≤ process → s.workers process = none ∧ s.alive process = false
  recorded : ∀ r active, s.report = some r → r.active = some active →
    (r.status = .running ∨ r.status = .recoveryFailed) ∧ r.controller.process < s.fresh ∧
      ∃ profileRoot, active.profileRoot = ⟨.root, profileRoot⟩ ∧
        paths.resolve ⟨.root, profileRoot⟩ = some profileRoot
  worker : ∀ process worker, s.workers process = some worker →
    (∃ c, s.controller = some c ∧ c.process = process) ∨ s.alive process = false
  controller : ∀ c, s.controller = some c → c.process < s.fresh ∧ PhaseFacts s c

variable {paths} {shelfRoot runRoot : Parts} {s t : ReadinessWorld} {event : ReadinessEvent}

variable (paths shelfRoot runRoot) in
/-- A profile that is recorded is recovered, or refused. -/
theorem recover_or_refuse (alive : ℕ → Bool) {prior : Report} {active : ActiveProfile} (hactive : prior.active = some active)
    (hstatus : prior.status = .running ∨ prior.status = .recoveryFailed) :
    (∃ reason, interruptedRunRecovery paths alive shelfRoot runRoot (some prior) = .refuse reason) ∨
      ∃ profileRoot, interruptedRunRecovery paths alive shelfRoot runRoot (some prior) = .recover prior active profileRoot ∧
        paths.resolve active.profileRoot = some profileRoot := by
  have hrunning : ¬ (prior.status ≠ .running ∧ prior.status ≠ .recoveryFailed) :=
    fun hneither => hstatus.elim hneither.1 hneither.2
  unfold interruptedRunRecovery
  dsimp only
  rw [hactive]
  dsimp only
  rw [if_neg hrunning]
  split
  · exact .inl ⟨_, rfl⟩
  split
  · exact .inl ⟨_, rfl⟩
  split
  · split
    · exact .inl ⟨_, rfl⟩
    split
    · exact .inl ⟨_, rfl⟩
    split
    · exact .inl ⟨_, rfl⟩
    · rename_i profileRoot hroot
      split
      · exact .inl ⟨_, rfl⟩
      split
      · exact .inl ⟨_, rfl⟩
      · refine .inr ⟨profileRoot, rfl, ?_⟩
        obtain ⟨hrecorded, -⟩ := Option.filter_eq_some_iff.mp hroot
        unfold recordedPath at hrecorded
        split at hrecorded
        · exact hrecorded
        · cases hrecorded
  · exact .inl ⟨_, rfl⟩

/-- Where nothing is to be recovered, no profile is recorded. -/
theorem not_recording_of_proceed {alive : ℕ → Bool} {report : Option Report} {process : ℕ} {profileRoot : Parts}
    (hdecision : interruptedRunRecovery paths alive shelfRoot runRoot report = .proceed) :
    ¬ Recording report process profileRoot := by
  rintro ⟨prior, active, rfl, hactive, hstatus, -, -⟩
  rcases recover_or_refuse paths shelfRoot runRoot alive hactive hstatus with ⟨reason, hrefuse⟩ | ⟨root, hrecover, -⟩
  · cases hdecision.symm.trans hrefuse
  · cases hdecision.symm.trans hrecover

/-- What is to be recovered is what the report records. -/
theorem recorded_of_recover {alive : ℕ → Bool} {report : Option Report} {prior : Report} {active : ActiveProfile}
    {profileRoot : Parts}
    (hdecision : interruptedRunRecovery paths alive shelfRoot runRoot report = .recover prior active profileRoot) :
    report = some prior ∧ prior.active = some active ∧ (prior.status = .running ∨ prior.status = .recoveryFailed) ∧
      paths.resolve active.profileRoot = some profileRoot := by
  cases report with
  | none => cases hdecision
  | some found =>
      cases hactive : found.active with
      | none =>
          have hproceed : interruptedRunRecovery paths alive shelfRoot runRoot (some found) = .proceed := by
            simp [interruptedRunRecovery, hactive]
          cases hdecision.symm.trans hproceed
      | some recorded =>
          by_cases hstatus : found.status = .running ∨ found.status = .recoveryFailed
          · rcases recover_or_refuse paths shelfRoot runRoot alive hactive hstatus with
              ⟨reason, hrefuse⟩ | ⟨root, hrecover, hroot⟩
            · cases hdecision.symm.trans hrefuse
            · cases hdecision.symm.trans hrecover
              exact ⟨rfl, hactive, hstatus, hroot⟩
          · have hproceed : interruptedRunRecovery paths alive shelfRoot runRoot (some found) = .proceed := by
              simp [interruptedRunRecovery, hactive, not_or.mp hstatus]
            cases hdecision.symm.trans hproceed

/-! ## One step -/

theorem PhaseFacts.idle {c : Controller} (h : PhaseFacts s c)
    (hphase : ∀ memory run, c.phase ≠ .waiting memory run) : s.workers c.process = none := by
  cases hworker : s.workers c.process with
  | none => rfl
  | some worker =>
      obtain ⟨memory, run, hwaiting, -⟩ := h.worker worker hworker
      exact absurd hwaiting (hphase memory run)

theorem phaseFacts_next {c : Controller} {memory : Report} {rest : List ProfileGroup}
    (hphase : c.phase = .next memory rest) (hworker : s.workers c.process = none) (hreport : s.report = some memory)
    (hactive : memory.active = none) (hstatus : memory.status = .running) (hcontroller : memory.controller = c.record) :
    PhaseFacts s c where
  entered h := by cases hphase.symm.trans h
  recovered h := by cases hphase.symm.trans h
  next h := by
    cases hphase.symm.trans h
    exact ⟨hreport, hactive, hstatus, hcontroller⟩
  underWay h := by
    rw [hphase] at h
    cases h
  worker worker h := by
    rw [hworker] at h
    cases h

theorem phaseFacts_underWay {c : Controller} {memory : Report} {run : GroupRun}
    (hphase : c.phase.underWay = some (memory, run)) (hreport : s.report = some memory)
    (hrecording : Recording s.report c.process run.profileRoot) (hstatus : memory.status = .running)
    (hcontroller : memory.controller = c.record)
    (hworker : ∀ worker, s.workers c.process = some worker → ∃ memory run, c.phase = .waiting memory run ∧
      run.profileRoot = worker.profileRoot) : PhaseFacts s c where
  entered h := by
    rw [h] at hphase
    cases hphase
  recovered h := by
    rw [h] at hphase
    cases hphase
  next h := by
    rw [h] at hphase
    cases hphase
  underWay h := by
    cases hphase.symm.trans h
    exact ⟨hreport, hrecording, hstatus, hcontroller⟩
  worker := hworker

/-- What a report that is written may record. -/
def Recordable (paths : PathResolution) (s : ReadinessWorld) (r : Report) : Prop :=
  ∀ active, r.active = some active → (r.status = .running ∨ r.status = .recoveryFailed) ∧
    r.controller.process < s.fresh ∧
    ∃ profileRoot, active.profileRoot = ⟨.root, profileRoot⟩ ∧ paths.resolve ⟨.root, profileRoot⟩ = some profileRoot

namespace ReadinessFacts

variable {c : Controller}

theorem workers_of_lock (h : ReadinessFacts paths s) (hlock : s.controller = some c) {process : ℕ} {worker : Worker}
    (hworker : s.workers process = some worker) : process = c.process ∨ s.alive process = false := by
  rcases h.worker process worker hworker with ⟨other, hother, rfl⟩ | hdead
  · cases hlock.symm.trans hother
    exact .inl rfl
  · exact .inr hdead

theorem goTo (h : ReadinessFacts paths s) (hlock : s.controller = some c) {phase : ControllerPhase}
    (hphase : PhaseFacts (s.goTo c phase) (c.goTo phase)) : ReadinessFacts paths (s.goTo c phase) where
  fresh := h.fresh
  recorded := h.recorded
  worker process worker hworker := (h.workers_of_lock hlock hworker).imp (fun heq => ⟨_, rfl, heq.symm⟩) id
  controller other hother := by
    cases hother
    exact ⟨(h.controller c hlock).1, hphase⟩

theorem checkpoint (h : ReadinessFacts paths s) (hlock : s.controller = some c) {r : Report} {phase : ControllerPhase}
    (hrecordable : Recordable paths s r) (hphase : PhaseFacts (s.checkpoint c r phase) (c.goTo phase)) :
    ReadinessFacts paths (s.checkpoint c r phase) where
  fresh := h.fresh
  recorded other active hother hactive := by
    cases hother
    exact hrecordable active hactive
  worker process worker hworker := (h.workers_of_lock hlock hworker).imp (fun heq => ⟨_, rfl, heq.symm⟩) id
  controller other hother := by
    cases hother
    exact ⟨(h.controller c hlock).1, hphase⟩

theorem conclude (h : ReadinessFacts paths s) (hlock : s.controller = some c) {r : Report}
    (hrecordable : Recordable paths s r) (hidle : s.workers c.process = none) :
    ReadinessFacts paths (s.conclude r) where
  fresh := h.fresh
  recorded other active hother hactive := by
    cases hother
    exact hrecordable active hactive
  worker process worker hworker := by
    rcases h.workers_of_lock hlock hworker with rfl | hdead
    · rw [show (s.conclude r).workers = s.workers from rfl, hidle] at hworker
      cases hworker
    · exact .inr hdead
  controller other hother := by cases hother

theorem setLive (h : ReadinessFacts paths s) (profileRoot : Parts) (live : Bool) :
    ReadinessFacts paths (s.setLive profileRoot live) where
  fresh := h.fresh
  recorded := h.recorded
  worker := h.worker
  controller other hother := by
    obtain ⟨hfresh, hphase⟩ := h.controller other hother
    exact ⟨hfresh, ⟨hphase.entered, hphase.recovered, hphase.next, hphase.underWay, hphase.worker⟩⟩

/-- Without the lock, only the workers of dead processes are left. -/
theorem unlock (h : ReadinessFacts paths s) (hidle : ∀ c, s.controller = some c → s.workers c.process = none ∨
    s.alive c.process = false) : ReadinessFacts paths s.unlock where
  fresh := h.fresh
  recorded := h.recorded
  worker process worker hworker := by
    rcases h.worker process worker hworker with ⟨c, hlock, rfl⟩ | hdead
    · rcases hidle c hlock with hnone | hdead
      · cases hnone.symm.trans hworker
      · exact .inr hdead
    · exact .inr hdead
  controller other hother := by cases hother

theorem enter (h : ReadinessFacts paths s) (hlock : s.controller = none) {c : Controller} (hprocess : c.process = s.fresh)
    (hphase : c.phase = .entered) : ReadinessFacts paths (s.enter c) where
  fresh process hprocess' := by
    obtain ⟨hnone, hdead⟩ := h.fresh process (Nat.le_of_succ_le hprocess')
    refine ⟨hnone, ?_⟩
    rw [show (s.enter c).alive = Function.update s.alive s.fresh true from rfl,
      Function.update_of_ne (Nat.ne_of_gt hprocess')]
    exact hdead
  recorded r active hreport hactive := by
    obtain ⟨hstatus, hless, hroot⟩ := h.recorded r active hreport hactive
    exact ⟨hstatus, Nat.lt_succ_of_lt hless, hroot⟩
  worker process worker hworker := by
    have hne : process ≠ s.fresh := by
      rintro rfl
      cases (h.fresh s.fresh le_rfl).1.symm.trans hworker
    rcases h.worker process worker hworker with ⟨other, hother, -⟩ | hdead
    · cases hlock.symm.trans hother
    · refine .inr ?_
      rw [show (s.enter c).alive = Function.update s.alive s.fresh true from rfl, Function.update_of_ne hne]
      exact hdead
  controller other hother := by
    cases hother
    refine ⟨hprocess ▸ Nat.lt_succ_self s.fresh, ?_⟩
    constructor
    · intro _ r hreport hactive
      obtain ⟨active, hactive⟩ := Option.ne_none_iff_exists'.mp hactive
      rw [hprocess]
      exact Nat.ne_of_lt (h.recorded r active hreport hactive).2.1
    · intro _ _ _ _ hother
      cases hphase.symm.trans hother
    · intro _ _ hother
      cases hphase.symm.trans hother
    · intro _ _ hother
      rw [hphase] at hother
      cases hother
    · intro worker hworker
      rw [hprocess] at hworker
      cases (h.fresh s.fresh le_rfl).1.symm.trans hworker

theorem kill (h : ReadinessFacts paths s) (process : ℕ) : ReadinessFacts paths (s.kill process) := by
  have hdead : ∀ other, s.alive other = false → (s.kill process).alive other = false := by
    intro other hother
    show Function.update s.alive process false other = false
    by_cases heq : other = process
    · rw [heq, Function.update_self]
    · rw [Function.update_of_ne heq, hother]
  constructor
  · intro other hother
    exact ⟨(h.fresh other hother).1, hdead other (h.fresh other hother).2⟩
  · exact h.recorded
  · intro other worker hworker
    exact (h.worker other worker hworker).imp_right (hdead other)
  · intro c hlock
    obtain ⟨hless, hphase⟩ := h.controller c hlock
    exact ⟨hless, ⟨hphase.entered, hphase.recovered, hphase.next, hphase.underWay, hphase.worker⟩⟩

/-- The holder of the lock starts a worker, or is done with it. -/
theorem setWorker (h : ReadinessFacts paths s) (hlock : s.controller = some c) {worker : Option Worker}
    {phase : ControllerPhase} (hphase : PhaseFacts ((s.setWorker c.process worker).goTo c phase) (c.goTo phase)) :
    ReadinessFacts paths ((s.setWorker c.process worker).goTo c phase) := by
  have hworkers : ∀ other, other ≠ c.process →
      ((s.setWorker c.process worker).goTo c phase).workers other = s.workers other :=
    fun other hother => Function.update_of_ne hother _ _
  have hless := (h.controller c hlock).1
  constructor
  · intro other hother
    rw [hworkers other (Nat.ne_of_gt (lt_of_lt_of_le hless hother))]
    exact h.fresh other hother
  · exact h.recorded
  · intro other found hfound
    by_cases heq : other = c.process
    · exact .inl ⟨_, rfl, heq.symm⟩
    · rw [hworkers other heq] at hfound
      exact (h.workers_of_lock hlock hfound).imp (fun hself => absurd hself heq) id
  · intro other hother
    cases hother
    exact ⟨hless, hphase⟩

/-- A worker goes on, with the same profile. -/
theorem work (h : ReadinessFacts paths s) {process : ℕ} {worker worker' : Worker} (hworker : s.workers process = some worker)
    (hroot : worker'.profileRoot = worker.profileRoot) : ReadinessFacts paths (s.setWorker process (some worker')) := by
  have hworkers : ∀ other, other ≠ process → (s.setWorker process (some worker')).workers other = s.workers other :=
    fun other hother => Function.update_of_ne hother _ _
  have hself : (s.setWorker process (some worker')).workers process = some worker' := Function.update_self ..
  constructor
  · intro other hother
    obtain ⟨hnone, hdead⟩ := h.fresh other hother
    have hne : other ≠ process := by
      rintro rfl
      cases hnone.symm.trans hworker
    exact ⟨(hworkers other hne).trans hnone, hdead⟩
  · exact h.recorded
  · intro other found hfound
    by_cases heq : other = process
    · subst heq
      exact h.worker other worker hworker
    · rw [hworkers other heq] at hfound
      exact h.worker other found hfound
  · intro c hlock
    obtain ⟨hless, hphase⟩ := h.controller c hlock
    refine ⟨hless, ⟨hphase.entered, hphase.recovered, hphase.next, hphase.underWay, ?_⟩⟩
    intro found hfound
    by_cases heq : c.process = process
    · rw [heq, hself] at hfound
      cases hfound
      rw [hroot]
      exact hphase.worker worker (heq ▸ hworker)
    · rw [hworkers c.process heq] at hfound
      exact hphase.worker found hfound

end ReadinessFacts

theorem WorkerStep.profileRoot {alive : Bool} {worker worker' : Worker} (h : WorkerStep alive worker worker') :
    worker'.profileRoot = worker.profileRoot := by
  cases h <;> rfl

variable (paths) in
/-- The phase behind a worker has its report and its group. -/
theorem underWay_afterWorker (memory : Report) (run : GroupRun) (outcome : WorkerOutcome) :
    (afterWorker paths memory run outcome).underWay = some (memory, run) ∧
      ∀ memory' run' row passed, afterWorker paths memory run outcome ≠ .stopAnswered memory' run' row passed true := by
  unfold afterWorker
  dsimp only
  split
  · exact ⟨rfl, by simp⟩
  split
  · exact ⟨rfl, by simp⟩
  · exact ⟨rfl, by simp⟩

variable (paths) in
theorem afterWorker_ne_waiting (memory : Report) (run : GroupRun) (outcome : WorkerOutcome) (memory' : Report)
    (run' : GroupRun) : afterWorker paths memory run outcome ≠ .waiting memory' run' := by
  unfold afterWorker
  dsimp only
  split
  · simp
  split
  · simp
  · simp

theorem settled_profileRootOf {group : ProfileGroup} {profileRoot : Parts}
    (h : profileRootOf paths shelfRoot group = some profileRoot) :
    paths.resolve ⟨.root, profileRoot⟩ = some profileRoot := by
  unfold profileRootOf at h
  dsimp only at h
  split at h
  · cases h
  · exact paths.settled (Option.filter_eq_some_iff.mp h).1

/-- The report of a group that is under way may be written again, with another status or result. -/
theorem ReadinessFacts.recordable_underWay (h : ReadinessFacts paths s) {memory r : Report}
    (hreport : s.report = some memory) (hactive : r.active = memory.active ∨ r.active = none)
    (hstatus : r.status = .running ∨ r.status = .recoveryFailed ∨ r.active = none)
    (hcontroller : r.controller = memory.controller) : Recordable paths s r := by
  intro active hr
  have hmemory : memory.active = some active := by
    rcases hactive with hsame | hnone
    · exact hsame ▸ hr
    · cases hnone.symm.trans hr
  obtain ⟨-, hless, hroot⟩ := h.recorded memory active hreport hmemory
  refine ⟨?_, hcontroller ▸ hless, hroot⟩
  rcases hstatus with hrunning | hfailed | hnone
  · exact .inl hrunning
  · exact .inr hfailed
  · cases hnone.symm.trans hr

/-- **What a step keeps.** -/
theorem ReadinessFacts.step (h : ReadinessFacts paths s) (hstep : ReadinessStep paths shelfRoot runRoot s event t) :
    ReadinessFacts paths t := by
  cases hstep with
  | enter complete profiles compatibility hlock => exact h.enter hlock rfl rfl
  | refuse hlock hphase hdecision =>
      refine h.unlock fun c hc => .inl ?_
      cases hlock.symm.trans hc
      exact (h.controller _ hlock).2.idle fun _ _ hwaiting => by cases hphase.symm.trans hwaiting
  | @recover c prior active profileRoot answers live hlock hphase hdecision hstops =>
      obtain ⟨hless, hfacts⟩ := h.controller c hlock
      obtain ⟨hreport, hactive, hstatus, hresolve⟩ := recorded_of_recover hdecision
      obtain ⟨-, -, root, hroot, hsettled⟩ := h.recorded prior active hreport hactive
      obtain rfl : root = profileRoot := by
        rw [hroot, hsettled] at hresolve
        exact Option.some.inj hresolve
      have hne := hfacts.entered hphase prior hreport (by rw [hactive]; exact Option.some_ne_none _)
      have hidle := hfacts.idle fun _ _ hwaiting => by cases hphase.symm.trans hwaiting
      refine (h.setLive root live).goTo hlock ?_
      constructor
      · intro hother
        cases hother
      · intro _ _ _ _ hother
        cases hother
        exact ⟨hreport, hactive, ⟨prior, active, hreport, hactive, hstatus, hroot, rfl⟩, hne⟩
      · intro _ _ hother
        cases hother
      · intro _ _ hother
        cases hother
      · intro worker hworker
        cases hidle.symm.trans hworker
  | @reportInterrupted c prior active profileRoot stopped hlock hphase =>
      obtain ⟨hless, hfacts⟩ := h.controller c hlock
      obtain ⟨hreport, hactive, hrecording, hne⟩ := hfacts.recovered hphase
      refine h.conclude hlock (h.recordable_underWay hreport ?_ ?_ rfl)
        (hfacts.idle fun _ _ hwaiting => by cases hphase.symm.trans hwaiting)
      · cases stopped with
        | true => exact .inr rfl
        | false => exact .inl hactive.symm
      · cases stopped with
        | true => exact .inr (.inr rfl)
        | false => exact .inr (.inl rfl)
  | @begin c memory hlock hphase hdecision hmemory =>
      obtain ⟨hless, hfacts⟩ := h.controller c hlock
      have hidle := hfacts.idle fun _ _ hwaiting => by cases hphase.symm.trans hwaiting
      subst hmemory
      refine h.checkpoint hlock (fun active hactive => by cases hactive) ?_
      exact phaseFacts_next rfl hidle rfl rfl rfl rfl
  | @endBefore c memory group rest failureKind hlock hphase hkind =>
      obtain ⟨hless, hfacts⟩ := h.controller c hlock
      obtain ⟨hreport, hactive, -, -⟩ := hfacts.next hphase
      refine h.conclude hlock (h.recordable_underWay hreport (.inr hactive) (.inr (.inr hactive)) rfl)
        (hfacts.idle fun _ _ hwaiting => by cases hphase.symm.trans hwaiting)
  | @activate c memory group rest profileRoot initialLive hlock hphase hroot =>
      obtain ⟨hless, hfacts⟩ := h.controller c hlock
      obtain ⟨hreport, hactive, hstatus, hcontroller⟩ := hfacts.next hphase
      have hidle := hfacts.idle fun _ _ hwaiting => by cases hphase.symm.trans hwaiting
      refine h.checkpoint hlock ?_ ?_
      · intro active hactive
        cases hactive
        exact ⟨.inl hstatus, hcontroller ▸ hless, profileRoot, rfl, settled_profileRootOf hroot⟩
      · refine phaseFacts_underWay rfl rfl ⟨_, _, rfl, rfl, .inl hstatus, rfl, ?_⟩ hstatus hcontroller ?_
        · exact congrArg ControllerRecord.process hcontroller
        · intro worker hworker
          cases hidle.symm.trans hworker
  | @spawn c memory run hlock hphase =>
      obtain ⟨hless, hfacts⟩ := h.controller c hlock
      obtain ⟨hreport, hrecording, hstatus, hcontroller⟩ := hfacts.underWay (by rw [hphase]; rfl)
      refine h.setWorker hlock (phaseFacts_underWay rfl hreport hrecording hstatus hcontroller ?_)
      intro worker hworker
      have hself : worker = ⟨c.record, run.group, run.profileRoot, .starting⟩ :=
        (Option.some.inj ((Function.update_self c.process _ s.workers).symm.trans hworker)).symm
      exact ⟨memory, run, rfl, by rw [hself]⟩
  | @spawnRaises c memory run hlock hphase =>
      obtain ⟨hless, hfacts⟩ := h.controller c hlock
      obtain ⟨hreport, hrecording, hstatus, hcontroller⟩ := hfacts.underWay (by rw [hphase]; rfl)
      have hidle := hfacts.idle fun _ _ hwaiting => by cases hphase.symm.trans hwaiting
      have hunder : (c.goTo (afterWorker paths memory run ⟨1, none⟩)).phase.underWay = some (memory, run) :=
        (underWay_afterWorker paths memory run ⟨1, none⟩).1
      refine h.goTo hlock (phaseFacts_underWay hunder hreport hrecording hstatus hcontroller ?_)
      intro worker hworker
      cases hidle.symm.trans hworker
  | @reap c memory run worker outcome hlock hphase hworker hended =>
      obtain ⟨hless, hfacts⟩ := h.controller c hlock
      obtain ⟨hreport, hrecording, hstatus, hcontroller⟩ := hfacts.underWay (by rw [hphase]; rfl)
      have hunder : (c.goTo (afterWorker paths memory run outcome)).phase.underWay = some (memory, run) :=
        (underWay_afterWorker paths memory run outcome).1
      refine h.setWorker hlock (phaseFacts_underWay hunder hreport hrecording hstatus hcontroller ?_)
      intro found hfound
      have hnone : ((s.setWorker c.process none).goTo c (afterWorker paths memory run outcome)).workers c.process = none :=
        Function.update_self ..
      cases hnone.symm.trans hfound
  | @stop c memory run row passed answers live hlock hphase hstops =>
      obtain ⟨hless, hfacts⟩ := h.controller c hlock
      obtain ⟨hreport, hrecording, hstatus, hcontroller⟩ := hfacts.underWay (by rw [hphase]; rfl)
      have hidle := hfacts.idle fun _ _ hwaiting => by cases hphase.symm.trans hwaiting
      refine (h.setLive _ live).goTo hlock (phaseFacts_underWay rfl hreport hrecording hstatus hcontroller ?_)
      intro worker hworker
      cases hidle.symm.trans hworker
  | @reportEnded c memory run row passed stopped hlock hphase hended =>
      obtain ⟨hless, hfacts⟩ := h.controller c hlock
      obtain ⟨hreport, -, -, -⟩ := hfacts.underWay (by rw [hphase]; rfl)
      refine h.conclude hlock (h.recordable_underWay hreport ?_ ?_ rfl)
        (hfacts.idle fun _ _ hwaiting => by cases hphase.symm.trans hwaiting)
      · cases stopped with
        | true => exact .inr rfl
        | false => exact .inl rfl
      · cases stopped with
        | true => exact .inr (.inr rfl)
        | false => exact .inr (.inl rfl)
  | @reportPassed c memory run row hlock hphase =>
      obtain ⟨hless, hfacts⟩ := h.controller c hlock
      have hunder : c.phase.underWay = some (memory, run) := by
        rcases hphase with hphase | hphase
        · rw [hphase]
          rfl
        · rw [hphase]
          rfl
      obtain ⟨hreport, hrecording, hstatus, hcontroller⟩ := hfacts.underWay hunder
      have hidle := hfacts.idle fun _ _ hwaiting => by
        rcases hphase with hphase | hphase
        · cases hphase.symm.trans hwaiting
        · cases hphase.symm.trans hwaiting
      refine h.checkpoint hlock (fun active hactive => by cases hactive) ?_
      exact phaseFacts_next rfl hidle rfl rfl hstatus hcontroller
  | @finish c memory hlock hphase =>
      obtain ⟨hless, hfacts⟩ := h.controller c hlock
      refine h.conclude hlock (fun active hactive => by cases hactive)
        (hfacts.idle fun _ _ hwaiting => by cases hphase.symm.trans hwaiting)
  | @crash c hlock =>
      refine (h.kill c.process).unlock fun other hother => .inr ?_
      cases hlock.symm.trans hother
      exact Function.update_self ..
  | exit hlock => exact h.kill _
  | work hworker hstep => exact h.work hworker hstep.profileRoot
  | restore hworker hworking => exact h.setLive _ _
  | lose profileRoot => exact h.setLive _ _

theorem readinessFacts_start (h : ReadinessStart s) : ReadinessFacts paths s where
  fresh process _ := ⟨h.workers process, h.alive process⟩
  recorded r active hreport hactive := by cases (h.report r hreport).symm.trans hactive
  worker process worker hworker := by cases (h.workers process).symm.trans hworker
  controller c hlock := by cases h.controller.symm.trans hlock

theorem readinessFacts_run {start : ReadinessWorld} {events : List ReadinessEvent} (hstart : ReadinessStart start)
    (hrun : Run (ReadinessStep paths shelfRoot runRoot) start events s) : ReadinessFacts paths s :=
  hrun.preserves (fun _ _ _ h hstep => h.step hstep) (readinessFacts_start hstart)

theorem Recording.unique {report : Option Report} {process other : ℕ} {profileRoot profileRoot' : Parts}
    (h : Recording report process profileRoot) (h' : Recording report other profileRoot') :
    process = other ∧ profileRoot = profileRoot' := by
  obtain ⟨r, active, hreport, hactive, -, hroot, rfl⟩ := h
  obtain ⟨r', active', hreport', hactive', -, hroot', rfl⟩ := h'
  cases hreport.symm.trans hreport'
  cases hactive.symm.trans hactive'
  exact ⟨rfl, congrArg RawPath.parts (hroot.symm.trans hroot')⟩

theorem not_recording_of_inactive {r : Report} (hactive : r.active = none) {process : ℕ} {profileRoot : Parts} :
    ¬ Recording (some r) process profileRoot := by
  rintro ⟨r', active, hreport, hother, -⟩
  cases hreport
  cases hactive.symm.trans hother

end

end Hearth.Shelf
