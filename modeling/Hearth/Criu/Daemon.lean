import Mathlib.Data.List.Basic

/-!
# Identity-bound daemons

`criu_lazy_pages_owner.py` and `criu_owned_process_signal.py`: how a recorded process is
looked at, and how it is ended.  What the checks answer is not for the code to choose, so
every check, helper and wait takes the next of a sequence of answers.

The signal helper is the one place that touches a process.  It opens a pidfd, reads the
start ticks of whoever has the pid then, and signals through the pidfd.  A pid stays with a
process until that process is gone, so what is signalled has the ticks that were read.
-/

namespace Hearth.Criu

/-! ## Identities -/

/-- The birth identity that goes with start ticks. -/
def linuxProc (ticks : ℕ) : String :=
  s!"linux-proc:{ticks}"

/-- A recorded identity that `_validate_daemon` or `_validate_birth_record` accepts: its birth
identity is the one of its ticks. -/
structure Birth where
  pid : ℕ
  startTicks : ℕ
  pid_pos : 0 < pid
  startTicks_pos : 0 < startTicks

/-- What one look at a pid answers. -/
structure Probe where
  alive : Bool
  startTicks : Option ℕ
  birthIdentity : Option String
  deriving DecidableEq, Repr

/-- The outcome of an identity check. -/
inductive Liveness
  | gone | unavailable | replaced | exact
  deriving DecidableEq, Repr

/-- The recorded process is not there any more. -/
def Liveness.settled : Liveness → Bool
  | .gone | .replaced => true
  | .unavailable | .exact => false

/-- `daemon_liveness`; `_pending_launcher_liveness` asks the same of a launcher. -/
def daemonLiveness (daemon : Birth) (probe : Probe) : Liveness :=
  if probe.alive then
    match probe.startTicks, probe.birthIdentity with
    | some ticks, some identity =>
        if identity ≠ linuxProc ticks then .unavailable
        else if ticks ≠ daemon.startTicks ∨ identity ≠ linuxProc daemon.startTicks then .replaced
        else .exact
    | _, _ => .unavailable
  else .gone

/-! ## The signal helper -/

/-- A process, told apart from every other by its serial number. -/
structure Process where
  serial : ℕ
  startTicks : ℕ
  deriving DecidableEq, Repr

/-- Who has a pid from moment to moment.  A process that is gone does not come back to it. -/
structure PidHistory where
  occupant : ℕ → Option Process
  convex : ∀ first middle last process, first ≤ middle → middle ≤ last →
    occupant first = some process → occupant last = some process → occupant middle = some process

/-- One run of the helper: the moments of its three calls, and what can fail about it. -/
structure HelperRun where
  history : PidHistory
  opened : ℕ
  read : ℕ
  sent : ℕ
  read_ge : opened ≤ read
  sent_ge : read ≤ sent
  /-- `sudo` does not start it. -/
  unstarted : Bool
  /-- `/proc/<pid>/stat` cannot be read. -/
  unreadable : Bool
  /-- Its answer is lost or malformed. -/
  lost : Bool

/-- The status that comes back from the helper. -/
inductive HelperStatus
  | signalled | alreadyQuiescent | identityMismatch | identityUnavailable | signalFailed
  deriving DecidableEq, Repr

/-- `signal_exact_process`, and the process that the signal is delivered to. -/
def signalExactProcess (run : HelperRun) (expected : ℕ) : HelperStatus × Option Process :=
  match run.history.occupant run.opened with
  | none => (.alreadyQuiescent, none)
  | some process =>
      match if run.unreadable then none else (run.history.occupant run.read).map Process.startTicks with
      | none => (.identityUnavailable, none)
      | some actual =>
          if actual ≠ expected then (.identityMismatch, none)
          else if run.history.occupant run.sent = some process then (.signalled, some process)
          else (.alreadyQuiescent, none)

/-- `privileged_pidfd_signal`. -/
def privilegedPidfdSignal (run : HelperRun) (expected : ℕ) : HelperStatus × Option Process :=
  if run.unstarted then (.signalFailed, none)
  else
    match signalExactProcess run expected with
    | (status, delivered) => (if run.lost then .signalFailed else status, delivered)

/-- Who is signalled has the expected ticks. -/
theorem signalExactProcess_startTicks {run : HelperRun} {expected : ℕ} {process : Process}
    (h : (signalExactProcess run expected).2 = some process) : process.startTicks = expected := by
  unfold signalExactProcess at h
  split at h
  · cases h
  · rename_i opened hopened
    split at h
    · cases h
    · rename_i actual hactual
      split at h
      · cases h
      · rename_i hexpected
        split at h
        · rename_i hsent
          obtain rfl := Option.some.inj h
          -- The process of the pidfd had the pid when the ticks were read.
          have hread := run.history.convex _ _ _ _ run.read_ge run.sent_ge hopened hsent
          rw [hread] at hactual
          split at hactual
          · cases hactual
          · obtain rfl := Option.some.inj hactual
            exact not_not.mp hexpected
        · cases h

theorem privilegedPidfdSignal_startTicks {run : HelperRun} {expected : ℕ} {process : Process}
    (h : (privilegedPidfdSignal run expected).2 = some process) : process.startTicks = expected := by
  unfold privilegedPidfdSignal at h
  split at h
  · cases h
  · exact signalExactProcess_startTicks h

/-! ## The answers, and what was done -/

/-- What a durable removal of a file meets. -/
inductive UnlinkOutcome
  | removed
  /-- The file stays, and `OSError` is raised. -/
  | refused
  /-- The file is gone, and the directory cannot be synced. -/
  | unsynced
  deriving DecidableEq, Repr

/-- Everything that the environment answers: the `n`-th check of a pid, run of the helper,
number of looks of a wait, and removal; and whether a receipt can be written. -/
structure Environment where
  probe : ℕ → ℕ → Probe
  helper : ℕ → HelperRun
  looks : ℕ → ℕ
  unlink : ℕ → UnlinkOutcome
  receipt : Bool

/-- A file of the image directory, resolved. -/
structure ImageFile where
  parent : String
  name : String
  deriving DecidableEq, Repr

/-- What was asked and done so far. -/
structure Progress where
  checks : ℕ
  helpers : ℕ
  waits : ℕ
  unlinks : ℕ
  /-- The pids that were signalled, with the process that had it. -/
  signalled : List (ℕ × Process)
  files : List ImageFile
  deriving DecidableEq, Repr

namespace Environment

variable (env : Environment)

/-- An identity check of a recorded process. -/
def check (birth : Birth) (progress : Progress) : Liveness × Progress :=
  (daemonLiveness birth (env.probe progress.checks birth.pid),
    { progress with checks := progress.checks + 1 })

/-- `signal_exact`. -/
def signalExact (daemon : Birth) (progress : Progress) : HelperStatus × Progress :=
  let answer := privilegedPidfdSignal (env.helper progress.helpers) daemon.startTicks
  (answer.1,
    { progress with
      helpers := progress.helpers + 1
      signalled := progress.signalled ++ (answer.2.map (Prod.mk daemon.pid)).toList })

/-- The loop of `wait_for_quiescence` with `owned_alive`: whether the process was found gone
before the last look. -/
def look (daemon : Birth) : ℕ → Progress → Bool × Progress
  | 0, progress =>
      match env.check daemon progress with
      | (liveness, after) => (liveness.settled, after)
  | looks + 1, progress =>
      match env.check daemon progress with
      | (liveness, after) => if liveness.settled then (true, after) else look daemon looks after

/-- `wait_for_quiescence`. -/
def wait (daemon : Birth) (progress : Progress) : Bool × Progress :=
  env.look daemon (env.looks progress.waits) { progress with waits := progress.waits + 1 }

end Environment

/-- What a cleanup reports. -/
structure Cleanup where
  status : String
  verifiedQuiescent : Bool
  reason : Option String
  survivingPids : List ℕ
  deriving DecidableEq, Repr

def Cleanup.quiescent (reason : Option String) : Cleanup :=
  ⟨"quiescent", true, reason, []⟩

def Cleanup.unverified (reason : String) (surviving : List ℕ) : Cleanup :=
  ⟨"unverified", false, some reason, surviving⟩

def Liveness.text : Liveness → String
  | .gone => "gone"
  | .unavailable => "unavailable"
  | .replaced => "replaced"
  | .exact => "exact"

def HelperStatus.text : HelperStatus → String
  | .signalled => "signalled"
  | .alreadyQuiescent => "already_quiescent"
  | .identityMismatch => "identity_mismatch"
  | .identityUnavailable => "identity_unavailable"
  | .signalFailed => "signal_failed"

namespace Environment

variable (env : Environment)

/-- `classify_after_helper`: the helper found the process gone or another one, and the parent
looks again. -/
def classifyAfterHelper (daemon : Birth) (status : HelperStatus) (signal : String)
    (progress : Progress) : Option Cleanup × Progress :=
  if status = .alreadyQuiescent ∨ status = .identityMismatch then
    match env.check daemon progress with
    | (rechecked, after) =>
        let reason :=
          s!"identity-bound {signal} reported {status.text}; parent recheck found {rechecked.text}"
        if rechecked.settled then (some (.quiescent (some reason)), after)
        else (some (.unverified reason [daemon.pid]), after)
  else (none, progress)

/-- After a signal: what the helper and the recheck make of it, or the wait that follows. -/
def settleSignal (daemon : Birth) (signal : String) (progress : Progress)
    (overdue : Progress → Cleanup × Progress) : Cleanup × Progress :=
  match env.signalExact daemon progress with
  | (status, sent) =>
      match env.classifyAfterHelper daemon status signal sent with
      | (some cleanup, after) => (cleanup, after)
      | (none, after) =>
          if status ≠ .signalled then
            (.unverified s!"identity-bound {signal} reported {status.text}" [daemon.pid], after)
          else
            match env.wait daemon after with
            | (true, last) => (.quiescent none, last)
            | (false, last) => overdue last

/-- `terminate_owned_daemon`; `terminate_bound_daemon` is the same of a validated identity. -/
def terminateOwnedDaemon (daemon : Birth) (progress : Progress) : Cleanup × Progress :=
  match env.check daemon progress with
  | (initial, checked) =>
      if initial.settled then
        (.quiescent (some s!"bound daemon birth identity is {initial.text}"), checked)
      else if initial ≠ .exact then
        (.unverified "bound daemon appears live but its birth identity is unavailable" [daemon.pid],
          checked)
      else
        env.settleSignal daemon "TERM" checked fun overdue =>
          env.settleSignal daemon "KILL" overdue fun last =>
            (⟨"survivors", false, none, [daemon.pid]⟩, last)

end Environment

/-! ## What a termination does -/

/-- From one point of a recovery to a later one, no file is removed and nobody is signalled but
the recorded process. -/
structure Attends (daemon : Birth) (before after : Progress) : Prop where
  files : after.files = before.files
  checks : before.checks ≤ after.checks
  signalled : ∀ signal ∈ after.signalled, signal ∈ before.signalled ∨
    signal.1 = daemon.pid ∧ signal.2.startTicks = daemon.startTicks

/-- The last check of a process found it gone or replaced. -/
def Environment.Settled (env : Environment) (daemon : Birth) (progress : Progress) : Prop :=
  ∃ last, progress.checks = last + 1 ∧
    (daemonLiveness daemon (env.probe last daemon.pid)).settled = true

section

variable {env : Environment} {daemon : Birth} {before middle after progress : Progress}

theorem Attends.refl : Attends daemon before before :=
  ⟨rfl, Nat.le_refl _, fun _ => .inl⟩

theorem Attends.trans (h : Attends daemon before middle) (h' : Attends daemon middle after) :
    Attends daemon before after := by
  refine ⟨h'.files.trans h.files, Nat.le_trans h.checks h'.checks, ?_⟩
  intro signal hsignal
  rcases h'.signalled signal hsignal with hold | hnew
  · exact h.signalled signal hold
  · exact .inr hnew

theorem check_attends (env : Environment) (daemon : Birth) (progress : Progress) :
    Attends daemon progress (env.check daemon progress).2 :=
  ⟨rfl, Nat.le_succ _, fun _ => .inl⟩

theorem check_settled (h : (env.check daemon progress).1.settled = true) :
    env.Settled daemon (env.check daemon progress).2 :=
  ⟨progress.checks, rfl, h⟩

theorem signalExact_attends : Attends daemon progress (env.signalExact daemon progress).2 := by
  refine ⟨rfl, Nat.le_refl _, ?_⟩
  intro signal hsignal
  rcases List.mem_append.mp hsignal with hold | hnew
  · exact .inl hold
  · obtain ⟨process, hdelivered, rfl⟩ := Option.map_eq_some_iff.mp (Option.mem_toList.mp hnew)
    exact .inr ⟨rfl, privilegedPidfdSignal_startTicks hdelivered⟩

theorem look_attends {looks : ℕ} : Attends daemon progress (env.look daemon looks progress).2 := by
  induction looks generalizing progress with
  | zero => exact check_attends env daemon progress
  | succ looks ih =>
      unfold Environment.look
      dsimp only
      split
      · exact check_attends env daemon progress
      · exact (check_attends env daemon progress).trans ih

theorem look_settled {looks : ℕ} (h : (env.look daemon looks progress).1 = true) :
    env.Settled daemon (env.look daemon looks progress).2 := by
  induction looks generalizing progress with
  | zero => exact check_settled h
  | succ looks ih =>
      unfold Environment.look at h ⊢
      dsimp only at h ⊢
      by_cases hsettled : (env.check daemon progress).1.settled = true
      · rw [if_pos hsettled]
        exact check_settled hsettled
      · rw [if_neg hsettled] at h ⊢
        exact ih h

theorem wait_attends : Attends daemon progress (env.wait daemon progress).2 := by
  have hlooked : Attends daemon { progress with waits := progress.waits + 1 }
      (env.wait daemon progress).2 := look_attends
  exact ⟨hlooked.files, hlooked.checks, hlooked.signalled⟩

/-- What a termination keeps to, and what its verification means. -/
structure Terminates (env : Environment) (daemon : Birth) (before : Progress)
    (result : Cleanup × Progress) : Prop where
  attends : Attends daemon before result.2
  settled : result.1.verifiedQuiescent = true → env.Settled daemon result.2

theorem Terminates.later {result : Cleanup × Progress} (h : Terminates env daemon middle result)
    (hbefore : Attends daemon before middle) : Terminates env daemon before result :=
  ⟨hbefore.trans h.attends, h.settled⟩

theorem classifyAfterHelper_terminates {status : HelperStatus} {signal : String} {cleanup : Cleanup}
    {last : Progress}
    (h : env.classifyAfterHelper daemon status signal progress = (some cleanup, last)) :
    Terminates env daemon progress (cleanup, last) := by
  unfold Environment.classifyAfterHelper at h
  split at h
  · dsimp only at h
    split at h
    · rename_i hsettled
      cases h
      exact ⟨check_attends env daemon progress, fun _ => check_settled hsettled⟩
    · cases h
      exact ⟨check_attends env daemon progress, nofun⟩
  · cases h

theorem classifyAfterHelper_none {status : HelperStatus} {signal : String} {last : Progress}
    (h : env.classifyAfterHelper daemon status signal progress = (none, last)) : last = progress := by
  unfold Environment.classifyAfterHelper at h
  split at h
  · dsimp only at h
    split at h <;> cases h
  · cases h
    rfl

theorem settleSignal_terminates {signal : String} {overdue : Progress → Cleanup × Progress}
    (hoverdue : ∀ last, Terminates env daemon last (overdue last)) :
    Terminates env daemon progress (env.settleSignal daemon signal progress overdue) := by
  unfold Environment.settleSignal
  have hsent := @signalExact_attends env daemon progress
  split
  rename_i status sent hstatus
  rw [hstatus] at hsent
  split
  · rename_i cleanup last hclassified
    exact (classifyAfterHelper_terminates hclassified).later hsent
  · rename_i last hclassified
    obtain rfl := classifyAfterHelper_none hclassified
    split
    · exact ⟨hsent, nofun⟩
    · have hwaited := @wait_attends env daemon last
      split
      · rename_i final hwait
        have hquiet := @look_settled env daemon { last with waits := last.waits + 1 }
          (env.looks last.waits)
        rw [show env.look daemon _ _ = (true, final) from hwait] at hquiet
        rw [hwait] at hwaited
        exact ⟨hsent.trans hwaited, fun _ => hquiet rfl⟩
      · rename_i final hwait
        rw [hwait] at hwaited
        exact (hoverdue final).later (hsent.trans hwaited)

theorem terminateOwnedDaemon_terminates :
    Terminates env daemon progress (env.terminateOwnedDaemon daemon progress) := by
  unfold Environment.terminateOwnedDaemon
  dsimp only
  split
  · rename_i hsettled
    exact ⟨check_attends env daemon progress, fun _ => check_settled hsettled⟩
  · split
    · exact ⟨check_attends env daemon progress, nofun⟩
    · refine Terminates.later (settleSignal_terminates fun overdue => ?_) (check_attends env daemon progress)
      exact settleSignal_terminates fun last => ⟨.refl, nofun⟩

end

end Hearth.Criu
