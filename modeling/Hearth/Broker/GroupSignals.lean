import Hearth.Library.ProcessTable

/-!
# Whom a termination signals

`terminate_child` of `proof_run_fork_broker_children.py`, beside a process table in which ids
are used again.  The call looks twice before its first signal: at the birth identity of the
process with the recorded id, and, where this is not the recorded one, at the group.  It takes
a living group for what the registered leader has left behind, whoever leads it now.
-/

namespace Hearth.Broker

open Hearth.Library

/-! ## The call -/

/-- What `register` records of a child; its `pgid` is its `pid`. -/
structure IdentityRecord where
  pid : ℕ
  processIdentity : String
  deriving DecidableEq, Repr

namespace IdentityRecord

variable (record : IdentityRecord) (table : ProcessTable)

/-- `record_is_alive`. -/
def isAlive : Bool :=
  table.processes.any fun process => process.pid = record.pid && process.birth = record.processIdentity

/-- `process_group_is_alive`. -/
def groupIsAlive : Bool :=
  table.processes.any fun process => process.pgid = record.pid

end IdentityRecord

/-- `status` of a termination. -/
inductive CleanupStatus
  | alreadyQuiescent | signalFailed | survivors | orphanedGroupQuiescent | quiescent
  deriving DecidableEq, Repr

/-- `verified_quiescent` of a termination. -/
def CleanupStatus.verifiedQuiescent : CleanupStatus → Bool
  | .alreadyQuiescent | .orphanedGroupQuiescent | .quiescent => true
  | .signalFailed | .survivors => false

/-- The two calls of `wait_for_quiescence`. -/
inductive QuiescenceWait
  | afterTerm | afterKill
  deriving DecidableEq, Repr

/-- Where a call of `terminate_child` is; a wait is in front of `record_is_alive`, or behind it
where the record is not alive. -/
inductive SignalStage
  | inspecting | probing | terminating
  | waiting (wait : QuiescenceWait) (leaderGone : Bool)
  | killing
  | ended (status : CleanupStatus)
  deriving DecidableEq, Repr

/-- What comes behind a wait that has reached its deadline. -/
def QuiescenceWait.overdue : QuiescenceWait → SignalStage
  | .afterTerm => .killing
  | .afterKill => .ended .survivors

/-- The call may still send a signal. -/
def SignalStage.armed : SignalStage → Bool
  | .inspecting | .probing | .terminating | .waiting .afterTerm _ | .killing => true
  | .waiting .afterKill _ | .ended _ => false

structure ChildTermination where
  record : IdentityRecord
  table : ProcessTable
  stage : SignalStage
  leaderLive : Bool
  termSent : Bool
  killSent : Bool
  /-- Whom the signals have reached. -/
  reached : List Process

namespace ChildTermination

variable (call : ChildTermination)

/-- `orphaned_group`. -/
def orphanedGroup : Bool :=
  !call.leaderLive

def goTo (stage : SignalStage) : ChildTermination :=
  { call with stage }

/-- What the call does when a wait finds everything quiescent. -/
def calm : QuiescenceWait → SignalStage
  | .afterTerm => .waiting .afterKill false
  | .afterKill => .ended (if call.orphanedGroup then .orphanedGroupQuiescent else .quiescent)

/-- `os.killpg`: the signal reaches every member of the group. -/
def killpg (stage : SignalStage) : ChildTermination :=
  { call with stage, reached := call.reached ++ call.table.members call.record.pid }

/-- The registered leader lives when its record is made. -/
def start (table : ProcessTable) (leader : Process) : ChildTermination where
  record := ⟨leader.pid, leader.birth⟩
  table
  stage := .inspecting
  leaderLive := false
  termSent := false
  killSent := false
  reached := []

end ChildTermination

/-- What happens next: something in the process table, or a step of the call. -/
inductive SignalEvent
  | table (event : TableEvent)
  | call
  deriving DecidableEq, Repr

/-- The steps of a call.  What cannot be read of a process counts as gone; `PermissionError`
tells of a living group, and a signal that is not permitted reaches nobody. -/
inductive SignalStep (call : ChildTermination) : SignalEvent → ChildTermination → Prop
  | table {event : TableEvent} {after : ProcessTable} (hstep : TableStep call.table event after) :
      SignalStep call (.table event) { call with table := after }
  | inspect (live : Bool) (hstage : call.stage = .inspecting)
      (hlive : live = true → call.record.isAlive call.table = true) :
      SignalStep call .call
        { call with stage := if live then .terminating else .probing, leaderLive := live }
  | probe (alive : Bool) (hstage : call.stage = .probing)
      (halive : alive = true → call.record.groupIsAlive call.table = true) :
      SignalStep call .call (call.goTo (if alive then .terminating else .ended .alreadyQuiescent))
  | term (hstage : call.stage = .terminating) (halive : call.record.groupIsAlive call.table = true) :
      SignalStep call .call { call.killpg (.waiting .afterTerm false) with termSent := true }
  /-- `ProcessLookupError`. -/
  | termMissing (hstage : call.stage = .terminating)
      (hdead : call.record.groupIsAlive call.table = false) :
      SignalStep call .call (call.goTo (.waiting .afterTerm false))
  | termFailed (hstage : call.stage = .terminating) :
      SignalStep call .call (call.goTo (.ended .signalFailed))
  | leaderGone {wait : QuiescenceWait} (hstage : call.stage = .waiting wait false) :
      SignalStep call .call (call.goTo (.waiting wait true))
  | groupGone {wait : QuiescenceWait} (hstage : call.stage = .waiting wait true) :
      SignalStep call .call (call.goTo (call.calm wait))
  /-- The group is alive, and the next round begins. -/
  | again {wait : QuiescenceWait} (hstage : call.stage = .waiting wait true)
      (halive : call.record.groupIsAlive call.table = true) :
      SignalStep call .call (call.goTo (.waiting wait false))
  | leaderLate {wait : QuiescenceWait} (hstage : call.stage = .waiting wait false)
      (hlive : call.record.isAlive call.table = true) :
      SignalStep call .call (call.goTo (wait.overdue))
  | groupLate {wait : QuiescenceWait} (hstage : call.stage = .waiting wait true)
      (halive : call.record.groupIsAlive call.table = true) :
      SignalStep call .call (call.goTo (wait.overdue))
  | kill (hstage : call.stage = .killing) (halive : call.record.groupIsAlive call.table = true) :
      SignalStep call .call { call.killpg (.waiting .afterKill false) with killSent := true }
  | killMissing (hstage : call.stage = .killing)
      (hdead : call.record.groupIsAlive call.table = false) :
      SignalStep call .call (call.goTo (.waiting .afterKill false))
  | killFailed (hstage : call.stage = .killing) :
      SignalStep call .call (call.goTo (.ended .signalFailed))

/-- Everybody that a signal of the call has reached is in the group of the leader. -/
def SparesForeign (leader : Process) (call : ChildTermination) : Prop :=
  ∀ process ∈ call.reached, process.founder = leader.serial

/-! ## Runs without a second use of the id -/

/-- The recorded id is not given to a new process as long as the call may send a signal. -/
structure UnreusedStep (call : ChildTermination) (event : SignalEvent) (after : ChildTermination) :
    Prop where
  step : SignalStep call event after
  unreused : call.stage.armed = true → event ≠ .table (.start call.record.pid)

/-- What holds in every such run. -/
structure OwnSignals (leader : Process) (call : ChildTermination) : Prop where
  record : call.record.pid = leader.pid
  held : call.stage.armed = true → call.table.HeldBy leader.pid leader.serial
  spares : SparesForeign leader call

section

variable {leader : Process} {call after : ChildTermination} {event : SignalEvent}

/-- A step without a signal. -/
theorem OwnSignals.goTo (h : OwnSignals leader call) {stage : SignalStage}
    (hstage : stage.armed = true → call.stage.armed = true) : OwnSignals leader (call.goTo stage) :=
  ⟨h.record, fun harmed => h.held (hstage harmed), h.spares⟩

/-- A signal reaches whoever has the id. -/
theorem OwnSignals.killpg (h : OwnSignals leader call) (harmed : call.stage.armed = true)
    (stage : SignalStage) : SparesForeign leader (call.killpg stage) := by
  intro process hprocess
  rcases List.mem_append.mp hprocess with hbefore | hmember
  · exact h.spares process hbefore
  · obtain ⟨htable, hpgid⟩ := ProcessTable.mem_members.mp hmember
    exact (h.held harmed).group process htable (hpgid.trans h.record)

theorem OwnSignals.step (h : OwnSignals leader call) (hstep : UnreusedStep call event after) :
    OwnSignals leader after := by
  obtain ⟨hstep, hunreused⟩ := hstep
  cases hstep with
  | @table event table hstep =>
      refine ⟨h.record, fun harmed => ?_, h.spares⟩
      refine (h.held harmed).step hstep fun heq => hunreused harmed ?_
      rw [heq, h.record]
  | inspect live hstage hlive =>
      have harmed : call.stage.armed = true := by rw [hstage]; rfl
      exact ⟨h.record, fun _ => h.held harmed, h.spares⟩
  | probe alive hstage halive => exact h.goTo fun _ => by rw [hstage]; rfl
  | term hstage halive =>
      have harmed : call.stage.armed = true := by rw [hstage]; rfl
      exact ⟨h.record, fun _ => h.held harmed, h.killpg harmed (.waiting .afterTerm false)⟩
  | termMissing hstage hdead => exact h.goTo fun _ => by rw [hstage]; rfl
  | termFailed hstage => exact h.goTo nofun
  | @leaderGone wait hstage => exact h.goTo fun harmed => by rw [hstage]; cases wait <;> exact harmed
  | @groupGone wait hstage =>
      refine h.goTo fun harmed => ?_
      cases wait with
      | afterTerm => rw [hstage]; rfl
      | afterKill => cases harmed
  | @again wait hstage halive => exact h.goTo fun harmed => by rw [hstage]; cases wait <;> exact harmed
  | @leaderLate wait hstage hlive =>
      refine h.goTo fun harmed => ?_
      cases wait with
      | afterTerm => rw [hstage]; rfl
      | afterKill => cases harmed
  | @groupLate wait hstage halive =>
      refine h.goTo fun harmed => ?_
      cases wait with
      | afterTerm => rw [hstage]; rfl
      | afterKill => cases harmed
  | kill hstage halive =>
      have harmed : call.stage.armed = true := by rw [hstage]; rfl
      exact ⟨h.record, nofun, h.killpg harmed (.waiting .afterKill false)⟩
  | killMissing hstage hdead => exact h.goTo nofun
  | killFailed hstage => exact h.goTo nofun

end

/-- In a run in which the recorded id is not used again before the last signal, the signals reach
only the group that the registered leader has founded. -/
theorem termination_spares_foreign {events : List TableEvent} {table : ProcessTable} {leader : Process}
    {labels : List SignalEvent} {call : ChildTermination}
    (hreached : Run TableStep .boot events table) (hleader : leader ∈ table.processes)
    (hrun : Run UnreusedStep (.start table leader) labels call) : SparesForeign leader call := by
  have hconsistent := ProcessTable.consistent_of_run hreached
  have hstart : OwnSignals leader (.start table leader) :=
    ⟨rfl, fun _ => hconsistent.heldBy hleader, nofun⟩
  exact (hrun.preserves (fun _ _ _ h hstep => OwnSignals.step h hstep) hstart).spares

/-- A child that is registered under the id 7 by the first process. -/
def registeredLeader : Process := ⟨1, 7, 1, 0, "linux-proc:100"⟩

def registeredTable : ProcessTable := ⟨[registeredLeader, ⟨0, 1, 1, 0, ""⟩], 2⟩

theorem registeredTable_reached : Run TableStep .boot [.start 7] registeredTable :=
  .cons (.start "linux-proc:100" (.head _) (by simp [ProcessTable.Free, ProcessTable.boot])) (.nil _)

/-- A leader that has made its group is signalled, and nobody else. -/
theorem living_leader_signalled : ∃ call : ChildTermination,
    call.reached.length = 1 ∧ SparesForeign registeredLeader call := by
  have hlead : TableStep registeredTable (.lead 1) (registeredTable.regroup 1 7 1) := by
    refine @TableStep.lead _ registeredLeader (.head _) ?_
    simp [registeredTable, registeredLeader]
  have hrun : ∃ call : ChildTermination, call.reached.length = 1 ∧
      Run UnreusedStep (.start registeredTable registeredLeader) [.table (.lead 1), .call, .call] call :=
    ⟨_, rfl, .cons ⟨.table hlead, nofun⟩ (.cons ⟨.inspect true rfl fun _ => rfl, nofun⟩
      (.cons ⟨.term rfl rfl, nofun⟩ (.nil _)))⟩
  obtain ⟨call, hreached, hrun⟩ := hrun
  exact ⟨call, hreached, termination_spares_foreign registeredTable_reached (.head _) hrun⟩

/-! ## A second use of the id -/

/-- A process with another birth identity under the recorded id is not told from a leader that
has ended. -/
theorem orphanedGroup_of_mismatch {call after : ChildTermination} (hstage : call.stage = .inspecting)
    (hmismatch : call.record.isAlive call.table = false) (hstep : SignalStep call .call after) :
    after.orphanedGroup = true ∧ (after.stage = .probing) := by
  cases hstep with
  | inspect live _ hlive =>
      have hdead : live = false := by
        by_contra hne
        rw [hlive (by simpa using hne)] at hmismatch
        cases hmismatch
      subst hdead
      exact ⟨rfl, rfl⟩
  | probe _ h | term h | termMissing h | termFailed h | leaderGone h | groupGone h | again h
  | leaderLate h | groupLate h | kill h | killMissing h | killFailed h =>
      rw [hstage] at h
      cases h

/-- Where the registered leader is not found, whatever group has its id now is signalled as what it has
left behind. -/
theorem group_signalled_of_leader_gone {call : ChildTermination} (hstage : call.stage = .inspecting)
    {process : Process} (hprocess : process ∈ call.table.processes)
    (hgroup : process.pgid = call.record.pid) :
    ∃ after, Run SignalStep call [.call, .call, .call] after ∧ after.orphanedGroup = true ∧
      after.termSent = true ∧ process ∈ after.reached := by
  have halive : call.record.groupIsAlive call.table = true :=
    List.any_eq_true.mpr ⟨process, hprocess, by simpa using hgroup⟩
  have hrun := Run.cons (SignalStep.inspect false hstage nofun)
    (.cons (.probe true rfl fun _ => halive) (.cons (.term rfl halive) (.nil _)))
  refine ⟨_, hrun, rfl, rfl, ?_⟩
  exact List.mem_append_right _ (ProcessTable.mem_members.mpr ⟨hprocess, hgroup⟩)

/-- The registered leader makes its group and ends, the id is given to a second process with a
group of its own, and the signal goes there. -/
theorem reused_leader_signalled : ∃ (labels : List SignalEvent) (call : ChildTermination),
    Run SignalStep (.start registeredTable registeredLeader) labels call ∧
      ¬ SparesForeign registeredLeader call := by
  have hlead : TableStep registeredTable (.lead 1) (registeredTable.regroup 1 7 1) := by
    refine @TableStep.lead _ registeredLeader (.head _) ?_
    simp [registeredTable, registeredLeader]
  have hreap : TableStep (registeredTable.regroup 1 7 1) (.reap 1)
      ((registeredTable.regroup 1 7 1).reap 1) :=
    @TableStep.reap _ ⟨1, 7, 7, 1, "linux-proc:100"⟩ (.head _)
  have hfree : ((registeredTable.regroup 1 7 1).reap 1).Free 7 := by
    intro process hprocess
    rw [List.mem_singleton.mp hprocess]
    decide
  have hagain : TableStep ((registeredTable.regroup 1 7 1).reap 1) (.start 7)
      ⟨[⟨2, 7, 1, 0, "linux-proc:900"⟩, ⟨0, 1, 1, 0, ""⟩], 3⟩ :=
    @TableStep.start _ ⟨0, 1, 1, 0, ""⟩ 7 "linux-proc:900" (.head _) hfree
  have hleadAgain : TableStep ⟨[⟨2, 7, 1, 0, "linux-proc:900"⟩, ⟨0, 1, 1, 0, ""⟩], 3⟩ (.lead 2)
      ⟨[⟨2, 7, 7, 2, "linux-proc:900"⟩, ⟨0, 1, 1, 0, ""⟩], 3⟩ := by
    refine @TableStep.lead _ ⟨2, 7, 1, 0, "linux-proc:900"⟩ (.head _) ?_
    simp
  have hbefore : ∃ call : ChildTermination, call.stage = .inspecting ∧ call.record.pid = 7 ∧
      ⟨2, 7, 7, 2, "linux-proc:900"⟩ ∈ call.table.processes ∧
      Run SignalStep (.start registeredTable registeredLeader)
        [.table (.lead 1), .table (.reap 1), .table (.start 7), .table (.lead 2)] call :=
    ⟨_, rfl, rfl, .head _, .cons (.table hlead) (.cons (.table hreap) (.cons (.table hagain)
      (.cons (.table hleadAgain) (.nil _))))⟩
  obtain ⟨call, hstage, hpid, hmem, hbefore⟩ := hbefore
  obtain ⟨after, hrun, -, -, hreached⟩ := group_signalled_of_leader_gone hstage hmem hpid.symm
  refine ⟨_, after, hbefore.append hrun, fun hspares => ?_⟩
  exact absurd (hspares _ hreached) (by decide)

end Hearth.Broker
