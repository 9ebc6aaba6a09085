import Hearth.Library.ProcessTable
import Mathlib.Data.List.Sort

/-!
# The stop of a warm session

`stop_warm_session` of `proof_run_warm_stop.py`, beside a basis that may still fork and a broker
that still registers the children.  The call reads the registry of the children three times:
before its first wait, after the request to stop, and after the groups that did not go by
themselves were terminated.  It is verified when the last wait finds no process alive in any
group it has come to know and no reading of the registry failed.

A process leaves the table here when it ends: what is left of it until it is reaped runs nothing,
and a wait or a probe may still take it for alive.  Ids are not used again.  A reading of the
registry sees one version of the file, and a wait looks at one group at one moment.
-/

namespace Hearth.Processes

open Hearth.Library

/-! ## What is recorded -/

/-- What `register` records of a child. -/
structure ChildRecord where
  pid : ℕ
  pgid : ℕ
  processIdentity : Option String
  deriving DecidableEq, Repr

/-- What `session.json` records of the worker and of the basis. -/
structure WarmSession where
  forkBasis : Bool
  workerPid : Option ℕ
  workerPgid : Option ℕ
  workerIdentity : Option String
  basisPid : Option ℕ
  basisPgid : Option ℕ
  holPid : Option ℕ
  basisIdentity : Option String
  deriving DecidableEq, Repr

/-- `a or b or c` of recorded ids, where none of them may be left. -/
def firstRecorded (values : List (Option ℕ)) : Option ℕ :=
  values.findSome? fun value => value.filter (· ≠ 0)

namespace WarmSession

variable (session : WarmSession)

/-- `basis_pgid or basis_pid or hol_pid`. -/
def basisGroup : Option ℕ :=
  firstRecorded [session.basisPgid, session.basisPid, session.holPid]

/-- `worker_pgid or worker_pid`. -/
def workerGroup : Option ℕ :=
  firstRecorded [session.workerPgid, session.workerPid]

/-- The process whose identity stands for the basis. -/
def basisProcess : Option ℕ :=
  firstRecorded [session.basisPid, session.holPid]

/-- The processes of `_process_targets` that have an id. -/
def processTargets : List ℕ :=
  (session.workerPid.toList ++ session.basisProcess.toList).filter (0 < ·)

end WarmSession

/-- `if pgid not in owned_pgids: owned_pgids.append(pgid)`. -/
def addGroup (owned : List ℕ) (pgid : ℕ) : List ℕ :=
  if pgid ∈ owned then owned else owned ++ [pgid]

/-- `_active_child_records`, and whether it has an error; `answer` is what the registry holds,
if it can be read. -/
def activeChildRecords (session : WarmSession) (answer : Option (List ChildRecord)) :
    List ChildRecord × Bool :=
  if session.forkBasis then
    match answer with
    | some records => (records, false)
    | none => ([], true)
  else ([], false)

/-- `_target_groups`. -/
def targetGroups (session : WarmSession) (children : List ChildRecord) : List ℕ :=
  (session.basisGroup.toList ++ session.workerGroup.toList).foldl addGroup (children.map ChildRecord.pgid)

/-- `records_by_pgid[pgid] = record`. -/
def putRecord (records : List ChildRecord) (record : ChildRecord) : List ChildRecord :=
  if records.any (·.pgid = record.pgid) then
    records.map fun other => if other.pgid = record.pgid then record else other
  else records ++ [record]

/-- What a termination is asked for. -/
structure EscalationTarget where
  pgid : ℕ
  identityPid : Option ℕ
  expectedIdentity : Option String
  deriving DecidableEq, Repr

def ChildRecord.target (record : ChildRecord) : EscalationTarget :=
  ⟨record.pgid, some record.pid, record.processIdentity⟩

/-- Whose identity stands for a group. -/
def escalationTarget (session : WarmSession) (records : List ChildRecord) (pgid : ℕ) :
    EscalationTarget :=
  match records.find? (·.pgid = pgid) with
  | some record => ⟨pgid, some record.pid, record.processIdentity⟩
  | none =>
      if session.basisGroup = some pgid then ⟨pgid, session.basisProcess, session.basisIdentity⟩
      else ⟨pgid, session.workerPid, session.workerIdentity⟩

/-- The groups in the order of their termination: the children, the basis, the worker. -/
def escalationTargets (session : WarmSession) (records : List ChildRecord) : List EscalationTarget :=
  ((targetGroups session records).filter (0 < ·)).map (escalationTarget session records)

/-! ## The call -/

/-- `status` of `terminate_process_group`. -/
inductive TerminateStatus
  | alreadyQuiescent | identityMismatch | identityUnavailable | signalFailed | quiescent | survivors
  deriving DecidableEq, Repr

/-- The group was seen without a member. -/
def TerminateStatus.quiet : TerminateStatus → Bool
  | .alreadyQuiescent | .quiescent => true
  | .identityMismatch | .identityUnavailable | .signalFailed | .survivors => false

/-- Where a call of `terminate_process_group` is; `killing` is behind the first grace. -/
inductive TerminateStage
  | inspecting
  | identifying (killing : Bool)
  | signalling (killing : Bool)
  | waiting (killing : Bool)
  deriving DecidableEq, Repr

/-- The three calls of `wait_for_owned_processes`. -/
inductive StopWait
  | initial | cooperative | final
  deriving DecidableEq, Repr

/-- Where the call is; `late` is behind the last reading of the registry. -/
inductive StopStage
  | reading
  /-- In a round of a wait, with the processes and the groups that this round has not looked at. -/
  | waiting (wait : StopWait) (pids groups : List ℕ)
  | requesting
  | refreshing
  | escalating (late : Bool) (todo : List EscalationTarget)
  | terminating (late : Bool) (target : EscalationTarget) (stage : TerminateStage)
      (todo : List EscalationTarget)
  | finalReading
  | ended (verified : Bool)
  deriving DecidableEq, Repr

/-- One row of `escalations`. -/
structure Escalation where
  pgid : ℕ
  status : TerminateStatus
  deriving DecidableEq, Repr

/-- A warm session of a fork basis whose groups are recorded. -/
structure ForkSession where
  session : WarmSession
  basis : ℕ
  worker : ℕ
  engine : session.forkBasis = true
  basisRecorded : session.basisGroup = some basis
  workerRecorded : session.workerGroup = some worker

/-- The processes, the registry and the call. -/
structure StopState where
  table : ProcessTable
  /-- The ids that were given to a process so far. -/
  used : List ℕ
  registry : List ChildRecord
  /-- The groups that were registered so far. -/
  ever : List ℕ
  stage : StopStage
  /-- `owned_pgids`. -/
  owned : List ℕ
  /-- `records_by_pgid`. -/
  records : List ChildRecord
  escalations : List Escalation
  /-- `registry_error is not None`. -/
  registryError : Bool
  /-- `cooperative["status"] == "quiescent"`. -/
  cooperative : Bool
  /-- Whom the signals have reached. -/
  reached : List Process

namespace StopState

variable (fork : ForkSession) (s : StopState)

/-- A group of the session. -/
def Watched (pgid : ℕ) : Prop :=
  pgid = fork.basis ∨ pgid = fork.worker ∨ pgid ∈ s.ever

/-- No process is alive in the group. -/
def Dead (pgid : ℕ) : Prop :=
  ∀ process ∈ s.table.processes, process.pgid ≠ pgid

/-- What the processes do: an id is not given again, a process leaves the group of the basis only
when it is registered, and the leaders and the groups of the session are not moved. -/
def Allows : TableEvent → Prop
  | .start pid => 0 < pid ∧ pid ∉ s.used
  | .lead serial => ∀ process ∈ s.table.processes, process.serial = serial →
      process.pgid = fork.basis → ∃ record ∈ s.registry, record.pgid = process.pid
  | .join serial target =>
      (∀ process ∈ s.table.processes, process.serial = serial →
        process.pgid ≠ fork.basis ∧ ¬ s.Watched fork process.pid) ∧
      ∀ process ∈ s.table.processes, process.serial = target → ¬ s.Watched fork process.pgid
  | .reap _ => True

/-- The ids used, behind an event of the table. -/
def usedBehind : TableEvent → List ℕ
  | .start pid => pid :: s.used
  | .lead _ | .join _ _ | .reap _ => s.used

/-- `register`: the file lists the children by their groups. -/
def register (record : ChildRecord) : StopState :=
  { s with
    registry := (s.registry.filter (·.pgid ≠ record.pgid)).orderedInsert (·.pgid ≤ ·.pgid) record
    ever := record.pgid :: s.ever }

/-- `unregister`. -/
def unregister (pgid : ℕ) : StopState :=
  { s with registry := s.registry.filter (·.pgid ≠ pgid) }

def goTo (stage : StopStage) : StopState :=
  { s with stage }

/-- The first round of a wait. -/
def beginWait (wait : StopWait) : StopState :=
  s.goTo (.waiting wait fork.session.processTargets (s.owned.filter (0 < ·)))

/-- Behind a wait that has found everything quiescent. -/
def quiesced : StopWait → StopState
  | .initial => s.goTo .refreshing
  | .cooperative => { s with stage := .finalReading, cooperative := true }
  | .final => s.goTo (.ended (!s.registryError))

/-- Behind a wait that has reached its deadline. -/
def overdue : StopWait → StopState
  | .initial => s.goTo .requesting
  | .cooperative => s.goTo (.escalating false (escalationTargets fork.session s.records))
  | .final => s.goTo (.ended false)

/-- The groups of a later reading are added to what is known. -/
def learn (answer : Option (List ChildRecord)) : StopState :=
  let read := activeChildRecords fork.session answer
  { s with
    owned := (read.1.map ChildRecord.pgid).foldl addGroup s.owned
    registryError := s.registryError || read.2 }

/-- The second reading, which also keeps the records. -/
def refresh (answer : Option (List ChildRecord)) : StopState :=
  { s.learn fork answer with
    records := (activeChildRecords fork.session answer).1.foldl putRecord s.records }

/-- The first reading. -/
def start (answer : Option (List ChildRecord)) : StopState :=
  let read := activeChildRecords fork.session answer
  { s with
    owned := targetGroups fork.session read.1
    records := read.1.foldl putRecord []
    registryError := read.2 }

/-- The children of the last reading that no escalation was about. -/
def lateTargets (answer : Option (List ChildRecord)) : List EscalationTarget :=
  ((activeChildRecords fork.session answer).1.filter
    fun record => record.pgid ∉ s.escalations.map Escalation.pgid).map ChildRecord.target

/-- A termination has ended. -/
def settle (late : Bool) (todo : List EscalationTarget) (pgid : ℕ) (status : TerminateStatus) :
    StopState :=
  { s with stage := .escalating late todo, escalations := s.escalations ++ [⟨pgid, status⟩] }

/-- `signal_group`: the signal reaches every member of the group. -/
def signal (late : Bool) (target : EscalationTarget) (killing : Bool) (todo : List EscalationTarget) :
    StopState :=
  { s with
    stage := .terminating late target (.waiting killing) todo
    reached := s.reached ++ s.table.members target.pgid }

/-- What a reading of the registry answers. -/
def Answers (answer : Option (List ChildRecord)) : Prop :=
  ∀ records, answer = some records → records = s.registry

end StopState

/-- What happens next: something in the process table, in the registry, or a step of the call. -/
inductive StopEvent
  | table (event : TableEvent)
  | register (pgid : ℕ)
  | unregister (pgid : ℕ)
  | call
  deriving DecidableEq, Repr

/-- The steps of the system. -/
inductive StopStep (fork : ForkSession) (s : StopState) : StopEvent → StopState → Prop
  | table {event : TableEvent} {after : ProcessTable} (hstep : TableStep s.table event after)
      (hallows : s.Allows fork event) :
      StopStep fork s (.table event) { s with table := after, used := s.usedBehind event }
  | register {process : Process} {identity : Option String} (hprocess : process ∈ s.table.processes)
      (hgroup : process.pgid = fork.basis) (hchild : process.pid ≠ fork.basis)
      (hidentity : ∀ birth, identity = some birth → birth = process.birth) :
      StopStep fork s (.register process.pid) (s.register ⟨process.pid, process.pid, identity⟩)
  /-- The child and its group are gone. -/
  | unregister {pgid : ℕ}
      (hgone : ∀ process ∈ s.table.processes, process.pid ≠ pgid ∧ process.pgid ≠ pgid) :
      StopStep fork s (.unregister pgid) (s.unregister pgid)
  | read {answer : Option (List ChildRecord)} (hstage : s.stage = .reading) (hanswer : s.Answers answer) :
      StopStep fork s .call ((s.start fork answer).beginWait fork .initial)
  -- the three waits
  | pidQuiet {wait : StopWait} {pids groups : List ℕ} {pid : ℕ}
      (hstage : s.stage = .waiting wait pids groups)
      (hquiet : ∀ process ∈ s.table.processes, process.pid ≠ pid) :
      StopStep fork s .call (s.goTo (.waiting wait (pids.erase pid) groups))
  | groupQuiet {wait : StopWait} {pids groups : List ℕ} {pgid : ℕ}
      (hstage : s.stage = .waiting wait pids groups) (hquiet : s.Dead pgid) :
      StopStep fork s .call (s.goTo (.waiting wait pids (groups.erase pgid)))
  | again {wait : StopWait} {pids groups : List ℕ} (hstage : s.stage = .waiting wait pids groups) :
      StopStep fork s .call (s.beginWait fork wait)
  | quiescent {wait : StopWait} (hstage : s.stage = .waiting wait [] []) :
      StopStep fork s .call (s.quiesced wait)
  | overdue {wait : StopWait} {pids groups : List ℕ} (hstage : s.stage = .waiting wait pids groups) :
      StopStep fork s .call (s.overdue fork wait)
  /-- `request_stop` returns or raises. -/
  | request (hstage : s.stage = .requesting) : StopStep fork s .call (s.goTo .refreshing)
  | refresh {answer : Option (List ChildRecord)} (hstage : s.stage = .refreshing)
      (hanswer : s.Answers answer) :
      StopStep fork s .call ((s.refresh fork answer).beginWait fork .cooperative)
  -- the terminations
  | next {late : Bool} {target : EscalationTarget} {todo : List EscalationTarget}
      (hstage : s.stage = .escalating late (target :: todo)) :
      StopStep fork s .call (s.goTo (.terminating late target .inspecting todo))
  | groupGone {late : Bool} {target : EscalationTarget} {todo : List EscalationTarget}
      (hstage : s.stage = .terminating late target .inspecting todo) (hdead : s.Dead target.pgid) :
      StopStep fork s .call (s.settle late todo target.pgid .alreadyQuiescent)
  | groupFound {late : Bool} {target : EscalationTarget} {todo : List EscalationTarget}
      (hstage : s.stage = .terminating late target .inspecting todo) :
      StopStep fork s .call (s.goTo (.terminating late target (.identifying false) todo))
  | identify {late killing : Bool} {target : EscalationTarget} {todo : List EscalationTarget}
      {process : Process} (hstage : s.stage = .terminating late target (.identifying killing) todo)
      (hprocess : process ∈ s.table.processes) (hpid : target.identityPid = some process.pid)
      (hbirth : target.expectedIdentity = some process.birth) :
      StopStep fork s .call (s.goTo (.terminating late target (.signalling killing) todo))
  | unidentified {late killing mismatch : Bool} {target : EscalationTarget}
      {todo : List EscalationTarget}
      (hstage : s.stage = .terminating late target (.identifying killing) todo) :
      StopStep fork s .call (s.settle late todo target.pgid
        (if mismatch then .identityMismatch else .identityUnavailable))
  | signal {late killing : Bool} {target : EscalationTarget} {todo : List EscalationTarget}
      (hstage : s.stage = .terminating late target (.signalling killing) todo) :
      StopStep fork s .call (s.signal late target killing todo)
  | signalFailed {late killing : Bool} {target : EscalationTarget} {todo : List EscalationTarget}
      (hstage : s.stage = .terminating late target (.signalling killing) todo) :
      StopStep fork s .call (s.settle late todo target.pgid .signalFailed)
  | groupQuiescent {late killing : Bool} {target : EscalationTarget} {todo : List EscalationTarget}
      (hstage : s.stage = .terminating late target (.waiting killing) todo)
      (hdead : s.Dead target.pgid) :
      StopStep fork s .call (s.settle late todo target.pgid .quiescent)
  | termOverdue {late : Bool} {target : EscalationTarget} {todo : List EscalationTarget}
      (hstage : s.stage = .terminating late target (.waiting false) todo) :
      StopStep fork s .call (s.goTo (.terminating late target (.identifying true) todo))
  | killOverdue {late : Bool} {target : EscalationTarget} {todo : List EscalationTarget}
      (hstage : s.stage = .terminating late target (.waiting true) todo) :
      StopStep fork s .call (s.settle late todo target.pgid .survivors)
  -- the last reading and what follows
  | escalated (hstage : s.stage = .escalating false []) : StopStep fork s .call (s.goTo .finalReading)
  | finalRead {answer : Option (List ChildRecord)} (hstage : s.stage = .finalReading)
      (hanswer : s.Answers answer) :
      StopStep fork s .call ((s.learn fork answer).goTo (.escalating true (s.lateTargets fork answer)))
  | close (hstage : s.stage = .escalating true []) : StopStep fork s .call (s.beginWait fork .final)

end Hearth.Processes
