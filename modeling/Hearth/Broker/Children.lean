import Hearth.Broker.Attempt
import Mathlib.Data.List.Sort
import Mathlib.Logic.Function.Basic

/-!
# Who owns a child

The broker's handlers, the registry of their children and the shutdown of `run`, as far
as they decide which child is registered, terminated or reported.  A handler is one call
of `_serve_attempt`; it takes a step for each access to what it shares with the other
handlers: `active_attempt_ids` with its lock, the registry, and the processes.

What the operating system decides is open: a step says what was observed of a process.
A process is observed as it is, and process ids are not reused.
-/

namespace Hearth.Broker

open Hearth.Library

/-! ## Processes -/

/-- A child and its process group.  A forked child makes its own group before it
publishes that; a group goes on while it has a member. -/
inductive ChildProcess
  | unborn | forked | leading | orphaned | gone
  deriving DecidableEq, Repr

/-- `record_is_alive` of a record that was made while the child lived. -/
def ChildProcess.leaderAlive : ChildProcess → Bool
  | .forked | .leading => true
  | _ => false

/-- `process_group_is_alive`. -/
def ChildProcess.groupAlive : ChildProcess → Bool
  | .leading | .orphaned => true
  | _ => false

/-! ## The registry -/

namespace ActiveBrokerChildren

/-- `self._children[pid] = record`. -/
def register (children : List ChildRecord) (record : ChildRecord) : List ChildRecord :=
  record :: children.filter fun child => child.pid ≠ record.pid

/-- `self._children.pop(pgid, None)`. -/
def unregister (children : List ChildRecord) (pid : ℕ) : List ChildRecord :=
  children.filter fun child => child.pid ≠ pid

/-- `snapshot`, in the order of the keys. -/
def snapshot (children : List ChildRecord) : List ChildRecord :=
  children.insertionSort fun child other => child.pid ≤ other.pid

theorem mem_register {children : List ChildRecord} {record child : ChildRecord}
    (h : child ∈ register children record) : child = record ∨ child ∈ children := by
  rcases List.mem_cons.mp h with heq | hmem
  · exact .inl heq
  · exact .inr (List.mem_of_mem_filter hmem)

theorem mem_register_self (children : List ChildRecord) (record : ChildRecord) :
    record ∈ register children record :=
  .head _

theorem mem_register_of_ne {children : List ChildRecord} {record child : ChildRecord}
    (h : child ∈ children) (hne : child.pid ≠ record.pid) : child ∈ register children record :=
  .tail _ (List.mem_filter.mpr ⟨h, by simpa using hne⟩)

theorem mem_unregister {children : List ChildRecord} {pid : ℕ} {child : ChildRecord} :
    child ∈ unregister children pid ↔ child ∈ children ∧ child.pid ≠ pid := by
  unfold unregister
  rw [List.mem_filter, decide_eq_true_eq]

theorem mem_snapshot {children : List ChildRecord} {child : ChildRecord} :
    child ∈ snapshot children ↔ child ∈ children :=
  List.mem_insertionSort _

end ActiveBrokerChildren

/-! ## Handlers -/

/-- Where `_serve_attempt` is.  `admitting` and `reaping` are inside
`with self.active_attempts_lock`, `forked` to `disowned` inside `_spawn_child`. -/
inductive HandlerPhase
  | waiting
  | admitting
  | reaping (orphans : List ChildRecord)
  | spawning
  | forked (pid : ℕ)
  | registered (pid : ℕ)
  | acknowledged (pid : ℕ)
  | disowning (pid : ℕ)
  | disowned (pid : ℕ)
  | serving (pid : ℕ)
  | settled (pid : ℕ) (quiescent : Bool)
  | reporting (pid : ℕ) (verified : Bool)
  | failing (pid : ℕ)
  | leaving
  | finished
  | refused
  deriving DecidableEq, Repr

namespace HandlerPhase

/-- Whether the attempt's id is in `active_attempt_ids`. -/
def active : HandlerPhase → Bool
  | .waiting | .admitting | .reaping _ | .finished | .refused => false
  | _ => true

/-- The child that the handler has. -/
def child : HandlerPhase → Option ℕ
  | .forked pid | .registered pid | .acknowledged pid | .disowning pid | .disowned pid
  | .serving pid | .settled pid _ | .reporting pid _ | .failing pid => some pid
  | _ => none

/-- Whether the handler holds `active_attempts_lock` over several steps. -/
def locks : HandlerPhase → Bool
  | .admitting | .reaping _ => true
  | _ => false

/-- Inside the `try`, with a child that is served. -/
def serves : HandlerPhase → Option ℕ
  | .serving pid | .settled pid _ | .reporting pid _ => some pid
  | _ => none

end HandlerPhase

/-- What a final event says about its child. -/
structure SeatReport where
  attemptId : String
  pid : ℕ
  seatReusable : Bool
  deriving DecidableEq, Repr

/-- Where `run` is: serving, stopping, or in the loop of its `finally` over the
registered children. -/
inductive SweepPhase
  | running | stopping
  | sweeping (children : List ChildRecord)
  | swept
  deriving DecidableEq, Repr

/-- What the handlers and `run` share. -/
structure Shared where
  activeAttemptIds : List String
  lockHolder : Option ℕ
  children : List ChildRecord
  process : ℕ → ChildProcess
  /-- The handler that read the pid. -/
  spawnedBy : ℕ → Option ℕ
  reports : List SeatReport
  /-- Every pid that was registered, and every pid that was acknowledged. -/
  registered : List ℕ
  acknowledged : List ℕ
  sweep : SweepPhase

namespace Shared

variable (shared : Shared)

def register (record : ChildRecord) : Shared :=
  { shared with
    children := ActiveBrokerChildren.register shared.children record
    registered := record.pid :: shared.registered }

def unregister (pid : ℕ) : Shared :=
  { shared with children := ActiveBrokerChildren.unregister shared.children pid }

def setProcess (pid : ℕ) (process : ChildProcess) : Shared :=
  { shared with process := Function.update shared.process pid process }

end Shared

/-- One step of a handler with this attempt id: its phase and what it shares. -/
inductive HandlerStep (handler : ℕ) (attemptId : String) (shared : Shared) :
    HandlerPhase → HandlerPhase → Shared → Prop
  /-- The id is active: `RuntimeError`. -/
  | duplicate (hfree : shared.lockHolder = none) (hactive : attemptId ∈ shared.activeAttemptIds) :
      HandlerStep handler attemptId shared .waiting .refused shared
  /-- Other attempts are active: nothing is reaped. -/
  | activate (hfree : shared.lockHolder = none) (hnew : attemptId ∉ shared.activeAttemptIds)
      (hothers : shared.activeAttemptIds ≠ []) :
      HandlerStep handler attemptId shared .waiting .spawning
        { shared with activeAttemptIds := attemptId :: shared.activeAttemptIds }
  | lock (hfree : shared.lockHolder = none) (hnone : shared.activeAttemptIds = []) :
      HandlerStep handler attemptId shared .waiting .admitting
        { shared with lockHolder := some handler }
  /-- `reap_orphaned_children` begins. -/
  | survey : HandlerStep handler attemptId shared .admitting
      (.reaping (ActiveBrokerChildren.snapshot shared.children)) shared
  /-- An orphan is terminated, verified and unregistered. -/
  | reap {orphan : ChildRecord} {orphans : List ChildRecord}
      (hgone : shared.process orphan.pid = .gone) :
      HandlerStep handler attemptId shared (.reaping (orphan :: orphans)) (.reaping orphans)
        (shared.unregister orphan.pid)
  /-- It is unregistered, but the registry cannot be written. -/
  | reapUnwritten {orphan : ChildRecord} {orphans : List ChildRecord}
      (hgone : shared.process orphan.pid = .gone) :
      HandlerStep handler attemptId shared (.reaping (orphan :: orphans)) .refused
        { shared.unregister orphan.pid with lockHolder := none }
  /-- An orphan is terminated and survives: `RuntimeError`. -/
  | survivor {orphan : ChildRecord} {orphans : List ChildRecord} :
      HandlerStep handler attemptId shared (.reaping (orphan :: orphans)) .refused
        { shared with lockHolder := none }
  | reaped : HandlerStep handler attemptId shared (.reaping []) .spawning
      { shared with
        activeAttemptIds := attemptId :: shared.activeAttemptIds, lockHolder := none }
  /-- `_spawn_child` raises without a child. -/
  | unspawned : HandlerStep handler attemptId shared .spawning .leaving shared
  /-- The basis has forked and the pid is read. -/
  | fork (pid : ℕ) (hunborn : shared.process pid = .unborn) :
      HandlerStep handler attemptId shared .spawning (.forked pid)
        { shared.setProcess pid .forked with
          spawnedBy := Function.update shared.spawnedBy pid (some handler) }
  /-- `fork child birth identity is unavailable`. -/
  | unidentified {pid : ℕ} : HandlerStep handler attemptId shared (.forked pid) .leaving shared
  | register {pid : ℕ} : HandlerStep handler attemptId shared (.forked pid) (.registered pid)
      (shared.register ⟨attemptId, pid⟩)
  /-- The registry has the child but cannot be written. -/
  | unwritten {pid : ℕ} : HandlerStep handler attemptId shared (.forked pid) .leaving
      (shared.register ⟨attemptId, pid⟩)
  /-- `ack_path` is written. -/
  | acknowledge {pid : ℕ} : HandlerStep handler attemptId shared (.registered pid)
      (.acknowledged pid) { shared with acknowledged := pid :: shared.acknowledged }
  | unacknowledged {pid : ℕ} : HandlerStep handler attemptId shared (.registered pid)
      (.disowning pid) shared
  /-- `wait_for_child_ownership` raises. -/
  | unowned {pid : ℕ} : HandlerStep handler attemptId shared (.acknowledged pid) (.disowning pid)
      shared
  /-- `wait_for_child_ownership` returns. -/
  | own {pid : ℕ} (hleading : shared.process pid = .leading) :
      HandlerStep handler attemptId shared (.acknowledged pid) (.serving pid) shared
  /-- `terminate_child` returns; its result is not looked at. -/
  | disown {pid : ℕ} : HandlerStep handler attemptId shared (.disowning pid) (.disowned pid) shared
  | disownedQuiescent {pid : ℕ} (hgroup : (shared.process pid).groupAlive = false) :
      HandlerStep handler attemptId shared (.disowned pid) .leaving (shared.unregister pid)
  | disownedAlive {pid : ℕ} (hgroup : (shared.process pid).groupAlive = true) :
      HandlerStep handler attemptId shared (.disowned pid) .leaving shared
  /-- The attempt is over and its cleanup was verified or not. -/
  | settle {pid : ℕ} (quiescent : Bool) (hgone : quiescent = true → shared.process pid = .gone) :
      HandlerStep handler attemptId shared (.serving pid) (.settled pid quiescent) shared
  | verify {pid : ℕ} (hgroup : (shared.process pid).groupAlive = false) :
      HandlerStep handler attemptId shared (.settled pid true) (.reporting pid true)
        (shared.unregister pid)
  /-- It is unregistered, but the registry cannot be written. -/
  | verifyUnwritten {pid : ℕ} (hgroup : (shared.process pid).groupAlive = false) :
      HandlerStep handler attemptId shared (.settled pid true) (.failing pid) (shared.unregister pid)
  | unverified {pid : ℕ} {quiescent : Bool}
      (hgroup : quiescent = true → (shared.process pid).groupAlive = true) :
      HandlerStep handler attemptId shared (.settled pid quiescent) (.reporting pid false) shared
  /-- The final event is sent. -/
  | report {pid : ℕ} {verified : Bool} :
      HandlerStep handler attemptId shared (.reporting pid verified) .leaving
        { shared with reports := ⟨attemptId, pid, verified⟩ :: shared.reports }
  /-- Something raises with a child. -/
  | fail {phase : HandlerPhase} {pid : ℕ} (hserves : phase.serves = some pid) :
      HandlerStep handler attemptId shared phase (.failing pid) shared
  | failedQuiescent {pid : ℕ} (hgone : shared.process pid = .gone) :
      HandlerStep handler attemptId shared (.failing pid) .leaving (shared.unregister pid)
  | failedAlive {pid : ℕ} : HandlerStep handler attemptId shared (.failing pid) .leaving shared
  /-- `finally`. -/
  | leave (hfree : shared.lockHolder = none) :
      HandlerStep handler attemptId shared .leaving .finished
        { shared with
          activeAttemptIds := shared.activeAttemptIds.filter fun active => active ≠ attemptId }

/-- What becomes of the processes. -/
inductive ProcessStep (shared : Shared) : ℕ → Shared → Prop
  | lead {pid : ℕ} (hforked : shared.process pid = .forked) :
      ProcessStep shared pid (shared.setProcess pid .leading)
  | orphan {pid : ℕ} (hleading : shared.process pid = .leading) :
      ProcessStep shared pid (shared.setProcess pid .orphaned)
  | die {pid : ℕ} (hborn : shared.process pid ≠ .unborn) :
      ProcessStep shared pid (shared.setProcess pid .gone)

/-- The end of `run`. -/
inductive SweepStep (shared : Shared) : Shared → Prop
  | stop (hsweep : shared.sweep = .running) : SweepStep shared { shared with sweep := .stopping }
  | survey (hsweep : shared.sweep = .stopping) :
      SweepStep shared
        { shared with sweep := .sweeping (ActiveBrokerChildren.snapshot shared.children) }
  /-- A child is terminated, verified and unregistered. -/
  | quiesced {child : ChildRecord} {children : List ChildRecord}
      (hsweep : shared.sweep = .sweeping (child :: children))
      (hgone : shared.process child.pid = .gone) :
      SweepStep shared { shared.unregister child.pid with sweep := .sweeping children }
  /-- A child is terminated and not verified. -/
  | unverified {child : ChildRecord} {children : List ChildRecord}
      (hsweep : shared.sweep = .sweeping (child :: children)) :
      SweepStep shared { shared with sweep := .sweeping children }
  | finish (hsweep : shared.sweep = .sweeping []) : SweepStep shared { shared with sweep := .swept }

/-! ## The broker -/

/-- All handlers and what they share. -/
structure BrokerState where
  phase : ℕ → HandlerPhase
  shared : Shared

/-- Whose step it is. -/
inductive Actor
  | process (pid : ℕ) | handler (handler : ℕ) | main
  deriving DecidableEq, Repr

/-- The broker when it is ready; the handlers are those of all later connections. -/
def BrokerState.start : BrokerState where
  phase := fun _ => .waiting
  shared :=
    { activeAttemptIds := [], lockHolder := none, children := [], process := fun _ => .unborn
      spawnedBy := fun _ => none, reports := [], registered := [], acknowledged := []
      sweep := .running }

/-- A step of the broker whose handlers have these attempt ids. -/
inductive BrokerStep (attemptId : ℕ → String) (state : BrokerState) : Actor → BrokerState → Prop
  | process {pid : ℕ} {shared : Shared} (hstep : ProcessStep state.shared pid shared) :
      BrokerStep attemptId state (.process pid) { state with shared := shared }
  | handler {handler : ℕ} {phase : HandlerPhase} {shared : Shared}
      (hstep : HandlerStep handler (attemptId handler) state.shared (state.phase handler) phase
        shared) :
      BrokerStep attemptId state (.handler handler)
        ⟨Function.update state.phase handler phase, shared⟩
  | main {shared : Shared} (hstep : SweepStep state.shared shared) :
      BrokerStep attemptId state .main { state with shared := shared }

end Hearth.Broker
