import Hearth.Library.Transition
import Mathlib.Data.List.Range
import Mathlib.Logic.Function.Basic

/-!
# Shelf admission and retirement

Clients of `criu_shelf_admission` and the monitor of `monitor_profile` share the lock
files of a profile shelf, its demand records and the capacity that its pool records.  A
slot is a group of lock files.  Clients and monitor take one step for each file they lock
or unlock and for each demand they write or read.

The capacity may grow at any time, and a client may be interrupted or killed at any time:
its locks then go with it, and its demand is no longer live.
-/

namespace Hearth.Shelf

open Hearth.Library

/-! ## Lock files -/

/-- `admission.lock` of the retired namespace, and `admission-{slot}.lock`. -/
inductive LockFile
  | legacy
  | canonical (slot : ℕ)
  deriving DecidableEq, Repr

/-- The slot that a lock file is for. -/
def LockFile.slot : LockFile → ℕ
  | .legacy => 1
  | .canonical slot => slot

/-- `shelf_admission_paths`. -/
def shelfAdmissionPaths (capacity : ℕ) : List LockFile :=
  (List.range' 1 capacity).map .canonical

/-- `_shelf_admission_lock_groups`. -/
def shelfAdmissionLockGroups (capacity : ℕ) : List (List LockFile) :=
  match shelfAdmissionPaths capacity with
  | [] => []
  | first :: rest => [.legacy, first] :: rest.map fun path => [path]

/-- Every file that a client must hold for a slot. -/
def lockGroup (slot : ℕ) : List LockFile :=
  if slot = 1 then [.legacy, .canonical 1] else [.canonical slot]

/-- The files that `try_exclusive_criu_shelf_admission` locks. -/
def exclusivePaths (capacity : ℕ) : List LockFile :=
  .legacy :: shelfAdmissionPaths capacity

/-- The groups are those of the slots `1, …, capacity`, in order. -/
theorem shelfAdmissionLockGroups_eq (capacity : ℕ) :
    shelfAdmissionLockGroups capacity = (List.range' 1 capacity).map lockGroup := by
  cases capacity with
  | zero => rfl
  | succ capacity =>
      unfold shelfAdmissionLockGroups shelfAdmissionPaths
      rw [List.range'_succ, List.map_cons, List.map_cons]
      dsimp only
      rw [List.map_map]
      congr 1
      apply List.map_congr_left
      intro slot hmem
      have hslot := (List.mem_range'_1.mp hmem).1
      unfold lockGroup
      rw [if_neg (by omega)]
      rfl

theorem canonical_mem_lockGroup (slot : ℕ) : .canonical slot ∈ lockGroup slot := by
  unfold lockGroup
  split
  · rename_i hone
    rw [hone]
    exact .tail _ (.head _)
  · exact .head _

theorem slot_of_mem_lockGroup {slot : ℕ} {file : LockFile} (h : file ∈ lockGroup slot) :
    file.slot = slot := by
  unfold lockGroup at h
  split at h
  · rename_i hone
    rcases List.mem_cons.mp h with rfl | h
    · exact hone.symm
    · rcases List.mem_singleton.mp h with rfl
      exact hone.symm
  · rcases List.mem_singleton.mp h with rfl
    rfl

theorem canonical_mem_exclusivePaths {slot capacity : ℕ} :
    .canonical slot ∈ exclusivePaths capacity ↔ 1 ≤ slot ∧ slot ≤ capacity := by
  unfold exclusivePaths shelfAdmissionPaths
  simp only [List.mem_cons, reduceCtorEq, false_or, List.mem_map, LockFile.canonical.injEq,
    exists_eq_right, List.mem_range'_1]
  omega

/-! ## What is shared -/

/-- Who may hold a lock. -/
inductive Party
  | client (client : ℕ)
  | monitor
  deriving DecidableEq, Repr

/-- The lock table of the shelf, its live demands and the capacity on record. -/
structure Shared where
  holder : LockFile → Option Party
  demands : List ℕ
  recorded : ℕ

namespace Shared

variable (shared : Shared)

def take (file : LockFile) (party : Party) : Shared :=
  { shared with holder := Function.update shared.holder file (some party) }

def drop (file : LockFile) : Shared :=
  { shared with holder := Function.update shared.holder file none }

/-- `write_shelf_demand`, where the client passed an owner. -/
def demand (owned : Bool) (client : ℕ) : Shared :=
  { shared with demands := if owned then client :: shared.demands else shared.demands }

/-- `clear_shelf_demand`. -/
def clear (client : ℕ) : Shared :=
  { shared with demands := shared.demands.filter fun other => other ≠ client }

/-- What the operating system does when a client is killed. -/
def bury (client : ℕ) : Shared :=
  { shared.clear client with
    holder := fun file =>
      if shared.holder file = some (.client client) then none else shared.holder file }

end Shared

/-! ## Clients -/

/-- Where `criu_shelf_admission` is; `taken` has the files that are locked, the last one
first. -/
inductive ClientPhase
  | idle
  | called (capacity : ℕ)
  | demanding (capacity : ℕ)
  | locking (capacity slot : ℕ) (taken rest : List LockFile)
  | unlocking (capacity slot : ℕ) (taken : List LockFile)
  | admitted (capacity slot : ℕ)
  | releasing (capacity : ℕ) (taken : List LockFile)
  | done
  deriving DecidableEq, Repr

namespace ClientPhase

/-- The capacity that the lock groups are computed from. -/
def capacity : ClientPhase → Option ℕ
  | .locking capacity _ _ _ | .unlocking capacity _ _ | .admitted capacity _
  | .releasing capacity _ => some capacity
  | _ => none

/-- The capacity before the lock groups are computed. -/
def argument : ClientPhase → Option ℕ
  | .called capacity | .demanding capacity => some capacity
  | _ => none

/-- The files that the client holds, the last one first. -/
def files : ClientPhase → List LockFile
  | .locking _ _ taken _ | .unlocking _ _ taken | .releasing _ taken => taken
  | .admitted _ slot => (lockGroup slot).reverse
  | _ => []

/-- Whether the demand is written. -/
def demands : ClientPhase → Bool
  | .idle | .called _ | .done => false
  | _ => true

end ClientPhase

/-- One step of a client, which passed an owner or not. -/
inductive ClientStep (client : ℕ) (owned : Bool) (shared : Shared) :
    ClientPhase → ClientPhase → Shared → Prop
  /-- The caller has read a capacity. -/
  | call (capacity : ℕ) (hpositive : 0 < capacity) (hread : capacity ≤ shared.recorded) :
      ClientStep client owned shared .idle (.called capacity) shared
  | demand {capacity : ℕ} :
      ClientStep client owned shared (.called capacity) (.demanding capacity)
        (shared.demand owned client)
  /-- The lock groups are computed: a `capacity_expander` returns what is on record. -/
  | size {capacity : ℕ} (expanded : Bool) :
      ClientStep client owned shared (.demanding capacity)
        (.locking (if expanded then shared.recorded else capacity) 1 [] (lockGroup 1)) shared
  /-- The expander raises. -/
  | unsized {capacity : ℕ} :
      ClientStep client owned shared (.demanding capacity) .done (shared.clear client)
  | lock {capacity slot : ℕ} {file : LockFile} {taken rest : List LockFile}
      (hfree : shared.holder file = none) :
      ClientStep client owned shared (.locking capacity slot taken (file :: rest))
        (.locking capacity slot (file :: taken) rest) (shared.take file (.client client))
  /-- `BlockingIOError`. -/
  | blocked {capacity slot : ℕ} {file : LockFile} {taken rest : List LockFile}
      (hheld : shared.holder file ≠ none) :
      ClientStep client owned shared (.locking capacity slot taken (file :: rest))
        (.unlocking capacity slot taken) shared
  | unlock {capacity slot : ℕ} {file : LockFile} {taken : List LockFile} :
      ClientStep client owned shared (.unlocking capacity slot (file :: taken))
        (.unlocking capacity slot taken) (shared.drop file)
  /-- The next slot, or after the last one the first again. -/
  | next {capacity slot : ℕ} :
      ClientStep client owned shared (.unlocking capacity slot [])
        (.locking capacity (if slot < capacity then slot + 1 else 1) []
          (lockGroup (if slot < capacity then slot + 1 else 1))) shared
  | enter {capacity slot : ℕ} {taken : List LockFile} :
      ClientStep client owned shared (.locking capacity slot taken []) (.admitted capacity slot)
        shared
  /-- `ShelfAdmissionUnavailable`. -/
  | giveUp {capacity slot : ℕ} :
      ClientStep client owned shared (.unlocking capacity slot []) (.releasing capacity []) shared
  /-- `KeyboardInterrupt`. -/
  | interrupt {capacity slot : ℕ} {taken rest : List LockFile} :
      ClientStep client owned shared (.locking capacity slot taken rest)
        (.releasing capacity taken) shared
  /-- The body of the `with` block is over. -/
  | release {capacity slot : ℕ} :
      ClientStep client owned shared (.admitted capacity slot)
        (.releasing capacity (lockGroup slot).reverse) shared
  | free {capacity : ℕ} {file : LockFile} {taken : List LockFile} :
      ClientStep client owned shared (.releasing capacity (file :: taken))
        (.releasing capacity taken) (shared.drop file)
  | close {capacity : ℕ} :
      ClientStep client owned shared (.releasing capacity []) .done (shared.clear client)
  | die {phase : ClientPhase} : ClientStep client owned shared phase .done (shared.bury client)

/-! ## The monitor -/

/-- Where `monitor_profile` is.  `confirming` is its second `_quiescence_problem`, with
the demands that `read_shelf_demands` has listed and not read yet. -/
inductive MonitorPhase
  | watching
  | locking (capacity : ℕ) (taken rest : List LockFile)
  | confirming (capacity : ℕ) (taken : List LockFile) (pending : List ℕ)
  | stopping (capacity : ℕ) (taken : List LockFile)
  | unlocking (taken : List LockFile)
  deriving DecidableEq, Repr

namespace MonitorPhase

/-- The capacity that the monitor has read. -/
def capacity : MonitorPhase → Option ℕ
  | .locking capacity _ _ | .confirming capacity _ _ | .stopping capacity _ => some capacity
  | _ => none

def files : MonitorPhase → List LockFile
  | .locking _ taken _ | .confirming _ taken _ | .stopping _ taken | .unlocking taken => taken
  | .watching => []

/-- Whether the monitor has still to read the demand of this client. -/
def willRead (client : ℕ) : MonitorPhase → Bool
  | .locking _ _ _ => true
  | .confirming _ _ pending => client ∈ pending
  | _ => false

end MonitorPhase

/-- One step of the monitor. -/
inductive MonitorStep (shared : Shared) : MonitorPhase → MonitorPhase → Shared → Prop
  /-- The profile is idle and nothing speaks against retiring it; `restored_shelf_capacity`. -/
  | measure : MonitorStep shared .watching
      (.locking shared.recorded [] (exclusivePaths shared.recorded)) shared
  | lock {capacity : ℕ} {file : LockFile} {taken rest : List LockFile}
      (hfree : shared.holder file = none) :
      MonitorStep shared (.locking capacity taken (file :: rest))
        (.locking capacity (file :: taken) rest) (shared.take file .monitor)
  | blocked {capacity : ℕ} {file : LockFile} {taken rest : List LockFile}
      (hheld : shared.holder file ≠ none) :
      MonitorStep shared (.locking capacity taken (file :: rest)) (.unlocking taken) shared
  /-- Every slot is locked: the demands are listed. -/
  | survey {capacity : ℕ} {taken : List LockFile} :
      MonitorStep shared (.locking capacity taken []) (.confirming capacity taken shared.demands)
        shared
  /-- A listed demand that is no longer there or not live. -/
  | stale {capacity client : ℕ} {taken : List LockFile} {pending : List ℕ}
      (hstale : client ∉ shared.demands) :
      MonitorStep shared (.confirming capacity taken (client :: pending))
        (.confirming capacity taken pending) shared
  /-- A live demand, or something else that speaks against retiring the profile. -/
  | problem {capacity : ℕ} {taken : List LockFile} {pending : List ℕ} :
      MonitorStep shared (.confirming capacity taken pending) (.unlocking taken) shared
  /-- `_stop_runtime` is called. -/
  | stop {capacity : ℕ} {taken : List LockFile} :
      MonitorStep shared (.confirming capacity taken []) (.stopping capacity taken) shared
  | stopped {capacity : ℕ} {taken : List LockFile} :
      MonitorStep shared (.stopping capacity taken) (.unlocking taken) shared
  | unlock {file : LockFile} {taken : List LockFile} :
      MonitorStep shared (.unlocking (file :: taken)) (.unlocking taken) (shared.drop file)
  | leave : MonitorStep shared (.unlocking []) .watching shared

/-! ## The shelf -/

structure ShelfState where
  client : ℕ → ClientPhase
  monitor : MonitorPhase
  shared : Shared

/-- Whose step it is. -/
inductive Actor
  | client (client : ℕ) | monitor | pool
  deriving DecidableEq, Repr

/-- A shelf with this capacity on record and no client. -/
def ShelfState.start (recorded : ℕ) : ShelfState where
  client := fun _ => .idle
  monitor := .watching
  shared := { holder := fun _ => none, demands := [], recorded := recorded }

/-- A step of the shelf; `owned` says which clients pass an owner. -/
inductive ShelfStep (owned : ℕ → Bool) (state : ShelfState) : Actor → ShelfState → Prop
  | client {client : ℕ} {phase : ClientPhase} {shared : Shared}
      (hstep : ClientStep client (owned client) state.shared (state.client client) phase shared) :
      ShelfStep owned state (.client client)
        { state with client := Function.update state.client client phase, shared := shared }
  | monitor {phase : MonitorPhase} {shared : Shared}
      (hstep : MonitorStep state.shared state.monitor phase shared) :
      ShelfStep owned state .monitor { state with monitor := phase, shared := shared }
  /-- `ensure_fork_pool_logical_capacity`. -/
  | grow {recorded : ℕ} (hgrows : state.shared.recorded ≤ recorded) :
      ShelfStep owned state .pool
        { state with shared := { state.shared with recorded := recorded } }

/-- A client holds a slot when it holds every lock file of it. -/
def Holds (state : ShelfState) (client slot : ℕ) : Prop :=
  ∀ file ∈ lockGroup slot, state.shared.holder file = some (.client client)

end Hearth.Shelf
