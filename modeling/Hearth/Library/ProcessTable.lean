import Hearth.Library.Transition

/-!
# A process table that uses ids again

Processes with their process groups, where an id may be given to a new process as soon as no
process and no group has it.  `serial` counts the processes ever started, so it tells a process
from a later one with the same id, and `founder` tells a group from a later one with the same
id.  A process that has ended stays in the table until it is reaped.

* `Consistent`: a group whose id is the id of a process has been founded by this process.
* `HeldBy`: an id belongs to one process and to its group, as long as it is not given again.
-/

namespace Hearth.Library

structure Process where
  /-- How many processes were started before it. -/
  serial : ℕ
  pid : ℕ
  pgid : ℕ
  /-- The serial of the process that founded its group. -/
  founder : ℕ
  /-- What can be read of its birth. -/
  birth : String
  deriving DecidableEq, Repr

structure ProcessTable where
  processes : List Process
  started : ℕ
  deriving Repr

namespace ProcessTable

variable (table : ProcessTable)

/-- The members of a process group. -/
def members (pgid : ℕ) : List Process :=
  table.processes.filter fun process => process.pgid = pgid

/-- No process and no group has this id. -/
def Free (pid : ℕ) : Prop :=
  ∀ process ∈ table.processes, process.pid ≠ pid ∧ process.pgid ≠ pid

/-- `fork`: the new process is in the group of its parent. -/
def start (parent : Process) (pid : ℕ) (birth : String) : ProcessTable where
  processes := ⟨table.started, pid, parent.pgid, parent.founder, birth⟩ :: table.processes
  started := table.started + 1

/-- The process goes to another group. -/
def regroup (serial pgid founder : ℕ) : ProcessTable where
  processes := table.processes.map fun process =>
    if process.serial = serial then { process with pgid, founder } else process
  started := table.started

def reap (serial : ℕ) : ProcessTable where
  processes := table.processes.filter fun process => process.serial ≠ serial
  started := table.started

/-- The table with the one process that nobody has started. -/
def boot : ProcessTable where
  processes := [⟨0, 1, 1, 0, ""⟩]
  started := 1

end ProcessTable

inductive TableEvent
  | start (pid : ℕ) | lead (serial : ℕ) | join (serial target : ℕ) | reap (serial : ℕ)
  deriving DecidableEq, Repr

/-- The steps of a process table. -/
inductive TableStep (table : ProcessTable) : TableEvent → ProcessTable → Prop
  | start {parent : Process} {pid : ℕ} (birth : String) (hparent : parent ∈ table.processes)
      (hfree : table.Free pid) : TableStep table (.start pid) (table.start parent pid birth)
  /-- `setsid`. -/
  | lead {process : Process} (hprocess : process ∈ table.processes)
      (hfree : ∀ other ∈ table.processes, other.pgid ≠ process.pid) :
      TableStep table (.lead process.serial) (table.regroup process.serial process.pid process.serial)
  /-- `setpgid` to the group of another process. -/
  | join {process target : Process} (hprocess : process ∈ table.processes)
      (htarget : target ∈ table.processes) :
      TableStep table (.join process.serial target.serial)
        (table.regroup process.serial target.pgid target.founder)
  | reap {process : Process} (hprocess : process ∈ table.processes) :
      TableStep table (.reap process.serial) (table.reap process.serial)

namespace ProcessTable

/-- What holds of every process table. -/
structure Consistent (table : ProcessTable) : Prop where
  bounded : ∀ process ∈ table.processes, process.serial < table.started
  serials : ∀ process ∈ table.processes, ∀ other ∈ table.processes,
    process.serial = other.serial → process = other
  pids : ∀ process ∈ table.processes, ∀ other ∈ table.processes,
    process.pid = other.pid → process = other
  founded : ∀ process ∈ table.processes, ∀ member ∈ table.processes,
    member.pgid = process.pid → member.founder = process.serial
  shared : ∀ process ∈ table.processes, ∀ other ∈ table.processes,
    process.pgid = other.pgid → process.founder = other.founder

variable {table after : ProcessTable} {event : TableEvent}

theorem mem_members {pgid : ℕ} {process : Process} :
    process ∈ table.members pgid ↔ process ∈ table.processes ∧ process.pgid = pgid := by
  simp [members]

theorem consistent_boot : Consistent boot := by
  have hone : ∀ process ∈ boot.processes, process = ⟨0, 1, 1, 0, ""⟩ := fun _ => List.mem_singleton.mp
  constructor
  · intro process hprocess
    rw [hone process hprocess]
    exact Nat.one_pos
  all_goals
    intro process hprocess other hother _
    rw [hone process hprocess, hone other hother]

/-- A member of the changed table, with the process that it was. -/
theorem exists_of_mem_regroup {serial pgid founder : ℕ} {process : Process}
    (h : process ∈ (table.regroup serial pgid founder).processes) :
    ∃ old ∈ table.processes, old.serial = process.serial ∧ old.pid = process.pid ∧
      ((old.serial = serial ∧ process.pgid = pgid ∧ process.founder = founder) ∨
        (old.serial ≠ serial ∧ process = old)) := by
  obtain ⟨old, hold, heq⟩ := List.mem_map.mp h
  refine ⟨old, hold, ?_⟩
  by_cases hserial : old.serial = serial
  · rw [if_pos hserial] at heq
    subst heq
    exact ⟨rfl, rfl, .inl ⟨hserial, rfl, rfl⟩⟩
  · rw [if_neg hserial] at heq
    subst heq
    exact ⟨rfl, rfl, .inr ⟨hserial, rfl⟩⟩

/-- The process may go to a group that its id or another member founds. -/
theorem Consistent.regroup (h : Consistent table) {serial pgid founder : ℕ}
    (hfounded : ∀ process ∈ table.processes, pgid = process.pid → founder = process.serial)
    (hshared : ∀ other ∈ table.processes, other.serial ≠ serial → other.pgid = pgid →
      other.founder = founder) : Consistent (table.regroup serial pgid founder) := by
  have hsame : ∀ process ∈ (table.regroup serial pgid founder).processes,
      ∀ other ∈ (table.regroup serial pgid founder).processes,
      process.serial = other.serial → process = other := by
    intro process hprocess other hother hserial
    obtain ⟨old, hold, heq⟩ := List.mem_map.mp hprocess
    obtain ⟨second, hsecond, heq'⟩ := List.mem_map.mp hother
    have hserials : old.serial = second.serial := by
      rw [← heq, ← heq'] at hserial
      split_ifs at hserial <;> exact hserial
    rw [← heq, ← heq', h.serials old hold second hsecond hserials]
  refine ⟨?_, hsame, ?_, ?_, ?_⟩
  · intro process hprocess
    obtain ⟨old, hold, hserial, -⟩ := exists_of_mem_regroup hprocess
    exact hserial ▸ h.bounded old hold
  · intro process hprocess other hother hpid
    obtain ⟨old, hold, hserial, hpidOld, -⟩ := exists_of_mem_regroup hprocess
    obtain ⟨second, hsecond, hserialSecond, hpidSecond, -⟩ := exists_of_mem_regroup hother
    have heq : old = second := h.pids old hold second hsecond (by omega)
    exact hsame process hprocess other hother (by rw [← hserial, ← hserialSecond, heq])
  · intro process hprocess member hmember hpgid
    obtain ⟨old, hold, hserial, hpid, -⟩ := exists_of_mem_regroup hprocess
    obtain ⟨second, hsecond, -, -, ⟨-, hmoved, hfounder⟩ | ⟨-, rfl⟩⟩ := exists_of_mem_regroup hmember
    · rw [hfounder, ← hserial]
      exact hfounded old hold (by omega)
    · rw [← hserial]
      exact h.founded old hold member hsecond (by omega)
  · intro process hprocess other hother hpgid
    obtain ⟨old, hold, -, -, ⟨-, hmoved, hfounder⟩ | ⟨hstays, rfl⟩⟩ := exists_of_mem_regroup hprocess <;>
      obtain ⟨second, hsecond, -, -, ⟨-, hmoved', hfounder'⟩ | ⟨hstays', rfl⟩⟩ := exists_of_mem_regroup hother
    · rw [hfounder, hfounder']
    · rw [hfounder]
      exact (hshared other hsecond hstays' (by omega)).symm
    · rw [hfounder']
      exact hshared process hold hstays (by omega)
    · exact h.shared process hold other hsecond hpgid

theorem Consistent.start (h : Consistent table) {parent : Process} {pid : ℕ} (birth : String)
    (hparent : parent ∈ table.processes) (hfree : table.Free pid) :
    Consistent (table.start parent pid birth) := by
  have hnew : ∀ process ∈ (table.start parent pid birth).processes,
      process = ⟨table.started, pid, parent.pgid, parent.founder, birth⟩ ∨ process ∈ table.processes :=
    fun _ => List.mem_cons.mp
  constructor
  · intro process hprocess
    rcases hnew process hprocess with rfl | hold
    · exact Nat.lt_succ_self _
    · exact Nat.lt_succ_of_lt (h.bounded process hold)
  · intro process hprocess other hother hserial
    rcases hnew process hprocess with rfl | hold <;> rcases hnew other hother with rfl | hsecond
    · rfl
    · exact absurd hserial (Nat.ne_of_gt (h.bounded other hsecond))
    · exact absurd hserial (Nat.ne_of_lt (h.bounded process hold))
    · exact h.serials process hold other hsecond hserial
  · intro process hprocess other hother hpid
    rcases hnew process hprocess with rfl | hold <;> rcases hnew other hother with rfl | hsecond
    · rfl
    · exact absurd hpid.symm (hfree other hsecond).1
    · exact absurd hpid (hfree process hold).1
    · exact h.pids process hold other hsecond hpid
  · intro process hprocess member hmember hpgid
    rcases hnew process hprocess with rfl | hold <;> rcases hnew member hmember with rfl | hsecond
    · exact absurd hpgid (hfree parent hparent).2
    · exact absurd hpgid (hfree member hsecond).2
    · exact h.founded process hold parent hparent hpgid
    · exact h.founded process hold member hsecond hpgid
  · intro process hprocess other hother hpgid
    rcases hnew process hprocess with rfl | hold <;> rcases hnew other hother with rfl | hsecond
    · rfl
    · exact h.shared parent hparent other hsecond hpgid
    · exact h.shared process hold parent hparent hpgid
    · exact h.shared process hold other hsecond hpgid

theorem Consistent.step (h : Consistent table) (hstep : TableStep table event after) :
    Consistent after := by
  cases hstep with
  | start birth hparent hfree => exact h.start birth hparent hfree
  | @lead process hprocess hfree =>
      refine h.regroup ?_ fun other hother _ hpgid => absurd hpgid (hfree other hother)
      intro other hother hpid
      rw [h.pids process hprocess other hother hpid]
  | @join process target hprocess htarget =>
      refine h.regroup ?_ fun other hother _ hpgid => h.shared other hother target htarget hpgid
      exact fun other hother hpid => h.founded other hother target htarget hpid
  | @reap process hprocess =>
      have hmem : ∀ other ∈ (table.reap process.serial).processes, other ∈ table.processes :=
        fun _ hother => List.mem_of_mem_filter hother
      exact ⟨fun other hother => h.bounded other (hmem other hother),
        fun first hfirst second hsecond => h.serials first (hmem first hfirst) second (hmem second hsecond),
        fun first hfirst second hsecond => h.pids first (hmem first hfirst) second (hmem second hsecond),
        fun first hfirst second hsecond => h.founded first (hmem first hfirst) second (hmem second hsecond),
        fun first hfirst second hsecond => h.shared first (hmem first hfirst) second (hmem second hsecond)⟩

/-- Every table that is reached from the first one is consistent. -/
theorem consistent_of_run {events : List TableEvent} (hrun : Run TableStep boot events table) :
    Consistent table :=
  hrun.preserves (fun _ _ _ h hstep => Consistent.step h hstep) consistent_boot

/-! ## Who has an id -/

/-- Only this process has the id, and only members of its group have it as their group's. -/
structure HeldBy (table : ProcessTable) (id serial : ℕ) : Prop where
  pid : ∀ process ∈ table.processes, process.pid = id → process.serial = serial
  group : ∀ process ∈ table.processes, process.pgid = id → process.founder = serial

theorem Consistent.heldBy (h : Consistent table) {process : Process} (hprocess : process ∈ table.processes) :
    table.HeldBy process.pid process.serial :=
  ⟨fun other hother hpid => by rw [h.pids other hother process hprocess hpid],
    fun other hother hpgid => h.founded process hprocess other hother hpgid⟩

/-- An id that is not given again stays with its process. -/
theorem HeldBy.step {id serial : ℕ} (h : table.HeldBy id serial) (hstep : TableStep table event after)
    (hevent : event ≠ .start id) : after.HeldBy id serial := by
  cases hstep with
  | @start parent pid birth hparent hfree =>
      constructor
      · intro process hprocess hpid
        rcases List.mem_cons.mp hprocess with rfl | hold
        · exact absurd (congrArg TableEvent.start hpid) hevent
        · exact h.pid process hold hpid
      · intro process hprocess hpgid
        rcases List.mem_cons.mp hprocess with rfl | hold
        · exact h.group parent hparent hpgid
        · exact h.group process hold hpgid
  | @lead process hprocess hfree =>
      constructor
      · intro member hmember hpid
        obtain ⟨old, hold, hserial, hpidOld, -⟩ := exists_of_mem_regroup hmember
        rw [← hserial]
        exact h.pid old hold (by omega)
      · intro member hmember hpgid
        obtain ⟨old, hold, -, -, ⟨-, hmoved, hfounder⟩ | ⟨-, rfl⟩⟩ := exists_of_mem_regroup hmember
        · rw [hfounder]
          exact h.pid process hprocess (by omega)
        · exact h.group member hold hpgid
  | @join process target hprocess htarget =>
      constructor
      · intro member hmember hpid
        obtain ⟨old, hold, hserial, hpidOld, -⟩ := exists_of_mem_regroup hmember
        rw [← hserial]
        exact h.pid old hold (by omega)
      · intro member hmember hpgid
        obtain ⟨old, hold, -, -, ⟨-, hmoved, hfounder⟩ | ⟨-, rfl⟩⟩ := exists_of_mem_regroup hmember
        · rw [hfounder]
          exact h.group target htarget (by omega)
        · exact h.group member hold hpgid
  | reap hprocess =>
      exact ⟨fun other hother => h.pid other (List.mem_of_mem_filter hother),
        fun other hother => h.group other (List.mem_of_mem_filter hother)⟩

end ProcessTable

end Hearth.Library
