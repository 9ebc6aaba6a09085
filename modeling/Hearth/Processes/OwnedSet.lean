import Hearth.Library.Transition
import Mathlib.Data.List.Nodup

/-!
# Owned processes

`OwnedProcessSet` of `process_groups.py`, inside its `with` block.  `spawn` puts every process
that `Popen` returns into the set, `commit` and `commit_all` transfer it, and `cleanup`, which
`__exit__` calls, empties the set and then terminates what was in it.

Between two statements a process may be in no list but only in a local variable of the code.
An exception may be raised in front of every statement: an interrupt, or a failure of what the
statement does.  Behind an exception the block may go on or be left.
-/

namespace Hearth.Processes

open Hearth.Library

/-- Where the code is. -/
inductive OwnedStage
  /-- In the block, or in front of the first statement of an operation. -/
  | idle
  /-- `spawn`, behind `self._popen` and in front of the `try`. -/
  | spawned (process : ℕ)
  /-- In the `try` around the capture of the identity. -/
  | capturing (process : ℕ)
  /-- In its handler. -/
  | handling (process : ℕ)
  /-- Behind the `try`. -/
  | captured (process : ℕ)
  /-- Without a birth identity, in front of `terminate`. -/
  | unidentified (process : ℕ)
  /-- The process has been put into the set. -/
  | recording (process : ℕ)
  /-- In the handler of the first record. -/
  | unrecorded (process : ℕ)
  /-- There, behind `terminate`. -/
  | discarding (process : ℕ) (verified : Bool)
  /-- The receipt is not verified, and is about to be raised or noted; `told` is whether the
  error says that it is not. -/
  | settling (process : ℕ) (told : Bool)
  /-- `commit`, in front of the record. -/
  | committing (process : ℕ)
  /-- Behind it. -/
  | transferring (process : ℕ)
  | committingAll (snapshot todo : List ℕ)
  /-- `cleanup`, in front of `self._owned.clear()`; `leaving` is a call by `__exit__`. -/
  | clearing (leaving : Bool)
  /-- In its loop. -/
  | cleaning (todo failures : List ℕ) (leaving : Bool)
  /-- There, behind a verified receipt of the first process. -/
  | removing (todo failures : List ℕ) (leaving : Bool)
  /-- `__exit__`, behind `cleanup`. -/
  | exiting (failures : List ℕ)
  /-- The block has been left. -/
  | left
  deriving DecidableEq, Repr

/-- `__exit__` runs. -/
def OwnedStage.leaving : OwnedStage → Bool
  | .clearing leaving | .cleaning _ _ leaving | .removing _ _ leaving => leaving
  | .exiting _ => true
  | _ => false

/-- An exception always comes to a handler of `spawn`, or there is no code left that could raise
one.  An exception between the `append` and the `try` around the record does not. -/
def OwnedStage.caught : OwnedStage → Bool
  | .capturing _ | .left => true
  | _ => false

/-- The set, and what has become of the processes. -/
structure OwnedSet where
  stage : OwnedStage
  /-- `_owned`. -/
  owned : List ℕ
  /-- What `Popen` has returned. -/
  returned : List ℕ
  committed : List ℕ
  /-- What was seen quiescent with its group. -/
  observed : List ℕ
  /-- What a raised error, or a note of one, names as not verified quiescent. -/
  named : List ℕ
  /-- What a record says `ownership_transferred` of. -/
  transferred : List ℕ
  deriving DecidableEq, Repr

namespace OwnedSet

variable (s : OwnedSet)

/-- The `with` statement has been entered. -/
def start : OwnedSet where
  stage := .idle
  owned := []
  returned := []
  committed := []
  observed := []
  named := []
  transferred := []

/-- Nothing has to be done about the process any more. -/
def Accounted (process : ℕ) : Prop :=
  process ∈ s.committed ∨ process ∈ s.observed ∨ process ∈ s.named

/-- The record of the process tells the truth. -/
def Truthful (process : ℕ) : Prop :=
  process ∈ s.transferred → process ∈ s.committed

/-- Every process that `Popen` returned is committed, was seen quiescent or is named, and a record
says that it is transferred only where it is committed. -/
structure Settled : Prop where
  accounted : ∀ process ∈ s.returned, s.Accounted process
  truthful : ∀ process, s.Truthful process

instance (process : ℕ) : Decidable (s.Accounted process) :=
  inferInstanceAs (Decidable (_ ∨ _ ∨ _))

end OwnedSet

/-- What happens next: the code goes on; it goes on with a receipt that is not verified; an
exception is raised. -/
inductive OwnedEvent
  | operation | unverified | failure
  deriving DecidableEq, Repr

/-- The steps of the code. -/
inductive OwnedStep (s : OwnedSet) : OwnedEvent → OwnedSet → Prop
  -- `spawn`
  | popen {process : ℕ} (hstage : s.stage = .idle) (hnew : process ∉ s.returned) :
      OwnedStep s .operation { s with stage := .spawned process, returned := process :: s.returned }
  | enter {process : ℕ} (hstage : s.stage = .spawned process) :
      OwnedStep s .operation { s with stage := .capturing process }
  | capture {process : ℕ} (hstage : s.stage = .capturing process) :
      OwnedStep s .operation { s with stage := .captured process }
  | handle {process : ℕ} (hstage : s.stage = .capturing process) :
      OwnedStep s .failure { s with stage := .handling process }
  /-- There is no birth identity, and the process and its group are gone. -/
  | register {process : ℕ} (hstage : s.stage = .captured process) :
      OwnedStep s .operation
        { s with stage := .idle, owned := s.owned ++ [process], observed := process :: s.observed }
  /-- There is none, and they are not gone. -/
  | miss {process : ℕ} (hstage : s.stage = .captured process) :
      OwnedStep s .operation { s with stage := .unidentified process }
  | append {process : ℕ} (hstage : s.stage = .captured process) :
      OwnedStep s .operation { s with stage := .recording process, owned := s.owned ++ [process] }
  | record {process : ℕ} (hstage : s.stage = .recording process) :
      OwnedStep s .operation { s with stage := .idle, transferred := s.transferred.filter (· ≠ process) }
  | handleRecord {process : ℕ} (hstage : s.stage = .recording process) :
      OwnedStep s .failure { s with stage := .unrecorded process }
  -- `terminate` in `spawn`
  | quiesce {process : ℕ} (hstage : s.stage = .handling process) :
      OwnedStep s .operation { s with stage := .idle, observed := process :: s.observed }
  | quiesceUnidentified {process : ℕ} (hstage : s.stage = .unidentified process) :
      OwnedStep s .operation { s with stage := .idle, observed := process :: s.observed }
  | survive {process : ℕ} (hstage : s.stage = .handling process) :
      OwnedStep s .unverified { s with stage := .settling process true }
  /-- The message has the status of the receipt, which need not tell. -/
  | surviveUnidentified {process : ℕ} {told : Bool} (hstage : s.stage = .unidentified process) :
      OwnedStep s .unverified { s with stage := .settling process told }
  | quiesceUnrecorded {process : ℕ} (hstage : s.stage = .unrecorded process) :
      OwnedStep s .operation
        { s with stage := .discarding process true, observed := process :: s.observed }
  | surviveUnrecorded {process : ℕ} (hstage : s.stage = .unrecorded process) :
      OwnedStep s .unverified { s with stage := .discarding process false }
  | discardVerified {process : ℕ} (hstage : s.stage = .discarding process true) :
      OwnedStep s .operation { s with stage := .idle, owned := s.owned.erase process }
  | discard {process : ℕ} (hstage : s.stage = .discarding process false) :
      OwnedStep s .operation
        { s with stage := .settling process true, owned := s.owned.erase process }
  | settle {process : ℕ} (hstage : s.stage = .settling process true) :
      OwnedStep s .operation { s with stage := .idle, named := process :: s.named }
  | settleUntold {process : ℕ} (hstage : s.stage = .settling process false) :
      OwnedStep s .operation { s with stage := .idle }
  -- `commit` and `commit_all`
  | callCommit {process : ℕ} (hstage : s.stage = .idle) (hreturned : process ∈ s.returned) :
      OwnedStep s .operation { s with stage := .committing process }
  | transfer {process : ℕ} (hstage : s.stage = .committing process) :
      OwnedStep s .operation
        { s with stage := .transferring process, transferred := process :: s.transferred }
  | commit {process : ℕ} (hstage : s.stage = .transferring process) (howned : process ∈ s.owned) :
      OwnedStep s .operation
        { s with stage := .idle, owned := s.owned.erase process, committed := process :: s.committed }
  /-- The process is not owned by this set. -/
  | refuse {process : ℕ} (hstage : s.stage = .transferring process) (howned : process ∉ s.owned) :
      OwnedStep s .operation { s with stage := .idle }
  | callCommitAll (hstage : s.stage = .idle) :
      OwnedStep s .operation { s with stage := .committingAll s.owned s.owned }
  | transferNext {process : ℕ} {snapshot todo : List ℕ}
      (hstage : s.stage = .committingAll snapshot (process :: todo)) :
      OwnedStep s .operation
        { s with stage := .committingAll snapshot todo, transferred := process :: s.transferred }
  | commitAll {snapshot : List ℕ} (hstage : s.stage = .committingAll snapshot [])
      (hsame : s.owned = snapshot) :
      OwnedStep s .operation
        { s with stage := .idle, owned := [], committed := snapshot ++ s.committed }
  -- `cleanup` and `__exit__`
  | callCleanup {leaving : Bool} (hstage : s.stage = .idle) :
      OwnedStep s .operation { s with stage := .clearing leaving }
  | clear {leaving : Bool} (hstage : s.stage = .clearing leaving) :
      OwnedStep s .operation { s with stage := .cleaning s.owned.reverse [] leaving, owned := [] }
  | verify {process : ℕ} {todo failures : List ℕ} {leaving : Bool}
      (hstage : s.stage = .cleaning (process :: todo) failures leaving) :
      OwnedStep s .operation
        { s with
          stage := .removing (process :: todo) failures leaving
          observed := process :: s.observed }
  | fail {process : ℕ} {todo failures : List ℕ} {leaving : Bool}
      (hstage : s.stage = .cleaning (process :: todo) failures leaving) :
      OwnedStep s .unverified { s with stage := .cleaning todo (process :: failures) leaving }
  | remove {process : ℕ} {todo failures : List ℕ} {leaving : Bool}
      (hstage : s.stage = .removing (process :: todo) failures leaving) :
      OwnedStep s .operation
        { s with
          stage := .cleaning todo failures leaving
          transferred := s.transferred.filter (· ≠ process) }
  | finish {failures : List ℕ} (hstage : s.stage = .cleaning [] failures false) :
      OwnedStep s .operation { s with stage := .idle }
  | exit {failures : List ℕ} (hstage : s.stage = .cleaning [] failures true) :
      OwnedStep s .operation { s with stage := .exiting failures }
  | leave {failures : List ℕ} (hstage : s.stage = .exiting failures) :
      OwnedStep s .operation { s with stage := .left, named := failures ++ s.named }
  -- Exceptions
  /-- `__exit__` does not come to its end. -/
  | escape (hleaving : s.stage.leaving = true) : OwnedStep s .failure { s with stage := .left }
  /-- The block gets the exception. -/
  | throw (hleaving : s.stage.leaving = false) (hcaught : s.stage.caught = false) :
      OwnedStep s .failure { s with stage := .idle }

/-! ## Careful runs -/

namespace OwnedStage

/-- The processes that `cleanup` has still to look at. -/
def queue : OwnedStage → List ℕ
  | .cleaning todo _ _ | .removing todo _ _ => todo
  | _ => []

/-- The processes that are not verified quiescent, and of which no error is going to say so: the
receipts of a call of `cleanup` by the block are only returned. -/
def untold : OwnedStage → List ℕ
  | .settling process false => [process]
  | .cleaning [] failures false => failures
  | _ => []

end OwnedStage

namespace OwnedSet

variable (s : OwnedSet)

/-- The processes that an exception takes out of the hands of the code. -/
def dropped : List ℕ :=
  match s.stage with
  | .spawned process | .handling process | .captured process | .unidentified process
  | .settling process _ => [process]
  | .clearing true => s.owned
  | .cleaning todo failures _ | .removing todo failures _ => todo ++ failures
  | .exiting failures => failures
  | _ => []

end OwnedSet

/-- No process is let go before it is accounted for, and no record is left that does not tell the
truth. -/
def Careful (s : OwnedSet) : OwnedEvent → Prop
  | .operation => (∀ process ∈ s.stage.untold, s.Accounted process) ∧
      ∀ process, s.stage = .committing process → process ∈ s.owned ∨ process ∈ s.committed
  | .unverified => ∀ process ∈ s.stage.queue.head?, s.Truthful process
  | .failure => ∀ process ∈ s.dropped, s.Accounted process ∧ s.Truthful process

/-- A step that is careful. -/
structure CarefulStep (s : OwnedSet) (event : OwnedEvent) (t : OwnedSet) : Prop where
  step : OwnedStep s event t
  careful : Careful s event

/-! ## What a step changes -/

namespace OwnedStage

/-- The processes that the code has only in its variables. -/
def loose : OwnedStage → List ℕ
  | .spawned process | .capturing process | .handling process | .captured process
  | .unidentified process | .settling process _ => [process]
  | .cleaning todo failures _ | .removing todo failures _ => todo ++ failures
  | .exiting failures => failures
  | _ => []

/-- The process that is being spawned. -/
def young : OwnedStage → List ℕ
  | .spawned process | .capturing process | .handling process | .captured process
  | .unidentified process | .recording process | .unrecorded process | .discarding process _
  | .settling process _ => [process]
  | _ => []

end OwnedStage

namespace OwnedSet

variable (s : OwnedSet)

/-- The code has the process in its hands. -/
def Held (process : ℕ) : Prop :=
  s.stage ≠ .left ∧ (process ∈ s.owned ∨ process ∈ s.stage.loose)

/-- `cleanup` may still remove the record of the process. -/
def Pending (process : ℕ) : Prop :=
  s.stage ≠ .left ∧ (process ∈ s.owned ∨ process ∈ s.stage.queue)

end OwnedSet

section

variable {s t : OwnedSet} {event : OwnedEvent} {process : ℕ}

theorem OwnedStage.ne_left {stage : OwnedStage} (h : stage.caught = false) : stage ≠ .left := by
  rintro rfl
  cases h

/-- What the stage says about the set. -/
def OwnedSet.Placed (s : OwnedSet) : Prop :=
  match s.stage with
  | .spawned process | .capturing process | .handling process | .captured process
  | .unidentified process | .settling process _ => process ∉ s.owned
  | .recording process | .unrecorded process | .discarding process false => process ∈ s.owned
  | .discarding process true => process ∈ s.owned ∧ process ∈ s.observed
  | .committing process => process ∈ s.returned
  | .committingAll snapshot todo => todo ⊆ snapshot ∧ snapshot = s.owned
  | .cleaning todo _ _ => s.owned = [] ∧ todo.Nodup
  | .removing todo _ _ => s.owned = [] ∧ todo.Nodup ∧ ∀ process ∈ todo.head?, process ∈ s.observed
  | .exiting _ => s.owned = []
  | _ => True

/-- What holds of a set in every run. -/
structure OwnedFacts (s : OwnedSet) : Prop where
  nodup : s.owned.Nodup
  owned : ∀ process ∈ s.owned, process ∈ s.returned
  returned : ∀ process, s.Held process → process ∈ s.returned
  records : ∀ process ∈ s.transferred, process ∈ s.returned
  young : ∀ process ∈ s.stage.young, process ∉ s.transferred
  placed : s.Placed

/-- Only `Popen` returns processes. -/
theorem OwnedStep.returned (hstep : OwnedStep s event t) :
    process ∈ t.returned ↔ process ∈ s.returned ∨ t.stage = .spawned process := by
  cases hstep <;> simp [or_comm, eq_comm]

theorem OwnedStep.spawned (hstep : OwnedStep s event t) (h : t.stage = .spawned process) :
    process ∉ s.returned := by
  cases hstep <;> simp_all

/-- What the code has in its hands it had before, or `Popen` has just returned it. -/
theorem OwnedStep.held (hplaced : s.Placed) (hstep : OwnedStep s event t) (h : t.Held process) :
    s.Held process ∨ t.stage = .spawned process := by
  cases hstep <;> grind [OwnedSet.Held, OwnedStage.loose, OwnedSet.Placed, OwnedStage.ne_left]

/-- A process comes to account while the code has it in its hands. -/
theorem OwnedStep.accounted (hplaced : s.Placed) (hstep : OwnedStep s event t)
    (h : t.Accounted process) : s.Accounted process ∨ s.Held process := by
  cases hstep <;> grind [OwnedSet.Held, OwnedStage.loose, OwnedSet.Accounted, OwnedSet.Placed]

theorem OwnedStep.accounted_mono (hstep : OwnedStep s event t) (h : s.Accounted process) :
    t.Accounted process := by
  cases hstep <;> grind [OwnedSet.Accounted]

theorem OwnedStep.committed (hstep : OwnedStep s event t) (h : process ∈ t.committed) :
    process ∈ s.committed ∨ s.Pending process := by
  cases hstep <;> grind [OwnedSet.Pending]

/-- A record is changed while `cleanup` may still remove it. -/
theorem OwnedStep.pending (hstep : OwnedStep s event t) (h : t.Pending process) :
    s.Pending process ∨ process ∈ s.stage.young := by
  cases hstep <;> grind [OwnedSet.Pending, OwnedStage.queue, OwnedStage.young, OwnedStage.ne_left]

theorem OwnedStep.removed (hplaced : s.Placed) (hstep : OwnedStep s event t)
    (h : process ∈ s.transferred) (hpending : ¬ s.Pending process) : process ∈ t.transferred := by
  cases hstep <;> grind [OwnedSet.Pending, OwnedStage.queue, OwnedSet.Placed]

/-- A record of a transfer is written by `commit`, or for a process of the set. -/
theorem OwnedStep.transferred (hplaced : s.Placed) (hstep : OwnedStep s event t)
    (h : process ∈ t.transferred) :
    process ∈ s.transferred ∨ s.stage = .committing process ∨ process ∈ s.owned := by
  cases hstep <;> grind [OwnedSet.Placed]

theorem ownedFacts_start : OwnedFacts .start := by
  refine ⟨List.nodup_nil, nofun, ?_, nofun, nofun, trivial⟩
  rintro process ⟨-, howned | hloose⟩
  · exact absurd howned List.not_mem_nil
  · exact absurd hloose List.not_mem_nil

theorem OwnedFacts.step (h : OwnedFacts s) (hstep : OwnedStep s event t) : OwnedFacts t := by
  obtain ⟨hnodup, howned, hreturned, hrecords, hyoung, hplaced⟩ := h
  have hreturned : ∀ process, t.Held process → process ∈ t.returned := by
    intro process hheld
    rw [hstep.returned]
    exact (hstep.held hplaced hheld).imp_left (hreturned process)
  have hrecords : ∀ process ∈ t.transferred, process ∈ t.returned := by
    intro process hmem
    rw [hstep.returned]
    rcases hstep.transferred hplaced hmem with hold | hstage | hmem
    · exact .inl (hrecords process hold)
    · left
      simpa [OwnedSet.Placed, hstage] using hplaced
    · exact .inl (howned process hmem)
  refine ⟨?_, ?_, hreturned, hrecords, ?_, ?_⟩
  · cases hstep <;> grind [OwnedSet.Placed]
  · cases hstep <;> grind [OwnedSet.Held, OwnedStage.loose]
  · cases hstep <;> grind [OwnedStage.young]
  · cases hstep <;> grind [OwnedSet.Placed]

/-! ## Careful steps keep every process, and the others do not -/

/-- What holds of a set in careful runs. -/
structure Kept (s : OwnedSet) : Prop where
  accounted : ∀ process ∈ s.returned, s.Accounted process ∨ s.Held process
  truthful : ∀ process, s.Truthful process ∨ s.Pending process

/-- What a run that was not careful cannot get rid of. -/
inductive Strayed (s : OwnedSet) : Prop
  /-- No one knows of the process. -/
  | lost {process : ℕ} (hreturned : process ∈ s.returned) (haccounted : ¬ s.Accounted process)
      (hheld : ¬ s.Held process)
  /-- No one will correct its record. -/
  | stale {process : ℕ} (htruthful : ¬ s.Truthful process) (hpending : ¬ s.Pending process)

theorem kept_start : Kept .start :=
  ⟨nofun, fun _ => .inl nofun⟩

/-- What the end of `__exit__` takes from the code. -/
theorem OwnedSet.Held.dropped (hplaced : s.Placed) (hleaving : s.stage.leaving = true)
    (h : s.Held process) : process ∈ s.dropped := by
  obtain ⟨-, h⟩ := h
  unfold OwnedSet.Placed at hplaced
  unfold OwnedSet.dropped
  cases hstage : s.stage <;> simp_all [OwnedStage.leaving, OwnedStage.loose]

/-- What another exception leaves in the set. -/
theorem OwnedSet.Held.owned_or_dropped (hcaught : s.stage.caught = false) (h : s.Held process) :
    process ∈ s.owned ∨ process ∈ s.dropped := by
  refine h.2.imp_right fun hloose => ?_
  unfold OwnedSet.dropped
  cases hstage : s.stage <;> simp_all [OwnedStage.caught, OwnedStage.loose]

/-- What the code has in its hands it keeps in a careful step, unless it comes to account. -/
theorem CarefulStep.held (hplaced : s.Placed) (hstep : CarefulStep s event t) (h : s.Held process) :
    t.Accounted process ∨ t.Held process := by
  obtain ⟨hstep, hcareful⟩ := hstep
  cases hstep with
  | escape hleaving => exact .inl (hcareful process (h.dropped hplaced hleaving)).1
  | throw hleaving hcaught =>
      rcases h.owned_or_dropped hcaught with howned | hdropped
      · exact .inr ⟨nofun, .inl howned⟩
      · exact .inl (hcareful process hdropped).1
  | _ => grind [OwnedSet.Held, OwnedStage.loose, OwnedSet.Placed, OwnedSet.Accounted, Careful, OwnedStage.untold]

/-- `cleanup` has the processes in its hands whose records it may remove. -/
theorem OwnedSet.Pending.held (h : s.Pending process) : s.Held process := by
  refine ⟨h.1, h.2.imp_right fun hqueue => ?_⟩
  cases hstage : s.stage <;> simp_all [OwnedStage.queue, OwnedStage.loose]

theorem CarefulStep.truthful (hfacts : OwnedFacts s) (hstep : CarefulStep s event t)
    (h : s.Truthful process ∨ s.Pending process) : t.Truthful process ∨ t.Pending process := by
  have hplaced := hfacts.placed
  have hyoung := hfacts.young process
  obtain ⟨hstep, hcareful⟩ := hstep
  cases hstep with
  | escape hleaving =>
      refine .inl (h.elim id fun hpending => ?_)
      exact (hcareful process (hpending.held.dropped hplaced hleaving)).2
  | throw hleaving hcaught =>
      rcases h with htruthful | hpending
      · exact .inl htruthful
      · rcases hpending.held.owned_or_dropped hcaught with howned | hdropped
        · exact .inr ⟨nofun, .inl howned⟩
        · exact .inl (hcareful process hdropped).2
  | _ =>
      grind [OwnedSet.Pending, OwnedStage.queue, OwnedSet.Placed, OwnedSet.Truthful, OwnedStage.young,
        Careful, OwnedStage.untold]

theorem Kept.step (h : Kept s) (hfacts : OwnedFacts s) (hstep : CarefulStep s event t) : Kept t := by
  refine ⟨?_, fun process => hstep.truthful hfacts (h.truthful process)⟩
  intro process hreturned
  rcases hstep.step.returned.mp hreturned with hold | hspawned
  · rcases h.accounted process hold with haccounted | hheld
    · exact .inl (hstep.step.accounted_mono haccounted)
    · exact hstep.held hfacts.placed hheld
  · right
    simp [OwnedSet.Held, hspawned, OwnedStage.loose]

theorem Strayed.step (h : Strayed s) (hfacts : OwnedFacts s) (hstep : OwnedStep s event t) : Strayed t := by
  cases h with
  | @lost process hreturned haccounted hheld =>
      refine .lost (hstep.returned.mpr (.inl hreturned)) ?_ ?_
      · intro h
        exact (hstep.accounted hfacts.placed h).elim haccounted hheld
      · intro h
        rcases hstep.held hfacts.placed h with h | hspawned
        · exact hheld h
        · exact hstep.spawned hspawned hreturned
  | @stale process htruthful hpending =>
      obtain ⟨htransferred, hcommitted⟩ := Classical.not_imp.mp htruthful
      have hkept := hstep.removed hfacts.placed htransferred hpending
      refine .stale (Classical.not_imp.mpr ⟨hkept, fun h => ?_⟩) fun h => ?_
      · exact (hstep.committed h).elim hcommitted hpending
      · rcases hstep.pending h with h | hyoung
        · exact hpending h
        · exact hfacts.young process hyoung htransferred

/-- What an exception drops the code had in its hands, and has no more. -/
theorem OwnedStep.dropped (hfacts : OwnedFacts s) (hstep : OwnedStep s .failure t)
    (hmem : process ∈ s.dropped) :
    s.Held process ∧ ¬ t.Held process ∧ ¬ t.Pending process ∧ (t.Accounted process → s.Accounted process) ∧
      (t.Truthful process → s.Truthful process) := by
  have hplaced := hfacts.placed
  cases hstep <;>
    grind [OwnedSet.dropped, OwnedSet.Held, OwnedSet.Pending, OwnedStage.loose, OwnedStage.queue, OwnedSet.Placed,
      OwnedStage.leaving, OwnedSet.Accounted, OwnedSet.Truthful]

/-- What nobody is going to be told of the code had in its hands, and has no more. -/
theorem OwnedStep.untold (hfacts : OwnedFacts s) (hstep : OwnedStep s .operation t)
    (hmem : process ∈ s.stage.untold) :
    s.Held process ∧ ¬ t.Held process ∧ (t.Accounted process → s.Accounted process) := by
  have hplaced := hfacts.placed
  cases hstep <;>
    grind [OwnedStage.untold, OwnedSet.Held, OwnedStage.loose, OwnedSet.Placed, OwnedSet.Accounted]

/-- A step that is not careful strays. -/
theorem strayed_of_careless (hfacts : OwnedFacts s) (hstep : OwnedStep s event t)
    (hcareless : ¬ Careful s event) : Strayed t := by
  have hlost : ∀ {process}, s.Held process → ¬ t.Held process → ¬ t.Accounted process → Strayed t :=
    fun hheld hgone haccounted =>
      .lost (hstep.returned.mpr (.inl (hfacts.returned _ hheld))) haccounted hgone
  cases event with
  | operation =>
      rcases not_and_or.mp hcareless with huntold | hcommitting
      · push Not at huntold
        obtain ⟨process, hmem, haccounted⟩ := huntold
        obtain ⟨hheld, hgone, hback⟩ := hstep.untold hfacts hmem
        exact hlost hheld hgone fun h => haccounted (hback h)
      · -- The record is written before the process is found not to be in the set.
        push Not at hcommitting
        obtain ⟨process, hstage, howned, hcommitted⟩ := hcommitting
        refine @Strayed.stale _ process ?_ ?_ <;>
          cases hstep <;> grind [OwnedSet.Truthful, OwnedSet.Pending, OwnedStage.queue]
  | unverified =>
      -- The process leaves the queue of `cleanup`, and its record stays.
      simp only [Careful, not_forall] at hcareless
      obtain ⟨process, hmem, hcareless⟩ := hcareless
      have hplaced := hfacts.placed
      refine @Strayed.stale _ process ?_ ?_ <;>
        cases hstep <;> grind [OwnedSet.Truthful, OwnedSet.Pending, OwnedStage.queue, OwnedSet.Placed]
  | failure =>
      simp only [Careful, not_forall] at hcareless
      obtain ⟨process, hmem, hcareless⟩ := hcareless
      obtain ⟨hheld, hgone, hpending, haccounted, htruthful⟩ := hstep.dropped hfacts hmem
      rcases not_and_or.mp hcareless with h | h
      · exact hlost hheld hgone fun h' => h (haccounted h')
      · exact .stale (fun h' => h (htruthful h')) hpending

theorem careful_or_strayed {s t : OwnedSet} {events : List OwnedEvent} (hfacts : OwnedFacts s)
    (hrun : Run OwnedStep s events t) : Run CarefulStep s events t ∨ Strayed t := by
  induction hrun with
  | nil s => exact .inl (.nil s)
  | @cons s u t event events hstep hrest ih =>
      by_cases hcareful : Careful s event
      · exact (ih (hfacts.step hstep)).imp_left (.cons ⟨hstep, hcareful⟩)
      · right
        have hstrayed := strayed_of_careless hfacts hstep hcareful
        exact hrest.preserves_of (fun _ _ _ h hone => OwnedFacts.step h hone)
          (fun _ _ _ hfacts h hone => Strayed.step h hfacts hone) (hfacts.step hstep) hstrayed

theorem kept_of_careful {events : List OwnedEvent} (hrun : Run CarefulStep s events t) (hfacts : OwnedFacts s)
    (h : Kept s) : Kept t :=
  hrun.preserves_of (fun _ _ _ h hone => OwnedFacts.step h hone.step)
    (fun _ _ _ hfacts h hone => Kept.step h hfacts hone) hfacts h

/-- When the block has been left, the code has nothing in its hands any more. -/
theorem Kept.settled (h : Kept s) (hleft : s.stage = .left) : s.Settled where
  accounted process hreturned := (h.accounted process hreturned).resolve_right fun hheld => hheld.1 hleft
  truthful process := (h.truthful process).resolve_right fun hpending => hpending.1 hleft

theorem Strayed.not_settled (h : Strayed s) : ¬ s.Settled := by
  intro hsettled
  cases h with
  | lost hreturned haccounted hheld => exact haccounted (hsettled.accounted _ hreturned)
  | stale htruthful hpending => exact htruthful (hsettled.truthful _)

end

/-- When the block has been left, every process is settled exactly when each step was careful. -/
theorem owned_processes_exact {events : List OwnedEvent} {s : OwnedSet}
    (hrun : Run OwnedStep .start events s) (hleft : s.stage = .left) :
    s.Settled ↔ Run CarefulStep .start events s := by
  constructor
  · intro hsettled
    exact (careful_or_strayed ownedFacts_start hrun).resolve_right fun h => h.not_settled hsettled
  · intro hcareful
    exact (kept_of_careful hcareful ownedFacts_start kept_start).settled hleft

/-- Two processes are spawned; the first record of the second one fails and its group survives
`terminate`, so it is named.  The first one is committed and the block is left. -/
theorem unrecorded_survivor_exact : ∃ s : OwnedSet, s.committed = [0] ∧ s.named = [1] ∧
    (s.Settled ↔ Run CarefulStep .start
      ([.operation, .operation, .operation, .operation, .operation] ++
        [.operation, .operation, .operation, .operation, .failure, .unverified, .operation, .operation] ++
        [.operation, .operation, .operation] ++
        [.operation, .operation, .operation, .operation]) s) := by
  refine ⟨_, ?_, ?_, owned_processes_exact (.append (.append (.append
    (.cons (@OwnedStep.popen _ 0 rfl nofun) (.cons (.enter rfl) (.cons (.capture rfl)
      (.cons (.append rfl) (.cons (.record rfl) (.nil _))))))
    (.cons (@OwnedStep.popen _ 1 rfl (by decide)) (.cons (.enter rfl) (.cons (.capture rfl)
      (.cons (.append rfl) (.cons (.handleRecord rfl) (.cons (.surviveUnrecorded rfl)
        (.cons (.discard rfl) (.cons (.settle rfl) (.nil _))))))))))
    (.cons (@OwnedStep.callCommit _ 0 rfl (by decide)) (.cons (.transfer rfl)
      (.cons (.commit rfl (by decide)) (.nil _)))))
    (.cons (@OwnedStep.callCleanup _ true rfl) (.cons (.clear rfl) (.cons (.exit rfl)
      (.cons (.leave rfl) (.nil _)))))) rfl⟩ <;> rfl

/-- An interrupt between the return of `Popen` and the `try`: the block is left, and nothing is
known of the process. -/
theorem interrupted_spawn : ∃ s : OwnedSet,
    Run OwnedStep .start [.operation, .failure, .operation, .operation, .operation, .operation] s ∧
      s.stage = .left ∧ s.returned = [0] ∧ ¬ s.Accounted 0 ∧ ¬ s.Settled := by
  refine ⟨_, .cons (@OwnedStep.popen _ 0 rfl nofun) (.cons (.throw rfl rfl)
    (.cons (@OwnedStep.callCleanup _ true rfl) (.cons (.clear rfl) (.cons (.exit rfl)
      (.cons (.leave rfl) (.nil _)))))), rfl, rfl, by decide, fun hsettled => ?_⟩
  exact absurd (hsettled.accounted 0 (by decide)) (by decide)

end Hearth.Processes
