import Hearth.Criu.RestorePublication

/-!
# The end of a failed restore

`_execute_restore_transaction_with_outputs` of `cli/orbstack_criu_restore.py`, from the time when
`begin_restored_pool_transaction` has published the restoring state.  Whatever its `try` raises
comes to one of two handlers.  The one for the exit status of a program first looks whether the
launcher has failed because the pid of the root was taken; it may then write a receipt, reset the
pool and make a second attempt, all of which is itself outside the `try`.

A run begins behind the `begin` of the first attempt.  The files that the handler of a failure
writes itself are written.
-/

namespace Hearth.Criu

open Hearth.Library

/-! ## The steps -/

/-- The two attempts of a call; only the first one may be followed by another. -/
inductive RestoreAttempt
  | first | second
  deriving DecidableEq, Repr

/-- Where the call is. -/
inductive SettlementStage
  /-- In the `try` of the attempt. -/
  | trying (phase : RestorePhase)
  /-- In `_root_collision_retry_from_current_outputs`. -/
  | deciding
  /-- The retry is authorized, and its receipt is about to be written. -/
  | authorized
  /-- In `reset_root_collision_restore`. -/
  | resetting
  /-- In `_remove_bound_output_directory`. -/
  | clearing
  /-- In `execute_restore_transaction`, in front of the second attempt. -/
  | preparing
  /-- In `_handle_transaction_failure`. -/
  | handling
  /-- There, behind `_mark_pool_restore_failed`. -/
  | marked
  /-- Behind the `try`. -/
  | reporting
  /-- The call has returned 0, or has returned something else or raised. -/
  | left (succeeded : Bool)
  deriving DecidableEq, Repr

/-- The files of the pool, and the call. -/
structure Settlement where
  files : PoolFiles
  attempt : RestoreAttempt
  stage : SettlementStage
  /-- The cleanup record of the attempt, when its failure has been handled. -/
  cleanup : Option Json

/-- Behind the `begin` of the first attempt. -/
def Settlement.start (files : PoolFiles) : Settlement :=
  ⟨files, .first, .trying .begun, none⟩

/-- The call goes on, or something is raised. -/
inductive SettlementEvent
  | operation | failure
  deriving DecidableEq, Repr

/-- The step is one of the `try`. -/
def RestoreOp.tried : RestoreOp → Bool
  | .reset _ _ => false
  | _ => true

/-- What is raised here leaves the call. -/
def SettlementStage.uncovered : SettlementStage → Bool
  | .deciding | .authorized | .resetting | .clearing | .preparing | .handling | .marked | .reporting => true
  | .trying _ | .left _ => false

/-- The steps of a call. -/
inductive SettlementStep (s : Settlement) : SettlementEvent → Settlement → Prop
  -- The `try`
  | perform {phase : RestorePhase} {op : RestoreOp} {now : String} {writes : List FileWrite}
      (hstage : s.stage = .trying phase) (htried : op.tried = true) (henabled : op.enabled phase = true)
      (hwrites : op.writes now s.files = .ok writes) :
      SettlementStep s .operation
        { s with files := s.files.writeAll writes, stage := .trying op.next }
  | validate {root : ℕ} {recorded : RecordedProcesses} {tree : List TreeRecord} {roles : RestoredRoles}
      (hstage : s.stage = .trying .owned) (haccepted : validateRestoredTree root recorded tree = .ok roles) :
      SettlementStep s .operation { s with stage := .trying (.validated roles) }
  | leave (hstage : s.stage = .trying .published) :
      SettlementStep s .operation { s with stage := .reporting }
  | report (hstage : s.stage = .reporting) :
      SettlementStep s .operation { s with stage := .left true }
  /-- A step raises behind this many of its writes. -/
  | interrupt {phase : RestorePhase} {op : RestoreOp} {now : String} {writes : List FileWrite} {count : ℕ}
      (hstage : s.stage = .trying phase) (htried : op.tried = true) (henabled : op.enabled phase = true)
      (hwrites : op.writes now s.files = .ok writes) (hcount : count < writes.length) :
      SettlementStep s .failure
        { s with files := s.files.writeAll (writes.take count), stage := .handling }
  | raise {phase : RestorePhase} (hstage : s.stage = .trying phase) :
      SettlementStep s .failure { s with stage := .handling }
  -- The retry
  /-- The launcher fails, in an attempt that may be followed by another. -/
  | collide (hattempt : s.attempt = .first) (hstage : s.stage = .trying .begun ∨ s.stage = .trying .owned) :
      SettlementStep s .failure { s with stage := .deciding }
  | decline (hstage : s.stage = .deciding) : SettlementStep s .operation { s with stage := .handling }
  | authorize (hstage : s.stage = .deciding) : SettlementStep s .operation { s with stage := .authorized }
  | record (hstage : s.stage = .authorized) : SettlementStep s .operation { s with stage := .resetting }
  | reset {request : RestoreRequest} {retryReceipt now : String} {writes : List FileWrite}
      (hstage : s.stage = .resetting)
      (hwrites : (RestoreOp.reset request retryReceipt).writes now s.files = .ok writes) :
      SettlementStep s .operation { s with files := s.files.writeAll writes, stage := .clearing }
  | interruptReset {request : RestoreRequest} {retryReceipt now : String} {writes : List FileWrite}
      {count : ℕ} (hstage : s.stage = .resetting)
      (hwrites : (RestoreOp.reset request retryReceipt).writes now s.files = .ok writes)
      (hcount : count < writes.length) :
      SettlementStep s .failure
        { s with files := s.files.writeAll (writes.take count), stage := .left false }
  | clear (hstage : s.stage = .clearing) : SettlementStep s .operation { s with stage := .preparing }
  | retry (hstage : s.stage = .preparing) :
      SettlementStep s .operation { s with attempt := .second, stage := .trying .idle, cleanup := none }
  -- The handler
  | mark {cleanup : Json} {now : String} {gate : FileWrite} {sessions : List FileWrite}
      (hstage : s.stage = .handling)
      (hmark : markPoolRestoreFailed cleanup now s.files = .ok (gate, sessions)) :
      SettlementStep s .operation
        { s with files := s.files.writeAll (gate :: sessions), stage := .marked, cleanup := some cleanup }
  /-- The receipt is written, and the call returns 1 or raises. -/
  | finish (hstage : s.stage = .marked) : SettlementStep s .operation { s with stage := .left false }
  /-- Neither handler sees it; outputs of the second attempt that are refused make it return 1. -/
  | escape (huncovered : s.stage.uncovered = true) :
      SettlementStep s .failure { s with stage := .left false }

/-- Nothing is raised outside the `try`, up to the mark of a failure. -/
def Covered (s : Settlement) : SettlementEvent → Prop
  | .operation => True
  | .failure => s.stage.uncovered = true → s.stage = .marked

/-- A step that is covered. -/
structure CoveredStep (s : Settlement) (event : SettlementEvent) (t : Settlement) : Prop where
  step : SettlementStep s event t
  covered : Covered s event

namespace Settlement

variable (s : Settlement)

/-- The handler of a failure has run for the attempt, and `pool.json` has its record. -/
def Marked : Prop :=
  ∃ cleanup, s.cleanup = some cleanup ∧ s.files.status = .str "restore_failed" ∧
    s.files.pool.get "restore_failure_cleanup" = cleanup

/-- The call has succeeded, or its failure has been handled. -/
def Settled : Prop :=
  s.stage = .left true ∨ s.Marked

end Settlement

/-! ## The files of a step -/

/-- All the writes of the mark close the gate. -/
theorem status_mark {files : PoolFiles} {cleanup : Json} {now : String} {gate : FileWrite}
    {sessions : List FileWrite} (h : markPoolRestoreFailed cleanup now files = .ok (gate, sessions)) :
    (files.writeAll (gate :: sessions)).status = .str "restore_failed" := by
  simpa using status_markPoolRestoreFailed (fun _ => true) h

/-- The mark records the cleanup. -/
theorem cleanup_markPoolRestoreFailed {files : PoolFiles} {cleanup : Json} {now : String}
    {gate : FileWrite} {sessions : List FileWrite}
    (h : markPoolRestoreFailed cleanup now files = .ok (gate, sessions)) :
    (files.writeAll (gate :: sessions)).pool.get "restore_failure_cleanup" = cleanup := by
  unfold markPoolRestoreFailed at h
  obtain ⟨hdict, h⟩ := guard_eq_ok.mp h
  split at h
  · rename_i rows hrows
    obtain ⟨updates, hupdates, h⟩ := bind_eq_ok.mp h
    obtain ⟨rfl, rfl⟩ := Prod.mk.inj (pure_eq_ok.mp h)
    have hobject : files.pool.isDict = true := by simpa using hdict
    rw [PoolFiles.writeAll, List.foldl_cons]
    show Json.get (PoolFiles.writeAll _ _).pool "restore_failure_cleanup" = _
    rw [PoolFiles.writeAll_pool _ (isSession_of_mem_failedSessions hupdates)]
    exact get_extend_rows hobject (by decide) (by simp) (by simp)
  · cases h

/-- A step that is cut short leaves the status of the pool. -/
theorem RestoreOp.status_take {op : RestoreOp} {now : String} {files : PoolFiles}
    {writes : List FileWrite} {count : ℕ} (hwrites : op.writes now files = .ok writes)
    (hcount : count < writes.length) : (files.writeAll (writes.take count)).status = files.status :=
  congrArg (fun pool : Json => pool.get "status") ((RestoreOp.gated hwrites).pool_writeAll_take hcount)

/-- No step of a transaction marks a failure. -/
theorem RestoreOp.status_writes_ne {op : RestoreOp} {now : String} {files : PoolFiles}
    {writes : List FileWrite} (hwrites : op.writes now files = .ok writes) :
    (files.writeAll writes).status ≠ .str "restore_failed" := by
  rw [(RestoreOp.gated hwrites).status_writeAll]
  cases op <;> simp [RestoreOp.left]

/-! ## What holds in every run -/

/-- The status of the pool says of a failure that it has been handled, and nothing else does. -/
structure SettlementFacts (s : Settlement) : Prop where
  unmarked : s.stage ≠ .marked → (∀ succeeded, s.stage ≠ .left succeeded) →
    s.files.status ≠ .str "restore_failed"
  marked : s.stage = .marked → s.Marked

section

variable {s t : Settlement} {event : SettlementEvent}

/-- A stage in which nothing has been marked. -/
theorem SettlementFacts.of_status (hstatus : s.files.status ≠ .str "restore_failed")
    (hstage : s.stage ≠ .marked) : SettlementFacts s :=
  ⟨fun _ _ => hstatus, fun h => absurd h hstage⟩

theorem SettlementFacts.of_left {succeeded : Bool} (hstage : s.stage = .left succeeded) :
    SettlementFacts s := by
  refine ⟨fun _ h => absurd hstage (h succeeded), fun h => ?_⟩
  rw [hstage] at h
  cases h

/-- The call goes on over the same files. -/
theorem SettlementFacts.status (h : SettlementFacts s) {stage : SettlementStage} (hstage : s.stage = stage)
    (hmarked : stage ≠ .marked) (hleft : ∀ succeeded, stage ≠ .left succeeded) :
    s.files.status ≠ .str "restore_failed" :=
  h.unmarked (hstage ▸ hmarked) (fun succeeded => hstage ▸ hleft succeeded)

theorem SettlementFacts.step (h : SettlementFacts s) (hstep : SettlementStep s event t) : SettlementFacts t := by
  cases hstep with
  | perform hstage htried henabled hwrites => exact .of_status (RestoreOp.status_writes_ne hwrites) nofun
  | reset hstage hwrites => exact .of_status (RestoreOp.status_writes_ne hwrites) nofun
  | interrupt hstage htried henabled hwrites hcount =>
      refine .of_status ?_ nofun
      rw [RestoreOp.status_take hwrites hcount]
      exact h.status hstage nofun nofun
  | validate hstage | leave hstage | raise hstage | decline hstage | authorize hstage | record hstage
  | clear hstage | retry hstage =>
      exact .of_status (h.status hstage nofun nofun) nofun
  | collide hattempt hstage =>
      refine .of_status ?_ nofun
      rcases hstage with hstage | hstage <;> exact h.status hstage nofun nofun
  | mark hstage hmark =>
      exact ⟨fun hmarked => absurd rfl hmarked,
        fun _ => ⟨_, rfl, status_mark hmark, cleanup_markPoolRestoreFailed hmark⟩⟩
  | report | interruptReset | finish | escape => exact .of_left rfl

/-! ## Covered steps settle every failure, and the others do not -/

/-- The call has failed, and nothing says so. -/
structure Abandoned (s : Settlement) : Prop where
  left : s.stage = .left false
  unmarked : s.files.status ≠ .str "restore_failed"

theorem Abandoned.not_settled (h : Abandoned s) : ¬ s.Settled := by
  rintro (hleft | ⟨_, -, hstatus, -⟩)
  · rw [h.left] at hleft
    cases hleft
  · exact h.unmarked hstatus

/-- Behind the end of a call there is no step. -/
theorem SettlementStep.not_left {succeeded : Bool} (hstep : SettlementStep s event t) :
    s.stage ≠ .left succeeded := by
  intro hleft
  cases hstep <;> simp_all [SettlementStage.uncovered]

theorem abandoned_of_not_covered (hfacts : SettlementFacts s) (hstep : SettlementStep s event t)
    (huncovered : ¬ Covered s event) : Abandoned t := by
  cases event with
  | operation => exact absurd trivial huncovered
  | failure =>
      obtain ⟨hstage, hmarked⟩ := Classical.not_imp.mp huncovered
      have hstatus : s.files.status ≠ .str "restore_failed" :=
        hfacts.unmarked hmarked fun succeeded => hstep.not_left
      cases hstep with
      | interrupt htrying | raise htrying =>
          rw [htrying] at hstage
          cases hstage
      | collide hattempt htrying =>
          rcases htrying with htrying | htrying <;> simp [htrying, SettlementStage.uncovered] at hstage
      | interruptReset hresetting hwrites hcount =>
          refine ⟨rfl, ?_⟩
          rwa [RestoreOp.status_take hwrites hcount]
      | escape => exact ⟨rfl, hstatus⟩

/-- A call whose steps are covered marks its failure before it is left. -/
def Kept (s : Settlement) : Prop :=
  s.stage = .left false → s.Marked

theorem Kept.step (hfacts : SettlementFacts s) (hstep : CoveredStep s event t) : Kept t := by
  obtain ⟨hstep, hcovered⟩ := hstep
  cases hstep with
  | finish hstage => exact fun _ => hfacts.marked hstage
  | escape huncovered => exact fun _ => hfacts.marked (hcovered huncovered)
  | interruptReset hstage hwrites hcount =>
      -- The reset is not covered.
      have hmarked := hcovered (by rw [hstage]; rfl)
      rw [hstage] at hmarked
      cases hmarked
  | _ => exact nofun

theorem kept_of_covered {events : List SettlementEvent} (hrun : Run CoveredStep s events t)
    (hfacts : SettlementFacts s) (h : Kept s) : Kept t :=
  hrun.preserves_of (fun _ _ _ h hone => SettlementFacts.step h hone.step)
    (fun _ _ _ hfacts _ hone => Kept.step hfacts hone) hfacts h

theorem covered_or_abandoned {events : List SettlementEvent} (hrun : Run SettlementStep s events t)
    (hfacts : SettlementFacts s) : Run CoveredStep s events t ∨ Abandoned t := by
  induction hrun with
  | nil s => exact .inl (.nil s)
  | @cons s u t event events hstep hrest ih =>
      by_cases hcovered : Covered s event
      · exact (ih (hfacts.step hstep)).imp_left (.cons ⟨hstep, hcovered⟩)
      · right
        have habandoned := abandoned_of_not_covered hfacts hstep hcovered
        exact hrest.preserves (fun _ _ _ h hone => absurd h.left hone.not_left) habandoned

end

/-- A call that has published the restoring state and has come to its end has succeeded, or the
handler has marked the failure of its attempt, exactly when nothing was raised outside the `try`
before a mark. -/
theorem restore_settled_exact {files : PoolFiles} {request : RestoreRequest} {now : String}
    {writes : List FileWrite} (hbegin : beginRestoredPoolTransaction request now files = .ok writes)
    {events : List SettlementEvent} {s : Settlement} {succeeded : Bool}
    (hrun : Run SettlementStep (.start (files.writeAll writes)) events s)
    (hended : s.stage = .left succeeded) :
    s.Settled ↔ Run CoveredStep (.start (files.writeAll writes)) events s := by
  have hfacts : SettlementFacts (.start (files.writeAll writes)) :=
    .of_status (@RestoreOp.status_writes_ne (.begin request) _ _ _ hbegin) nofun
  constructor
  · intro hsettled
    exact (covered_or_abandoned hrun hfacts).resolve_right fun h => h.not_settled hsettled
  · intro hcovered
    have hkept : Kept s := kept_of_covered hcovered hfacts nofun
    cases succeeded with
    | true => exact .inl hended
    | false => exact .inr (hkept hended)

/-- The transaction of the one session of `stoppedFiles` begins, and its failure can be marked. -/
theorem begin_stoppedFiles : ∃ writes gate sessions,
    beginRestoredPoolTransaction ⟨"t1", "/image", 1, 2, "/image/restore.pid", "/image/restore.log", none⟩ "01"
      stoppedFiles = .ok writes ∧
    markPoolRestoreFailed .null "02" (stoppedFiles.writeAll writes) = .ok (gate, sessions) := by
  have hok : (beginRestoredPoolTransaction
      ⟨"t1", "/image", 1, 2, "/image/restore.pid", "/image/restore.log", none⟩ "01" stoppedFiles >>=
        fun writes => markPoolRestoreFailed .null "02" (stoppedFiles.writeAll writes)).isOk = true := by
    decide +kernel
  generalize houtcome : (beginRestoredPoolTransaction _ _ _ >>= _) = outcome at hok
  cases outcome with
  | error message => cases hok
  | ok marked =>
      obtain ⟨writes, hbegin, hmark⟩ := bind_eq_ok.mp houtcome
      exact ⟨writes, marked.1, marked.2, hbegin, hmark⟩

/-- The launcher fails, no retry is authorized, and the failure is marked. -/
theorem declined_retry_settled : ∃ files, (∃ s, s.files.status = .str "restore_failed" ∧
    (s.Settled ↔ Run CoveredStep (.start files) [.failure, .operation, .operation, .operation] s)) := by
  obtain ⟨writes, gate, sessions, hbegin, hmark⟩ := begin_stoppedFiles
  exact ⟨_, _, status_mark hmark, restore_settled_exact hbegin (.cons (.collide rfl (.inl rfl))
    (.cons (.decline rfl) (.cons (.mark rfl hmark) (.cons (.finish rfl) (.nil _))))) rfl⟩

/-- An interrupt while the retry waits for the pid to become vacant: the pool stays restoring. -/
theorem interrupted_retry : ∃ files s, files.status = .str "stopped" ∧ ∃ request now writes,
    beginRestoredPoolTransaction request now files = .ok writes ∧
      Run SettlementStep (.start (files.writeAll writes)) [.failure, .failure] s ∧
        s.stage = .left false ∧ s.files.status = .str "restoring" ∧ ¬ s.Settled := by
  obtain ⟨writes, gate, sessions, hbegin, hmark⟩ := begin_stoppedFiles
  have hrestoring := (gated_begin hbegin).status_writeAll
  refine ⟨stoppedFiles, _, by decide +kernel, _, _, writes, hbegin, .cons (.collide rfl (.inl rfl))
    (.cons (.escape rfl) (.nil _)), rfl, hrestoring, ?_⟩
  refine Abandoned.not_settled ⟨rfl, ?_⟩
  show (stoppedFiles.writeAll writes).status ≠ _
  rw [hrestoring]
  decide

end Hearth.Criu
