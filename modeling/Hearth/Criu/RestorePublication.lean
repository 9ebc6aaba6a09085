import Hearth.Criu.RestoredTree
import Hearth.Criu.RestoreWrites
import Hearth.Library.Transition

/-!
# Runs of the restore of a pool

`restore_pool_locked` and `_execute_restore_transaction_with_outputs` of
`cli/orbstack_criu_restore.py`: a restore opens a transaction, owns its launcher, validates the
restored tree, stages its identities and publishes the pool.  Every step may raise, the
controller may die between any two writes, and whatever comes next starts from the files alone.

Only the last write of a step touches `pool.json`, and only a published pool is ready.  So an
interrupted step never moves the gate, and a ready pool was published by one transaction whose
staged identities are in every session.
-/

namespace Hearth.Criu

open Hearth.Library

/-! ## The steps -/

/-- The steps of a transaction that write documents. -/
inductive RestoreOp
  | begin (request : RestoreRequest)
  | recordLauncher (pid startTicks : ℕ) (identity : String)
  | stage (roles : RestoredRoles)
  | publish
  | reset (request : RestoreRequest) (retryReceipt : String)

/-- How far a call has come. -/
inductive RestorePhase
  /-- No call is under way. -/
  | idle
  /-- The transaction is open. -/
  | begun
  /-- Its launcher is recorded. -/
  | owned
  /-- `validate_restored_tree` returned these roles. -/
  | validated (roles : RestoredRoles)
  /-- Their identities are staged. -/
  | staged (roles : RestoredRoles)
  /-- The pool is published. -/
  | published
  /-- Something was raised, and the failure is being handled. -/
  | failing
  deriving DecidableEq, Repr

namespace RestoreOp

/-- The documents that the step writes. -/
def writes (now : String) (files : PoolFiles) : RestoreOp → Except String (List FileWrite)
  | .begin request => beginRestoredPoolTransaction request now files
  | .recordLauncher pid startTicks identity => recordRestoredPoolLauncher pid startTicks identity now files
  | .stage roles => stageRestoredPoolMetadata roles now files
  | .publish => publishRestoredPoolReady now files
  | .reset request retryReceipt => resetRootCollisionRestore request retryReceipt now files

/-- Whether the call makes the step now.  A reset answers a launcher that failed, recorded or not. -/
def enabled : RestoreOp → RestorePhase → Bool
  | .begin _, .idle => true
  | .recordLauncher _ _ _, .begun => true
  | .stage roles, .validated accepted => roles = accepted
  | .publish, .staged _ => true
  | .reset _ _, .begun => true
  | .reset _ _, .owned => true
  | _, _ => false

/-- The phase behind the step. -/
def next : RestoreOp → RestorePhase
  | .begin _ => .begun
  | .recordLauncher _ _ _ => .owned
  | .stage roles => .staged roles
  | .publish => .published
  | .reset _ _ => .idle

/-- The phase behind a step that raised.  A reset is made while a failure is handled, and what it
raises leaves the call. -/
def interrupted : RestoreOp → RestorePhase
  | .reset _ _ => .idle
  | _ => .failing

/-- The status that the step requires of `pool.json`. -/
def required : RestoreOp → String
  | .begin _ => "stopped"
  | _ => "restoring"

/-- The status that the step leaves in `pool.json`. -/
def left : RestoreOp → String
  | .publish => "ready"
  | .reset _ _ => "stopped"
  | _ => "restoring"

/-- No step starts from a ready pool. -/
theorem required_ne_ready (op : RestoreOp) : Json.str op.required ≠ .str "ready" := by
  cases op <;> simp [required]

/-- Only the begin of a transaction starts from a stopped pool. -/
theorem eq_begin_of_required {op : RestoreOp} (h : op.required = "stopped") :
    ∃ request, op = .begin request := by
  cases op with
  | begin request => exact ⟨request, rfl⟩
  | recordLauncher | stage | publish | reset => simp [required] at h

end RestoreOp

/-- Every step moves the gate with its last write. -/
theorem RestoreOp.gated {op : RestoreOp} {now : String} {files : PoolFiles} {writes : List FileWrite}
    (h : op.writes now files = .ok writes) : Gated files op.required op.left writes := by
  cases op with
  | begin request => exact gated_begin h
  | recordLauncher pid startTicks identity => exact gated_recordLauncher h
  | stage roles =>
      obtain ⟨hstatus, update, new, hrewritten, hnew, -⟩ := stageRestoredPoolMetadata_eq_ok h
      exact hrewritten.gated hstatus hnew
  | publish =>
      obtain ⟨hstatus, update, new, hrewritten, hnew, -⟩ := publishRestoredPoolReady_eq_ok h
      exact hrewritten.gated hstatus hnew
  | reset request retryReceipt => exact gated_reset h

/-- A tree that `validate_restored_tree` accepted, and the transaction it was captured in. -/
structure AcceptedTree where
  transaction : ℕ
  root : ℕ
  recorded : RecordedProcesses
  tree : List TreeRecord
  roles : RestoredRoles
  accepted : validateRestoredTree root recorded tree = .ok roles

/-- The files of the pool, and what its restores have done. -/
structure RestoreState where
  files : PoolFiles
  phase : RestorePhase
  /-- The number of the transactions begun. -/
  transaction : ℕ
  /-- The trees accepted so far. -/
  accepted : List AcceptedTree
  /-- The transaction that published last. -/
  publishedIn : ℕ

/-- Before the first restore. -/
def RestoreState.start (files : PoolFiles) : RestoreState :=
  ⟨files, .idle, 0, [], 0⟩

/-- What happens to the pool. -/
inductive RestoreLabel
  /-- A ready pool is demoted. -/
  | demote (probe : DemotionProbe)
  /-- A step returns. -/
  | perform (op : RestoreOp) (now : String)
  /-- A step raises, or dies, behind this many of its writes. -/
  | interrupt (op : RestoreOp) (now : String) (count : ℕ)
  /-- The restored tree is validated. -/
  | validate (root : ℕ) (recorded : RecordedProcesses) (tree : List TreeRecord)
  /-- Anything else raises. -/
  | fail
  /-- The failure is marked, here or by a later recovery: not at all, or in `pool.json` and in some
  of the sessions. -/
  | markFailed (cleanup : Json) (now : String) (written : Option (FileWrite → Bool))
  /-- The call ends, or its controller dies. -/
  | finish
  /-- Other lifecycle commands leave these files. -/
  | settle (files : PoolFiles)

namespace RestoreState

/-- A step that wrote what it had to. -/
def performed (state : RestoreState) (op : RestoreOp) (writes : List FileWrite) : RestoreState :=
  { state with
    files := state.files.writeAll writes
    phase := op.next
    transaction := match op with
      | .begin _ => state.transaction + 1
      | _ => state.transaction
    publishedIn := match op with
      | .publish => state.transaction
      | _ => state.publishedIn }

/-- Whether a failure may be marked: one that is being handled, or one that a recovery finds. -/
def marks (state : RestoreState) : Bool :=
  state.phase = .failing ∨ state.phase = .idle ∧
    (state.files.status = .str "restoring" ∨ state.files.status = .str "restore_failed")

/-- Whether other commands may write: between two calls, when the pool neither is ready nor stays in
a transaction.  They neither publish a restore nor open one. -/
def settles (state : RestoreState) (files : PoolFiles) : Bool :=
  state.phase = .idle ∧ state.files.status ≠ .str "ready" ∧ files.status ≠ .str "ready" ∧
    files.status ≠ .str "restoring"

/-- One step. -/
def step (state : RestoreState) : RestoreLabel → Option RestoreState
  | .demote probe =>
      match state.phase, demoteStaleReadyPool probe state.files with
      | .idle, .ok (some writes) => some { state with files := state.files.writeAll writes }
      | _, _ => none
  | .perform op now =>
      match op.enabled state.phase, op.writes now state.files with
      | true, .ok writes => some (state.performed op writes)
      | _, _ => none
  | .interrupt op now count =>
      match op.enabled state.phase, op.writes now state.files with
      | true, .ok writes =>
          if count < writes.length then
            some { state with files := state.files.writeAll (writes.take count), phase := op.interrupted }
          else none
      | true, .error _ => if count = 0 then some { state with phase := op.interrupted } else none
      | _, _ => none
  | .validate root recorded tree =>
      if state.phase = .owned then
        match h : validateRestoredTree root recorded tree with
        | .ok roles =>
            some { state with
              phase := .validated roles
              accepted := ⟨state.transaction, root, recorded, tree, roles, h⟩ :: state.accepted }
        | .error _ => none
      else none
  | .fail => if state.phase = .idle then none else some { state with phase := .failing }
  | .markFailed cleanup now written =>
      match state.marks, written, markPoolRestoreFailed cleanup now state.files with
      | true, none, _ => some { state with phase := .idle }
      | true, some written, .ok (gate, sessions) =>
          some { state with files := state.files.writeAll (gate :: sessions.filter written), phase := .idle }
      | _, _, _ => none
  | .finish => some { state with phase := .idle }
  | .settle files => if state.settles files then some { state with files := files } else none

/-- The step relation of the pool. -/
def Step (state : RestoreState) (label : RestoreLabel) (next : RestoreState) : Prop :=
  state.step label = some next

/-- What a list of labels leads to is a run. -/
theorem run_of_foldlM {labels : List RestoreLabel} {state final : RestoreState}
    (h : labels.foldlM step state = some final) : Run Step state labels final := by
  induction labels generalizing state with
  | nil =>
      obtain rfl := Option.some.inj h
      exact .nil state
  | cons label labels ih =>
      rw [List.foldlM_cons] at h
      obtain ⟨next, hstep, hrest⟩ := Option.bind_eq_some_iff.mp h
      exact .cons hstep (ih hrest)

end RestoreState

/-! ## Demotion -/

/-- What a demotion has observed: the recorded processes and their groups are dead, no session is
leased and no child is registered. -/
structure Quiescent (probe : DemotionProbe) (data : Json) : Prop where
  dead : ∀ role, ∃ owned, probe.ownedProcess data role = .ok owned ∧
    probe.identityReader owned.pid ≠ some owned.identity ∧ probe.pidDead owned.pid = true ∧
      probe.groupLive owned.pgid = false
  unleased : ∃ rows, data.get "sessions" = .arr rows ∧ rows ≠ [] ∧ ∀ row ∈ rows, row.get "lease" = .null
  childless : probe.activeChildren (data.get "engine" = .str "fork_basis") = .ok []

theorem checkProcess_eq_ok {probe : DemotionProbe} {owned : DemotionProbe.OwnedProcess} {result : Unit}
    (h : probe.checkProcess owned = .ok result) :
    probe.identityReader owned.pid ≠ some owned.identity ∧ probe.pidDead owned.pid = true ∧
      probe.groupLive owned.pgid = false := by
  unfold DemotionProbe.checkProcess at h
  dsimp only at h
  split at h
  · cases h
  · rename_i hidentity
    split at h
    · split at h <;> cases h
    · rename_i hdead
      split at h
      · cases h
      · rename_i hgroup
        exact ⟨hidentity, by simpa using hdead, by simpa using hgroup⟩

theorem checkRow_eq_ok {probe : DemotionProbe} {owned : List DemotionProbe.OwnedProcess} {row : Json}
    {result : Unit} (h : probe.checkRow owned row = .ok result) : row.get "lease" = .null := by
  unfold DemotionProbe.checkRow at h
  split at h
  · cases h
  · split at h
    · cases h
    · rename_i hlease
      exact not_not.mp hlease

theorem readyRows_eq_ok {data : Json} {rows : List Json} (h : DemotionProbe.readyRows data = .ok rows) :
    data.get "sessions" = .arr rows ∧ rows ≠ [] := by
  unfold DemotionProbe.readyRows at h
  split at h
  · rename_i items hitems
    split at h
    · cases h
    · rename_i hsome
      obtain rfl := Except.ok.inj h
      exact ⟨hitems, fun hempty => hsome (.inl hempty)⟩
  · cases h

/-- A demotion stops a ready pool that is quiescent, and writes nothing else. -/
theorem demoteStaleReadyPool_eq_ok {probe : DemotionProbe} {files : PoolFiles} {writes : List FileWrite}
    (h : demoteStaleReadyPool probe files = .ok (some writes)) :
    files.status = .str "ready" ∧ Quiescent probe files.pool ∧
      (files.writeAll writes).status = .str "stopped" := by
  unfold demoteStaleReadyPool at h
  obtain ⟨hdict, h⟩ := guard_eq_ok.mp h
  split at h
  · cases h
  · rename_i hready
    obtain ⟨-, h⟩ := guard_eq_ok.mp h
    obtain ⟨owned, howned, h⟩ := bind_eq_ok.mp h
    obtain ⟨rows, hrows, h⟩ := bind_eq_ok.mp h
    obtain ⟨_, hchecked, h⟩ := bind_eq_ok.mp h
    obtain ⟨children, hchildren, h⟩ := bind_eq_ok.mp h
    obtain ⟨hnone, h⟩ := guard_eq_ok.mp h
    obtain ⟨_, hdead, h⟩ := bind_eq_ok.mp h
    have hstopped := Option.some.inj (pure_eq_ok.mp h)
    obtain ⟨worker, rest, hworker, hrest, rfl⟩ := List.forall₂_cons_left_iff.mp (mapM_eq_ok.mp howned)
    obtain ⟨basis, rest, hbasis, hrest, rfl⟩ := List.forall₂_cons_left_iff.mp hrest
    have hprocess := forM_eq_ok hdead
    refine ⟨not_not.mp hready, ⟨fun role => ?_, ?_, ?_⟩, ?_⟩
    · cases role with
      | worker => exact ⟨worker, hworker, checkProcess_eq_ok (hprocess worker List.mem_cons_self)⟩
      | basis =>
          exact ⟨basis, hbasis,
            checkProcess_eq_ok (hprocess basis (List.mem_cons_of_mem _ List.mem_cons_self))⟩
    · obtain ⟨hsessions, hsome⟩ := readyRows_eq_ok hrows
      exact ⟨rows, hsessions, hsome, fun row hrow => checkRow_eq_ok (forM_eq_ok hchecked row hrow)⟩
    · rw [hchildren, not_not.mp hnone]
    · rw [← hstopped]
      have hobject : files.pool.isDict = true := by simpa using hdict
      show (Json.drop _ _).get "status" = _
      rw [Json.get_drop_of_ne _ (by decide), Json.get_extend hobject]
      rfl

/-! ## Failure -/

theorem isSession_of_mem_failedSessions {files : PoolFiles} {cleanup : Json} {now : String}
    {rows : List Json} {writes : List FileWrite}
    (h : failedSessions files cleanup now rows = .ok writes) : ∀ write ∈ writes, write.IsSession := by
  induction rows generalizing writes with
  | nil =>
      obtain rfl := Except.ok.inj h
      exact fun write hmem => (List.not_mem_nil hmem).elim
  | cons row rows ih =>
      unfold failedSessions at h
      obtain ⟨leaf, -, rest, hrest, h⟩ : ∃ leaf : Option String, True ∧ ∃ rest,
          failedSessions files cleanup now rows = .ok rest ∧ _ = Except.ok writes := by
        split at h
        · obtain ⟨leaf, -, h⟩ := bind_eq_ok.mp h
          exact ⟨leaf, trivial, bind_eq_ok.mp h⟩
        · obtain ⟨leaf, -, h⟩ := bind_eq_ok.mp h
          exact ⟨leaf, trivial, bind_eq_ok.mp h⟩
      split at h
      · split at h
        · obtain rfl := pure_eq_ok.mp h
          exact List.forall_mem_cons.mpr ⟨trivial, ih hrest⟩
        · obtain rfl := pure_eq_ok.mp h
          exact ih hrest
      · obtain rfl := pure_eq_ok.mp h
        exact ih hrest

/-- The mark closes the gate. -/
theorem status_markPoolRestoreFailed {files : PoolFiles} {cleanup : Json} {now : String}
    {gate : FileWrite} {sessions : List FileWrite} (written : FileWrite → Bool)
    (h : markPoolRestoreFailed cleanup now files = .ok (gate, sessions)) :
    (files.writeAll (gate :: sessions.filter written)).status = .str "restore_failed" := by
  unfold markPoolRestoreFailed at h
  obtain ⟨hdict, h⟩ := guard_eq_ok.mp h
  split at h
  · rename_i rows hrows
    obtain ⟨updates, hupdates, h⟩ := bind_eq_ok.mp h
    obtain ⟨rfl, rfl⟩ := Prod.mk.inj (pure_eq_ok.mp h)
    have hsession : ∀ write ∈ updates.filter written, write.IsSession := fun write hmem =>
      isSession_of_mem_failedSessions hupdates write (List.mem_of_mem_filter hmem)
    have hobject : files.pool.isDict = true := by simpa using hdict
    show Json.get (PoolFiles.writeAll _ _).pool "status" = _
    rw [PoolFiles.writeAll, List.foldl_cons]
    show Json.get (PoolFiles.writeAll _ _).pool "status" = _
    rw [PoolFiles.writeAll_pool _ hsession]
    exact get_extend_rows hobject (by decide) List.mem_cons_self (by simp)
  · cases h

/-! ## What one step does -/

namespace RestoreState

variable {state next : RestoreState}

theorem step_demote {probe : DemotionProbe} (h : Step state (.demote probe) next) :
    ∃ writes, state.phase = .idle ∧ demoteStaleReadyPool probe state.files = .ok (some writes) ∧
      next = { state with files := state.files.writeAll writes } := by
  unfold Step step at h
  dsimp only at h
  split at h
  · rename_i writes hphase hwrites
    exact ⟨writes, hphase, hwrites, (Option.some.inj h).symm⟩
  · cases h

theorem step_perform {op : RestoreOp} {now : String} (h : Step state (.perform op now) next) :
    ∃ writes, op.enabled state.phase = true ∧ op.writes now state.files = .ok writes ∧
      next = state.performed op writes := by
  unfold Step step at h
  dsimp only at h
  split at h
  · rename_i writes henabled hwrites
    exact ⟨writes, henabled, hwrites, (Option.some.inj h).symm⟩
  · cases h

/-- A step that was interrupted left `pool.json` as it was. -/
theorem step_interrupt {op : RestoreOp} {now : String} {count : ℕ}
    (h : Step state (.interrupt op now count) next) :
    next = { state with files := next.files, phase := op.interrupted } ∧
      (next.files = state.files ∨
        next.files.pool = state.files.pool ∧ state.files.status = .str op.required) := by
  unfold Step step at h
  dsimp only at h
  split at h
  · rename_i writes henabled hwrites
    split at h
    · rename_i hcount
      obtain rfl := Option.some.inj h
      have hgated := RestoreOp.gated hwrites
      exact ⟨rfl, .inr ⟨hgated.pool_writeAll_take hcount, hgated.required⟩⟩
    · cases h
  · split at h
    · obtain rfl := Option.some.inj h
      exact ⟨rfl, .inl rfl⟩
    · cases h
  · cases h

theorem step_validate {root : ℕ} {recorded : RecordedProcesses} {tree : List TreeRecord}
    (h : Step state (.validate root recorded tree) next) :
    ∃ roles, ∃ haccepted : validateRestoredTree root recorded tree = .ok roles, next =
      { state with
        phase := .validated roles
        accepted := ⟨state.transaction, root, recorded, tree, roles, haccepted⟩ :: state.accepted } := by
  unfold Step step at h
  dsimp only at h
  split at h
  · split at h
    · rename_i roles haccepted
      exact ⟨roles, haccepted, (Option.some.inj h).symm⟩
    · cases h
  · cases h

theorem step_fail (h : Step state .fail next) : next = { state with phase := .failing } := by
  unfold Step step at h
  dsimp only at h
  split at h
  · cases h
  · exact (Option.some.inj h).symm

/-- A mark closes the gate, or writes nothing. -/
theorem step_markFailed {cleanup : Json} {now : String} {written : Option (FileWrite → Bool)}
    (h : Step state (.markFailed cleanup now written) next) :
    next = { state with files := next.files, phase := .idle } ∧
      (next.files = state.files ∨ next.files.status = .str "restore_failed") := by
  unfold Step step at h
  dsimp only at h
  split at h
  · obtain rfl := Option.some.inj h
    exact ⟨rfl, .inl rfl⟩
  · rename_i written gate sessions hmarks hmark
    obtain rfl := Option.some.inj h
    exact ⟨rfl, .inr (status_markPoolRestoreFailed written hmark)⟩
  · cases h

theorem step_finish (h : Step state .finish next) : next = { state with phase := .idle } :=
  (Option.some.inj h).symm

theorem step_settle {files : PoolFiles} (h : Step state (.settle files) next) :
    state.settles files = true ∧ next = { state with files := files } := by
  unfold Step step at h
  dsimp only at h
  split at h
  · rename_i hsettles
    exact ⟨hsettles, (Option.some.inj h).symm⟩
  · cases h

/-- **The gate.**  How a step moves the status of `pool.json`. -/
theorem status_of_step {label : RestoreLabel} (h : Step state label next) :
    next.files.status = state.files.status ∨ next.files.status = .str "restore_failed" ∨
      (∃ probe, label = .demote probe ∧ Quiescent probe state.files.pool ∧
        state.files.status = .str "ready" ∧ next.files.status = .str "stopped") ∨
      (∃ op now, label = .perform op now ∧ state.files.status = .str op.required ∧
        next.files.status = .str op.left) ∨
      state.settles next.files = true := by
  cases label with
  | demote probe =>
      obtain ⟨writes, -, hwrites, rfl⟩ := step_demote h
      obtain ⟨hready, hquiescent, hstopped⟩ := demoteStaleReadyPool_eq_ok hwrites
      exact .inr (.inr (.inl ⟨probe, rfl, hquiescent, hready, hstopped⟩))
  | perform op now =>
      obtain ⟨writes, -, hwrites, rfl⟩ := step_perform h
      have hgated := RestoreOp.gated hwrites
      exact .inr (.inr (.inr (.inl ⟨op, now, rfl, hgated.required, hgated.status_writeAll⟩)))
  | interrupt op now count =>
      left
      rcases (step_interrupt h).2 with hsame | ⟨hpool, -⟩
      · rw [hsame]
      · exact congrArg (fun pool : Json => pool.get "status") hpool
  | validate root recorded tree =>
      obtain ⟨roles, haccepted, rfl⟩ := step_validate h
      exact .inl rfl
  | fail =>
      rw [step_fail h]
      exact .inl rfl
  | markFailed cleanup now written =>
      rcases (step_markFailed h).2 with hsame | hfailed
      · exact .inl (by rw [hsame])
      · exact .inr (.inl hfailed)
  | finish =>
      rw [step_finish h]
      exact .inl rfl
  | settle files =>
      obtain ⟨hsettles, rfl⟩ := step_settle h
      exact .inr (.inr (.inr (.inr hsettles)))

end RestoreState

/-! ## The invariant -/

/-- The identities are in `pool.json` and in the document of every session that it names. -/
def PoolFiles.Staged (files : PoolFiles) (roles : RestoredRoles) : Prop :=
  Carries roles files.pool ∧ ∀ leaf document, files.Names leaf → files.session leaf = some document →
    Carries roles document

/-- A published pool: every session that it names is ready and not leased, under the same identities. -/
def PoolFiles.Ready (files : PoolFiles) (roles : RestoredRoles) : Prop :=
  Carries roles files.pool ∧ (∃ rows, sessionRows files.pool = .ok rows) ∧
    ∀ leaf document, files.Names leaf → files.session leaf = some document →
      document.get "status" = .str "ready" ∧ document.get "lease" = .null ∧ Carries roles document

/-- The phases that hold identities. -/
def RestorePhase.roles : RestorePhase → Option RestoredRoles
  | .validated roles => some roles
  | .staged roles => some roles
  | _ => none

/-- **The invariant.**  A ready pool was published, with the identities of a tree that was accepted in
the transaction that published it; and a call that holds identities holds those of a tree accepted in
its transaction. -/
structure Coherent (state : RestoreState) : Prop where
  ready : state.files.status = .str "ready" →
    ∃ tree ∈ state.accepted, tree.transaction = state.publishedIn ∧ state.files.Ready tree.roles
  current : ∀ roles, state.phase.roles = some roles →
    ∃ tree ∈ state.accepted, tree.transaction = state.transaction ∧ tree.roles = roles
  staged : ∀ roles, state.phase = .staged roles → state.files.Staged roles

namespace Coherent

variable {state next : RestoreState}

/-- A call that holds no identities, over a pool that is not ready. -/
theorem of_closed (hstatus : state.files.status ≠ .str "ready") (hphase : state.phase.roles = none) :
    Coherent state where
  ready hready := absurd hready hstatus
  current roles hroles := by
    rw [hphase] at hroles
    cases hroles
  staged roles hstaged := by
    rw [hstaged] at hphase
    cases hphase

/-- A call that lets go of its identities. -/
theorem release (h : Coherent state) {phase : RestorePhase} (hphase : phase.roles = none) :
    Coherent { state with phase := phase } where
  ready := h.ready
  current roles hroles := by
    have hnone : phase.roles = some roles := hroles
    rw [hphase] at hnone
    cases hnone
  staged roles hstaged := by
    have hholds : phase = .staged roles := hstaged
    rw [hholds] at hphase
    cases hphase

/-- Staging puts the identities that were validated into every document. -/
theorem perform_stage (h : Coherent state) {roles : RestoredRoles} {now : String}
    {writes : List FileWrite} (hphase : state.phase = .validated roles)
    (hwrites : stageRestoredPoolMetadata roles now state.files = .ok writes) :
    Coherent (state.performed (.stage roles) writes) := by
  obtain ⟨-, update, new, hrewritten, hnew, hcarries, hupdate⟩ := stageRestoredPoolMetadata_eq_ok hwrites
  have hpool : (state.files.writeAll writes).pool = new := hrewritten.pool
  refine ⟨fun hready => ?_, fun current hcurrent => ?_, fun current hcurrent => ?_⟩
  · have hstatus : (state.files.writeAll writes).pool.get "status" = .str "ready" := hready
    rw [hpool, hnew] at hstatus
    injection hstatus with hstatus
    exact absurd hstatus (by decide)
  · have hsame : RestorePhase.roles (.staged roles) = some current := hcurrent
    exact h.current current (by rw [hphase]; exact hsame)
  · obtain rfl : roles = current := by injection hcurrent
    refine ⟨by rw [← hpool] at hcarries; exact hcarries, fun leaf document hnames hdocument => ?_⟩
    obtain ⟨-, original, -, hdict, rfl⟩ := hrewritten.session hnames hdocument
    apply hupdate
    unfold requireDict at hdict
    split at hdict
    · assumption
    · cases hdict

/-- Publishing makes ready what is staged. -/
theorem perform_publish (h : Coherent state) {roles : RestoredRoles} {now : String}
    {writes : List FileWrite} (hphase : state.phase = .staged roles)
    (hwrites : publishRestoredPoolReady now state.files = .ok writes) :
    Coherent (state.performed .publish writes) := by
  obtain ⟨-, update, new, hrewritten, -, hcarries, hupdate⟩ := publishRestoredPoolReady_eq_ok hwrites
  have hpool : (state.files.writeAll writes).pool = new := hrewritten.pool
  obtain ⟨hstagedPool, hstaged⟩ := h.staged roles hphase
  refine ⟨fun _ => ?_, fun current hcurrent => ?_, fun current hcurrent => ?_⟩
  · obtain ⟨tree, hmem, htransaction, rfl⟩ := h.current roles (by rw [hphase]; rfl)
    have hnewPool : Carries tree.roles (state.files.writeAll writes).pool := by
      rw [hpool]
      exact hcarries tree.roles hstagedPool
    obtain ⟨_, rows, _, change, -, -, -, hrows, -⟩ := hrewritten.rewritten
    refine ⟨tree, hmem, htransaction, hnewPool, ⟨rows.map change, by rw [← hrows, ← hpool]; rfl⟩,
      fun leaf document hnames hdocument => ?_⟩
    obtain ⟨hnamed, original, horiginal, -, rfl⟩ := hrewritten.session hnames hdocument
    have hcarried := hstaged leaf original hnamed horiginal
    obtain ⟨hready, hlease, hkeep⟩ := hupdate original hcarried.1
    exact ⟨hready, hlease, hkeep tree.roles hcarried⟩
  · cases hcurrent
  · cases hcurrent

/-- **The step lemma.** -/
theorem step (h : Coherent state) {label : RestoreLabel} (hstep : RestoreState.Step state label next) :
    Coherent next := by
  cases label with
  | demote probe =>
      obtain ⟨writes, hphase, hwrites, rfl⟩ := RestoreState.step_demote hstep
      obtain ⟨-, -, hstopped⟩ := demoteStaleReadyPool_eq_ok hwrites
      apply of_closed
      · show (state.files.writeAll writes).status ≠ _
        rw [hstopped]
        decide
      · show state.phase.roles = none
        rw [hphase]
        rfl
  | perform op now =>
      obtain ⟨writes, henabled, hwrites, rfl⟩ := RestoreState.step_perform hstep
      have hleft := (RestoreOp.gated hwrites).status_writeAll
      -- Staging and publishing hold identities; the others leave a pool that is not ready.
      cases op with
      | stage roles =>
          have hphase : state.phase = .validated roles := by
            unfold RestoreOp.enabled at henabled
            split at henabled <;> simp_all
          exact h.perform_stage hphase hwrites
      | publish =>
          obtain ⟨roles, hphase⟩ : ∃ roles, state.phase = .staged roles := by
            unfold RestoreOp.enabled at henabled
            split at henabled <;> simp_all
          exact h.perform_publish hphase hwrites
      | begin | recordLauncher | reset =>
          refine of_closed ?_ rfl
          show (state.files.writeAll writes).status ≠ _
          rw [hleft]
          simp [RestoreOp.left]
  | interrupt op now count =>
      obtain ⟨hnext, hfiles⟩ := RestoreState.step_interrupt hstep
      have hphase : op.interrupted.roles = none := by
        cases op <;> rfl
      rw [hnext]
      rcases hfiles with hsame | ⟨hpool, hrequired⟩
      · rw [hsame]
        exact h.release hphase
      · refine of_closed ?_ hphase
        show next.files.pool.get "status" ≠ _
        rw [hpool]
        show state.files.status ≠ _
        rw [hrequired]
        exact op.required_ne_ready
  | validate root recorded tree =>
      obtain ⟨roles, haccepted, rfl⟩ := RestoreState.step_validate hstep
      refine ⟨fun hready => ?_, fun current hcurrent => ?_, fun current hcurrent => ?_⟩
      · obtain ⟨accepted, hmem, hpublished⟩ := h.ready hready
        exact ⟨accepted, List.mem_cons_of_mem _ hmem, hpublished⟩
      · exact ⟨_, List.mem_cons_self, rfl, Option.some.inj hcurrent⟩
      · cases hcurrent
  | fail =>
      rw [RestoreState.step_fail hstep]
      exact h.release rfl
  | markFailed cleanup now written =>
      obtain ⟨hnext, hfiles⟩ := RestoreState.step_markFailed hstep
      rw [hnext]
      rcases hfiles with hsame | hfailed
      · rw [hsame]
        exact h.release rfl
      · refine of_closed ?_ rfl
        show next.files.status ≠ _
        rw [hfailed]
        decide
  | finish =>
      rw [RestoreState.step_finish hstep]
      exact h.release rfl
  | settle files =>
      obtain ⟨hsettles, rfl⟩ := RestoreState.step_settle hstep
      unfold RestoreState.settles at hsettles
      obtain ⟨hphase, -, hready, -⟩ := of_decide_eq_true hsettles
      refine of_closed hready ?_
      show state.phase.roles = none
      rw [hphase]
      rfl

end Coherent

/-! ## The claim of the gate -/

/-- **A restore publishes crash-consistently.**  Whatever steps are made of a pool that was not
ready, and wherever they stop: a ready pool has only ready sessions that are not leased, and it and
they carry the identities of a tree that was accepted in the transaction that published it.  A
stopped pool becomes restoring only when a transaction begins, and a ready pool is stopped only by a
demotion that found it quiescent. -/
theorem restore_publication_crash_consistent {files : PoolFiles} {labels : List RestoreLabel}
    {state : RestoreState} (hstart : files.status ≠ .str "ready")
    (hrun : Run RestoreState.Step (.start files) labels state) :
    (state.files.status = .str "ready" →
      ∃ tree ∈ state.accepted, tree.transaction = state.publishedIn ∧ state.files.Ready tree.roles) ∧
    ∀ label next, RestoreState.Step state label next →
      (state.files.status = .str "stopped" → next.files.status = .str "restoring" →
        ∃ request now, label = .perform (.begin request) now) ∧
      (state.files.status = .str "ready" → next.files.status = .str "stopped" →
        ∃ probe, label = .demote probe ∧ Quiescent probe state.files.pool) := by
  have hcoherent : Coherent state :=
    hrun.preserves (fun _ _ _ h hstep => h.step hstep) (Coherent.of_closed hstart rfl)
  refine ⟨hcoherent.ready, fun label next hstep => ⟨fun hstopped hrestoring => ?_, fun hready hstopped => ?_⟩⟩
  · rcases RestoreState.status_of_step hstep with hsame | hfailed | ⟨_, -, -, hready, -⟩ |
        ⟨op, now, rfl, hrequired, -⟩ | hsettles
    · rw [hsame, hstopped] at hrestoring
      exact absurd hrestoring (by decide)
    · rw [hfailed] at hrestoring
      exact absurd hrestoring (by decide)
    · rw [hready] at hstopped
      exact absurd hstopped (by decide)
    · obtain ⟨request, rfl⟩ := RestoreOp.eq_begin_of_required (Json.str.inj (hrequired.symm.trans hstopped))
      exact ⟨request, now, rfl⟩
    · exact absurd hrestoring (of_decide_eq_true hsettles).2.2.2
  · rcases RestoreState.status_of_step hstep with hsame | hfailed | ⟨probe, rfl, hquiescent, -, -⟩ |
        ⟨op, now, -, hrequired, -⟩ | hsettles
    · rw [hsame, hready] at hstopped
      exact absurd hstopped (by decide)
    · rw [hfailed] at hstopped
      exact absurd hstopped (by decide)
    · exact ⟨probe, rfl, hquiescent⟩
    · exact absurd (hrequired.symm.trans hready) op.required_ne_ready
    · exact absurd hready (of_decide_eq_true hsettles).2.1

/-- A stopped pool with one session, whose document is stale. -/
def stoppedFiles : PoolFiles where
  pool := .dict [("status", .str "stopped"),
    ("sessions", .arr [.dict [("session_id", .str "first"), ("status", .str "stopped"), ("lease", .null)]])]
  session leaf :=
    if leaf = "first" then some (.dict [("status", .str "ready"), ("lease", .str "stale")]) else none

/-- A restore that dies behind the first write of its staging, its recovery, and a restore that
publishes. -/
def retriedRestore : List RestoreLabel :=
  let request : RestoreRequest :=
    ⟨"t1", "/image", 1, 2, "/image/restore.pid", "/image/restore.log", none⟩
  let tree : List TreeRecord :=
    [⟨20, some 20, some 7, some "worker-birth", some "T", false, [21]⟩,
      ⟨21, some 21, some 8, some "basis-birth", some "T", false, []⟩]
  let roles : RestoredRoles := ⟨⟨some 7, some "worker-birth"⟩, ⟨some 8, some "basis-birth"⟩⟩
  let validated : List RestoreLabel :=
    [.perform (.begin request) "01", .perform (.recordLauncher 5 6 "launcher-birth") "02",
      .validate 20 ⟨⟨20, 20⟩, ⟨21, 21⟩⟩ tree]
  validated ++ [.interrupt (.stage roles) "03" 1, .finish, .markFailed .null "04" (some fun _ => true),
    .settle stoppedFiles] ++ validated ++ [.perform (.stage roles) "05", .perform .publish "06"]

theorem restore_publication_of_retry :
    ∃ state, Run RestoreState.Step (.start stoppedFiles) retriedRestore state ∧
      state.files.status = .str "ready" ∧
        ∃ tree ∈ state.accepted, tree.transaction = state.publishedIn ∧ state.files.Ready tree.roles := by
  have hready : ((retriedRestore.foldlM RestoreState.step (.start stoppedFiles)).map
      fun state => state.files.status) = some (.str "ready") := by
    decide +kernel
  obtain ⟨state, hstate, hstatus⟩ := Option.map_eq_some_iff.mp hready
  have hrun := RestoreState.run_of_foldlM hstate
  exact ⟨state, hrun, hstatus, (restore_publication_crash_consistent (by decide +kernel) hrun).1 hstatus⟩

end Hearth.Criu
