import Hearth.Criu.RestoreCleanup

/-!
# What an accepted tree is

A capture has each process below the root once, whatever the children relation is.  When `validate_restored_tree` accepts
it, every one of them is held stopped in a recorded group under its own identity, and nothing below the root is left out.
-/

namespace Hearth.Criu

namespace CaptureView

variable {view : CaptureView}

/-- The pids of a walk. -/
def pids (records : List CapturedRecord) : List ℕ :=
  records.map CapturedRecord.pid

/-- No process is met twice. -/
theorem captureFrom_nodup (seen pending : List ℕ) :
    (pids (view.captureFrom seen pending)).Nodup ∧ ∀ pid ∈ pids (view.captureFrom seen pending), pid ∉ seen := by
  induction seen, pending using captureFrom.induct view with
  | case1 seen =>
      rw [captureFrom]
      exact ⟨.nil, fun pid hpid => absurd hpid List.not_mem_nil⟩
  | case2 seen pid pending hseen ih =>
      rw [captureFrom, if_pos hseen]
      exact ih
  | case3 seen pid pending hseen ih =>
      rw [captureFrom, if_neg hseen]
      obtain ⟨hnodup, hnew⟩ := ih
      constructor
      · refine List.nodup_cons.mpr ⟨fun hmem => ?_, hnodup⟩
        exact hnew pid hmem (.head _)
      · intro other hother
        obtain rfl | hlater := List.mem_cons.mp hother
        · exact hseen
        · exact fun hmem => hnew other hlater (.tail _ hmem)

/-- What was met, now or before. -/
def Met (view : CaptureView) (seen pending : List ℕ) (pid : ℕ) : Prop :=
  pid ∈ seen ∨ pid ∈ pids (view.captureFrom seen pending)

/-- A walk meets what is pending and the children of all that it meets, if those of the processes that it has seen are
seen or pending. -/
theorem captureFrom_closed {seen pending : List ℕ}
    (hseen : ∀ pid ∈ seen, ∀ child ∈ view.children pid, child ∈ seen ∨ child ∈ pending) :
    (∀ pid ∈ pending, view.Met seen pending pid) ∧
      ∀ pid, view.Met seen pending pid → ∀ child ∈ view.children pid, view.Met seen pending child := by
  unfold Met
  induction seen, pending using captureFrom.induct view with
  | case1 seen =>
      rw [captureFrom]
      refine ⟨fun pid hpid => absurd hpid List.not_mem_nil, fun pid hmet child hchild => ?_⟩
      have hpid := hmet.resolve_right List.not_mem_nil
      exact .inl ((hseen pid hpid child hchild).resolve_right List.not_mem_nil)
  | case2 seen pid pending hmem ih =>
      rw [captureFrom, if_pos hmem]
      obtain ⟨hpending, hclosed⟩ := ih fun other hother child hchild => by
        obtain hold | hnext := hseen other hother child hchild
        · exact .inl hold
        · obtain rfl | hlater := List.mem_cons.mp hnext
          · exact .inl hmem
          · exact .inr hlater
      refine ⟨fun other hother => ?_, hclosed⟩
      obtain rfl | hlater := List.mem_cons.mp hother
      · exact .inl hmem
      · exact hpending other hlater
  | case3 seen pid pending hnew ih =>
      rw [captureFrom, if_neg hnew]
      -- the process is seen now, and its children are pending
      obtain ⟨hpending, hclosed⟩ := ih fun other hother child hchild => by
        obtain rfl | hold := List.mem_cons.mp hother
        · exact .inr (List.mem_append_left _ (List.mem_reverse.mpr hchild))
        · obtain hold | hnext := hseen other hold child hchild
          · exact .inl (.tail _ hold)
          · obtain rfl | hlater := List.mem_cons.mp hnext
            · exact .inl (.head _)
            · exact .inr (List.mem_append_right _ hlater)
      have hmet : ∀ other, (other ∈ seen ∨ other ∈ pids (view.record pid ::
          view.captureFrom (pid :: seen) ((view.children pid).reverse ++ pending))) ↔
          (other ∈ pid :: seen ∨ other ∈ pids
            (view.captureFrom (pid :: seen) ((view.children pid).reverse ++ pending))) := by
        intro other
        show (other ∈ seen ∨ other ∈ pid :: pids _) ↔ _
        rw [List.mem_cons, List.mem_cons]
        exact or_left_comm.trans or_assoc.symm
      constructor
      · intro other hother
        rw [hmet]
        obtain rfl | hlater := List.mem_cons.mp hother
        · exact .inl (.head _)
        · exact hpending other (List.mem_append_right _ hlater)
      · intro other hother child hchild
        rw [hmet] at hother ⊢
        exact hclosed other hother child hchild

/-- A capture has a record of each process below the root, and of no process two. -/
theorem captureAuthoritativeTree_exact (root : ℕ) :
    (pids (view.captureAuthoritativeTree root)).Nodup ∧
      ∀ pid, pid ∈ pids (view.captureAuthoritativeTree root) ↔ view.Below root pid := by
  refine ⟨(captureFrom_nodup [] [root]).1, fun pid => ⟨?_, ?_⟩⟩
  · intro hpid
    obtain ⟨record, hrecord, rfl⟩ := List.mem_map.mp hpid
    exact (mem_captureAuthoritativeTree hrecord).1
  · intro hbelow
    have hnone : ∀ pid ∈ ([] : List ℕ), ∀ child ∈ view.children pid, child ∈ [] ∨ child ∈ [root] :=
      fun _ hmem => absurd hmem List.not_mem_nil
    obtain ⟨hroot, hclosed⟩ := captureFrom_closed hnone
    have hmet : view.Met [] [root] pid := by
      induction hbelow with
      | refl => exact hroot root (.head _)
      | tail _ hchild ih => exact hclosed _ ih _ hchild
    exact hmet.resolve_left List.not_mem_nil

end CaptureView

/-! ## Acceptance -/

section

variable {root : ℕ} {recorded : RecordedProcesses} {tree : List TreeRecord}

theorem TreeRecord.childrenError_of_problems {record : TreeRecord} {earlier : List ℕ}
    (h : record.problems earlier = []) : record.childrenError = false := by
  unfold TreeRecord.problems at h
  by_cases hpid : record.pid = 0
  · rw [if_pos hpid] at h
    cases h
  rw [if_neg hpid] at h
  simp only [List.append_eq_nil_iff, ite_eq_right_iff, List.cons_ne_nil, imp_false] at h
  exact Bool.eq_false_iff.mpr h.1.2

theorem childrenError_of_recordProblems {earlier : List ℕ} (h : recordProblems tree earlier = []) :
    ∀ record ∈ tree, record.childrenError = false := by
  induction tree generalizing earlier with
  | nil => exact fun record hrecord => absurd hrecord List.not_mem_nil
  | cons first tree ih =>
      obtain ⟨hfirst, hrest⟩ := List.append_eq_nil_iff.mp h
      intro record hrecord
      obtain rfl | hlater := List.mem_cons.mp hrecord
      · exact TreeRecord.childrenError_of_problems hfirst
      · exact ih hrest record hlater

theorem mergeSort_eraseDups_eq_nil {numbers : List ℕ} : numbers.eraseDups.mergeSort (· ≤ ·) = [] ↔ numbers = [] := by
  rw [← List.length_eq_zero_iff, List.length_mergeSort, List.length_eq_zero_iff, eraseDups_eq_nil]

/-- What an accepted tree is, record by record. -/
structure SaneTree (root : ℕ) (recorded : RecordedProcesses) (tree : List TreeRecord) : Prop where
  sane : ∀ record ∈ tree, record.Sane
  stopped : ∀ record ∈ tree, isStopped record.state = true
  group : ∀ record ∈ tree, ∃ role, record.pgid = some (recorded.role role).recordedPgid
  children : ∀ record ∈ tree, record.childrenError = false ∧ ∀ child ∈ record.children, child ∈ tree.map TreeRecord.pid
  worker : root = recorded.worker.pid
  roles : ∀ role, (recorded.role role).pid ∈ tree.map TreeRecord.pid

theorem saneTree_of_treeErrors (h : treeErrors root recorded tree = []) : SaneTree root recorded tree := by
  unfold treeErrors at h
  dsimp only at h
  simp only [List.append_eq_nil_iff, ite_eq_right_iff, List.cons_ne_nil, imp_false, not_not] at h
  obtain ⟨⟨⟨⟨⟨⟨hroot, -⟩, hcaptured⟩, -⟩, -⟩, hgroups⟩, hrunning⟩ := h
  obtain ⟨hsane, -, hroles, hchildren⟩ := treeCaptureProblems_eq_nil hcaptured
  have herrors : ∀ record ∈ tree, record.childrenError = false := by
    unfold treeCaptureProblems at hcaptured
    dsimp only at hcaptured
    by_cases hempty : tree = []
    · rw [hempty]
      exact fun record hrecord => absurd hrecord List.not_mem_nil
    rw [if_neg hempty] at hcaptured
    rw [eraseDups_eq_nil] at hcaptured
    simp only [List.append_eq_nil_iff] at hcaptured
    exact childrenError_of_recordProblems hcaptured.1.1.1
  constructor
  · exact hsane
  · intro record hrecord
    by_contra hnot
    rw [← List.length_eq_zero_iff, List.length_mergeSort, List.length_eq_zero_iff, List.map_eq_nil_iff,
      List.filter_eq_nil_iff] at hrunning
    exact hrunning record hrecord (by simpa using hnot)
  · intro record hrecord
    rw [mergeSort_eraseDups_eq_nil, List.filter_eq_nil_iff] at hgroups
    have hpositive := (hsane record hrecord).pgid
    cases hpgid : record.pgid with
    | none =>
        rw [hpgid] at hpositive
        exact absurd hpositive (Nat.lt_irrefl 0)
    | some pgid =>
        have hknown := hgroups pgid (List.mem_filterMap.mpr ⟨record, hrecord, hpgid⟩)
        simp only [List.mem_cons, List.not_mem_nil, or_false, decide_eq_true_eq, not_not] at hknown
        obtain rfl | rfl := hknown
        · exact ⟨.worker, rfl⟩
        · exact ⟨.basis, rfl⟩
  · exact fun record hrecord => ⟨herrors record hrecord, hchildren record hrecord⟩
  · exact hroot
  · exact hroles

theorem saneTree_of_validate {roles : RestoredRoles} (h : validateRestoredTree root recorded tree = .ok roles) :
    SaneTree root recorded tree := by
  unfold validateRestoredTree at h
  dsimp only at h
  by_cases herrors : treeErrors root recorded tree = []
  · exact saneTree_of_treeErrors herrors
  · rw [if_pos herrors] at h
    cases h

end

/-! ## Captures that are accepted -/

/-- What an accepted capture says of the processes below the root. -/
structure AcceptedCapture (view : CaptureView) (root : ℕ) (recorded : RecordedProcesses) : Prop where
  /-- Each of them is stopped, in a recorded group, under its own identity. -/
  held : ∀ pid, view.Below root pid → ∃ record ∈ view.captureAuthoritativeTree root, record.pid = pid ∧
    isStopped record.state = true ∧ (∃ role, record.pgid = some (recorded.role role).recordedPgid) ∧
      (∃ ticks, record.startTicks = some ticks ∧ 0 < ticks) ∧ ∃ identity, record.identity = some identity ∧ identity ≠ ""
  worker : root = recorded.worker.pid
  /-- The processes of both roles are below the root. -/
  roles : ∀ role, view.Below root (recorded.role role).pid
  /-- The children of each of them were read, and have records of their own. -/
  closed : ∀ record ∈ view.captureAuthoritativeTree root, ∃ children, (view.reading record.pid).children = some children ∧
    ∀ child ∈ children, child ∈ CaptureView.pids (view.captureAuthoritativeTree root)

theorem acceptedCapture_of_saneTree {view : CaptureView} {root : ℕ} {recorded : RecordedProcesses}
    (h : SaneTree root recorded ((view.captureAuthoritativeTree root).map CapturedRecord.toTree)) :
    AcceptedCapture view root recorded := by
  obtain ⟨-, hexact⟩ := view.captureAuthoritativeTree_exact root
  have hpids : ((view.captureAuthoritativeTree root).map CapturedRecord.toTree).map TreeRecord.pid =
      CaptureView.pids (view.captureAuthoritativeTree root) := List.map_map
  have hrecord : ∀ record ∈ view.captureAuthoritativeTree root,
      record.toTree ∈ (view.captureAuthoritativeTree root).map CapturedRecord.toTree := fun _ => List.mem_map_of_mem
  constructor
  · intro pid hbelow
    obtain ⟨record, hmem, rfl⟩ := List.mem_map.mp ((hexact pid).mpr hbelow)
    have hsane := h.sane _ (hrecord record hmem)
    refine ⟨record, hmem, rfl, h.stopped _ (hrecord record hmem), h.group _ (hrecord record hmem), ?_, ?_⟩
    · have hticks : 0 < record.startTicks.getD 0 := hsane.startTicks
      cases hread : record.startTicks with
      | none =>
          rw [hread] at hticks
          exact absurd hticks (Nat.lt_irrefl 0)
      | some ticks =>
          rw [hread] at hticks
          exact ⟨ticks, rfl, hticks⟩
    · have hidentity : record.identity.getD "" ≠ "" := hsane.identity
      cases hread : record.identity with
      | none =>
          rw [hread] at hidentity
          exact absurd rfl hidentity
      | some identity =>
          rw [hread] at hidentity
          exact ⟨identity, rfl, hidentity⟩
  · exact h.worker
  · intro role
    rw [← hexact, ← hpids]
    exact h.roles role
  · intro record hmem
    obtain ⟨-, hsame⟩ := CaptureView.mem_captureAuthoritativeTree hmem
    obtain ⟨herror, hchildren⟩ := h.children _ (hrecord record hmem)
    rw [hpids] at hchildren
    rw [hsame] at herror hchildren
    cases hread : (view.reading record.pid).children with
    | none =>
        have hnone : (view.reading record.pid).children.isNone = false := herror
        rw [hread] at hnone
        cases hnone
    | some children =>
        refine ⟨children, rfl, fun child hchild => hchildren child ?_⟩
        show child ∈ (view.reading record.pid).children.getD []
        rw [hread]
        exact hchild

/-- **A capture is exact, and an accepted one is all of a tree that is held.** -/
theorem capture_exact_and_accepted (view : CaptureView) (root : ℕ) (recorded : RecordedProcesses) :
    (CaptureView.pids (view.captureAuthoritativeTree root)).Nodup ∧
      (∀ pid, pid ∈ CaptureView.pids (view.captureAuthoritativeTree root) ↔ view.Below root pid) ∧
      ∀ roles, validateRestoredTree root recorded
          ((view.captureAuthoritativeTree root).map CapturedRecord.toTree) = .ok roles →
        AcceptedCapture view root recorded := by
  obtain ⟨hnodup, hexact⟩ := view.captureAuthoritativeTree_exact root
  exact ⟨hnodup, hexact, fun _ h => acceptedCapture_of_saneTree (saneTree_of_validate h)⟩

/-- A tree whose children relation is cyclic and shares a process. -/
def cyclicView : CaptureView :=
  [(10, ⟨some 10, some 5, some "linux-proc:5", some "T", some [11, 12]⟩),
    (11, ⟨some 11, some 6, some "linux-proc:6", some "T", some [12, 10]⟩),
    (12, ⟨some 11, some 7, some "linux-proc:7", some "t", some []⟩)]

def cyclicRecorded : RecordedProcesses :=
  ⟨⟨10, 10⟩, ⟨11, 11⟩⟩

theorem captureAuthoritativeTree_cyclic : cyclicView.captureAuthoritativeTree 10 =
    [cyclicView.record 10, cyclicView.record 12, cyclicView.record 11] := by
  unfold CaptureView.captureAuthoritativeTree
  simp [CaptureView.captureFrom, CaptureView.children, CaptureView.reading, cyclicView, List.lookup_cons]

/-- It is accepted. -/
theorem cyclic_accepted : AcceptedCapture cyclicView 10 cyclicRecorded := by
  obtain ⟨-, -, haccepted⟩ := capture_exact_and_accepted cyclicView 10 cyclicRecorded
  apply haccepted ⟨⟨some 5, some "linux-proc:5"⟩, ⟨some 6, some "linux-proc:6"⟩⟩
  rw [captureAuthoritativeTree_cyclic]
  decide +kernel

end Hearth.Criu
