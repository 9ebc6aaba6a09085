import Hearth.Criu.RestoredTree
import Mathlib.Logic.Relation

/-!
# Captures of a restored tree

`capture_authoritative_tree` of `criu_restore_transaction.py` and `_merge_captured_trees` of
`cli/orbstack_criu_restore.py`.  A capture walks the children from the root that CRIU wrote to
its pidfile and reads every process once; so what the process table answers during one capture
is a function of the pid, however the table changes meanwhile.

* `mem_captureAuthoritativeTree`: a capture has records of processes below the root only.
* `mem_mergeCapturedTrees`: a merged record has its fields from records of the same pid.
-/

namespace Hearth.Criu

/-! ## Readings -/

/-- What is read of one process. -/
structure ProcessReading where
  pgid : Option ℕ
  startTicks : Option ℕ
  identity : Option String
  state : Option String
  /-- `none` is an error. -/
  children : Option (List ℕ)
  deriving DecidableEq, Repr

/-- A record of a capture, or of several merged ones. -/
structure CapturedRecord where
  pid : ℕ
  pgid : Option ℕ
  startTicks : Option ℕ
  identity : Option String
  state : Option String
  /-- There is a `children_error`. -/
  childrenError : Bool
  /-- The records of `capture_recorded_processes` have none. -/
  children : Option (List ℕ)
  deriving DecidableEq, Repr

/-- What a capture reads; a process without a row is gone. -/
abbrev CaptureView := List (ℕ × ProcessReading)

namespace CaptureView

variable (view : CaptureView)

def reading (pid : ℕ) : ProcessReading :=
  (view.lookup pid).getD ⟨none, none, none, none, none⟩

def children (pid : ℕ) : List ℕ :=
  (view.reading pid).children.getD []

def record (pid : ℕ) : CapturedRecord where
  pid
  pgid := (view.reading pid).pgid
  startTicks := (view.reading pid).startTicks
  identity := (view.reading pid).identity
  state := (view.reading pid).state
  childrenError := (view.reading pid).children.isNone
  children := some (view.children pid)

/-- The processes that a walk has not met yet. -/
def unseen (seen : List ℕ) : List ℕ :=
  (view.map Prod.fst).filter (· ∉ seen)

theorem children_of_notMem {pid : ℕ} (h : pid ∉ view.map Prod.fst) : view.children pid = [] := by
  have hnone : view.lookup pid = none := by
    rw [List.lookup_eq_none_iff]
    intro row hrow
    simpa using fun heq : pid = row.1 => h (heq ▸ List.mem_map_of_mem hrow)
  unfold children reading
  rw [hnone]
  rfl

theorem unseen_length_le (seen : List ℕ) (pid : ℕ) :
    (view.unseen (pid :: seen)).length ≤ (view.unseen seen).length := by
  apply List.Sublist.length_le
  apply List.monotone_filter_right
  intro other
  simp only [List.mem_cons, not_or, decide_eq_true_eq]
  exact fun h => h.2

theorem unseen_length_lt {seen : List ℕ} {pid : ℕ} (hpid : pid ∈ view.map Prod.fst) (hseen : pid ∉ seen) :
    (view.unseen (pid :: seen)).length < (view.unseen seen).length := by
  have hunseen : view.unseen (pid :: seen) = (view.unseen seen).filter (· ≠ pid) := by
    unfold unseen
    rw [List.filter_filter]
    congr 1
    funext other
    simp [not_or]
  rw [hunseen]
  apply List.length_filter_lt_length_iff_exists.mpr
  exact ⟨pid, by simp [unseen, hpid, hseen], by simp⟩

/-- `capture_authoritative_tree`, from the processes that are pending; the last one of the list
in the source is the first here. -/
def captureFrom (seen : List ℕ) : List ℕ → List CapturedRecord
  | [] => []
  | pid :: pending =>
      if pid ∈ seen then captureFrom seen pending
      else view.record pid :: captureFrom (pid :: seen) ((view.children pid).reverse ++ pending)
  termination_by pending => ((view.unseen seen).length, pending.length)
  decreasing_by
    · simp_wf
      exact .right _ (Nat.lt_succ_self _)
    · rename_i hseen
      by_cases hpid : pid ∈ view.map Prod.fst
      · exact .left _ _ (view.unseen_length_lt hpid hseen)
      · rw [view.children_of_notMem hpid]
        rcases Nat.lt_or_ge (view.unseen (pid :: seen)).length (view.unseen seen).length with hlt | hge
        · exact .left _ _ hlt
        · rw [Nat.le_antisymm (view.unseen_length_le seen pid) hge]
          exact .right _ (Nat.lt_succ_self _)

/-- `capture_authoritative_tree`. -/
def captureAuthoritativeTree (root : ℕ) : List CapturedRecord :=
  view.captureFrom [] [root]

/-- The walk goes from the one to the other. -/
def Below (root pid : ℕ) : Prop :=
  Relation.ReflTransGen (fun parent child => child ∈ view.children parent) root pid

variable {view}

theorem mem_captureFrom {root : ℕ} {seen pending : List ℕ} (hpending : ∀ pid ∈ pending, view.Below root pid)
    {record : CapturedRecord} (h : record ∈ view.captureFrom seen pending) :
    view.Below root record.pid ∧ record = view.record record.pid := by
  induction seen, pending using captureFrom.induct view with
  | case1 seen =>
      rw [captureFrom] at h
      cases h
  | case2 seen pid pending hseen ih =>
      rw [captureFrom, if_pos hseen] at h
      exact ih (fun other hother => hpending other (List.mem_cons_of_mem _ hother)) h
  | case3 seen pid pending hseen ih =>
      rw [captureFrom, if_neg hseen] at h
      have hpid := hpending pid List.mem_cons_self
      rcases List.mem_cons.mp h with rfl | hrest
      · exact ⟨hpid, rfl⟩
      · refine ih (fun other hother => ?_) hrest
        rcases List.mem_append.mp hother with hchild | hother
        · exact hpid.tail (List.mem_reverse.mp hchild)
        · exact hpending other (List.mem_cons_of_mem _ hother)

/-- A capture has records of processes below the root only, as they were read. -/
theorem mem_captureAuthoritativeTree {root : ℕ} {record : CapturedRecord}
    (h : record ∈ view.captureAuthoritativeTree root) :
    view.Below root record.pid ∧ record = view.record record.pid := by
  refine mem_captureFrom (fun pid hpid => ?_) h
  rw [List.mem_singleton.mp hpid]
  exact .refl

end CaptureView

/-! ## Merging -/

/-- What becomes of a record when another one of the same pid is merged into it. -/
def CapturedRecord.merge (current candidate : CapturedRecord) : CapturedRecord where
  pid := current.pid
  pgid := current.pgid.or candidate.pgid
  startTicks := current.startTicks.or candidate.startTicks
  identity := current.identity.or candidate.identity
  state := current.state.or candidate.state
  childrenError :=
    match candidate.children with
    | none => current.childrenError
    | some _ => candidate.childrenError && (current.children.isNone || current.childrenError)
  children :=
    match candidate.children with
    | none => current.children
    | some children => some ((current.children.getD [] ++ children).eraseDups.mergeSort (· ≤ ·))

/-- One candidate of `_merge_captured_trees`. -/
def mergeInto (merged : List CapturedRecord) (candidate : CapturedRecord) : List CapturedRecord :=
  if candidate.pid = 0 then merged
  else if candidate.pid ∈ merged.map CapturedRecord.pid then
    merged.map fun current => if current.pid = candidate.pid then current.merge candidate else current
  else merged ++ [candidate]

/-- `_merge_captured_trees`. -/
def mergeCapturedTrees (trees : List (List CapturedRecord)) : List CapturedRecord :=
  trees.flatten.foldl mergeInto []

/-- The fields of a merged record come from these records. -/
structure MergedFrom (sources : List CapturedRecord) (record : CapturedRecord) : Prop where
  source : ∃ source ∈ sources, source.pid = record.pid
  pgid : ∀ pgid, record.pgid = some pgid → ∃ source ∈ sources, source.pid = record.pid ∧ source.pgid = some pgid

theorem MergedFrom.of_mem {sources : List CapturedRecord} {record : CapturedRecord} (h : record ∈ sources) :
    MergedFrom sources record :=
  ⟨⟨record, h, rfl⟩, fun _ hpgid => ⟨record, h, rfl, hpgid⟩⟩

theorem MergedFrom.mono {sources more : List CapturedRecord} {record : CapturedRecord}
    (h : MergedFrom sources record) (hmore : ∀ source ∈ sources, source ∈ more) : MergedFrom more record := by
  refine ⟨?_, fun pgid hpgid => ?_⟩
  · obtain ⟨source, hsource, hpid⟩ := h.source
    exact ⟨source, hmore source hsource, hpid⟩
  · obtain ⟨source, hsource, hsame⟩ := h.pgid pgid hpgid
    exact ⟨source, hmore source hsource, hsame⟩

theorem mem_mergeInto {sources merged : List CapturedRecord} {candidate : CapturedRecord}
    (hmerged : ∀ record ∈ merged, MergedFrom sources record) {record : CapturedRecord}
    (h : record ∈ mergeInto merged candidate) : MergedFrom (sources ++ [candidate]) record := by
  have hbefore : ∀ record ∈ merged, MergedFrom (sources ++ [candidate]) record := fun record hrecord =>
    (hmerged record hrecord).mono fun source hsource => List.mem_append_left _ hsource
  have hcandidate : candidate ∈ sources ++ [candidate] := by simp
  unfold mergeInto at h
  split_ifs at h with hzero hmem
  · exact hbefore record h
  · obtain ⟨current, hcurrent, rfl⟩ := List.mem_map.mp h
    split_ifs with hpid
    · refine ⟨(hbefore current hcurrent).source, fun pgid hpgid => ?_⟩
      rcases Option.or_eq_some_iff.mp hpgid with hown | ⟨-, hother⟩
      · exact (hbefore current hcurrent).pgid pgid hown
      · exact ⟨candidate, hcandidate, hpid.symm, hother⟩
    · exact hbefore current hcurrent
  · rcases List.mem_append.mp h with hold | hnew
    · exact hbefore record hold
    · rw [List.mem_singleton.mp hnew]
      exact .of_mem hcandidate

theorem mem_foldl_mergeInto {sources candidates merged : List CapturedRecord}
    (hmerged : ∀ record ∈ merged, MergedFrom sources record) :
    ∀ record ∈ candidates.foldl mergeInto merged, MergedFrom (sources ++ candidates) record := by
  induction candidates generalizing sources merged with
  | nil =>
      rw [List.append_nil]
      exact hmerged
  | cons candidate candidates ih =>
      rw [List.append_cons]
      exact ih fun record hrecord => mem_mergeInto hmerged hrecord

/-- A merged record has its fields from records of the same pid. -/
theorem mem_mergeCapturedTrees {trees : List (List CapturedRecord)} {record : CapturedRecord}
    (h : record ∈ mergeCapturedTrees trees) : MergedFrom trees.flatten record :=
  @mem_foldl_mergeInto [] trees.flatten [] (fun _ hrecord => absurd hrecord List.not_mem_nil) record h

@[simp] theorem CapturedRecord.merge_pid (current candidate : CapturedRecord) :
    (current.merge candidate).pid = current.pid := rfl

section

variable (keep : ℕ → Bool)

/-- Merging does not mix the pids: what is not kept may be left out before. -/
theorem filter_mergeInto (merged : List CapturedRecord) (candidate : CapturedRecord) :
    (mergeInto merged candidate).filter (fun record => keep record.pid) =
      if keep candidate.pid then mergeInto (merged.filter fun record => keep record.pid) candidate
      else merged.filter fun record => keep record.pid := by
  have hmap : ∀ record : CapturedRecord,
      keep (if record.pid = candidate.pid then record.merge candidate else record).pid = keep record.pid := by
    intro record
    split_ifs <;> rfl
  have hupdate : (merged.map fun current =>
        if current.pid = candidate.pid then current.merge candidate else current).filter
          (fun record => keep record.pid) =
      (merged.filter fun record => keep record.pid).map fun current =>
        if current.pid = candidate.pid then current.merge candidate else current := by
    rw [List.filter_map]
    congr 2
    funext record
    exact hmap record
  unfold mergeInto
  by_cases hzero : candidate.pid = 0
  · simp [hzero]
  · by_cases hkeep : keep candidate.pid = true
    · have hmem : candidate.pid ∈ (merged.filter fun record => keep record.pid).map CapturedRecord.pid ↔
          candidate.pid ∈ merged.map CapturedRecord.pid := by
        simp only [List.mem_map, List.mem_filter]
        constructor
        · rintro ⟨record, ⟨hrecord, -⟩, hpid⟩
          exact ⟨record, hrecord, hpid⟩
        · rintro ⟨record, hrecord, hpid⟩
          exact ⟨record, ⟨hrecord, by rw [hpid, hkeep]⟩, hpid⟩
      simp only [if_neg hzero, if_pos hkeep, hmem]
      split_ifs
      · exact hupdate
      · simp [hkeep]
    · simp only [if_neg hzero, if_neg hkeep]
      split_ifs
      · -- The candidate is merged into a record that is not kept.
        have hother : ∀ record ∈ merged.filter fun record => keep record.pid,
            (if record.pid = candidate.pid then record.merge candidate else record) = record := by
          intro record hrecord
          refine if_neg fun hpid => hkeep ?_
          rw [← hpid]
          exact (List.mem_filter.mp hrecord).2
        rw [hupdate, List.map_congr_left hother, List.map_id']
      · simp [hkeep]

theorem filter_foldl_mergeInto (candidates merged : List CapturedRecord) :
    (candidates.foldl mergeInto merged).filter (fun record => keep record.pid) =
      (candidates.filter fun record => keep record.pid).foldl mergeInto
        (merged.filter fun record => keep record.pid) := by
  induction candidates generalizing merged with
  | nil => rfl
  | cons candidate candidates ih =>
      rw [List.foldl_cons, ih, filter_mergeInto]
      by_cases hkeep : keep candidate.pid = true
      · simp [hkeep]
      · simp [hkeep]

end

end Hearth.Criu
