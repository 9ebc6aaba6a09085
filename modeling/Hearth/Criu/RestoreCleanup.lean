import Hearth.Criu.TreeCapture

/-!
# The cleanup of a failed restore

`_cleanup_restored_tree` of `cli/orbstack_criu_restore.py` with `terminate_restored_tree` of
`criu_restore_transaction.py`.  A cleanup puts together what two captures of the restored root
have found; where that has gaps, or where there is no root, it looks up the recorded pids
themselves.  It then signals the captured groups, each behind a look at the birth identity of
one member, and waits until everything that was captured is dead.

A call is given what it reads, so that the process table may change at any time.  A pid that is
looked up need not belong to the restore: before CRIU has been launched, or when the pids were
taken, it is somebody else's.
-/

namespace Hearth.Criu

/-! ## What a call reads -/

/-- What `os.killpg` does. -/
inductive SignalOutcome
  | sent | missing
  /-- Also for the own group, which is refused. -/
  | failed
  deriving DecidableEq, Repr

inductive RestoreSignal
  | term | kill
  deriving DecidableEq, Repr

/-- What is read of the representative of a group in front of a signal. -/
structure IdentityReading where
  identity : Option String
  startTicks : Option ℕ
  deriving DecidableEq, Repr

/-- What `terminate_process_group` meets. -/
structure GroupFindings where
  alive : Bool
  beforeTerm : IdentityReading
  term : SignalOutcome
  /-- The group is dead behind the first signal. -/
  quiescent : Bool
  beforeKill : IdentityReading
  kill : SignalOutcome
  deriving DecidableEq, Repr

/-- One round of `wait_for_quiescence`. -/
structure QuiescencePoll where
  pidAlive : ℕ → Bool
  groupAlive : ℕ → Bool

/-- A call of `_cleanup_restored_tree`, with all that it reads. -/
structure CleanupCall where
  recorded : RecordedProcesses
  /-- The root of the pidfile of this transaction. -/
  root : Option ℕ
  /-- The capture that the caller made of the root, if there is one. -/
  before : Option CaptureView
  forceRecapture : Bool
  /-- The capture of the call, or the text of what it raises. -/
  recapture : Except String CaptureView
  /-- The recorded processes, if they are looked up; `none` is an error. -/
  recordedReading : Role → Option ProcessReading
  findings : ℕ → GroupFindings
  /-- The rounds of the last wait up to its deadline. -/
  polls : List QuiescencePoll

/-- What a call does. -/
inductive CleanupAction
  | signal (pgid : ℕ) (signal : RestoreSignal)
  | poll (poll : QuiescencePoll)

/-! ## Termination -/

/-- `identity_failure` of `terminate_process_group`. -/
def CapturedRecord.identityFailure (record : CapturedRecord) (reading : IdentityReading) : Bool :=
  match record.identity with
  | some expected => reading.identity ≠ some expected
  | none =>
      match record.startTicks.filter (0 < ·) with
      | some expected => reading.startTicks ≠ some expected
      | none => true

/-- The signals of `terminate_process_group`. -/
def GroupFindings.signals (findings : GroupFindings) (record : CapturedRecord) : List RestoreSignal :=
  if !findings.alive || record.identityFailure findings.beforeTerm || findings.term = .failed then []
  else
    (if findings.term = .sent then [.term] else []) ++
      if findings.quiescent || record.identityFailure findings.beforeKill then []
      else if findings.kill = .sent then [.kill] else []

/-- The record of `representatives` for a group: the first one, or the last that leads it. -/
def representative (tree : List CapturedRecord) (pgid : ℕ) : Option CapturedRecord :=
  (tree.filter fun record => record.pgid = some pgid).foldl
    (fun existing record => if existing.isNone || record.pid = pgid then some record else existing) none

/-- The keys of `representatives`. -/
def capturedGroups (tree : List CapturedRecord) : List ℕ :=
  ((tree.filterMap CapturedRecord.pgid).filter (0 < ·)).eraseDups

/-- The groups in the order of their termination, that of the root last. -/
def orderedGroups (tree : List CapturedRecord) (root : ℕ) : List ℕ :=
  let rootGroup := ((tree.filter fun record => record.pid = root).filterMap CapturedRecord.pgid).head?
  (capturedGroups tree).filter (fun pgid => some pgid ≠ rootGroup) ++
    (capturedGroups tree).filter fun pgid => some pgid = rootGroup

/-- Everything that was captured is dead. -/
def QuiescencePoll.quiet (poll : QuiescencePoll) (tree : List CapturedRecord) : Bool :=
  ((tree.map CapturedRecord.pid).filter (0 < ·)).all (fun pid => !poll.pidAlive pid) &&
    (capturedGroups tree).all fun pgid => !poll.groupAlive pgid

/-- `wait_for_quiescence`: the rounds that are made, and whether the last one is quiet. -/
def waitForQuiescence (tree : List CapturedRecord) : List QuiescencePoll → List QuiescencePoll × Bool
  | [] => ([], false)
  | poll :: polls =>
      if poll.quiet tree then ([poll], true)
      else
        let rest := waitForQuiescence tree polls
        (poll :: rest.1, rest.2)

/-- The signals of `terminate_restored_tree`. -/
def groupSignals (findings : ℕ → GroupFindings) (tree : List CapturedRecord) (root : ℕ) :
    List (ℕ × RestoreSignal) :=
  (orderedGroups tree root).flatMap fun pgid =>
    match representative tree pgid with
    | some record => ((findings pgid).signals record).map (pgid, ·)
    | none => []

/-! ## The captures -/

/-- A record as `tree_capture_problems` sees it.  No list of children is as invalid as `[0]`: both
are the same problem, and refer to no process. -/
def CapturedRecord.toTree (record : CapturedRecord) : TreeRecord where
  pid := record.pid
  pgid := record.pgid
  startTicks := record.startTicks
  identity := record.identity
  state := record.state
  childrenError := record.childrenError
  children := record.children.getD [0]

/-- What a call leaves in its report. -/
structure CleanupReport where
  captured : List CapturedRecord
  status : String
  quiescenceObservation : Option String
  verifiedQuiescent : Bool
  ownershipCaptureProblems : List String
  /-- What the call has done, in order. -/
  trace : List CleanupAction

namespace CleanupCall

variable (call : CleanupCall)

/-- `tree_capture_problems` of this root and these roles. -/
def problems (tree : List CapturedRecord) : List String :=
  treeCaptureProblems call.root call.recorded (tree.map CapturedRecord.toTree)

/-- The tree that the call is given. -/
def tree : List CapturedRecord :=
  match call.root, call.before with
  | some root, some view => view.captureAuthoritativeTree root
  | _, _ => []

/-- `recaptured`, where the root is captured again. -/
def recaptured (root : ℕ) : List CapturedRecord :=
  match call.recapture with
  | .ok view => view.captureAuthoritativeTree root
  | .error _ => []

/-- `forced_recapture_problems`. -/
def forcedRecaptureProblems : List String :=
  match call.forceRecapture, call.root with
  | true, some root =>
      match call.recapture with
      | .ok _ => call.problems (call.recaptured root)
      | .error text => ["post-resume authoritative recapture failed: " ++ text]
  | _, _ => []

/-- The root is captured again. -/
def recaptures : Bool :=
  call.root.isSome && (call.forceRecapture || call.problems call.tree ≠ [])

/-- What the captures of the root have found. -/
def authoritative : List CapturedRecord :=
  match call.root with
  | some root =>
      if call.recaptures then mergeCapturedTrees [call.tree, call.recaptured root] else call.tree
  | none => call.tree

/-- The record of `capture_recorded_processes` for a role, or its error. -/
def recordedProcess (role : Role) : Option CapturedRecord :=
  let expected := call.recorded.role role
  match call.recordedReading role with
  | some reading =>
      if reading.pgid = some expected.recordedPgid ∧ reading.startTicks.isSome ∧ reading.identity.isSome then
        some ⟨expected.pid, reading.pgid, reading.startTicks, reading.identity, reading.state, false, none⟩
      else none
  | none => none

/-- `_fallback_tree`. -/
def fallbackTree : List CapturedRecord :=
  match call.recordedProcess .worker, call.recordedProcess .basis with
  | some worker, some basis =>
      if isStopped worker.state && isStopped basis.state then [worker, basis] else []
  | _, _ => []

/-- The recorded pids are looked up. -/
def consultsRecorded : Bool :=
  call.problems call.authoritative ≠ []

/-- All that was captured. -/
def captured : List CapturedRecord :=
  if call.consultsRecorded then mergeCapturedTrees [call.authoritative, call.fallbackTree]
  else call.authoritative

/-- `cleanup_root_pid`. -/
def cleanupRootPid : ℕ :=
  call.root.getD call.recorded.worker.pid

/-- `_cleanup_restored_tree`. -/
def cleanupRestoredTree : CleanupReport :=
  let captured := call.captured
  let wait := waitForQuiescence captured call.polls
  let verified := captured ≠ [] && wait.2
  let status := if captured = [] then "unverified" else if wait.2 then "quiescent" else "survivors"
  let trace :=
    if captured = [] then []
    else
      (groupSignals call.findings captured call.cleanupRootPid).map (fun sent => .signal sent.1 sent.2) ++
        wait.1.map .poll
  let problems := (call.problems captured ++ call.forcedRecaptureProblems).eraseDups
  if problems = [] then ⟨captured, status, none, verified, problems, trace⟩
  else ⟨captured, "unverified", some status, false, problems, trace⟩

/-! ## Whom a call may signal, and what it may say -/

/-- The captures of the root. -/
def views : List CaptureView :=
  call.before.toList ++ if call.recaptures then call.recapture.toOption.toList else []

/-- Some capture of the root has come to the process. -/
def Reachable (pid : ℕ) : Prop :=
  ∃ root, call.root = some root ∧ ∃ view ∈ call.views, view.Below root pid

/-- The call has read that the process is in the group. -/
def ReadsGroup (pid pgid : ℕ) : Prop :=
  (∃ view ∈ call.views, (view.reading pid).pgid = some pgid) ∨
    (call.consultsRecorded = true ∧ ∃ role reading, (call.recorded.role role).pid = pid ∧
      call.recordedReading role = some reading ∧ reading.pgid = some pgid)

/-- The group is that of a process which is reachable from the root. -/
def Owns (pgid : ℕ) : Prop :=
  ∃ pid, call.Reachable pid ∧ call.ReadsGroup pid pgid

/-- A capture without gaps. -/
structure Complete (tree : List CapturedRecord) : Prop where
  root : ∃ root, call.root = some root ∧ root ∈ tree.map CapturedRecord.pid
  roles : ∀ role, (call.recorded.role role).pid ∈ tree.map CapturedRecord.pid
  closed : ∀ record ∈ tree, ∃ children, record.children = some children ∧
    ∀ child ∈ children, child ∈ tree.map CapturedRecord.pid
  identities : ∀ record ∈ tree, (∃ pgid, record.pgid = some pgid ∧ 0 < pgid) ∧
    (∃ ticks, record.startTicks = some ticks ∧ 0 < ticks) ∧
      (∃ identity, record.identity = some identity ∧ identity ≠ "") ∧ record.state.isSome = true

/-- Every process of the tree, and every group of one, is dead in this round. -/
def ObservedDead (poll : QuiescencePoll) (tree : List CapturedRecord) : Prop :=
  ∀ record ∈ tree, poll.pidAlive record.pid = false ∧
    ∀ pgid, record.pgid = some pgid → poll.groupAlive pgid = false

/-- The call signals groups of the restored tree only, and what it verifies is true: the capture
has no gaps, and behind the last signal everything in it was seen dead. -/
structure Sound : Prop where
  owned : ∀ pgid signal, .signal pgid signal ∈ call.cleanupRestoredTree.trace → call.Owns pgid
  verified : call.cleanupRestoredTree.verifiedQuiescent = true →
    call.Complete call.cleanupRestoredTree.captured ∧
      ∃ before poll after, call.cleanupRestoredTree.trace = before ++ .poll poll :: after ∧
        (∀ pgid signal, .signal pgid signal ∉ after) ∧
          ObservedDead poll call.cleanupRestoredTree.captured

/-- What the look-up of the recorded pids finds outside the captures of the root. -/
def strangers : List CapturedRecord :=
  if call.consultsRecorded then
    mergeCapturedTrees
      [call.fallbackTree.filter fun record => record.pid ∉ call.authoritative.map CapturedRecord.pid]
  else []

/-- No group of such a process that is not owned gets a signal: it is dead, its birth identity is
not that of the look-up any more, or the signal is not sent. -/
def Spares : Prop :=
  ∀ pgid, 0 < pgid → ¬ call.Owns pgid → ∀ record, representative call.strangers pgid = some record →
    (call.findings pgid).signals record = []

end CleanupCall

/-! ## A capture without problems -/

theorem eraseDups_eq_nil {α : Type*} [DecidableEq α] {list : List α} : list.eraseDups = [] ↔ list = [] := by
  constructor
  · intro h
    apply List.eq_nil_iff_forall_not_mem.mpr
    intro item hitem
    have hmem := List.mem_eraseDups.mpr hitem
    rw [h] at hmem
    cases hmem
  · rintro rfl
    rfl

section

variable {root : ℕ} {recorded : RecordedProcesses} {tree : List TreeRecord}

/-- A record without problems. -/
structure TreeRecord.Sane (record : TreeRecord) : Prop where
  pid : 0 < record.pid
  pgid : 0 < record.pgid.getD 0
  startTicks : 0 < record.startTicks.getD 0
  identity : record.identity.getD "" ≠ ""
  state : record.state.isSome = true
  children : 0 ∉ record.children

theorem TreeRecord.sane_of_problems {record : TreeRecord} {earlier : List ℕ}
    (h : record.problems earlier = []) : record.Sane := by
  unfold TreeRecord.problems at h
  by_cases hpid : record.pid = 0
  · rw [if_pos hpid] at h
    cases h
  rw [if_neg hpid] at h
  simp only [List.append_eq_nil_iff, ite_eq_right_iff, List.cons_ne_nil, imp_false] at h
  obtain ⟨⟨⟨⟨⟨⟨-, hpgid⟩, hticks⟩, hidentity⟩, hstate⟩, -⟩, hchildren⟩ := h
  exact ⟨Nat.pos_of_ne_zero hpid, Nat.pos_of_ne_zero hpgid, Nat.pos_of_ne_zero hticks, hidentity,
    Option.isSome_iff_ne_none.mpr hstate, hchildren⟩

theorem sane_of_recordProblems {earlier : List ℕ} (h : recordProblems tree earlier = []) :
    ∀ record ∈ tree, record.Sane := by
  induction tree generalizing earlier with
  | nil => exact fun record hrecord => absurd hrecord List.not_mem_nil
  | cons first tree ih =>
      obtain ⟨hfirst, hrest⟩ := List.append_eq_nil_iff.mp h
      intro record hrecord
      rcases List.mem_cons.mp hrecord with rfl | hrecord
      · exact TreeRecord.sane_of_problems hfirst
      · exact ih hrest record hrecord

/-- What `tree_capture_problems` leaves no doubt of. -/
theorem treeCaptureProblems_eq_nil (h : treeCaptureProblems (some root) recorded tree = []) :
    (∀ record ∈ tree, record.Sane) ∧ root ∈ tree.map TreeRecord.pid ∧
      (∀ role, (recorded.role role).pid ∈ tree.map TreeRecord.pid) ∧
        ∀ record ∈ tree, ∀ child ∈ record.children, child ∈ tree.map TreeRecord.pid := by
  unfold treeCaptureProblems at h
  dsimp only at h
  by_cases hempty : tree = []
  · rw [if_pos hempty] at h
    cases h
  rw [if_neg hempty] at h
  simp only [eraseDups_eq_nil, List.append_eq_nil_iff, ite_eq_right_iff, List.cons_ne_nil, imp_false,
    not_not, List.flatMap_eq_nil_iff, List.mem_cons, List.not_mem_nil, or_false, forall_eq_or_imp,
    forall_eq] at h
  obtain ⟨⟨⟨hrecords, hroot⟩, hworker, hbasis⟩, hmissing⟩ := h
  have hpids : ∀ {pid : ℕ}, pid ∈ (tree.map TreeRecord.pid).filter (0 < ·) → pid ∈ tree.map TreeRecord.pid :=
    fun hpid => List.mem_of_mem_filter hpid
  have hsane := sane_of_recordProblems hrecords
  refine ⟨hsane, hpids hroot, ?_, ?_⟩
  · intro role
    cases role with
    | worker => exact hpids hworker
    | basis => exact hpids hbasis
  · intro record hrecord child hchild
    have hpositive : 0 < child := by
      rcases Nat.eq_zero_or_pos child with rfl | hpositive
      · exact absurd hchild (hsane record hrecord).children
      · exact hpositive
    have hreferenced : child ∈ (tree.flatMap TreeRecord.children).filter (0 < ·) := by
      rw [List.mem_filter]
      exact ⟨List.mem_flatMap.mpr ⟨record, hrecord, hchild⟩, by simpa using hpositive⟩
    by_contra hchild'
    have hmem : child ∈ ((tree.flatMap TreeRecord.children).filter (0 < ·)).filter
        (· ∉ (tree.map TreeRecord.pid).filter (0 < ·)) := by
      rw [List.mem_filter]
      exact ⟨hreferenced, decide_eq_true fun h => hchild' (List.mem_of_mem_filter h)⟩
    have hlist := (List.mergeSort_perm _ (fun one two => decide (one ≤ two))).mem_iff.mpr
      (List.mem_eraseDups.mpr hmem)
    rw [hmissing] at hlist
    cases hlist

end

/-! ## The signals of a termination -/

section

variable {tree : List CapturedRecord} {pgid root : ℕ} {findings : ℕ → GroupFindings} {signal : RestoreSignal}

theorem mem_capturedGroups :
    pgid ∈ capturedGroups tree ↔ 0 < pgid ∧ ∃ record ∈ tree, record.pgid = some pgid := by
  simp only [capturedGroups, List.mem_eraseDups, List.mem_filter, List.mem_filterMap, decide_eq_true_eq]
  exact and_comm

theorem mem_orderedGroups : pgid ∈ orderedGroups tree root ↔ pgid ∈ capturedGroups tree := by
  simp only [orderedGroups, List.mem_append, List.mem_filter, decide_eq_true_eq, ← and_or_left]
  exact and_iff_left (ne_or_eq _ _)

theorem mem_groupSignals : (pgid, signal) ∈ groupSignals findings tree root ↔
    pgid ∈ capturedGroups tree ∧ ∃ record, representative tree pgid = some record ∧
      signal ∈ (findings pgid).signals record := by
  unfold groupSignals
  rw [List.mem_flatMap]
  constructor
  · rintro ⟨group, hgroup, hsent⟩
    cases hrepresentative : representative tree group with
    | none =>
        rw [hrepresentative] at hsent
        cases hsent
    | some record =>
        rw [hrepresentative] at hsent
        obtain ⟨sent, hmem, heq⟩ := List.mem_map.mp hsent
        obtain ⟨rfl, rfl⟩ := Prod.mk.inj heq
        exact ⟨mem_orderedGroups.mp hgroup, record, hrepresentative, hmem⟩
  · rintro ⟨hgroup, record, hrepresentative, hsent⟩
    refine ⟨pgid, mem_orderedGroups.mpr hgroup, ?_⟩
    rw [hrepresentative]
    exact List.mem_map_of_mem hsent

/-- The representative depends on the members of the group only. -/
theorem representative_filter {keep : CapturedRecord → Bool}
    (h : ∀ record ∈ tree, record.pgid = some pgid → keep record = true) :
    representative (tree.filter keep) pgid = representative tree pgid := by
  unfold representative
  rw [List.filter_filter]
  congr 1
  apply List.filter_congr
  intro record hrecord
  by_cases hpgid : record.pgid = some pgid
  · simp [hpgid, h record hrecord hpgid]
  · simp [hpgid]

theorem exists_of_representative {record : CapturedRecord} (h : representative tree pgid = some record) :
    ∃ member ∈ tree, member.pgid = some pgid := by
  by_contra hnone
  push Not at hnone
  have hempty : (tree.filter fun record => record.pgid = some pgid) = [] := by
    rw [List.filter_eq_nil_iff]
    intro member hmember
    simpa using hnone member hmember
  unfold representative at h
  rw [hempty] at h
  cases h

end

/-! ## The wait -/

/-- A wait that ends quiescent ends with a quiet round. -/
theorem waitForQuiescence_quiet {tree : List CapturedRecord} {polls : List QuiescencePoll}
    (h : (waitForQuiescence tree polls).2 = true) :
    ∃ made poll, (waitForQuiescence tree polls).1 = made ++ [poll] ∧ poll.quiet tree = true := by
  induction polls with
  | nil => cases h
  | cons poll polls ih =>
      unfold waitForQuiescence at h ⊢
      by_cases hquiet : poll.quiet tree = true
      · rw [if_pos hquiet]
        exact ⟨[], poll, rfl, hquiet⟩
      · rw [if_neg hquiet] at h ⊢
        obtain ⟨made, last, hmade, hlast⟩ := ih h
        exact ⟨poll :: made, last, congrArg (poll :: ·) hmade, hlast⟩

/-! ## What was captured -/

namespace CleanupCall

variable {call : CleanupCall} {record : CapturedRecord}

/-- A record of the captures of the root: its process is reachable, and its group was read. -/
structure Found (call : CleanupCall) (record : CapturedRecord) : Prop where
  reachable : call.Reachable record.pid
  pgid : ∀ pgid, record.pgid = some pgid → call.ReadsGroup record.pid pgid

theorem found_of_capture {root : ℕ} {view : CaptureView} (hroot : call.root = some root)
    (hview : view ∈ call.views) (h : record ∈ view.captureAuthoritativeTree root) : call.Found record := by
  obtain ⟨hbelow, hrecord⟩ := CaptureView.mem_captureAuthoritativeTree h
  refine ⟨⟨root, hroot, view, hview, hbelow⟩, fun pgid hpgid => .inl ⟨view, hview, ?_⟩⟩
  rw [hrecord] at hpgid
  exact hpgid

theorem found_of_mem_tree (h : record ∈ call.tree) : call.Found record := by
  unfold tree at h
  split at h
  · rename_i root view hroot hbefore
    exact found_of_capture hroot (List.mem_append_left _ (by simp [hbefore])) h
  · cases h

theorem found_of_mem_recaptured {root : ℕ} (hroot : call.root = some root) (hrecaptures : call.recaptures = true)
    (h : record ∈ call.recaptured root) : call.Found record := by
  unfold recaptured at h
  split at h
  · rename_i view hview
    refine found_of_capture hroot (List.mem_append_right _ ?_) h
    rw [if_pos hrecaptures, hview]
    exact List.mem_singleton_self view
  · cases h

theorem Found.of_mergedFrom {sources : List CapturedRecord} (hsources : ∀ source ∈ sources, call.Found source)
    (h : MergedFrom sources record) : call.Found record := by
  constructor
  · obtain ⟨source, hsource, hpid⟩ := h.source
    exact hpid ▸ (hsources source hsource).reachable
  · intro pgid hpgid
    obtain ⟨source, hsource, hpid, hsame⟩ := h.pgid pgid hpgid
    exact hpid ▸ (hsources source hsource).pgid pgid hsame

theorem found_of_mem_authoritative (h : record ∈ call.authoritative) : call.Found record := by
  unfold authoritative at h
  split at h
  · rename_i root hroot
    split_ifs at h with hrecaptures
    · refine .of_mergedFrom (fun source hsource => ?_) (mem_mergeCapturedTrees h)
      simp only [List.flatten_cons, List.flatten_nil, List.append_nil, List.mem_append] at hsource
      rcases hsource with hsource | hsource
      · exact found_of_mem_tree hsource
      · exact found_of_mem_recaptured hroot hrecaptures hsource
    · exact found_of_mem_tree h
  · exact found_of_mem_tree h

/-- A record of the look-up. -/
theorem recordedProcess_eq_some {role : Role} (h : call.recordedProcess role = some record) :
    ∃ reading, call.recordedReading role = some reading ∧ record.pid = (call.recorded.role role).pid ∧
      record.pgid = reading.pgid := by
  unfold recordedProcess at h
  dsimp only at h
  split at h
  · rename_i reading hreading
    split_ifs at h
    obtain rfl := Option.some.inj h
    exact ⟨reading, hreading, rfl, rfl⟩
  · cases h

theorem exists_role_of_mem_fallbackTree (h : record ∈ call.fallbackTree) :
    ∃ role, call.recordedProcess role = some record := by
  unfold fallbackTree at h
  split at h
  · rename_i worker basis hworker hbasis
    split_ifs at h
    · rcases List.mem_pair.mp h with rfl | rfl
      · exact ⟨.worker, hworker⟩
      · exact ⟨.basis, hbasis⟩
    · cases h
  · cases h

/-- The group of a process that the captures of the root have found is owned. -/
theorem owns_of_mem_captured {pgid : ℕ} (h : record ∈ call.captured)
    (hpid : record.pid ∈ call.authoritative.map CapturedRecord.pid) (hpgid : record.pgid = some pgid) :
    call.Owns pgid := by
  obtain ⟨found, hfound, hsame⟩ := List.mem_map.mp hpid
  have hreachable : call.Reachable record.pid := hsame ▸ (found_of_mem_authoritative hfound).reachable
  refine ⟨record.pid, hreachable, ?_⟩
  unfold captured at h
  split_ifs at h with hconsults
  · obtain ⟨source, hsource, hsourcePid, hsourcePgid⟩ := (mem_mergeCapturedTrees h).pgid pgid hpgid
    simp only [List.flatten_cons, List.flatten_nil, List.append_nil, List.mem_append] at hsource
    rw [← hsourcePid]
    rcases hsource with hsource | hsource
    · exact (found_of_mem_authoritative hsource).pgid pgid hsourcePgid
    · obtain ⟨role, hrole⟩ := exists_role_of_mem_fallbackTree hsource
      obtain ⟨reading, hreading, hpid, hgroup⟩ := recordedProcess_eq_some hrole
      exact .inr ⟨hconsults, role, reading, hpid.symm, hreading, hgroup.symm.trans hsourcePgid⟩
  · exact (found_of_mem_authoritative h).pgid pgid hpgid

/-- What was captured outside the captures of the root. -/
theorem captured_filter : (call.captured.filter fun record =>
    record.pid ∉ call.authoritative.map CapturedRecord.pid) = call.strangers := by
  have hnone : (call.authoritative.filter fun record =>
      record.pid ∉ call.authoritative.map CapturedRecord.pid) = [] := by
    rw [List.filter_eq_nil_iff]
    intro record hrecord
    simpa using ⟨record, hrecord, rfl⟩
  unfold captured strangers
  split_ifs
  · unfold mergeCapturedTrees
    rw [filter_foldl_mergeInto fun pid => decide (pid ∉ call.authoritative.map CapturedRecord.pid)]
    simp only [List.flatten_cons, List.flatten_nil, List.append_nil, List.filter_append, hnone, List.nil_append,
      List.filter_nil]
  · exact hnone

/-- A group that is not owned has its representative from the look-up. -/
theorem representative_captured {pgid : ℕ} (h : ¬ call.Owns pgid) :
    representative call.captured pgid = representative call.strangers pgid := by
  rw [← captured_filter]
  refine (representative_filter fun record hrecord hpgid => ?_).symm
  exact decide_eq_true fun hpid => h (owns_of_mem_captured hrecord hpid hpgid)

/-! ## The report -/

theorem report_captured : call.cleanupRestoredTree.captured = call.captured := by
  unfold cleanupRestoredTree
  dsimp only
  split_ifs <;> rfl

theorem report_trace : call.cleanupRestoredTree.trace =
    if call.captured = [] then []
    else
      (groupSignals call.findings call.captured call.cleanupRootPid).map
          (fun sent => .signal sent.1 sent.2) ++
        (waitForQuiescence call.captured call.polls).1.map .poll := by
  unfold cleanupRestoredTree
  dsimp only
  split_ifs <;> rfl

/-- What a verified report takes. -/
theorem verified_of_report (h : call.cleanupRestoredTree.verifiedQuiescent = true) :
    call.problems call.captured = [] ∧ call.captured ≠ [] ∧
      (waitForQuiescence call.captured call.polls).2 = true := by
  unfold cleanupRestoredTree at h
  dsimp only at h
  split at h
  · rename_i hproblems
    rw [eraseDups_eq_nil, List.append_eq_nil_iff] at hproblems
    simp only [Bool.and_eq_true, decide_eq_true_eq] at h
    exact ⟨hproblems.1, h.1, h.2⟩
  · cases h

theorem mem_trace_signal {pgid : ℕ} {signal : RestoreSignal} :
    .signal pgid signal ∈ call.cleanupRestoredTree.trace ↔
      (pgid, signal) ∈ groupSignals call.findings call.captured call.cleanupRootPid := by
  rw [report_trace]
  split_ifs with hempty
  · rw [hempty]
    exact iff_of_false List.not_mem_nil List.not_mem_nil
  · constructor
    · intro h
      rcases List.mem_append.mp h with h | h
      · obtain ⟨sent, hsent, heq⟩ := List.mem_map.mp h
        injection heq with hpgid hsignal
        rwa [← hpgid, ← hsignal]
      · obtain ⟨poll, -, heq⟩ := List.mem_map.mp h
        cases heq
    · intro h
      exact List.mem_append_left _ (List.mem_map.mpr ⟨_, h, rfl⟩)

/-! ## Soundness -/

/-- A capture without problems has no gaps, and only positive pids. -/
theorem complete_of_problems {tree : List CapturedRecord} (h : call.problems tree = []) :
    call.Complete tree ∧ ∀ record ∈ tree, 0 < record.pid := by
  unfold problems at h
  cases hroot : call.root with
  | none =>
      rw [hroot] at h
      cases h
  | some root =>
      rw [hroot] at h
      obtain ⟨hsane, hmem, hroles, hclosed⟩ := treeCaptureProblems_eq_nil h
      have hpids : (tree.map CapturedRecord.toTree).map TreeRecord.pid = tree.map CapturedRecord.pid := by
        rw [List.map_map]
        rfl
      rw [hpids] at hmem hroles hclosed
      have hrecord : ∀ record ∈ tree, record.toTree ∈ tree.map CapturedRecord.toTree :=
        fun record hrecord => List.mem_map_of_mem hrecord
      refine ⟨⟨⟨root, hroot, hmem⟩, hroles, ?_, ?_⟩, fun record h => (hsane _ (hrecord record h)).pid⟩
      · intro record h
        have hchildren := (hsane _ (hrecord record h)).children
        cases hlist : record.children with
        | none => simp [CapturedRecord.toTree, hlist] at hchildren
        | some children =>
            refine ⟨children, rfl, fun child hchild => hclosed _ (hrecord record h) child ?_⟩
            simpa [CapturedRecord.toTree, hlist] using hchild
      · intro record h
        obtain ⟨-, hpgid, hticks, hidentity, hstate, -⟩ := hsane _ (hrecord record h)
        have hpositive : ∀ {value : Option ℕ}, 0 < value.getD 0 → ∃ number, value = some number ∧ 0 < number := by
          intro value hvalue
          cases value with
          | none => cases hvalue
          | some number => exact ⟨number, rfl, hvalue⟩
        refine ⟨hpositive hpgid, hpositive hticks, ?_, hstate⟩
        cases hvalue : record.identity with
        | none => simp [CapturedRecord.toTree, hvalue] at hidentity
        | some identity => exact ⟨identity, rfl, by simpa [CapturedRecord.toTree, hvalue] using hidentity⟩

theorem observedDead_of_quiet {tree : List CapturedRecord} {poll : QuiescencePoll}
    (hcomplete : call.Complete tree) (hpids : ∀ record ∈ tree, 0 < record.pid)
    (h : poll.quiet tree = true) : ObservedDead poll tree := by
  simp only [QuiescencePoll.quiet, Bool.and_eq_true, List.all_eq_true, Bool.not_eq_true'] at h
  obtain ⟨hdead, hgroups⟩ := h
  intro record hrecord
  refine ⟨hdead record.pid ?_, fun pgid hpgid => hgroups pgid ?_⟩
  · rw [List.mem_filter]
    exact ⟨List.mem_map_of_mem hrecord, decide_eq_true (hpids record hrecord)⟩
  · obtain ⟨⟨own, hown, hpositive⟩, -⟩ := hcomplete.identities record hrecord
    obtain rfl : own = pgid := Option.some.inj (hown.symm.trans hpgid)
    exact mem_capturedGroups.mpr ⟨hpositive, record, hrecord, hpgid⟩

/-- What a call verifies is true. -/
theorem verified_sound (h : call.cleanupRestoredTree.verifiedQuiescent = true) :
    call.Complete call.cleanupRestoredTree.captured ∧
      ∃ before poll after, call.cleanupRestoredTree.trace = before ++ .poll poll :: after ∧
        (∀ pgid signal, .signal pgid signal ∉ after) ∧
          ObservedDead poll call.cleanupRestoredTree.captured := by
  obtain ⟨hproblems, hsome, hwait⟩ := verified_of_report h
  obtain ⟨hcomplete, hpids⟩ := complete_of_problems hproblems
  obtain ⟨made, poll, hmade, hquiet⟩ := waitForQuiescence_quiet hwait
  have htrace : ∃ before, call.cleanupRestoredTree.trace = before ++ [.poll poll] := by
    rw [report_trace, if_neg hsome, hmade, List.map_append, ← List.append_assoc]
    exact ⟨_, rfl⟩
  obtain ⟨before, htrace⟩ := htrace
  rw [report_captured]
  exact ⟨hcomplete, before, poll, [], htrace, fun _ _ => List.not_mem_nil,
    observedDead_of_quiet hcomplete hpids hquiet⟩

/-- A call signals owned groups only exactly when it spares the others that it has looked up. -/
theorem owned_iff_spares :
    (∀ pgid signal, .signal pgid signal ∈ call.cleanupRestoredTree.trace → call.Owns pgid) ↔ call.Spares := by
  constructor
  · intro h pgid hpositive hforeign record hrecord
    rw [← representative_captured hforeign] at hrecord
    apply List.eq_nil_iff_forall_not_mem.mpr
    intro signal hsignal
    refine hforeign (h pgid signal (mem_trace_signal.mpr (mem_groupSignals.mpr ?_)))
    exact ⟨mem_capturedGroups.mpr ⟨hpositive, exists_of_representative hrecord⟩, record, hrecord, hsignal⟩
  · intro h pgid signal hsignal
    by_contra hforeign
    obtain ⟨hgroup, record, hrecord, hsent⟩ := mem_groupSignals.mp (mem_trace_signal.mp hsignal)
    rw [representative_captured hforeign] at hrecord
    rw [h pgid (mem_capturedGroups.mp hgroup).1 hforeign record hrecord] at hsent
    cases hsent

end CleanupCall

/-- CRIU was never launched.  Both recorded pids have been taken by stopped processes of somebody
else, which get a signal. -/
def strangersCall : CleanupCall where
  recorded := ⟨⟨20, 20⟩, ⟨21, 21⟩⟩
  root := none
  before := none
  forceRecapture := false
  recapture := .ok []
  recordedReading
    | .worker => some ⟨some 20, some 7, some "linux-proc:7", some "T", none⟩
    | .basis => some ⟨some 21, some 8, some "linux-proc:8", some "T", none⟩
  findings pgid :=
    let reading : IdentityReading :=
      if pgid = 20 then ⟨some "linux-proc:7", some 7⟩ else ⟨some "linux-proc:8", some 8⟩
    ⟨true, reading, .sent, false, reading, .sent⟩
  polls := []

end Hearth.Criu
