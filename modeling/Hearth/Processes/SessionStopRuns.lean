import Hearth.Processes.SessionStop

/-!
# What a verified stop rules out

Once nobody is alive in the group of the basis, no child is started or registered any more, and a
group of the session that is dead stays dead.  So the last reading of the registry finds every
child that is still alive, provided that the group of the basis was seen dead before: by the
cooperative wait, or by its own termination.
-/

namespace Hearth.Processes

open Hearth.Library

variable {fork : ForkSession} {s t : StopState}

/-! ## What is known -/

theorem mem_addGroup {owned : List ℕ} {pgid group : ℕ} :
    group ∈ addGroup owned pgid ↔ group ∈ owned ∨ group = pgid := by
  unfold addGroup
  split
  · exact ⟨.inl, fun h => h.elim id fun heq => heq ▸ ‹_›⟩
  · simp

theorem mem_foldl_addGroup {groups owned : List ℕ} {group : ℕ} :
    group ∈ groups.foldl addGroup owned ↔ group ∈ owned ∨ group ∈ groups := by
  induction groups generalizing owned with
  | nil => simp
  | cons pgid rest ih => rw [List.foldl_cons, ih, mem_addGroup, List.mem_cons, or_assoc]

theorem mem_targetGroups {children : List ChildRecord} {group : ℕ} :
    group ∈ targetGroups fork.session children ↔
      group ∈ children.map ChildRecord.pgid ∨ group = fork.basis ∨ group = fork.worker := by
  unfold targetGroups
  rw [mem_foldl_addGroup, fork.basisRecorded, fork.workerRecorded]
  simp

theorem mem_of_mem_putRecord {records : List ChildRecord} {record other : ChildRecord}
    (h : other ∈ putRecord records record) : other ∈ records ∨ other = record := by
  unfold putRecord at h
  split at h
  · obtain ⟨old, hold, rfl⟩ := List.mem_map.mp h
    split
    · exact .inr rfl
    · exact .inl hold
  · simpa using h

theorem mem_of_mem_foldl_putRecord {added records : List ChildRecord} {record : ChildRecord}
    (h : record ∈ added.foldl putRecord records) : record ∈ records ∨ record ∈ added := by
  induction added generalizing records with
  | nil => exact .inl h
  | cons first rest ih =>
      rcases ih h with hput | hrest
      · exact (mem_of_mem_putRecord hput).imp id fun heq => by rw [heq]; exact .head _
      · exact .inr (.tail _ hrest)

@[simp] theorem escalationTarget_pgid (session : WarmSession) (records : List ChildRecord) (pgid : ℕ) :
    (escalationTarget session records pgid).pgid = pgid := by
  unfold escalationTarget
  split
  · rfl
  · split <;> rfl

/-- A reading that did not fail has the whole registry. -/
theorem activeChildRecords_of_answers {answer : Option (List ChildRecord)} (h : s.Answers answer) :
    activeChildRecords fork.session answer = (s.registry, false) ∨
      activeChildRecords fork.session answer = ([], true) := by
  unfold activeChildRecords
  rw [if_pos fork.engine]
  cases answer with
  | none => exact .inr rfl
  | some records => exact .inl (by rw [h records rfl])

theorem mem_registry_of_answers {answer : Option (List ChildRecord)} (h : s.Answers answer)
    {record : ChildRecord} (hrecord : record ∈ (activeChildRecords fork.session answer).1) :
    record ∈ s.registry := by
  rcases @activeChildRecords_of_answers fork _ _ h with heq | heq <;> rw [heq] at hrecord
  · exact hrecord
  · cases hrecord

/-! ## The world -/

/-- What holds of the processes and of the registry. -/
structure WorldFacts (fork : ForkSession) (s : StopState) : Prop where
  consistent : s.table.Consistent
  used : ∀ process ∈ s.table.processes, process.pid ∈ s.used
  watchedUsed : ∀ pgid, s.Watched fork pgid → pgid ∈ s.used
  positive : ∀ pid ∈ s.used, 0 < pid
  leaders : ∀ process ∈ s.table.processes, s.Watched fork process.pid →
    process.pgid = process.pid ∨ (process.pgid = fork.basis ∧ process.pid ∈ s.ever)
  registered : ∀ pgid ∈ s.ever, ∀ process ∈ s.table.processes,
    process.pid = pgid ∨ process.pgid = pgid → ∃ record ∈ s.registry, record.pgid = pgid
  known : ∀ record ∈ s.registry, record.pgid ∈ s.ever
  basis : fork.basis ∉ s.ever

/-- What a step of the processes or of the broker leaves alone. -/
structure Stable (fork : ForkSession) (s t : StopState) : Prop where
  ever : ∀ pgid ∈ s.ever, pgid ∈ t.ever
  closed : s.Dead fork.basis → t.ever = s.ever
  dead : s.Dead fork.basis → ∀ pgid, s.Watched fork pgid → s.Dead pgid → t.Dead pgid
  basisDead : s.Dead fork.basis → t.Dead fork.basis

namespace WorldFacts

/-- The leader of a group without a living member is gone too, once the basis is. -/
theorem leader_gone (h : WorldFacts fork s) (hbasis : s.Dead fork.basis) {pgid : ℕ}
    (hwatched : s.Watched fork pgid) (hdead : s.Dead pgid) :
    ∀ process ∈ s.table.processes, process.pid ≠ pgid := by
  rintro process hprocess rfl
  rcases h.leaders process hprocess hwatched with hown | ⟨hchild, -⟩
  · exact hdead process hprocess hown
  · exact hbasis process hprocess hchild

theorem start (h : WorldFacts fork s) {parent : Process} {pid : ℕ} (birth : String)
    (hparent : parent ∈ s.table.processes) (hfree : s.table.Free pid)
    (hallows : s.Allows fork (.start pid)) :
    WorldFacts fork { s with table := s.table.start parent pid birth, used := pid :: s.used } where
  consistent := h.consistent.start birth hparent hfree
  used process hprocess := by
    rcases List.mem_cons.mp hprocess with rfl | hold
    · exact .head _
    · exact .tail _ (h.used process hold)
  watchedUsed pgid hwatched := .tail _ (h.watchedUsed pgid hwatched)
  positive id hid := by
    rcases List.mem_cons.mp hid with rfl | hold
    · exact hallows.1
    · exact h.positive id hold
  leaders process hprocess hwatched := by
    rcases List.mem_cons.mp hprocess with rfl | hold
    · exact absurd (h.watchedUsed pid hwatched) hallows.2
    · exact h.leaders process hold hwatched
  registered pgid hever process hprocess hnames := by
    rcases List.mem_cons.mp hprocess with rfl | hold
    · have hused : pgid ∈ s.used := h.watchedUsed pgid (.inr (.inr hever))
      rcases hnames with hpid | hpgid
      · rw [← hpid] at hused
        exact absurd hused hallows.2
      · exact h.registered pgid hever parent hparent (.inr hpgid)
    · exact h.registered pgid hever process hold hnames
  known := h.known
  basis := h.basis

/-- A process goes to a group of its own, or between groups that are not the session's. -/
theorem regroup (h : WorldFacts fork s) {serial pgid founder : ℕ}
    (hconsistent : (s.table.regroup serial pgid founder).Consistent)
    (hmoved : ∀ process ∈ s.table.processes, process.serial = serial →
      s.Watched fork pgid ∨ s.Watched fork process.pid → pgid = process.pid) :
    WorldFacts fork { s with table := s.table.regroup serial pgid founder } where
  consistent := hconsistent
  used process hprocess := by
    obtain ⟨old, hold, -, hpid, -⟩ := ProcessTable.exists_of_mem_regroup hprocess
    exact hpid ▸ h.used old hold
  watchedUsed := h.watchedUsed
  positive := h.positive
  leaders process hprocess hwatched := by
    obtain ⟨old, hold, -, hpid, ⟨hserial, hpgid, -⟩ | ⟨-, rfl⟩⟩ :=
      ProcessTable.exists_of_mem_regroup hprocess
    · exact .inl (by rw [hpgid, hmoved old hold hserial (.inr (hpid ▸ hwatched)), hpid])
    · exact h.leaders process hold hwatched
  registered group hever process hprocess hnames := by
    obtain ⟨old, hold, -, hpid, ⟨hserial, hpgid, -⟩ | ⟨-, rfl⟩⟩ :=
      ProcessTable.exists_of_mem_regroup hprocess
    · refine h.registered group hever old hold (.inl ?_)
      rcases hnames with hname | hname
      · rw [hpid, hname]
      · rw [← hmoved old hold hserial (.inl (.inr (.inr (by rw [← hpgid, hname]; exact hever)))),
          ← hpgid, hname]
    · exact h.registered group hever process hold hnames
  known := h.known
  basis := h.basis

theorem reap (h : WorldFacts fork s) (serial : ℕ) (hconsistent : (s.table.reap serial).Consistent) :
    WorldFacts fork { s with table := s.table.reap serial } where
  consistent := hconsistent
  used process hprocess := h.used process (List.mem_of_mem_filter hprocess)
  watchedUsed := h.watchedUsed
  positive := h.positive
  leaders process hprocess := h.leaders process (List.mem_of_mem_filter hprocess)
  registered pgid hever process hprocess := h.registered pgid hever process (List.mem_of_mem_filter hprocess)
  known := h.known
  basis := h.basis

theorem table (h : WorldFacts fork s) {event : TableEvent} {after : ProcessTable}
    (hstep : TableStep s.table event after) (hallows : s.Allows fork event) :
    WorldFacts fork { s with table := after, used := s.usedBehind event } := by
  have hconsistent := h.consistent.step hstep
  cases hstep with
  | start birth hparent hfree => exact h.start birth hparent hfree hallows
  | @lead process hprocess hfree =>
      refine h.regroup hconsistent fun old hold hserial _ => ?_
      rw [h.consistent.serials old hold process hprocess hserial]
  | @join process target hprocess htarget =>
      refine h.regroup hconsistent fun old hold hserial hwatched => ?_
      rcases hwatched with hgroup | hleader
      · exact absurd hgroup (hallows.2 target htarget rfl)
      · exact absurd hleader (hallows.1 old hold hserial).2
  | reap hprocess => exact h.reap _ hconsistent

theorem register (h : WorldFacts fork s) {process : Process} {identity : Option String}
    (hprocess : process ∈ s.table.processes) (hchild : process.pid ≠ fork.basis)
    (hgroup : process.pgid = fork.basis) :
    WorldFacts fork (s.register ⟨process.pid, process.pid, identity⟩) where
  consistent := h.consistent
  used := h.used
  watchedUsed pgid hwatched := by
    rcases hwatched with hbasis | hworker | hever
    · exact h.watchedUsed pgid (.inl hbasis)
    · exact h.watchedUsed pgid (.inr (.inl hworker))
    · rcases List.mem_cons.mp hever with rfl | hold
      · exact h.used process hprocess
      · exact h.watchedUsed pgid (.inr (.inr hold))
  positive := h.positive
  leaders other hother hwatched := by
    rcases hwatched with hbasis | hworker | hever
    · exact (h.leaders other hother (.inl hbasis)).imp id (And.imp id (List.mem_cons_of_mem _))
    · exact (h.leaders other hother (.inr (.inl hworker))).imp id (And.imp id (List.mem_cons_of_mem _))
    · rcases List.mem_cons.mp hever with hsame | hold
      · rw [h.consistent.pids other hother process hprocess hsame]
        exact .inr ⟨hgroup, .head _⟩
      · exact (h.leaders other hother (.inr (.inr hold))).imp id (And.imp id (List.mem_cons_of_mem _))
  registered pgid hever other hother hnames := by
    by_cases hsame : pgid = process.pid
    · exact ⟨_, (List.mem_orderedInsert _).mpr (.inl rfl), hsame.symm⟩
    · have hold : pgid ∈ s.ever := (List.mem_cons.mp hever).resolve_left hsame
      obtain ⟨record, hrecord, rfl⟩ := h.registered pgid hold other hother hnames
      exact ⟨record, (List.mem_orderedInsert _).mpr
        (.inr (List.mem_filter.mpr ⟨hrecord, by simpa using hsame⟩)), rfl⟩
  known record hrecord := by
    rcases (List.mem_orderedInsert _).mp hrecord with rfl | hold
    · exact .head _
    · exact .tail _ (h.known record (List.mem_of_mem_filter hold))
  basis hmem := (List.mem_cons.mp hmem).elim (fun heq => hchild heq.symm) h.basis

theorem unregister (h : WorldFacts fork s) {pgid : ℕ}
    (hgone : ∀ process ∈ s.table.processes, process.pid ≠ pgid ∧ process.pgid ≠ pgid) :
    WorldFacts fork (s.unregister pgid) where
  consistent := h.consistent
  used := h.used
  watchedUsed := h.watchedUsed
  positive := h.positive
  leaders := h.leaders
  registered group hever process hprocess hnames := by
    obtain ⟨record, hrecord, rfl⟩ := h.registered group hever process hprocess hnames
    have hkept : record.pgid ≠ pgid := by
      rintro rfl
      exact hnames.elim (hgone process hprocess).1 (hgone process hprocess).2
    exact ⟨record, List.mem_filter.mpr ⟨hrecord, by simpa using hkept⟩, rfl⟩
  known record hrecord := h.known record (List.mem_of_mem_filter hrecord)
  basis := h.basis

/-- A dead group of the session stays dead, whatever the processes do. -/
theorem dead_table {event : TableEvent} {after : ProcessTable}
    (hstep : TableStep s.table event after) (hallows : s.Allows fork event) {pgid : ℕ}
    (hwatched : s.Watched fork pgid) (hleader : ∀ process ∈ s.table.processes, process.pid ≠ pgid)
    (hdead : s.Dead pgid) : ∀ process ∈ after.processes, process.pgid ≠ pgid := by
  intro process hprocess
  cases hstep with
  | @start parent pid birth hparent hfree =>
      rcases List.mem_cons.mp hprocess with rfl | hold
      · exact hdead parent hparent
      · exact hdead process hold
  | @lead leader hmem hfree =>
      obtain ⟨old, hold, -, -, ⟨-, hpgid, -⟩ | ⟨-, rfl⟩⟩ := ProcessTable.exists_of_mem_regroup hprocess
      · exact hpgid ▸ hleader leader hmem
      · exact hdead process hold
  | @join moved target hmem htarget =>
      obtain ⟨old, hold, -, -, ⟨-, hpgid, -⟩ | ⟨-, rfl⟩⟩ := ProcessTable.exists_of_mem_regroup hprocess
      · exact fun hsame => hallows.2 target htarget rfl (by rwa [← hpgid, hsame])
      · exact hdead process hold
  | reap hmem => exact hdead process (List.mem_of_mem_filter hprocess)

/-- Once nobody is alive in the group of the basis, nobody comes to it any more. -/
theorem basis_leader_gone (h : WorldFacts fork s) (hbasis : s.Dead fork.basis) :
    ∀ process ∈ s.table.processes, process.pid ≠ fork.basis :=
  h.leader_gone hbasis (.inl rfl) hbasis

theorem stable_table (h : WorldFacts fork s) {event : TableEvent} {after : ProcessTable}
    (hstep : TableStep s.table event after) (hallows : s.Allows fork event) :
    Stable fork s { s with table := after, used := s.usedBehind event } where
  ever _ := id
  closed _ := rfl
  dead hbasis _ hwatched hdead := dead_table hstep hallows hwatched (h.leader_gone hbasis hwatched hdead) hdead
  basisDead hbasis := dead_table hstep hallows (.inl rfl) (h.basis_leader_gone hbasis) hbasis

end WorldFacts

/-- A child is registered only while somebody is alive in the group of the basis. -/
theorem stable_register {process : Process} {identity : Option String}
    (hprocess : process ∈ s.table.processes) (hgroup : process.pgid = fork.basis) :
    Stable fork s (s.register ⟨process.pid, process.pid, identity⟩) where
  ever _ := List.mem_cons_of_mem _
  closed hbasis := absurd hgroup (hbasis process hprocess)
  dead _ _ _ := id
  basisDead := id

/-! ## The call -/

/-- The group of the basis was seen dead, by the cooperative wait or by its own termination. -/
def SeenGone (fork : ForkSession) (s : StopState) : Prop :=
  s.cooperative = true ∨
    ∃ escalation ∈ s.escalations, escalation.pgid = fork.basis ∧ escalation.status.quiet = true

/-- The last reading knows every group of a child that is alive. -/
def Complete (fork : ForkSession) (s : StopState) : Prop :=
  s.registryError = false → SeenGone fork s → ∀ pgid ∈ s.ever, s.Dead pgid ∨ pgid ∈ s.owned

/-- The terminations that are left are about groups of the session, and late ones about children. -/
def Targets (fork : ForkSession) (s : StopState) (late : Bool) (todo : List EscalationTarget) : Prop :=
  ∀ target ∈ todo, s.Watched fork target.pgid ∧ (late = true → target.pgid ∈ s.ever)

/-- What holds where the call is. -/
def StageFacts (fork : ForkSession) (s : StopState) : StopStage → Prop
  | .waiting .cooperative _ groups => fork.basis ∈ groups ∨ s.Dead fork.basis
  | .waiting .final _ groups =>
      Complete fork s ∧ (SeenGone fork s → ∀ pgid ∈ s.owned, pgid ∈ groups ∨ s.Dead pgid)
  | .escalating late todo => Targets fork s late todo ∧ (late = true → Complete fork s)
  | .terminating late target _ todo =>
      Targets fork s late (target :: todo) ∧ (late = true → Complete fork s)
  | .ended verified => verified = true → s.registryError = false ∧ Complete fork s ∧
      (SeenGone fork s → ∀ pgid ∈ s.owned, s.Dead pgid)
  | .reading => ¬ SeenGone fork s
  | .waiting .initial _ _ | .requesting | .refreshing | .finalReading => True

/-- What holds of the call. -/
structure CallFacts (fork : ForkSession) (s : StopState) : Prop where
  owned : ∀ pgid ∈ s.owned, s.Watched fork pgid
  kept : s.stage ≠ .reading → fork.basis ∈ s.owned ∧ fork.worker ∈ s.owned
  records : ∀ record ∈ s.records, record.pgid ∈ s.ever
  reached : ∀ process ∈ s.reached, s.Watched fork process.pgid
  seen : SeenGone fork s → s.Dead fork.basis
  stage : StageFacts fork s s.stage

/-- The call has not moved. -/
structure SameCall (s t : StopState) : Prop where
  stage : t.stage = s.stage
  owned : t.owned = s.owned
  records : t.records = s.records
  escalations : t.escalations = s.escalations
  registryError : t.registryError = s.registryError
  cooperative : t.cooperative = s.cooperative
  reached : t.reached = s.reached

theorem Stable.watched (h : Stable fork s t) {pgid : ℕ} (hwatched : s.Watched fork pgid) :
    t.Watched fork pgid :=
  hwatched.imp id (Or.imp id (h.ever pgid))

theorem SameCall.seenGone (h : SameCall s t) : SeenGone fork t ↔ SeenGone fork s := by
  unfold SeenGone
  rw [h.cooperative, h.escalations]

theorem Targets.keeps {late : Bool} {todo : List EscalationTarget} (h : Targets fork s late todo) (hstable : Stable fork s t) :
    Targets fork t late todo :=
  fun target htarget => ⟨hstable.watched (h target htarget).1,
    fun hlate => hstable.ever _ ((h target htarget).2 hlate)⟩

theorem Complete.keeps (h : Complete fork s) (hseen : SeenGone fork s → s.Dead fork.basis)
    (hstable : Stable fork s t) (hsame : SameCall s t) : Complete fork t := by
  intro herror hgone pgid hever
  rw [hsame.registryError] at herror
  rw [hsame.seenGone] at hgone
  have hbasis := hseen hgone
  rw [hstable.closed hbasis] at hever
  rw [hsame.owned]
  exact (h herror hgone pgid hever).imp (hstable.dead hbasis pgid (.inr (.inr hever))) id

/-- What the processes and the broker do keeps what holds where the call is. -/
theorem StageFacts.keeps {stage : StopStage} (h : StageFacts fork s stage)
    (howned : ∀ pgid ∈ s.owned, s.Watched fork pgid) (hseen : SeenGone fork s → s.Dead fork.basis)
    (hstable : Stable fork s t) (hsame : SameCall s t) : StageFacts fork t stage := by
  have hdead : SeenGone fork s → ∀ pgid ∈ s.owned, s.Dead pgid → t.Dead pgid :=
    fun hgone pgid hmem => hstable.dead (hseen hgone) pgid (howned pgid hmem)
  cases stage with
  | waiting wait pids groups =>
      cases wait with
      | initial => trivial
      | cooperative => exact h.imp id hstable.basisDead
      | final =>
          refine ⟨h.1.keeps hseen hstable hsame, fun hgone pgid hmem => ?_⟩
          rw [hsame.seenGone] at hgone
          rw [hsame.owned] at hmem
          exact (h.2 hgone pgid hmem).imp id (hdead hgone pgid hmem)
  | escalating late todo =>
      exact ⟨h.1.keeps hstable, fun hlate => (h.2 hlate).keeps hseen hstable hsame⟩
  | terminating late target sub todo =>
      exact ⟨h.1.keeps hstable, fun hlate => (h.2 hlate).keeps hseen hstable hsame⟩
  | ended verified =>
      intro hverified
      obtain ⟨herror, hcomplete, hgroups⟩ := h hverified
      refine ⟨by rw [hsame.registryError, herror], hcomplete.keeps hseen hstable hsame, ?_⟩
      intro hgone pgid hmem
      rw [hsame.seenGone] at hgone
      rw [hsame.owned] at hmem
      exact hdead hgone pgid hmem (hgroups hgone pgid hmem)
  | reading => exact fun hgone => h (hsame.seenGone.mp hgone)
  | requesting => trivial
  | refreshing => trivial
  | finalReading => trivial

theorem CallFacts.keeps (h : CallFacts fork s) (hstable : Stable fork s t) (hsame : SameCall s t) :
    CallFacts fork t where
  owned pgid hmem := hstable.watched (h.owned pgid (hsame.owned ▸ hmem))
  kept hstage := by
    rw [hsame.owned]
    exact h.kept (hsame.stage ▸ hstage)
  records record hmem := hstable.ever _ (h.records record (hsame.records ▸ hmem))
  reached process hmem := hstable.watched (h.reached process (hsame.reached ▸ hmem))
  seen hgone := hstable.basisDead (h.seen (hsame.seenGone.mp hgone))
  stage := by
    rw [hsame.stage]
    exact h.stage.keeps h.owned h.seen hstable hsame

/-! ### The steps of the call -/

namespace CallFacts

theorem goTo (h : CallFacts fork s) (hreading : s.stage ≠ .reading) {stage : StopStage}
    (hstage : StageFacts fork s stage) : CallFacts fork (s.goTo stage) :=
  ⟨h.owned, fun _ => h.kept hreading, h.records, h.reached, h.seen, hstage⟩

/-- A new round of a wait looks at every group that is known. -/
theorem beginWait (h : CallFacts fork s) (hworld : WorldFacts fork s) (hreading : s.stage ≠ .reading)
    {wait : StopWait} (hcomplete : wait = .final → Complete fork s) :
    CallFacts fork (s.beginWait fork wait) := by
  have hgroups : ∀ pgid ∈ s.owned, pgid ∈ s.owned.filter (0 < ·) := fun pgid hmem =>
    List.mem_filter.mpr ⟨hmem, by simpa using hworld.positive pgid (hworld.watchedUsed pgid (h.owned pgid hmem))⟩
  refine h.goTo hreading ?_
  cases wait with
  | initial => trivial
  | cooperative => exact .inl (hgroups _ (h.kept hreading).1)
  | final => exact ⟨hcomplete rfl, fun _ pgid hmem => .inl (hgroups pgid hmem)⟩

/-- A termination settles; that of the basis with a quiet status has seen its group dead. -/
theorem settle (h : CallFacts fork s) (hworld : WorldFacts fork s) {late : Bool}
    {target : EscalationTarget} {sub : TerminateStage} {todo : List EscalationTarget}
    (hstage : s.stage = .terminating late target sub todo) {status : TerminateStatus}
    (hquiet : status.quiet = true → s.Dead target.pgid) :
    CallFacts fork (s.settle late todo target.pgid status) := by
  have hfacts := h.stage
  rw [hstage] at hfacts
  obtain ⟨htargets, hcomplete⟩ := hfacts
  have hcases : SeenGone fork (s.settle late todo target.pgid status) →
      SeenGone fork s ∨ (target.pgid = fork.basis ∧ status.quiet = true) := by
    rintro (hcooperative | ⟨escalation, hmem, hpgid, hstatus⟩)
    · exact .inl (.inl hcooperative)
    · rcases List.mem_append.mp hmem with hold | hnew
      · exact .inl (.inr ⟨escalation, hold, hpgid, hstatus⟩)
      · rw [List.mem_singleton.mp hnew] at hpgid hstatus
        exact .inr ⟨hpgid, hstatus⟩
  refine ⟨h.owned, fun _ => h.kept (by rw [hstage]; exact StopStage.noConfusion), h.records, h.reached, ?_, ?_⟩
  · intro hgone
    rcases hcases hgone with hold | ⟨hbasis, hstatus⟩
    · exact h.seen hold
    · exact hbasis ▸ hquiet hstatus
  · refine ⟨fun other hother => htargets other (.tail _ hother), fun hlate herror hgone => ?_⟩
    rcases hcases hgone with hold | ⟨hbasis, -⟩
    · exact hcomplete hlate herror hold
    · exact absurd (hbasis ▸ (htargets target (.head _)).2 hlate) hworld.basis

/-- The first reading. -/
theorem start (h : CallFacts fork s) (hworld : WorldFacts fork s) {answer : Option (List ChildRecord)}
    (hanswer : s.Answers answer) (hstage : s.stage = .reading) :
    CallFacts fork ((s.start fork answer).goTo .requesting) := by
  have hseen := h.stage
  rw [hstage] at hseen
  have hchild : ∀ record ∈ (activeChildRecords fork.session answer).1, record.pgid ∈ s.ever :=
    fun record hrecord => hworld.known record (mem_registry_of_answers hanswer hrecord)
  refine ⟨fun pgid hmem => ?_, fun _ => ?_, fun record hmem => ?_, h.reached, fun hgone => absurd hgone hseen, trivial⟩
  · rcases mem_targetGroups.mp hmem with hold | hbasis | hworker
    · obtain ⟨record, hrecord, rfl⟩ := List.mem_map.mp hold
      exact .inr (.inr (hchild record hrecord))
    · exact .inl hbasis
    · exact .inr (.inl hworker)
  · exact ⟨mem_targetGroups.mpr (.inr (.inl rfl)), mem_targetGroups.mpr (.inr (.inr rfl))⟩
  · rcases mem_of_mem_foldl_putRecord hmem with hold | hnew
    · cases hold
    · exact hchild record hnew

/-- A later reading knows more groups. -/
theorem learn (h : CallFacts fork s) (hworld : WorldFacts fork s) {answer : Option (List ChildRecord)}
    (hanswer : s.Answers answer) (hreading : s.stage ≠ .reading) :
    CallFacts fork ((s.learn fork answer).goTo .requesting) := by
  have hkept : ∀ pgid ∈ s.owned, pgid ∈ (s.learn fork answer).owned :=
    fun pgid hmem => mem_foldl_addGroup.mpr (.inl hmem)
  refine ⟨fun pgid hmem => ?_, fun _ => ?_, h.records, h.reached, h.seen, trivial⟩
  · rcases mem_foldl_addGroup.mp hmem with hold | hnew
    · exact h.owned pgid hold
    · obtain ⟨record, hrecord, rfl⟩ := List.mem_map.mp hnew
      exact .inr (.inr (hworld.known record (mem_registry_of_answers hanswer hrecord)))
  · exact ⟨hkept _ (h.kept hreading).1, hkept _ (h.kept hreading).2⟩

/-- The last reading knows every child that is alive. -/
theorem complete_learn (hworld : WorldFacts fork s) {answer : Option (List ChildRecord)}
    (hanswer : s.Answers answer) : Complete fork (s.learn fork answer) := by
  intro herror _ pgid hever
  by_cases hdead : s.Dead pgid
  · exact .inl hdead
  · refine .inr (mem_foldl_addGroup.mpr (.inr ?_))
    have halive : ∃ process ∈ s.table.processes, process.pgid = pgid := by
      simpa [StopState.Dead] using hdead
    obtain ⟨process, hprocess, hpgid⟩ := halive
    obtain ⟨record, hrecord, rfl⟩ := hworld.registered pgid hever process hprocess (.inr hpgid)
    rcases @activeChildRecords_of_answers fork _ _ hanswer with heq | heq
    · rw [heq]
      exact List.mem_map_of_mem hrecord
    · simp [StopState.learn, heq] at herror

/-- The rest of the list of terminations. -/
theorem rest {late : Bool} {target : EscalationTarget} {todo : List EscalationTarget}
    (h : Targets fork s late (target :: todo)) : Targets fork s late todo :=
  fun other hother => h other (.tail _ hother)

theorem quiesced (h : CallFacts fork s) {wait : StopWait} (hstage : s.stage = .waiting wait [] []) :
    CallFacts fork (s.quiesced wait) := by
  have hreading : s.stage ≠ .reading := by rw [hstage]; exact StopStage.noConfusion
  have hfacts := h.stage
  rw [hstage] at hfacts
  cases wait with
  | initial => exact h.goTo hreading trivial
  | cooperative =>
      have hbasis : s.Dead fork.basis := hfacts.resolve_left List.not_mem_nil
      exact ⟨h.owned, fun _ => h.kept hreading, h.records, h.reached, fun _ => hbasis, trivial⟩
  | final =>
      refine h.goTo hreading fun hverified => ⟨by simpa using hverified, hfacts.1, fun hgone pgid hmem => ?_⟩
      exact (hfacts.2 hgone pgid hmem).resolve_left List.not_mem_nil

theorem overdue (h : CallFacts fork s) {wait : StopWait} {pids groups : List ℕ}
    (hstage : s.stage = .waiting wait pids groups) : CallFacts fork (s.overdue fork wait) := by
  have hreading : s.stage ≠ .reading := by rw [hstage]; exact StopStage.noConfusion
  cases wait with
  | initial => exact h.goTo hreading trivial
  | cooperative =>
      refine h.goTo hreading ⟨fun target htarget => ⟨?_, fun hlate => Bool.noConfusion hlate⟩,
        fun hlate => Bool.noConfusion hlate⟩
      obtain ⟨pgid, hpgid, rfl⟩ := List.mem_map.mp htarget
      rw [escalationTarget_pgid]
      rcases mem_targetGroups.mp (List.mem_of_mem_filter hpgid) with hchild | hbasis | hworker
      · obtain ⟨record, hrecord, rfl⟩ := List.mem_map.mp hchild
        exact .inr (.inr (h.records record hrecord))
      · exact .inl hbasis
      · exact .inr (.inl hworker)
  | final => exact h.goTo hreading fun hverified => Bool.noConfusion hverified

/-- A group that a round finds dead. -/
theorem groupQuiet (h : CallFacts fork s) {wait : StopWait} {pids groups : List ℕ} {pgid : ℕ}
    (hstage : s.stage = .waiting wait pids groups) (hquiet : s.Dead pgid) :
    CallFacts fork (s.goTo (.waiting wait pids (groups.erase pgid))) := by
  have hfacts := h.stage
  rw [hstage] at hfacts
  have herase : ∀ group, group ∈ groups ∨ s.Dead group → group ∈ groups.erase pgid ∨ s.Dead group := by
    rintro group (hmem | hdead)
    · by_cases hsame : group = pgid
      · exact .inr (hsame ▸ hquiet)
      · exact .inl ((List.mem_erase_of_ne hsame).mpr hmem)
    · exact .inr hdead
  refine h.goTo (by rw [hstage]; exact StopStage.noConfusion) ?_
  cases wait with
  | initial => trivial
  | cooperative => exact herase _ hfacts
  | final => exact ⟨hfacts.1, fun hgone group hmem => herase group (hfacts.2 hgone group hmem)⟩

theorem pidQuiet (h : CallFacts fork s) {wait : StopWait} {pids groups : List ℕ} (rest : List ℕ)
    (hstage : s.stage = .waiting wait pids groups) :
    CallFacts fork (s.goTo (.waiting wait rest groups)) := by
  have hfacts := h.stage
  rw [hstage] at hfacts
  refine h.goTo (by rw [hstage]; exact StopStage.noConfusion) ?_
  cases wait with
  | initial => trivial
  | cooperative => exact hfacts
  | final => exact hfacts

/-- A termination goes on with the same group. -/
theorem onward (h : CallFacts fork s) {late : Bool} {target : EscalationTarget} {sub : TerminateStage}
    {todo : List EscalationTarget} (hstage : s.stage = .terminating late target sub todo)
    (later : TerminateStage) : CallFacts fork (s.goTo (.terminating late target later todo)) := by
  have hfacts := h.stage
  rw [hstage] at hfacts
  exact h.goTo (by rw [hstage]; exact StopStage.noConfusion) hfacts

/-- A signal reaches members of a group of the session. -/
theorem signal (h : CallFacts fork s) {late killing : Bool} {target : EscalationTarget}
    {todo : List EscalationTarget}
    (hstage : s.stage = .terminating late target (.signalling killing) todo) :
    CallFacts fork (s.signal late target killing todo) := by
  have hfacts := h.stage
  rw [hstage] at hfacts
  refine ⟨h.owned, fun _ => h.kept (by rw [hstage]; exact StopStage.noConfusion), h.records, ?_, h.seen, hfacts⟩
  intro process hprocess
  rcases List.mem_append.mp hprocess with hold | hmember
  · exact h.reached process hold
  · rw [(ProcessTable.mem_members.mp hmember).2]
    exact (hfacts.1 target (.head _)).1

theorem finalRead (h : CallFacts fork s) (hworld : WorldFacts fork s) {answer : Option (List ChildRecord)}
    (hanswer : s.Answers answer) (hstage : s.stage = .finalReading) :
    CallFacts fork ((s.learn fork answer).goTo (.escalating true (s.lateTargets fork answer))) := by
  have hlearned := h.learn hworld hanswer (by rw [hstage]; exact StopStage.noConfusion)
  refine ⟨hlearned.owned, fun _ => hlearned.kept StopStage.noConfusion, hlearned.records, hlearned.reached,
    hlearned.seen, fun target htarget => ?_, fun _ => complete_learn hworld hanswer⟩
  obtain ⟨record, hrecord, rfl⟩ := List.mem_map.mp htarget
  have hever := hworld.known record (mem_registry_of_answers hanswer (List.mem_of_mem_filter hrecord))
  exact ⟨.inr (.inr hever), fun _ => hever⟩

/-- What a step of the call keeps. -/
theorem call (h : CallFacts fork s) (hworld : WorldFacts fork s) (hstep : StopStep fork s .call t) :
    CallFacts fork t := by
  cases hstep with
  | read hstage hanswer =>
      have hstarted := h.start hworld hanswer hstage
      exact ⟨hstarted.owned, fun _ => hstarted.kept StopStage.noConfusion, hstarted.records,
        hstarted.reached, hstarted.seen, trivial⟩
  | pidQuiet hstage hquiet => exact h.pidQuiet _ hstage
  | groupQuiet hstage hquiet => exact h.groupQuiet hstage hquiet
  | @again wait pids groups hstage =>
      have hfacts := h.stage
      rw [hstage] at hfacts
      refine h.beginWait hworld (by rw [hstage]; exact StopStage.noConfusion) fun hwait => ?_
      subst hwait
      exact hfacts.1
  | quiescent hstage => exact h.quiesced hstage
  | overdue hstage => exact h.overdue hstage
  | request hstage => exact h.goTo (by rw [hstage]; exact StopStage.noConfusion) trivial
  | @refresh answer hstage hanswer =>
      have hlearned := h.learn hworld hanswer (by rw [hstage]; exact StopStage.noConfusion)
      have hrefreshed : CallFacts fork ((s.refresh fork answer).goTo .requesting) := by
        refine ⟨hlearned.owned, hlearned.kept, fun record hmem => ?_, hlearned.reached, hlearned.seen, trivial⟩
        rcases mem_of_mem_foldl_putRecord hmem with hold | hnew
        · exact h.records record hold
        · exact hworld.known record (mem_registry_of_answers hanswer hnew)
      exact hrefreshed.beginWait ⟨hworld.consistent, hworld.used, hworld.watchedUsed, hworld.positive,
        hworld.leaders, hworld.registered, hworld.known, hworld.basis⟩ StopStage.noConfusion
        fun hwait => StopWait.noConfusion hwait
  | @next late target todo hstage =>
      have hfacts := h.stage
      rw [hstage] at hfacts
      exact h.goTo (by rw [hstage]; exact StopStage.noConfusion) hfacts
  | groupGone hstage hdead => exact h.settle hworld hstage fun _ => hdead
  | groupFound hstage => exact h.onward hstage _
  | identify hstage => exact h.onward hstage _
  | @unidentified late killing mismatch target todo hstage =>
      refine h.settle hworld hstage fun hquiet => ?_
      cases mismatch <;> cases hquiet
  | signal hstage => exact h.signal hstage
  | signalFailed hstage => exact h.settle hworld hstage fun hquiet => Bool.noConfusion hquiet
  | groupQuiescent hstage hdead => exact h.settle hworld hstage fun _ => hdead
  | termOverdue hstage => exact h.onward hstage _
  | killOverdue hstage => exact h.settle hworld hstage fun hquiet => Bool.noConfusion hquiet
  | escalated hstage => exact h.goTo (by rw [hstage]; exact StopStage.noConfusion) trivial
  | finalRead hstage hanswer => exact h.finalRead hworld hanswer hstage
  | close hstage =>
      have hfacts := h.stage
      rw [hstage] at hfacts
      exact h.beginWait hworld (by rw [hstage]; exact StopStage.noConfusion) fun _ => hfacts.2 rfl

end CallFacts

/-! ## Runs -/

/-- The worker and the basis lead their groups, no child was registered yet, and the call has not
begun. -/
structure StopState.Initial (fork : ForkSession) (s : StopState) : Prop where
  consistent : s.table.Consistent
  used : ∀ process ∈ s.table.processes, process.pid ∈ s.used
  positive : ∀ pid ∈ s.used, 0 < pid
  recorded : fork.basis ∈ s.used ∧ fork.worker ∈ s.used
  leaders : ∀ process ∈ s.table.processes, process.pid = fork.basis ∨ process.pid = fork.worker →
    process.pgid = process.pid
  registry : s.registry = []
  ever : s.ever = []
  stage : s.stage = .reading
  owned : s.owned = []
  records : s.records = []
  escalations : s.escalations = []
  cooperative : s.cooperative = false
  reached : s.reached = []

/-- What holds in every state of a run. -/
structure StopInvariant (fork : ForkSession) (s : StopState) : Prop where
  world : WorldFacts fork s
  call : CallFacts fork s

theorem StopState.Initial.invariant (h : s.Initial fork) : StopInvariant fork s := by
  have hever : ∀ pgid, pgid ∉ s.ever := by simp [h.ever]
  have hleader : ∀ pgid, s.Watched fork pgid → pgid = fork.basis ∨ pgid = fork.worker :=
    fun pgid => Or.imp id fun hwatched => hwatched.resolve_right (hever pgid)
  have hseen : ¬ SeenGone fork s := by
    rintro (hcooperative | ⟨escalation, hmem, -⟩)
    · rw [h.cooperative] at hcooperative
      cases hcooperative
    · rw [h.escalations] at hmem
      cases hmem
  refine ⟨⟨h.consistent, h.used, ?_, h.positive, ?_, ?_, ?_, hever _⟩, ⟨?_, ?_, ?_, ?_, ?_, ?_⟩⟩
  · intro pgid hwatched
    rcases hleader pgid hwatched with rfl | rfl
    · exact h.recorded.1
    · exact h.recorded.2
  · exact fun process hprocess hwatched => .inl (h.leaders process hprocess (hleader _ hwatched))
  · exact fun pgid hmem => absurd hmem (hever pgid)
  · simp [h.registry]
  · simp [h.owned]
  · exact fun hreading => absurd h.stage hreading
  · simp [h.records]
  · simp [h.reached]
  · exact fun hgone => absurd hgone hseen
  · rw [h.stage]
    exact hseen

/-- The call changes neither the processes nor the registry. -/
theorem StopStep.world (hstep : StopStep fork s .call t) :
    t.table = s.table ∧ t.used = s.used ∧ t.registry = s.registry ∧ t.ever = s.ever := by
  cases hstep with
  | @quiescent wait hstage => cases wait <;> exact ⟨rfl, rfl, rfl, rfl⟩
  | @overdue wait pids groups hstage => cases wait <;> exact ⟨rfl, rfl, rfl, rfl⟩
  | _ => exact ⟨rfl, rfl, rfl, rfl⟩

theorem WorldFacts.call (h : WorldFacts fork s) (hstep : StopStep fork s .call t) : WorldFacts fork t := by
  obtain ⟨htable, hused, hregistry, hever⟩ := hstep.world
  have hwatched : ∀ pgid, t.Watched fork pgid ↔ s.Watched fork pgid := fun pgid => by
    unfold StopState.Watched
    rw [hever]
  refine ⟨htable ▸ h.consistent, ?_, ?_, hused ▸ h.positive, ?_, ?_, ?_, hever ▸ h.basis⟩
  · rw [htable, hused]
    exact h.used
  · rw [hused]
    exact fun pgid hmem => h.watchedUsed pgid ((hwatched pgid).mp hmem)
  · rw [htable, hever]
    exact fun process hprocess hmem => h.leaders process hprocess ((hwatched _).mp hmem)
  · rw [hever, htable, hregistry]
    exact h.registered
  · rw [hregistry, hever]
    exact h.known

/-- **The step lemma.** -/
theorem StopInvariant.step (h : StopInvariant fork s) {event : StopEvent} (hstep : StopStep fork s event t) :
    StopInvariant fork t := by
  cases event with
  | call => exact ⟨h.world.call hstep, h.call.call h.world hstep⟩
  | table event =>
      cases hstep with
      | table hstep hallows =>
          exact ⟨h.world.table hstep hallows, h.call.keeps (h.world.stable_table hstep hallows)
            ⟨rfl, rfl, rfl, rfl, rfl, rfl, rfl⟩⟩
  | register pgid =>
      cases hstep with
      | register hprocess hgroup hchild hidentity =>
          exact ⟨h.world.register hprocess hchild hgroup, h.call.keeps (stable_register hprocess hgroup)
            ⟨rfl, rfl, rfl, rfl, rfl, rfl, rfl⟩⟩
  | unregister pgid =>
      cases hstep with
      | unregister hgone =>
          exact ⟨h.world.unregister hgone, h.call.keeps ⟨fun _ => id, fun _ => rfl, fun _ _ _ => id, id⟩
            ⟨rfl, rfl, rfl, rfl, rfl, rfl, rfl⟩⟩

theorem StopInvariant.run (hinitial : s.Initial fork) {events : List StopEvent}
    (hrun : Run (StopStep fork) s events t) : StopInvariant fork t :=
  hrun.preserves (fun _ _ _ h hstep => h.step hstep) hinitial.invariant

/-- A session whose worker is 5 and whose basis is 6. -/
def sampleSession : ForkSession where
  session := ⟨true, some 5, some 5, some "linux-proc:50", some 6, some 6, none, some "linux-proc:60"⟩
  basis := 6
  worker := 5
  engine := rfl
  basisRecorded := rfl
  workerRecorded := rfl

def sampleWorker : Process := ⟨1, 5, 5, 1, "linux-proc:50"⟩

def sampleBasis : Process := ⟨2, 6, 6, 2, "linux-proc:60"⟩

/-- In front of the first statement. -/
def sampleStop : StopState where
  table := ⟨[sampleBasis, sampleWorker], 3⟩
  used := [1, 5, 6]
  registry := []
  ever := []
  stage := .reading
  owned := []
  records := []
  escalations := []
  registryError := false
  cooperative := false
  reached := []

theorem initial_sampleStop : sampleStop.Initial sampleSession := by
  have hmem : ∀ process ∈ sampleStop.table.processes, process = sampleBasis ∨ process = sampleWorker :=
    fun process hprocess => by simpa [sampleStop] using hprocess
  refine ⟨⟨?_, ?_, ?_, ?_, ?_⟩, ?_, by decide, by decide, ?_, rfl, rfl, rfl, rfl, rfl, rfl, rfl, rfl⟩
  · intro process hprocess
    rcases hmem process hprocess with rfl | rfl <;> decide
  all_goals
    intro process hprocess
    try intro other hother
    rcases hmem process hprocess with rfl | rfl
  all_goals first
    | decide
    | rcases hmem other hother with rfl | rfl <;> decide

/-- What the registry answers when it can be read. -/
theorem answers_registry (s : StopState) : s.Answers (some s.registry) :=
  fun _ h => (Option.some.inj h).symm

/-- The child that the basis starts after the first reading. -/
def sampleChild : Process := ⟨3, 7, 7, 3, "linux-proc:70"⟩

/-- The child, the basis and the worker are signalled in this order and end. -/
def sampleStopped : StopState where
  table := ⟨[], 4⟩
  used := [7, 1, 5, 6]
  registry := [⟨7, 7, some "linux-proc:70"⟩]
  ever := [7]
  stage := .ended true
  owned := [6, 5, 7]
  records := [⟨7, 7, some "linux-proc:70"⟩]
  escalations := [⟨7, .quiescent⟩, ⟨6, .quiescent⟩, ⟨5, .quiescent⟩]
  registryError := false
  cooperative := false
  reached := [sampleChild, sampleBasis, sampleWorker]

theorem run_sampleStopped : Run (StopStep sampleSession) sampleStop
    ([.call, .table (.start 7), .register 7, .table (.lead 3), .call, .call, .call, .call] ++
      [.call, .call, .call, .call, .table (.reap 3), .call] ++
      [.call, .call, .call, .call, .table (.reap 2), .call] ++
      [.call, .call, .call, .call, .table (.reap 1), .call] ++
      [.call, .call, .call, .call, .call, .call, .call, .call, .call]) sampleStopped := by
  refine .cons (.read rfl (answers_registry _)) ?_
  refine .cons (@StopStep.table _ _ (.start 7) _
    (@TableStep.start _ sampleBasis 7 "linux-proc:70" (.head _) (by unfold ProcessTable.Free; decide)) (by
      unfold StopState.Allows
      decide)) ?_
  refine .cons (@StopStep.register _ _ ⟨3, 7, 6, 2, "linux-proc:70"⟩ (some "linux-proc:70") (.head _) rfl
    (by decide) fun _ h => (Option.some.inj h).symm) ?_
  refine .cons (@StopStep.table _ _ (.lead 3) _
    (@TableStep.lead _ ⟨3, 7, 6, 2, "linux-proc:70"⟩ (.head _) (by decide)) ?_) ?_
  · intro process hprocess hserial _
    exact ⟨⟨7, 7, some "linux-proc:70"⟩, .head _, by revert process; decide⟩
  refine .cons (.overdue rfl) (.cons (.request rfl) (.cons (.refresh rfl (answers_registry _))
    (.cons (.overdue rfl) ?_)))
  refine .cons (.next rfl) (.cons (.groupFound rfl) (.cons (.identify rfl (.head _) rfl rfl)
    (.cons (.signal rfl) (.cons (.table (@TableStep.reap _ sampleChild (.head _)) trivial)
      (.cons (.groupQuiescent rfl (by unfold StopState.Dead; decide)) ?_)))))
  refine .cons (.next rfl) (.cons (.groupFound rfl) (.cons (.identify rfl (.head _) rfl rfl)
    (.cons (.signal rfl) (.cons (.table (@TableStep.reap _ sampleBasis (.head _)) trivial)
      (.cons (.groupQuiescent rfl (by unfold StopState.Dead; decide)) ?_)))))
  refine .cons (.next rfl) (.cons (.groupFound rfl) (.cons (.identify rfl (.head _) rfl rfl)
    (.cons (.signal rfl) (.cons (.table (@TableStep.reap _ sampleWorker (.head _)) trivial)
      (.cons (.groupQuiescent rfl (by unfold StopState.Dead; decide)) ?_)))))
  refine .cons (.escalated rfl) (.cons (.finalRead rfl (answers_registry _)) (.cons (.close rfl) ?_))
  refine .cons (@StopStep.pidQuiet _ _ _ _ _ 5 rfl (by decide))
    (.cons (@StopStep.pidQuiet _ _ _ _ _ 6 rfl (by decide)) ?_)
  refine .cons (@StopStep.groupQuiet _ _ _ _ _ 6 rfl (by unfold StopState.Dead; decide))
    (.cons (@StopStep.groupQuiet _ _ _ _ _ 5 rfl (by unfold StopState.Dead; decide)) ?_)
  exact .cons (@StopStep.groupQuiet _ _ _ _ _ 7 rfl (by unfold StopState.Dead; decide))
    (.cons (.quiescent rfl) (.nil _))

/-- The identity of the basis could not be read, so the basis was left alone; it ended behind the
last reading, and its last child did not. -/
def lateChildStopped : StopState where
  table := ⟨[sampleChild], 4⟩
  used := [7, 1, 5, 6]
  registry := [⟨7, 7, some "linux-proc:70"⟩]
  ever := [7]
  stage := .ended true
  owned := [6, 5]
  records := []
  escalations := [⟨6, .identityUnavailable⟩, ⟨5, .identityUnavailable⟩]
  registryError := false
  cooperative := false
  reached := []

theorem run_lateChildStopped : Run (StopStep sampleSession) sampleStop
    ([.call, .call, .call, .call, .call] ++ [.call, .call, .call, .call, .call, .call] ++
      [.call, .call, .call, .table (.start 7), .register 7, .table (.lead 3), .table (.reap 2),
        .table (.reap 1)] ++ [.call, .call, .call, .call, .call]) lateChildStopped := by
  refine .cons (.read rfl (answers_registry _)) (.cons (.overdue rfl) (.cons (.request rfl)
    (.cons (.refresh rfl (answers_registry _)) (.cons (.overdue rfl) ?_))))
  refine .cons (.next rfl) (.cons (.groupFound rfl)
    (.cons (@StopStep.unidentified _ _ _ _ false _ _ rfl) ?_))
  refine .cons (.next rfl) (.cons (.groupFound rfl)
    (.cons (@StopStep.unidentified _ _ _ _ false _ _ rfl) ?_))
  refine .cons (.escalated rfl) (.cons (.finalRead rfl (answers_registry _)) (.cons (.close rfl) ?_))
  refine .cons (@StopStep.table _ _ (.start 7) _
    (@TableStep.start _ sampleBasis 7 "linux-proc:70" (.head _) (by unfold ProcessTable.Free; decide)) (by
      unfold StopState.Allows
      decide)) ?_
  refine .cons (@StopStep.register _ _ ⟨3, 7, 6, 2, "linux-proc:70"⟩ (some "linux-proc:70") (.head _) rfl
    (by decide) fun _ h => (Option.some.inj h).symm) ?_
  refine .cons (@StopStep.table _ _ (.lead 3) _
    (@TableStep.lead _ ⟨3, 7, 6, 2, "linux-proc:70"⟩ (.head _) (by decide)) ?_) ?_
  · intro process hprocess hserial _
    exact ⟨⟨7, 7, some "linux-proc:70"⟩, .head _, by revert process; decide⟩
  refine .cons (.table (@TableStep.reap _ sampleBasis (.tail _ (.head _))) trivial)
    (.cons (.table (@TableStep.reap _ sampleWorker (.tail _ (.head _))) trivial) ?_)
  refine .cons (@StopStep.pidQuiet _ _ _ _ _ 5 rfl (by decide))
    (.cons (@StopStep.pidQuiet _ _ _ _ _ 6 rfl (by decide)) ?_)
  exact .cons (@StopStep.groupQuiet _ _ _ _ _ 6 rfl (by unfold StopState.Dead; decide))
    (.cons (@StopStep.groupQuiet _ _ _ _ _ 5 rfl (by unfold StopState.Dead; decide))
      (.cons (.quiescent rfl) (.nil _)))

/-- Where the basis was not seen gone, a verified stop may leave a registered child behind. -/
theorem verified_stop_late_child : ∃ events t, Run (StopStep sampleSession) sampleStop events t ∧
    t.stage = .ended true ∧ ∃ process ∈ t.table.processes, process.pgid ∈ t.ever :=
  ⟨_, lateChildStopped, run_lateChildStopped, rfl, sampleChild, .head _, .head _⟩

end Hearth.Processes
