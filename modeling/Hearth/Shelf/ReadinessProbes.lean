import Hearth.Library.Pointwise
import Hearth.Shelf.ReadinessRuns

/-!
# What a report of readiness is based on

The results of a run are the rows of the profiles that are not compatible, and behind them one
row for each group that was probed.  A group is left behind only if its worker has published
that both probes passed, so a report is ready only if every requested profile is compatible and
in such a group.
-/

namespace Hearth.Shelf

open Hearth.Library

/-! ## Every compatible profile is in a group -/

/-- The profile of the row is in a group of its run root and its physical profile. -/
def Grouped (groups : List ProfileGroup) (row : CompatibilityRow) : Prop :=
  ∃ group ∈ groups, group.physicalRunRoot = row.runRoot ∧ group.physicalProfile = row.physicalProfile ∧
    row.logicalProfile ∈ group.logicalProfiles

theorem grouped_addToGroup (row : CompatibilityRow) (groups : List ProfileGroup) :
    Grouped (addToGroup row groups) row := by
  induction groups with
  | nil => exact ⟨_, List.mem_cons_self, rfl, rfl, List.mem_cons_self⟩
  | cons group groups ih =>
      unfold addToGroup
      split
      · rename_i hsame
        exact ⟨_, List.mem_cons_self, hsame.1, hsame.2, by simp⟩
      · obtain ⟨found, hmem, hfound⟩ := ih
        exact ⟨found, List.mem_cons_of_mem _ hmem, hfound⟩

/-- A profile stays in its group. -/
theorem Grouped.addToGroup {groups : List ProfileGroup} {row : CompatibilityRow} (h : Grouped groups row)
    (other : CompatibilityRow) : Grouped (addToGroup other groups) row := by
  induction groups with
  | nil =>
      obtain ⟨group, hmem, -⟩ := h
      exact absurd hmem List.not_mem_nil
  | cons first groups ih =>
      obtain ⟨group, hmem, hrun, hphysical, hlogical⟩ := h
      unfold Hearth.Shelf.addToGroup
      rcases List.mem_cons.mp hmem with rfl | hmem
      · split
        · exact ⟨_, List.mem_cons_self, hrun, hphysical, by simp [hlogical]⟩
        · exact ⟨group, List.mem_cons_self, hrun, hphysical, hlogical⟩
      · split
        · exact ⟨group, List.mem_cons_of_mem _ hmem, hrun, hphysical, hlogical⟩
        · obtain ⟨found, hfound, hrest⟩ := ih ⟨group, hmem, hrun, hphysical, hlogical⟩
          exact ⟨found, List.mem_cons_of_mem _ hfound, hrest⟩

theorem grouped_foldl {row : CompatibilityRow} (rows : List CompatibilityRow) (groups : List ProfileGroup)
    (h : Grouped groups row ∨ row ∈ rows) :
    Grouped (rows.foldl (fun groups row => addToGroup row groups) groups) row := by
  induction rows generalizing groups with
  | nil =>
      simp only [List.not_mem_nil, or_false] at h
      exact h
  | cons first rows ih =>
      apply ih
      rcases h with hgrouped | hmem
      · exact .inl (hgrouped.addToGroup first)
      · rcases List.mem_cons.mp hmem with rfl | hmem
        · exact .inl (grouped_addToGroup row groups)
        · exact .inr hmem

/-- **A compatible profile is in a group of the run.** -/
theorem grouped_physicalGroups {rows : List CompatibilityRow} {row : CompatibilityRow} (hmem : row ∈ rows)
    (hcompatible : row.compatible = true) : Grouped (physicalGroups rows) row :=
  grouped_foldl _ [] (.inr (List.mem_filter.mpr ⟨hmem, hcompatible⟩))

/-! ## The rows of a run -/

/-- The row of a group whose worker has published that both probes passed. -/
def GroupPassed (group : ProfileGroup) (row : ResultRow) : Prop :=
  row.logicalProfiles = group.logicalProfiles ∧ row.physicalProfile = group.physicalProfile ∧ row.status = .ready ∧
    ∃ profileRoot cleanup finalCleanup, row.probe = some (runGroup group profileRoot true cleanup true finalCleanup)

/-- The results of a run that has the groups `rest` before it. -/
structure Accounted (c : Controller) (memory : Report) (rest : List ProfileGroup) : Prop where
  requested : memory.requestedProfiles = c.profiles
  unready : memory.ready = false
  results : ∃ groups rows, physicalGroups c.rows = groups ++ rest ∧ memory.results = skippedRows c.rows ++ rows ∧
    List.Forall₂ GroupPassed groups rows

/-- The row of a group that a run is about to leave behind. -/
def ControllerPhase.passedRow : ControllerPhase → Option (ProfileGroup × ResultRow)
  | .stopping _ run row true => some (run.group, row)
  | .stopAnswered _ run row true _ => some (run.group, row)
  | .kept _ run row => some (run.group, row)
  | _ => none

/-- What the phase of an invocation says about its groups. -/
structure ProbePhase (c : Controller) : Prop where
  next : ∀ {memory rest}, c.phase = .next memory rest → Accounted c memory rest
  underWay : ∀ {memory run}, c.phase.underWay = some (memory, run) → Accounted c memory (run.group :: run.rest)
  passed : ∀ {group row}, c.phase.passedRow = some (group, row) → GroupPassed group row

/-- What holds of the probes of every run. -/
structure ProbeFacts (s : ReadinessWorld) : Prop where
  /-- A worker that ends well has published the row of its group. -/
  published : ∀ process worker row, s.workers process = some worker → worker.phase = .ended ⟨0, some row⟩ →
    ∃ primaryPassed cleanup reusePasses finalCleanup,
      row = runGroup worker.group worker.profileRoot primaryPassed cleanup reusePasses finalCleanup
  /-- The worker of an invocation has its group. -/
  asked : ∀ c memory run worker, s.controller = some c → c.phase = .waiting memory run →
    s.workers c.process = some worker → worker.group = run.group
  phase : ∀ c, s.controller = some c → ProbePhase c

section

variable {paths : PathResolution} {shelfRoot runRoot : Parts} {s t : ReadinessWorld} {event : ReadinessEvent}

/-- A phase with no group under way and none ahead says nothing about groups. -/
theorem probePhase_idle {c : Controller} (hnext : ∀ memory rest, c.phase ≠ .next memory rest)
    (hunder : c.phase.underWay = none) (hpassed : c.phase.passedRow = none) : ProbePhase c where
  next h := absurd h (hnext _ _)
  underWay h := by cases hunder.symm.trans h
  passed h := by cases hpassed.symm.trans h

theorem probePhase_next {c : Controller} {memory : Report} {rest : List ProfileGroup} (hphase : c.phase = .next memory rest)
    (h : Accounted c memory rest) : ProbePhase c where
  next hother := by
    cases hphase.symm.trans hother
    exact h
  underWay hother := by
    rw [hphase] at hother
    cases hother
  passed hother := by
    rw [hphase] at hother
    cases hother

theorem probePhase_underWay {c : Controller} {memory : Report} {run : GroupRun}
    (hphase : c.phase.underWay = some (memory, run)) (h : Accounted c memory (run.group :: run.rest))
    (hpassed : ∀ {group row}, c.phase.passedRow = some (group, row) → GroupPassed group row) : ProbePhase c where
  next hother := by
    rw [hother] at hphase
    cases hphase
  underWay hother := by
    cases hphase.symm.trans hother
    exact h
  passed := hpassed

theorem accounted_startReport {c : Controller} : Accounted c (startReport shelfRoot runRoot c.record c.profiles c.rows)
    (physicalGroups c.rows) :=
  ⟨rfl, rfl, [], [], rfl, (List.append_nil _).symm, .nil⟩

theorem Accounted.goTo {c : Controller} {memory : Report} {rest : List ProfileGroup} (h : Accounted c memory rest)
    (phase : ControllerPhase) : Accounted (c.goTo phase) memory rest :=
  ⟨h.requested, h.unready, h.results⟩

theorem Accounted.passed {c : Controller} {memory : Report} {group : ProfileGroup} {rest : List ProfileGroup}
    {row : ResultRow} (h : Accounted c memory (group :: rest)) (hrow : GroupPassed group row) :
    Accounted c (memory.passed row) rest := by
  obtain ⟨groups, rows, hgroups, hresults, hpassed⟩ := h.results
  refine ⟨h.requested, h.unready, groups ++ [group], rows ++ [row], ?_, ?_, ?_⟩
  · rw [hgroups, List.append_assoc]
    rfl
  · rw [show (memory.passed row).results = memory.results ++ [row] from rfl, hresults, List.append_assoc]
  · exact List.rel_append hpassed (.cons hrow .nil)

/-- A group is ready only if both of its probes passed. -/
theorem passed_of_status {group : ProfileGroup} {profileRoot : Parts} {primaryPassed reusePasses : Bool}
    {cleanup finalCleanup : CleanupState}
    (h : (runGroup group profileRoot primaryPassed cleanup reusePasses finalCleanup).status = .ready) :
    primaryPassed = true ∧ reusePasses = true := by
  unfold GroupRow.status at h
  split at h
  · rename_i hpassed
    obtain ⟨hprimary, hreuse, -⟩ := hpassed
    refine ⟨hprimary, ?_⟩
    unfold runGroup at hreuse
    dsimp only at hreuse
    split at hreuse
    · exact Option.some.inj hreuse
    · cases hreuse
  · cases h

theorem groupPassed_resultRow {run : GroupRun} {outcome : WorkerOutcome} {group : ProfileGroup} {profileRoot : Parts}
    (hexit : outcome.exitStatus = 0)
    (hready : (resultRow paths run.group run.profileRoot outcome).status = .ready) (hgroup : group = run.group)
    (hpublished : ∀ row, outcome = ⟨0, some row⟩ → ∃ primaryPassed cleanup reusePasses finalCleanup,
      row = runGroup group profileRoot primaryPassed cleanup reusePasses finalCleanup) :
    GroupPassed run.group (resultRow paths run.group run.profileRoot outcome) := by
  unfold resultRow at hready ⊢
  cases hrow : outcome.row.filter (workerRowMatches paths run.group run.profileRoot) with
  | none =>
      rw [hrow] at hready
      cases hready
  | some row =>
      have hfound : outcome.row = some row := (Option.filter_eq_some_iff.mp hrow).1
      obtain ⟨primaryPassed, cleanup, reusePasses, finalCleanup, rfl⟩ := hpublished row (by rw [← hexit, ← hfound])
      simp only [hrow, hexit, ne_eq, not_true_eq_false, if_false] at hready ⊢
      subst hgroup
      refine ⟨rfl, rfl, hready, profileRoot, cleanup, finalCleanup, ?_⟩
      obtain ⟨rfl, rfl⟩ := passed_of_status hready
      rfl

theorem passedRow_afterWorker {memory : Report} {run : GroupRun} {outcome : WorkerOutcome} {group : ProfileGroup}
    {row : ResultRow} (h : (afterWorker paths memory run outcome).passedRow = some (group, row)) :
    group = run.group ∧ row = resultRow paths run.group run.profileRoot outcome ∧ outcome.exitStatus = 0 ∧
      row.status = .ready := by
  unfold afterWorker at h
  dsimp only at h
  split at h
  · cases h
  · rename_i hended
    obtain ⟨hexit, hready⟩ := not_or.mp hended
    split at h
    · cases h
      exact ⟨rfl, rfl, not_not.mp hexit, not_not.mp hready⟩
    · cases h
      exact ⟨rfl, rfl, not_not.mp hexit, not_not.mp hready⟩

/-- A worker keeps its group, and publishes the row of it. -/
theorem WorkerStep.published {alive : Bool} {worker worker' : Worker} (h : WorkerStep alive worker worker') :
    worker'.group = worker.group ∧ ∀ row, worker'.phase = .ended ⟨0, some row⟩ →
      ∃ primaryPassed cleanup reusePasses finalCleanup,
        row = runGroup worker.group worker.profileRoot primaryPassed cleanup reusePasses finalCleanup := by
  cases h with
  | look hphase hcomplete halive => exact ⟨rfl, fun row hrow => by cases hrow⟩
  | lease hphase => exact ⟨rfl, fun row hrow => by cases hrow⟩
  | release hphase => exact ⟨rfl, fun row hrow => by cases hrow⟩
  | publish primaryPassed cleanup reusePasses finalCleanup hphase =>
      refine ⟨rfl, fun row hrow => ?_⟩
      cases hrow
      exact ⟨_, _, _, _, rfl⟩
  | fail outcome hrunning houtcome =>
      refine ⟨rfl, fun row hrow => ?_⟩
      cases hrow
      rcases houtcome with hexit | hrow
      · exact absurd rfl hexit
      · cases hrow

namespace ProbeFacts

variable {c : Controller}

/-- The invocation goes on, and no worker is touched. -/
theorem goTo (h : ProbeFacts s) {phase : ControllerPhase} (hworkers : t.workers = s.workers)
    (hcontroller : t.controller = some (c.goTo phase)) (hphase : ProbePhase (c.goTo phase))
    (hwaiting : ∀ memory run, phase ≠ .waiting memory run) : ProbeFacts t where
  published process worker row hworker := h.published process worker row (hworkers ▸ hworker)
  asked other memory run worker hother hother' := by
    cases hcontroller.symm.trans hother
    exact absurd hother' (hwaiting memory run)
  phase other hother := by
    cases hcontroller.symm.trans hother
    exact hphase

/-- The invocation gives the lock back, or dies. -/
theorem unlock (h : ProbeFacts s) (hworkers : t.workers = s.workers) (hcontroller : t.controller = none) :
    ProbeFacts t where
  published process worker row hworker := h.published process worker row (hworkers ▸ hworker)
  asked other _ _ _ hother := by cases hcontroller.symm.trans hother
  phase other hother := by cases hcontroller.symm.trans hother

theorem same (h : ProbeFacts s) (hworkers : t.workers = s.workers) (hcontroller : t.controller = s.controller) :
    ProbeFacts t where
  published process worker row hworker := h.published process worker row (hworkers ▸ hworker)
  asked other memory run worker hother hphase hworker :=
    h.asked other memory run worker (hcontroller ▸ hother) hphase (hworkers ▸ hworker)
  phase other hother := h.phase other (hcontroller ▸ hother)

end ProbeFacts

/-- **What a step keeps.** -/
theorem ProbeFacts.step (h : ProbeFacts s) (hstep : ReadinessStep paths shelfRoot runRoot s event t) :
    ProbeFacts t := by
  cases hstep with
  | enter complete profiles compatibility hlock =>
      refine ⟨h.published, ?_, ?_⟩
      · intro c memory run worker hc hphase
        cases hc
        cases hphase
      · intro c hc
        cases hc
        exact probePhase_idle (fun _ _ hphase => by cases hphase) rfl rfl
  | refuse hlock hphase hdecision => exact h.unlock rfl rfl
  | recover hlock hphase hdecision hstops =>
      exact h.goTo rfl rfl (probePhase_idle (fun _ _ hphase => by cases hphase) rfl rfl)
        (fun _ _ hphase => by cases hphase)
  | reportInterrupted hlock hphase => exact h.unlock rfl rfl
  | begin hlock hphase hdecision hmemory =>
      subst hmemory
      exact h.goTo rfl rfl (probePhase_next rfl accounted_startReport) (fun _ _ hphase => by cases hphase)
  | endBefore hlock hphase hkind => exact h.unlock rfl rfl
  | @activate c memory group rest profileRoot initialLive hlock hphase hroot =>
      obtain ⟨hrequested, hunready, hresults⟩ := (h.phase c hlock).next hphase
      exact h.goTo rfl rfl (probePhase_underWay rfl ⟨hrequested, hunready, hresults⟩ (fun hpassed => by cases hpassed))
        (fun _ _ hphase => by cases hphase)
  | @spawn c memory run hlock hphase =>
      have haccounted := (h.phase c hlock).underWay (show _ = some (memory, run) by rw [hphase]; rfl)
      refine ⟨?_, ?_, ?_⟩
      · intro process worker row hworker hended
        by_cases heq : process = c.process
        · subst heq
          cases (Function.update_self c.process _ s.workers).symm.trans hworker
          cases hended
        · exact h.published process worker row ((Function.update_of_ne heq _ _).symm.trans hworker) hended
      · intro other memory' run' worker hother hwaiting hworker
        cases hother
        cases hwaiting
        cases (Function.update_self c.process _ s.workers).symm.trans hworker
        rfl
      · intro other hother
        cases hother
        exact probePhase_underWay rfl (haccounted.goTo _) (fun hpassed => by cases hpassed)
  | @spawnRaises c memory run hlock hphase =>
      have haccounted := (h.phase c hlock).underWay (show _ = some (memory, run) by rw [hphase]; rfl)
      have hunder := (underWay_afterWorker paths memory run ⟨1, none⟩).1
      refine h.goTo rfl rfl (probePhase_underWay hunder (haccounted.goTo _) fun hpassed => ?_) ?_
      · obtain ⟨-, -, hexit, -⟩ :=
          passedRow_afterWorker (show (afterWorker paths memory run ⟨1, none⟩).passedRow = some _ from hpassed)
        cases hexit
      · exact afterWorker_ne_waiting paths memory run ⟨1, none⟩
  | @reap c memory run worker outcome hlock hphase hworker hended =>
      have haccounted := (h.phase c hlock).underWay (show _ = some (memory, run) by rw [hphase]; rfl)
      have hunder := (underWay_afterWorker paths memory run outcome).1
      have hnone : ((s.setWorker c.process none).goTo c (afterWorker paths memory run outcome)).workers c.process = none :=
        Function.update_self ..
      refine ⟨?_, ?_, ?_⟩
      · intro process found row hfound hend
        by_cases heq : process = c.process
        · subst heq
          cases hnone.symm.trans hfound
        · exact h.published process found row ((Function.update_of_ne heq _ _).symm.trans hfound) hend
      · intro other memory' run' found hother hwaiting
        cases hother
        exact absurd hwaiting (afterWorker_ne_waiting paths memory run outcome memory' run')
      · intro other hother
        cases hother
        refine probePhase_underWay hunder (haccounted.goTo _) fun hpassed => ?_
        obtain ⟨rfl, rfl, hexit, hready⟩ :=
          passedRow_afterWorker (show (afterWorker paths memory run outcome).passedRow = some _ from hpassed)
        have hpublished : ∀ row, outcome = ⟨0, some row⟩ → ∃ primaryPassed cleanup reusePasses finalCleanup,
            row = runGroup worker.group worker.profileRoot primaryPassed cleanup reusePasses finalCleanup :=
          fun row hrow => h.published c.process worker row hworker (by rw [hended, hrow])
        exact groupPassed_resultRow hexit hready (h.asked c memory run worker hlock hphase hworker) hpublished
  | @stop c memory run row passed answers live hlock hphase hstops =>
      have haccounted := (h.phase c hlock).underWay (show _ = some (memory, run) by rw [hphase]; rfl)
      refine h.goTo rfl rfl (probePhase_underWay rfl (haccounted.goTo _) fun hpassed => ?_) (fun _ _ hphase => by cases hphase)
      cases passed with
      | true => exact (h.phase c hlock).passed (by rw [hphase]; exact hpassed)
      | false => cases hpassed
  | reportEnded hlock hphase hended => exact h.unlock rfl rfl
  | @reportPassed c memory run row hlock hphase =>
      have hboth : c.phase.underWay = some (memory, run) ∧ c.phase.passedRow = some (run.group, row) := by
        rcases hphase with hphase | hphase
        · rw [hphase]
          exact ⟨rfl, rfl⟩
        · rw [hphase]
          exact ⟨rfl, rfl⟩
      have haccounted := ((h.phase c hlock).underWay hboth.1).passed ((h.phase c hlock).passed hboth.2)
      exact h.goTo rfl rfl (probePhase_next rfl (haccounted.goTo _)) (fun _ _ hphase => by cases hphase)
  | finish hlock hphase => exact h.unlock rfl rfl
  | crash hlock => exact h.unlock rfl rfl
  | exit hlock => exact h.same rfl rfl
  | @work process worker worker' hworker hstep =>
      obtain ⟨hgroup, hpublished⟩ := hstep.published
      refine ⟨?_, ?_, h.phase⟩
      · intro other found row hfound hended
        by_cases heq : other = process
        · subst heq
          cases (Function.update_self other _ s.workers).symm.trans hfound
          rw [hgroup, hstep.profileRoot]
          exact hpublished row hended
        · exact h.published other found row ((Function.update_of_ne heq _ _).symm.trans hfound) hended
      · intro c memory run found hlock hphase hfound
        by_cases heq : c.process = process
        · subst heq
          cases (Function.update_self c.process _ s.workers).symm.trans hfound
          rw [hgroup]
          exact h.asked c memory run worker hlock hphase hworker
        · exact h.asked c memory run found hlock hphase ((Function.update_of_ne heq _ _).symm.trans hfound)
  | restore hworker hworking => exact h.same rfl rfl
  | lose lost => exact h.same rfl rfl

theorem probeFacts_start (h : ReadinessStart s) : ProbeFacts s where
  published process worker row hworker := by cases (h.workers process).symm.trans hworker
  asked c _ _ _ hlock := by cases h.controller.symm.trans hlock
  phase c hlock := by cases h.controller.symm.trans hlock

theorem probeFacts_run {start : ReadinessWorld} {events : List ReadinessEvent} (hstart : ReadinessStart start)
    (hrun : Run (ReadinessStep paths shelfRoot runRoot) start events s) : ProbeFacts s :=
  hrun.preserves (fun _ _ _ h hstep => h.step hstep) (probeFacts_start hstart)

/-! ## A report of readiness -/

/-- Every profile that was asked for is compatible, and both probes of its group passed. -/
def ProfilesPassed (c : Controller) (report : Report) : Prop :=
  report.requestedProfiles = c.profiles ∧
    ∀ profile ∈ c.profiles, (c.compatibility profile).compatible = true ∧
      ∃ group row, group.physicalRunRoot = (c.compatibility profile).runRoot ∧
        group.physicalProfile = (c.compatibility profile).physicalProfile ∧
        (c.compatibility profile).logicalProfile ∈ group.logicalProfiles ∧ row ∈ report.results ∧ GroupPassed group row

/-- A run that ends with every row ready has skipped no profile. -/
theorem Accounted.profilesPassed {c : Controller} {memory : Report} (h : Accounted c memory [])
    (hready : memory.finished.ready = true) : ProfilesPassed c memory.finished := by
  obtain ⟨groups, rows, hgroups, hresults, hpassed⟩ := h.results
  have hall : ∀ row ∈ memory.results, row.status = .ready := by
    have hboth : memory.results ≠ [] ∧ ∀ row ∈ memory.results, row.status = .ready := of_decide_eq_true hready
    exact hboth.2
  refine ⟨h.requested, fun profile hprofile => ?_⟩
  have hmem : c.compatibility profile ∈ c.rows := List.mem_map_of_mem hprofile
  have hcompatible : (c.compatibility profile).compatible = true := by
    by_contra hnot
    have hskipped : (⟨[(c.compatibility profile).logicalProfile], (c.compatibility profile).physicalProfile, .skipped, none,
        none⟩ : ResultRow) ∈ memory.results := by
      rw [hresults]
      refine List.mem_append_left _ (List.mem_map.mpr ⟨c.compatibility profile, List.mem_filter.mpr ⟨hmem, ?_⟩, rfl⟩)
      rw [Bool.not_eq_true] at hnot
      rw [hnot, Bool.not_false]
    cases hall _ hskipped
  refine ⟨hcompatible, ?_⟩
  obtain ⟨group, hgroup, hrun, hphysical, hlogical⟩ := grouped_physicalGroups hmem hcompatible
  rw [hgroups, List.append_nil] at hgroup
  obtain ⟨row, hrow, hrowpassed⟩ := exists_mem_of_forall₂ hpassed hgroup
  refine ⟨group, row, hrun, hphysical, hlogical, ?_, hrowpassed⟩
  rw [show memory.finished.results = memory.results from rfl, hresults]
  exact List.mem_append_right _ hrow

/-- **Readiness is reported for profiles that passed, and for no others.** -/
theorem ProbeFacts.reported_ready (h : ProbeFacts s) (hfacts : ReadinessFacts paths s) {process : ℕ} {report : Report}
    (hstep : ReadinessStep paths shelfRoot runRoot s (.reported process report) t)
    (hready : report.status = .ready ∨ report.ready = true) :
    ∃ c, s.controller = some c ∧ c.process = process ∧ ProfilesPassed c report := by
  cases hstep with
  | @reportInterrupted c prior active root stopped hlock hphase =>
      rcases hready with hstatus | hready
      · cases stopped with
        | true => cases hstatus
        | false => cases hstatus
      · cases hready
  | begin hlock hphase hdecision hmemory =>
      subst hmemory
      rcases hready with hstatus | hready
      · cases hstatus
      · cases hready
  | @endBefore c memory group rest failureKind hlock hphase hkind =>
      have hunready := ((h.phase c hlock).next hphase).unready
      rcases hready with hstatus | hready
      · cases hstatus
      · cases hunready.symm.trans hready
  | @reportEnded c memory run row passed stopped hlock hphase hended =>
      have hunready := ((h.phase c hlock).underWay (show _ = some (memory, run) by rw [hphase]; rfl)).unready
      rcases hready with hstatus | hready
      · cases stopped with
        | true => cases hstatus
        | false => cases hstatus
      · cases hunready.symm.trans hready
  | @reportPassed c memory run row hlock hphase =>
      have hunder : c.phase.underWay = some (memory, run) := by
        rcases hphase with hphase | hphase
        · rw [hphase]
          rfl
        · rw [hphase]
          rfl
      have hunready := ((h.phase c hlock).underWay hunder).unready
      obtain ⟨-, -, hrunning, -⟩ := (hfacts.controller c hlock).2.underWay hunder
      rcases hready with hstatus | hready
      · cases hrunning.symm.trans hstatus
      · cases hunready.symm.trans hready
  | @finish c memory hlock hphase =>
      refine ⟨c, hlock, rfl, ((h.phase c hlock).next hphase).profilesPassed ?_⟩
      rcases hready with hstatus | hready
      · by_contra hnot
        have hfailed : memory.finished.status = .failed := if_neg fun hboth => hnot (decide_eq_true hboth)
        cases hfailed.symm.trans hstatus
      · exact hready

end

end Hearth.Shelf
