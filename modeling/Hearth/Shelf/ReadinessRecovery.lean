import Hearth.Shelf.ReadinessProbes

/-!
# Recovery of an interrupted readiness run

A controller dies while the report has a profile as active.  No later invocation starts a group
before that profile is reported as stopped, and the report is right unless a worker of the dead
controller was past its look by then.
-/

namespace Hearth.Shelf

open Hearth.Library
open Hearth.Library.Parts

section

variable {paths : PathResolution} {shelfRoot runRoot : Parts} {s t : ReadinessWorld} {event : ReadinessEvent}

/-! ## No group is started over a profile that is recorded -/

/-- The profile is recorded, and nobody has got past the look at the report. -/
structure Unsettled (s : ReadinessWorld) (profileRoot : Parts) : Prop where
  recording : ∃ process, Recording s.report process profileRoot
  gated : ∀ c, s.controller = some c → c.phase = .entered ∨
    ∃ prior active root stopped, c.phase = .recovered prior active root stopped

/-- A step starts a group. -/
def ReadinessEvent.startsGroup : ReadinessEvent → Prop
  | .activated _ _ => True
  | .spawned _ _ => True
  | _ => False

theorem Unsettled.phase {profileRoot : Parts} (h : Unsettled s profileRoot) {c : Controller} (hlock : s.controller = some c)
    {phase : ControllerPhase} (hphase : c.phase = phase) (hentered : phase ≠ .entered)
    (hrecovered : ∀ prior active root stopped, phase ≠ .recovered prior active root stopped) : False := by
  rcases h.gated c hlock with hother | ⟨prior, active, root, stopped, hother⟩
  · exact hentered (hphase.symm.trans hother)
  · exact hrecovered prior active root stopped (hphase.symm.trans hother)

/-- A recorded profile stays recorded until a report says that it is stopped. -/
theorem Unsettled.step (hfacts : ReadinessFacts paths s) {profileRoot : Parts} (h : Unsettled s profileRoot)
    (hstep : ReadinessStep paths shelfRoot runRoot s event t) :
    (∃ process, SettledBy s t process profileRoot) ∨ Unsettled t profileRoot := by
  obtain ⟨process, hrecording⟩ := h.recording
  cases hstep with
  | enter complete profiles compatibility hlock =>
      refine .inr ⟨⟨process, hrecording⟩, fun c hc => ?_⟩
      cases hc
      exact .inl rfl
  | refuse hlock hphase hdecision => exact .inr ⟨⟨process, hrecording⟩, fun c hc => by cases hc⟩
  | recover hlock hphase hdecision hstops =>
      refine .inr ⟨⟨process, hrecording⟩, fun c hc => ?_⟩
      cases hc
      exact .inr ⟨_, _, _, _, rfl⟩
  | @reportInterrupted c prior active root stopped hlock hphase =>
      obtain ⟨hreport, hactive, hrecorded, -⟩ := (hfacts.controller c hlock).2.recovered hphase
      obtain ⟨rfl, rfl⟩ := hrecording.unique hrecorded
      cases stopped with
      | true => exact .inl ⟨_, hrecording, _, rfl, rfl, .inl rfl⟩
      | false =>
          obtain ⟨r, active', hr, hactive', -, hroot, hprocess⟩ := hrecorded
          cases hreport.symm.trans hr
          cases hactive.symm.trans hactive'
          exact .inr ⟨⟨_, _, _, rfl, rfl, .inr rfl, hroot, rfl⟩, fun c hc => by cases hc⟩
  | begin hlock hphase hdecision hmemory => exact absurd hrecording (not_recording_of_proceed hdecision)
  | endBefore hlock hphase hkind => exact (h.phase hlock hphase (by simp) (by simp)).elim
  | activate initialLive hlock hphase hroot => exact (h.phase hlock hphase (by simp) (by simp)).elim
  | spawn hlock hphase => exact (h.phase hlock hphase (by simp) (by simp)).elim
  | spawnRaises hlock hphase => exact (h.phase hlock hphase (by simp) (by simp)).elim
  | reap hlock hphase hworker hended => exact (h.phase hlock hphase (by simp) (by simp)).elim
  | stop hlock hphase hstops => exact (h.phase hlock hphase (by simp) (by simp)).elim
  | reportEnded hlock hphase hended => exact (h.phase hlock hphase (by simp) (by simp)).elim
  | reportPassed hlock hphase =>
      rcases hphase with hphase | hphase
      · exact (h.phase hlock hphase (by simp) (by simp)).elim
      · exact (h.phase hlock hphase (by simp) (by simp)).elim
  | finish hlock hphase => exact (h.phase hlock hphase (by simp) (by simp)).elim
  | crash hlock => exact .inr ⟨⟨process, hrecording⟩, fun c hc => by cases hc⟩
  | exit hlock => exact .inr ⟨⟨process, hrecording⟩, h.gated⟩
  | work hworker hstep => exact .inr ⟨⟨process, hrecording⟩, h.gated⟩
  | restore hworker hworking => exact .inr ⟨⟨process, hrecording⟩, h.gated⟩
  | lose other => exact .inr ⟨⟨process, hrecording⟩, h.gated⟩

theorem Unsettled.not_startsGroup {profileRoot : Parts} (h : Unsettled s profileRoot)
    (hstep : ReadinessStep paths shelfRoot runRoot s event t) : ¬ event.startsGroup := by
  intro hstarts
  cases hstep with
  | activate initialLive hlock hphase hroot => exact h.phase hlock hphase (by simp) (by simp)
  | spawn hlock hphase => exact h.phase hlock hphase (by simp) (by simp)
  | _ => exact hstarts

/-! ## A profile that is reported as stopped -/

/-- No profile of an interrupted run is stopped while a worker that was admitted works on it. -/
structure CarefulStep (paths : PathResolution) (shelfRoot runRoot : Parts) (s : ReadinessWorld) (event : ReadinessEvent)
    (t : ReadinessWorld) : Prop where
  step : ReadinessStep paths shelfRoot runRoot s event t
  careful : ∀ process profileRoot, event = .stopTried process profileRoot true true →
    ∀ other worker, s.workers other = some worker → worker.profileRoot = profileRoot → ¬ worker.working

/-- An interrupted run may still have a worker: nobody has the lock, or the profile was not stopped yet. -/
def ReadinessWorld.Open (s : ReadinessWorld) : Prop :=
  ∀ c, s.controller = some c → c.phase = .entered ∨
    ∃ prior active profileRoot, c.phase = .recovered prior active profileRoot false

/-- What holds of every careful run. -/
structure CarefulFacts (s : ReadinessWorld) : Prop where
  working : ∀ process worker, s.workers process = some worker → worker.working →
    (∃ c memory run, s.controller = some c ∧ c.process = process ∧ c.phase = .waiting memory run) ∨
      s.Open ∧ ∃ owner, Recording s.report owner worker.profileRoot
  recovered : ∀ c prior active profileRoot, s.controller = some c → c.phase = .recovered prior active profileRoot true →
    s.live profileRoot = false
  answered : ∀ c memory run row passed, s.controller = some c → c.phase = .stopAnswered memory run row passed true →
    s.live run.profileRoot = false

/-- Where an invocation is past the recovery and does not wait, no worker works. -/
theorem CarefulFacts.quiet (h : CarefulFacts s) {c : Controller} (hlock : s.controller = some c)
    {phase : ControllerPhase} (hphase : c.phase = phase)
    (hwaiting : ∀ memory run, phase ≠ .waiting memory run) (hentered : phase ≠ .entered)
    (hrecovered : ∀ prior active root, phase ≠ .recovered prior active root false) :
    ∀ process worker, s.workers process = some worker → ¬ worker.working := by
  intro process worker hworker hworking
  rcases h.working process worker hworker hworking with ⟨other, memory, run, hother, -, hwait⟩ | ⟨hopen, -⟩
  · cases hlock.symm.trans hother
    exact hwaiting memory run (hphase.symm.trans hwait)
  · rcases hopen c hlock with hother | ⟨prior, active, root, hother⟩
    · exact hentered (hphase.symm.trans hother)
    · exact hrecovered prior active root (hphase.symm.trans hother)

/-- A worker is admitted only while its controller lives. -/
theorem WorkerStep.working {alive : Bool} {worker worker' : Worker} (h : WorkerStep alive worker worker')
    (hworking : worker'.working) : worker.working ∨ alive = true := by
  cases h with
  | look hphase hcomplete halive => exact .inr halive
  | lease hphase => exact .inl (.inl hphase)
  | release hphase => exact .inl (.inr hphase)
  | publish primaryPassed cleanup reusePasses finalCleanup hphase => exact .inl (.inl hphase)
  | fail outcome hrunning houtcome => rcases hworking with h | h <;> cases h

/-- Where nobody waits for a worker and none works, everything holds that is said about workers. -/
theorem carefulFacts_of_quiet (hquiet : ∀ process worker, s.workers process = some worker → ¬ worker.working)
    (hrecovered : ∀ c prior active profileRoot, s.controller = some c →
      c.phase = .recovered prior active profileRoot true → s.live profileRoot = false)
    (hanswered : ∀ c memory run row passed, s.controller = some c →
      c.phase = .stopAnswered memory run row passed true → s.live run.profileRoot = false) : CarefulFacts s where
  working process worker hworker hworking := absurd hworking (hquiet process worker hworker)
  recovered := hrecovered
  answered := hanswered

namespace CarefulFacts

variable {c : Controller}

/-- A step of an invocation between its groups, or behind the worker of its group. -/
theorem goTo (hquiet : ∀ process worker, t.workers process = some worker → ¬ worker.working)
    (hlock : ∀ other, t.controller = some other → other = c)
    (hrecovered : ∀ prior active root, c.phase ≠ .recovered prior active root true)
    (hanswered : ∀ memory run row passed, c.phase ≠ .stopAnswered memory run row passed true) : CarefulFacts t := by
  apply carefulFacts_of_quiet hquiet
  · intro other prior active profileRoot hother hphase
    rw [hlock other hother] at hphase
    exact absurd hphase (hrecovered prior active profileRoot)
  · intro other memory run row passed hother hphase
    rw [hlock other hother] at hphase
    exact absurd hphase (hanswered memory run row passed)

/-- Whoever has the lock gives it back, or dies. -/
theorem unlock (h : CarefulFacts s) (hfacts : ReadinessFacts paths s) (hcontroller : t.controller = none)
    (hworkers : t.workers = s.workers)
    (hrecording : ∀ process profileRoot, Recording s.report process profileRoot →
      (∃ owner, Recording t.report owner profileRoot) ∨
        ∀ process worker, s.workers process = some worker → ¬ worker.working) :
    CarefulFacts t where
  working process worker hworker hworking := by
    rw [hworkers] at hworker
    have hopen : t.Open := fun other hother => by cases hcontroller.symm.trans hother
    have hrecorded : ∃ owner, Recording s.report owner worker.profileRoot := by
      rcases h.working process worker hworker hworking with ⟨other, memory, run, hother, rfl, hwaiting⟩ | ⟨-, howner⟩
      · have hphase := (hfacts.controller other hother).2
        obtain ⟨memory', run', hsame, hroot⟩ := hphase.worker worker hworker
        obtain ⟨-, hrecording, -⟩ := hphase.underWay (by rw [hsame]; rfl)
        exact ⟨other.process, hroot ▸ hrecording⟩
      · exact howner
    obtain ⟨owner, hrecorded⟩ := hrecorded
    rcases hrecording owner _ hrecorded with hstill | hquiet
    · exact .inr ⟨hopen, hstill⟩
    · exact absurd hworking (hquiet process worker hworker)
  recovered other _ _ _ hother := by cases hcontroller.symm.trans hother
  answered other _ _ _ _ hother := by cases hcontroller.symm.trans hother

theorem step (h : CarefulFacts s) (hfacts : ReadinessFacts paths s)
    (hstep : CarefulStep paths shelfRoot runRoot s event t) : CarefulFacts t := by
  obtain ⟨hstep, hcareful⟩ := hstep
  cases hstep with
  | enter complete profiles compatibility hlock =>
      constructor
      · intro process worker hworker hworking
        rcases h.working process worker hworker hworking with ⟨other, -, -, hother, -⟩ | ⟨-, howner⟩
        · cases hlock.symm.trans hother
        · refine .inr ⟨fun c hc => ?_, howner⟩
          cases hc
          exact .inl rfl
      · intro c _ _ _ hc hphase
        cases hc
        cases hphase
      · intro c _ _ _ _ hc hphase
        cases hc
        cases hphase
  | refuse hlock hphase hdecision => exact h.unlock hfacts rfl rfl fun _ _ hrecording => .inl ⟨_, hrecording⟩
  | @recover c prior active profileRoot answers live hlock hphase hdecision hstops =>
      obtain ⟨hreport, hactive, hstatus, hresolve⟩ := recorded_of_recover hdecision
      have hworking : ∀ process worker, s.workers process = some worker → worker.working →
          worker.profileRoot = profileRoot ∧ ∃ owner, Recording s.report owner worker.profileRoot := by
        intro process worker hworker hworking
        rcases h.working process worker hworker hworking with ⟨other, _, _, hother, -, hwaiting⟩ | ⟨-, owner, hrecording⟩
        · cases hlock.symm.trans hother
          cases hphase.symm.trans hwaiting
        · refine ⟨?_, owner, hrecording⟩
          obtain ⟨r, active', hr, hactive', -, hroot, -⟩ := hrecording
          cases hreport.symm.trans hr
          cases hactive.symm.trans hactive'
          obtain ⟨-, -, root, hroot', hsettled⟩ := hfacts.recorded prior active hreport hactive
          rw [hroot', hsettled] at hresolve
          cases hresolve
          exact congrArg RawPath.parts (hroot.symm.trans hroot')
      constructor
      · intro process worker hworker hworks
        obtain ⟨hroot, howner⟩ := hworking process worker hworker hworks
        cases hanswer : recoverProfile answers with
        | true =>
            rw [hanswer] at hcareful
            exact absurd hworks (hcareful c.process profileRoot rfl process worker hworker hroot)
        | false =>
            refine .inr ⟨fun other hother => ?_, howner⟩
            cases hother
            exact .inr ⟨_, _, _, rfl⟩
      · intro other prior' active' profileRoot' hother hsame
        cases hother
        injection hsame with _ _ hroot hanswer
        subst hroot
        show Function.update s.live profileRoot live profileRoot = false
        rw [Function.update_self]
        exact hstops.stopped hanswer
      · intro other _ _ _ _ hother hsame
        cases hother
        cases hsame
  | @reportInterrupted c prior active profileRoot stopped hlock hphase =>
      obtain ⟨hreport, hactive, hrecorded, -⟩ := (hfacts.controller c hlock).2.recovered hphase
      refine h.unlock hfacts rfl rfl fun process root hrecording => ?_
      cases stopped with
      | true => exact .inr (h.quiet hlock hphase (by simp) (by simp) (by simp))
      | false =>
          obtain ⟨-, rfl⟩ := hrecording.unique hrecorded
          obtain ⟨r, active', hr, hactive', -, hroot, -⟩ := hrecorded
          cases hreport.symm.trans hr
          cases hactive.symm.trans hactive'
          exact .inl ⟨_, _, _, rfl, rfl, .inr rfl, hroot, rfl⟩
  | @begin c memory hlock hphase hdecision hmemory =>
      refine goTo (c := c.goTo (.next memory (physicalGroups c.rows))) ?_
        (fun other hother => (Option.some.inj hother).symm) (by simp [Controller.goTo]) (by simp [Controller.goTo])
      intro process worker hworker hworking
      rcases h.working process worker hworker hworking with ⟨other, _, _, hother, -, hwaiting⟩ | ⟨-, owner, hrecording⟩
      · cases hlock.symm.trans hother
        cases hphase.symm.trans hwaiting
      · exact not_recording_of_proceed hdecision hrecording
  | @endBefore c memory group rest failureKind hlock hphase hkind =>
      exact h.unlock hfacts rfl rfl fun _ _ _ => .inr (h.quiet hlock hphase (by simp) (by simp) (by simp))
  | @activate c memory group rest profileRoot initialLive hlock hphase hroot =>
      exact goTo (c := c.goTo _) (h.quiet hlock hphase (by simp) (by simp) (by simp))
        (fun other hother => (Option.some.inj hother).symm) (by simp [Controller.goTo]) (by simp [Controller.goTo])
  | @spawn c memory run hlock hphase =>
      refine goTo (c := c.goTo (.waiting memory run)) ?_
        (fun other hother => (Option.some.inj hother).symm) (by simp [Controller.goTo]) (by simp [Controller.goTo])
      intro process worker hworker
      by_cases heq : process = c.process
      · have hself : worker = ⟨c.record, run.group, run.profileRoot, .starting⟩ := by
          subst heq
          exact (Option.some.inj ((Function.update_self c.process _ s.workers).symm.trans hworker)).symm
        rw [hself]
        rintro (hworking | hworking) <;> cases hworking
      · exact h.quiet hlock hphase (by simp) (by simp) (by simp) process worker
          ((Function.update_of_ne heq _ _).symm.trans hworker)
  | @spawnRaises c memory run hlock hphase =>
      obtain ⟨hunder, hanswered⟩ := underWay_afterWorker paths memory run ⟨1, none⟩
      refine goTo (c := c.goTo (afterWorker paths memory run ⟨1, none⟩))
        (h.quiet hlock hphase (by simp) (by simp) (by simp)) (fun other hother => (Option.some.inj hother).symm) ?_ hanswered
      intro prior active root hrecovered
      rw [show afterWorker paths memory run ⟨1, none⟩ = _ from hrecovered] at hunder
      cases hunder
  | @reap c memory run worker outcome hlock hphase hworker hended =>
      obtain ⟨hunder, hanswered⟩ := underWay_afterWorker paths memory run outcome
      refine goTo (c := c.goTo (afterWorker paths memory run outcome)) ?_
        (fun other hother => (Option.some.inj hother).symm) ?_ hanswered
      · intro process found hfound hworking
        have hnone : ((s.setWorker c.process none).goTo c (afterWorker paths memory run outcome)).workers c.process =
            none := Function.update_self ..
        have hne : process ≠ c.process := by
          rintro rfl
          cases hnone.symm.trans hfound
        have hbefore : s.workers process = some found := (Function.update_of_ne hne _ _).symm.trans hfound
        rcases h.working process found hbefore hworking with ⟨other, _, _, hother, heq, -⟩ | ⟨hopen, -⟩
        · cases hlock.symm.trans hother
          exact hne heq.symm
        · rcases hopen c hlock with hentered | ⟨_, _, _, hrecovered⟩
          · cases hphase.symm.trans hentered
          · cases hphase.symm.trans hrecovered
      · intro prior active root hrecovered
        rw [show afterWorker paths memory run outcome = _ from hrecovered] at hunder
        cases hunder
  | @stop c memory run row passed answers live hlock hphase hstops =>
      refine carefulFacts_of_quiet (h.quiet hlock hphase (by simp) (by simp) (by simp)) ?_ ?_
      · intro other _ _ _ hother hsame
        cases hother
        cases hsame
      · intro other memory' run' row' passed' hother hsame
        cases hother
        injection hsame with _ hrun _ _ hanswer
        subst hrun
        show Function.update s.live run.profileRoot live run.profileRoot = false
        rw [Function.update_self]
        exact hstops.stopped hanswer
  | @reportEnded c memory run row passed stopped hlock hphase hended =>
      exact h.unlock hfacts rfl rfl fun _ _ _ => .inr (h.quiet hlock hphase (by simp) (by simp) (by simp))
  | @reportPassed c memory run row hlock hphase =>
      have hquiet : ∀ process worker, s.workers process = some worker → ¬ worker.working := by
        rcases hphase with hphase | hphase
        · exact h.quiet hlock hphase (by simp) (by simp) (by simp)
        · exact h.quiet hlock hphase (by simp) (by simp) (by simp)
      exact goTo (c := c.goTo (.next (memory.passed row) run.rest)) hquiet
       
        (fun other hother => (Option.some.inj hother).symm) (by simp [Controller.goTo]) (by simp [Controller.goTo])
  | @finish c memory hlock hphase =>
      exact h.unlock hfacts rfl rfl fun _ _ _ => .inr (h.quiet hlock hphase (by simp) (by simp) (by simp))
  | @crash c hlock => exact h.unlock hfacts rfl rfl fun _ _ hrecording => .inl ⟨_, hrecording⟩
  | exit hlock => exact ⟨h.working, h.recovered, h.answered⟩
  | @work process worker worker' hworker hstep =>
      refine ⟨?_, h.recovered, h.answered⟩
      intro other found hfound hworking
      by_cases heq : other = process
      · subst heq
        obtain rfl : found = worker' :=
          (Option.some.inj ((Function.update_self other _ s.workers).symm.trans hfound)).symm
        rcases hstep.working hworking with hbefore | halive
        · rw [hstep.profileRoot]
          exact h.working other worker hworker hbefore
        · rcases hfacts.worker other worker hworker with ⟨c, hlock, rfl⟩ | hdead
          · obtain ⟨memory, run, hwaiting, -⟩ := (hfacts.controller c hlock).2.worker worker hworker
            exact .inl ⟨c, memory, run, hlock, rfl, hwaiting⟩
          · cases halive.symm.trans hdead
      · exact h.working other found ((Function.update_of_ne heq _ _).symm.trans hfound) hworking
  | @restore process worker hworker hworking =>
      refine ⟨h.working, ?_, ?_⟩
      · intro c prior active profileRoot hlock hphase
        exact absurd hworking (h.quiet hlock hphase (by simp) (by simp) (by simp) process worker hworker)
      · intro c memory run row passed hlock hphase
        exact absurd hworking (h.quiet hlock hphase (by simp) (by simp) (by simp) process worker hworker)
  | lose lost =>
      have hlive : ∀ profileRoot, s.live profileRoot = false → (s.setLive lost false).live profileRoot = false := by
        intro profileRoot hdead
        show Function.update s.live lost false profileRoot = false
        by_cases heq : profileRoot = lost
        · rw [heq, Function.update_self]
        · rw [Function.update_of_ne heq, hdead]
      refine ⟨h.working, ?_, ?_⟩
      · exact fun c prior active profileRoot hlock hphase => hlive _ (h.recovered c prior active profileRoot hlock hphase)
      · exact fun c memory run row passed hlock hphase => hlive _ (h.answered c memory run row passed hlock hphase)

end CarefulFacts

theorem carefulFacts_start (h : ReadinessStart s) : CarefulFacts s where
  working process worker hworker := by cases (h.workers process).symm.trans hworker
  recovered c _ _ _ hlock := by cases h.controller.symm.trans hlock
  answered c _ _ _ _ hlock := by cases h.controller.symm.trans hlock

theorem carefulFacts_run {start : ReadinessWorld} {events : List ReadinessEvent} (hstart : ReadinessStart start)
    (hrun : Run (CarefulStep paths shelfRoot runRoot) start events s) : ReadinessFacts paths s ∧ CarefulFacts s := by
  have hboth : ∀ s event t, ReadinessFacts paths s ∧ CarefulFacts s → CarefulStep paths shelfRoot runRoot s event t →
      ReadinessFacts paths t ∧ CarefulFacts t :=
    fun _ _ _ h hstep => ⟨h.1.step hstep.step, h.2.step h.1 hstep⟩
  exact hrun.preserves hboth ⟨readinessFacts_start hstart, carefulFacts_start hstart⟩

/-! ## Nothing restores it again -/

/-- The invocation is over, and so are its workers but for what cannot be admitted any more. -/
structure Over (s : ReadinessWorld) (process : ℕ) : Prop where
  born : process < s.fresh
  unlocked : ∀ c, s.controller = some c → c.process ≠ process
  workers : ∀ worker, s.workers process = some worker → ¬ worker.working ∧ s.alive process = false

theorem Over.step {process : ℕ} (h : Over s process) (hstep : ReadinessStep paths shelfRoot runRoot s event t) :
    Over t process := by
  have hsame : ∀ {c : Controller}, s.controller = some c → ∀ phase other,
      (some (c.goTo phase) = some other) → other.process ≠ process := by
    intro c hlock phase other hother
    cases hother
    exact h.unlocked c hlock
  have hkilled : ∀ killed worker, s.workers process = some worker →
      ¬ worker.working ∧ Function.update s.alive killed false process = false := by
    intro killed worker hworker
    obtain ⟨hidle, hdead⟩ := h.workers worker hworker
    refine ⟨hidle, ?_⟩
    by_cases heq : process = killed
    · rw [heq, Function.update_self]
    · rw [Function.update_of_ne heq, hdead]
  have hother : ∀ {c : Controller} {started : Option Worker}, s.controller = some c → ∀ worker,
      Function.update s.workers c.process started process = some worker → ¬ worker.working ∧ s.alive process = false := by
    intro c started hlock worker hworker
    rw [Function.update_of_ne (h.unlocked c hlock).symm] at hworker
    exact h.workers worker hworker
  cases hstep with
  | enter complete profiles compatibility hlock =>
      have hne : process ≠ s.fresh := Nat.ne_of_lt h.born
      refine ⟨Nat.lt_succ_of_lt h.born, ?_, ?_⟩
      · intro c hc
        cases hc
        exact hne.symm
      · intro worker hworker
        obtain ⟨hidle, hdead⟩ := h.workers worker hworker
        exact ⟨hidle, (Function.update_of_ne hne _ _).trans hdead⟩
  | refuse hlock hphase hdecision => exact ⟨h.born, (fun c hc => by cases hc), h.workers⟩
  | recover hlock hphase hdecision hstops => exact ⟨h.born, hsame hlock _, h.workers⟩
  | reportInterrupted hlock hphase => exact ⟨h.born, (fun c hc => by cases hc), h.workers⟩
  | begin hlock hphase hdecision hmemory => exact ⟨h.born, hsame hlock _, h.workers⟩
  | endBefore hlock hphase hkind => exact ⟨h.born, (fun c hc => by cases hc), h.workers⟩
  | activate initialLive hlock hphase hroot => exact ⟨h.born, hsame hlock _, h.workers⟩
  | spawn hlock hphase => exact ⟨h.born, hsame hlock _, hother hlock⟩
  | spawnRaises hlock hphase => exact ⟨h.born, hsame hlock _, h.workers⟩
  | reap hlock hphase hworker hended => exact ⟨h.born, hsame hlock _, hother hlock⟩
  | stop hlock hphase hstops => exact ⟨h.born, hsame hlock _, h.workers⟩
  | reportEnded hlock hphase hended => exact ⟨h.born, (fun c hc => by cases hc), h.workers⟩
  | reportPassed hlock hphase => exact ⟨h.born, hsame hlock _, h.workers⟩
  | finish hlock hphase => exact ⟨h.born, (fun c hc => by cases hc), h.workers⟩
  | crash hlock => exact ⟨h.born, (fun c hc => by cases hc), hkilled _⟩
  | exit hlock => exact ⟨h.born, h.unlocked, hkilled _⟩
  | @work owner worker worker' hworker hstep =>
      refine ⟨h.born, h.unlocked, ?_⟩
      intro found hfound
      by_cases heq : process = owner
      · subst heq
        obtain ⟨hidle, hdead⟩ := h.workers worker hworker
        obtain rfl : found = worker' :=
          (Option.some.inj ((Function.update_self process _ s.workers).symm.trans hfound)).symm
        refine ⟨fun hworking => ?_, hdead⟩
        rcases hstep.working hworking with hbefore | halive
        · exact hidle hbefore
        · cases halive.symm.trans hdead
      · exact h.workers found ((Function.update_of_ne heq _ _).symm.trans hfound)
  | restore hworker hworking => exact ⟨h.born, h.unlocked, h.workers⟩
  | lose lost => exact ⟨h.born, h.unlocked, h.workers⟩

theorem Over.not_restored {process : ℕ} (h : Over s process) {events : List ReadinessEvent}
    (hrun : Run (ReadinessStep paths shelfRoot runRoot) s events t) (profileRoot : Parts) :
    .restored process profileRoot ∉ events := by
  induction hrun with
  | nil => exact List.not_mem_nil
  | cons hstep hrest ih =>
      intro hmem
      rcases List.mem_cons.mp hmem with heq | hmem
      · subst heq
        cases hstep with
        | restore hworker hworking => exact (h.workers _ hworker).1 hworking
      · exact ih (h.step hstep) hmem

theorem SettledBy.report_ne {owner : ℕ} {profileRoot : Parts} (h : SettledBy s t owner profileRoot) :
    t.report ≠ s.report := by
  obtain ⟨hrecording, r, hreport, hactive, -⟩ := h
  intro hsame
  rw [← hsame, hreport] at hrecording
  exact not_recording_of_inactive hactive hrecording

/-- **A report that a profile is stopped is right**, where every step of the run is careful. -/
theorem SettledBy.stopped {owner : ℕ} {profileRoot : Parts} (h : SettledBy s t owner profileRoot)
    (hfacts : ReadinessFacts paths s) (hcareful : CarefulFacts s)
    (hstep : CarefulStep paths shelfRoot runRoot s event t) : t.live profileRoot = false ∧ Over t owner := by
  have hchanged := h.report_ne
  obtain ⟨hrecording, r, hreport, hactive, hstatus⟩ := h
  cases hstep.step with
  | @reportInterrupted c prior active root stopped hlock hphase =>
      obtain ⟨hprior, hprioractive, hrecorded, hne⟩ := (hfacts.controller c hlock).2.recovered hphase
      obtain ⟨rfl, rfl⟩ := hrecording.unique hrecorded
      obtain ⟨-, hborn, -⟩ := hfacts.recorded prior active hprior hprioractive
      have hstopped : stopped = true := by
        cases hreport
        by_contra hnot
        simp [Report.interrupted, hnot] at hactive
      subst hstopped
      refine ⟨hcareful.recovered c prior active profileRoot hlock hphase, hborn, (fun other hother => by cases hother), ?_⟩
      intro worker hworker
      refine ⟨hcareful.quiet hlock hphase (by simp) (by simp) (by simp) _ worker hworker, ?_⟩
      exact (hfacts.workers_of_lock hlock hworker).resolve_left hne
  | @reportEnded c memory run row passed stopped hlock hphase hended =>
      obtain ⟨hborn, hcontroller⟩ := hfacts.controller c hlock
      obtain ⟨hmemory, hrecorded, -, -⟩ := hcontroller.underWay (by rw [hphase]; rfl)
      obtain ⟨rfl, rfl⟩ := hrecording.unique hrecorded
      have hstopped : stopped = true := by
        cases hreport
        by_contra hnot
        simp [Report.endedAt, hnot] at hstatus
      subst hstopped
      refine ⟨hcareful.answered c memory run row passed hlock hphase, hborn, (fun other hother => by cases hother), ?_⟩
      intro worker hworker
      have hidle := hcontroller.idle fun _ _ hwaiting => by cases hphase.symm.trans hwaiting
      cases hidle.symm.trans hworker
  | begin hlock hphase hdecision hmemory => exact absurd hrecording (not_recording_of_proceed hdecision)
  | @endBefore c memory group rest failureKind hlock hphase hkind =>
      obtain ⟨hmemory, hinactive, -, -⟩ := (hfacts.controller c hlock).2.next hphase
      rw [hmemory] at hrecording
      exact absurd hrecording (not_recording_of_inactive hinactive)
  | @activate c memory group rest root initialLive hlock hphase hroot =>
      cases hreport
      cases hactive
  | @reportPassed c memory run row hlock hphase =>
      have hunder : c.phase.underWay = some (memory, run) := by
        rcases hphase with hphase | hphase
        · rw [hphase]
          rfl
        · rw [hphase]
          rfl
      obtain ⟨-, -, hrunning, -⟩ := (hfacts.controller c hlock).2.underWay hunder
      cases hreport
      rw [show (memory.passed row).status = memory.status from rfl, hrunning] at hstatus
      simp at hstatus
  | @finish c memory hlock hphase =>
      obtain ⟨hmemory, hinactive, -, -⟩ := (hfacts.controller c hlock).2.next hphase
      rw [hmemory] at hrecording
      exact absurd hrecording (not_recording_of_inactive hinactive)
  | _ => exact absurd rfl hchanged

/-! ## Interrupted runs -/

/-- A step that does not report the profile as stopped. -/
structure WaitingStep (paths : PathResolution) (shelfRoot runRoot profileRoot : Parts) (s : ReadinessWorld)
    (event : ReadinessEvent) (t : ReadinessWorld) : Prop where
  step : ReadinessStep paths shelfRoot runRoot s event t
  unsettled : ∀ owner, ¬ SettledBy s t owner profileRoot

/-- While a profile is recorded and not reported as stopped, no group is started. -/
theorem Unsettled.run {profileRoot : Parts} {events : List ReadinessEvent} (hfacts : ReadinessFacts paths s)
    (h : Unsettled s profileRoot) (hrun : Run (WaitingStep paths shelfRoot runRoot profileRoot) s events t) :
    Unsettled t profileRoot := by
  have hbase : ∀ s event t, ReadinessFacts paths s → WaitingStep paths shelfRoot runRoot profileRoot s event t →
      ReadinessFacts paths t :=
    fun _ _ _ h hstep => h.step hstep.step
  have hkept : ∀ s event t, ReadinessFacts paths s → Unsettled s profileRoot →
      WaitingStep paths shelfRoot runRoot profileRoot s event t → Unsettled t profileRoot := by
    intro s event t hfacts h hstep
    rcases h.step hfacts hstep.step with ⟨owner, hsettled⟩ | hunsettled
    · exact absurd hsettled (hstep.unsettled owner)
    · exact hunsettled
  exact hrun.preserves_of hbase hkept hfacts h

end

/-! ## A run that is interrupted -/

/-- Paths where nothing has to be resolved. -/
def absolutePaths : PathResolution where
  resolve raw := if raw.anchor = .root then some raw.parts else none
  settled {raw path} h := by
    split at h
    · rfl
    · cases h

/-- Nothing has run yet. -/
def ReadinessWorld.initial : ReadinessWorld :=
  ⟨none, none, fun _ => false, fun _ => none, fun _ => false, 0⟩

theorem readinessStart_initial : ReadinessStart .initial :=
  ⟨fun _ h => (by cases h), rfl, fun _ => rfl, fun _ => rfl⟩

/-- The profile `hol` on the shelf. -/
def holRow : CompatibilityRow :=
  ⟨"hol", true, "/shelf", "hol"⟩

theorem holRoot : profileRootOf absolutePaths ["shelf"] ⟨"/shelf", "hol", ["hol"]⟩ = some ["shelf", "hol"] := by
  decide +kernel

def holStarted : Report :=
  startReport ["shelf"] ["run"] ⟨0, true⟩ ["hol"] [holRow]

/-- The report of a controller that has recorded the profile `hol`. -/
def holReport : Report :=
  holStarted.activate ⟨"/shelf", "hol", ["hol"]⟩ ["shelf", "hol"] false

/-- Its worker, behind its look. -/
def holWorker : Worker :=
  ⟨⟨0, true⟩, ⟨"/shelf", "hol", ["hol"]⟩, ["shelf", "hol"], .admitted⟩

def holActive : ActiveProfile :=
  ⟨["hol"], "hol", ⟨.root, ["shelf", "hol"]⟩, false⟩

/-- The group of the profile, under way. -/
def holRun : GroupRun :=
  ⟨⟨"/shelf", "hol", ["hol"]⟩, ["shelf", "hol"], false, []⟩

/-- The first controller. -/
def holProbing (phase : ControllerPhase) : Controller :=
  ⟨⟨0, true⟩, ["hol"], fun _ => holRow, phase⟩

/-- The second one. -/
def holController : Controller :=
  ⟨⟨1, true⟩, [], fun _ => holRow, .entered⟩

/-- The controller has died, and a second invocation has the lock. -/
def holInterrupted (workers : ℕ → Option Worker) : ReadinessWorld where
  report := some holReport
  controller := some holController
  alive := Function.update (Function.update (Function.update (fun _ => false) 0 true) 0 false) 1 true
  workers
  live _ := false
  fresh := 2

/-- The second invocation has stopped the profile. -/
def holRecovered (workers : ℕ → Option Worker) : ReadinessWorld :=
  ((holInterrupted workers).setLive ["shelf", "hol"] false).goTo holController
    (.recovered holReport holActive ["shelf", "hol"] true)

theorem holInterrupted_recovers {workers : ℕ → Option Worker}
    (hidle : ∀ process worker, workers process = some worker → worker.profileRoot = ["shelf", "hol"] →
      worker.phase ≠ .evaluating) :
    ReadinessStep absolutePaths ["shelf"] ["run"] (holInterrupted workers) (.stopTried 1 ["shelf", "hol"] true true)
      (holRecovered workers) := by
  have hstops : Stops (holInterrupted workers) ["shelf", "hol"] ⟨true, false, true, some 0, true⟩ false :=
    ⟨fun _ => hidle, fun _ => rfl⟩
  exact @ReadinessStep.recover _ _ _ _ holController holReport holActive _ _ _ rfl rfl rfl hstops

theorem holRecovered_reports (workers : ℕ → Option Worker) :
    ReadinessStep absolutePaths ["shelf"] ["run"] (holRecovered workers) (.reported 1 (holReport.interrupted holActive true))
      ((holRecovered workers).conclude (holReport.interrupted holActive true)) :=
  @ReadinessStep.reportInterrupted _ _ _ _ (holController.goTo (.recovered holReport holActive ["shelf", "hol"] true))
    holReport holActive ["shelf", "hol"] true rfl rfl

theorem holRecovered_settled (workers : ℕ → Option Worker) :
    SettledBy (holRecovered workers) ((holRecovered workers).conclude (holReport.interrupted holActive true)) 0
      ["shelf", "hol"] :=
  ⟨⟨_, _, rfl, rfl, .inl rfl, rfl, rfl⟩, _, rfl, rfl, .inl rfl⟩

/-- The first controller has died before it had a worker. -/
theorem holRecovered_run : Run (CarefulStep absolutePaths ["shelf"] ["run"]) .initial
    [.entered 0, .reported 0 holStarted, .activated 0 ["shelf", "hol"],
      .crashed 0, .entered 1, .stopTried 1 ["shelf", "hol"] true true] (holRecovered fun _ => none) := by
  have hrecovers : CarefulStep absolutePaths ["shelf"] ["run"] (holInterrupted fun _ => none)
      (.stopTried 1 ["shelf", "hol"] true true) (holRecovered fun _ => none) :=
    ⟨holInterrupted_recovers (fun _ _ h => by cases h), fun _ _ _ _ _ h => by cases h⟩
  refine .cons ⟨.enter true ["hol"] (fun _ => holRow) rfl, fun _ _ h => by cases h⟩ ?_
  refine .cons ⟨@ReadinessStep.begin _ _ _ _ (holProbing .entered) _ rfl rfl rfl rfl, fun _ _ h => by cases h⟩ ?_
  refine .cons ⟨@ReadinessStep.activate _ _ _ _ (holProbing (.next holStarted [holRun.group])) _ _ _ _ false rfl rfl
    holRoot, fun _ _ h => by cases h⟩ ?_
  refine .cons ⟨@ReadinessStep.crash _ _ _ _ (holProbing (.activated holReport holRun)) rfl, fun _ _ h => by cases h⟩ ?_
  refine .cons ⟨.enter true [] (fun _ => holRow) rfl, fun _ _ h => by cases h⟩ ?_
  exact .cons hrecovers (.nil _)

end Hearth.Shelf
