import Hearth.Library.Transition
import Mathlib.Logic.Function.Basic

/-!
# Scheduling the retirement of a profile

`schedule_profile_retirement` and `monitor_profile` of `orbstack_idle_retirement.py`, as far as
they decide which monitor runs.  Any number of calls share the policy file without a lock: a
call that finds no living monitor writes its token, starts a monitor, and writes the token once
more together with the identity of the monitor.  A monitor ends as soon as it reads a token that
is not its own.

The second write does not look at what is there.  A monitor that has read the token of another
call in between is gone when its own token comes back.
-/

namespace Hearth.Shelf

open Hearth.Library

/-- `idle-retirement.json`, as far as the monitors read it; a file without `POLICY_SCHEMA` counts
as missing. -/
structure PolicyRecord where
  monitorToken : String
  /-- Whether `monitor_pid` and `monitor_identity` name the monitor; they are null in the first
  record, and where the birth identity could not be read. -/
  identified : Bool
  deriving DecidableEq, Repr

/-- The process of a monitor.  What has ended can be observed until it is reaped. -/
inductive MonitorProcess
  | missing | polling | ended
  deriving DecidableEq, Repr

/-- Where a call of `schedule_profile_retirement` is. -/
inductive SchedulePhase
  | idle
  /-- No living monitor was found. -/
  | deciding
  /-- Behind the first write. -/
  | pending (token : String)
  /-- Behind `subprocess.Popen`. -/
  | spawned (token : String)
  | returned (scheduled : Bool)
  deriving DecidableEq, Repr

/-- The policy file, the monitors by their tokens, and the calls. -/
structure Scheduling where
  policy : Option PolicyRecord
  monitors : String → MonitorProcess
  calls : ℕ → SchedulePhase

namespace Scheduling

variable (s : Scheduling)

/-- `record.get("monitor_token")`. -/
def token : Option String :=
  s.policy.map PolicyRecord.monitorToken

/-- `_monitor_live` of the policy file. -/
def monitorLive : Bool :=
  s.policy.any fun record => record.identified && s.monitors record.monitorToken ≠ .missing

def goTo (call : ℕ) (phase : SchedulePhase) : Scheduling :=
  { s with calls := Function.update s.calls call phase }

/-- `atomic_write_json(policy_path(profile_root), record)`. -/
def write (record : PolicyRecord) : Scheduling :=
  { s with policy := some record }

def setMonitor (token : String) (process : MonitorProcess) : Scheduling :=
  { s with monitors := Function.update s.monitors token process }

/-- Before the first of the calls. -/
def start (policy : Option PolicyRecord) (monitors : String → MonitorProcess) : Scheduling where
  policy
  monitors
  calls _ := .idle

end Scheduling

/-- Who takes a step. -/
inductive ScheduleEvent
  | call (index : ℕ) | poll (token : String) | reap (token : String)
  deriving DecidableEq, Repr

/-- The steps of the calls and of the monitors, where no monitor retires the profile.  A poll is
one of the two reads of `monitor_profile`. -/
inductive ScheduleStep (s : Scheduling) : ScheduleEvent → Scheduling → Prop
  | renew {call : ℕ} (hphase : s.calls call = .idle) (hlive : s.monitorLive = true) :
      ScheduleStep s (.call call) (s.goTo call (.returned false))
  /-- Also where the birth identity cannot be read. -/
  | decide {call : ℕ} (hphase : s.calls call = .idle) :
      ScheduleStep s (.call call) (s.goTo call .deciding)
  /-- `secrets.token_hex` draws a token that nobody has. -/
  | pend {call : ℕ} {token : String} (hphase : s.calls call = .deciding)
      (hmonitor : s.monitors token = .missing)
      (hcalls : ∀ other, s.calls other ≠ .pending token ∧ s.calls other ≠ .spawned token) :
      ScheduleStep s (.call call) ((s.write ⟨token, false⟩).goTo call (.pending token))
  | spawn {call : ℕ} {token : String} (hphase : s.calls call = .pending token) :
      ScheduleStep s (.call call) ((s.setMonitor token .polling).goTo call (.spawned token))
  | record {call : ℕ} {token : String} (identified : Bool) (hphase : s.calls call = .spawned token) :
      ScheduleStep s (.call call) ((s.write ⟨token, identified⟩).goTo call (.returned true))
  | stay {token : String} (hmonitor : s.monitors token = .polling) (htoken : s.token = some token) :
      ScheduleStep s (.poll token) s
  | leave {token : String} (hmonitor : s.monitors token = .polling) (htoken : s.token ≠ some token) :
      ScheduleStep s (.poll token) (s.setMonitor token .ended)
  | reap {token : String} (hmonitor : s.monitors token = .ended) :
      ScheduleStep s (.reap token) (s.setMonitor token .missing)

/-- The monitor of the policy file runs, and each other one ends with its next poll. -/
structure MonitorKept (s : Scheduling) : Prop where
  recorded : ∃ record, s.policy = some record ∧ s.monitors record.monitorToken = .polling
  others : ∀ token t, s.token ≠ some token → ScheduleStep s (.poll token) t →
    t.monitors token = .ended

/-! ## Runs in which no monitor polls between the writes of its call -/

/-- No monitor polls the file while it has the token of another call and its own call has not
made its second write. -/
structure ReadStep (s : Scheduling) (event : ScheduleEvent) (t : Scheduling) : Prop where
  step : ScheduleStep s event t
  careful : ∀ token, event = .poll token → s.token ≠ some token →
    ∀ call, s.calls call ≠ .spawned token

/-- The recorded monitor runs, or is still to be started. -/
def Kept (s : Scheduling) : Prop :=
  ∃ token, s.token = some token ∧ (s.monitors token = .polling ∨ ∃ call, s.calls call = .pending token)

/-- No call has written, and the recorded monitor cannot be observed. -/
structure Unscheduled (s : Scheduling) : Prop where
  calls : ∀ call, s.calls call = .idle ∨ s.calls call = .deciding
  missing : ∀ token, s.token = some token → s.monitors token = .missing

/-- What holds in every such run. -/
structure ScheduleFacts (s : Scheduling) : Prop where
  spawned : ∀ call token, s.calls call = .spawned token → s.monitors token = .polling
  kept : Kept s ∨ Unscheduled s

section

variable {s t : Scheduling} {event : ScheduleEvent}

theorem Unscheduled.monitorLive_eq_false (h : Unscheduled s) : s.monitorLive = false := by
  cases hpolicy : s.policy with
  | none => simp [Scheduling.monitorLive, hpolicy]
  | some record =>
      have hmissing := h.missing record.monitorToken (by simp [Scheduling.token, hpolicy])
      simp [Scheduling.monitorLive, hpolicy, hmissing]

/-- A call that goes on keeps what is kept, unless it was about to start the recorded monitor. -/
theorem Kept.goTo (h : Kept s) {call : ℕ} (phase : SchedulePhase)
    (hphase : ∀ token, s.calls call ≠ .pending token) : Kept (s.goTo call phase) := by
  obtain ⟨token, htoken, hpolling | ⟨other, hpending⟩⟩ := h
  · exact ⟨token, htoken, .inl hpolling⟩
  · have hne : other ≠ call := by
      rintro rfl
      exact hphase token hpending
    exact ⟨token, htoken, .inr ⟨other, (Function.update_of_ne hne _ _).trans hpending⟩⟩

/-- A monitor that is not the recorded one changes nothing of what is kept. -/
theorem Kept.setMonitor (h : Kept s) {token : String} {process : MonitorProcess}
    (hprocess : process = .polling ∨ s.token ≠ some token ∨ s.monitors token ≠ .polling) :
    Kept (s.setMonitor token process) := by
  obtain ⟨recorded, hrecorded, hpolling | hpending⟩ := h
  · refine ⟨recorded, hrecorded, .inl ?_⟩
    show Function.update s.monitors token process recorded = .polling
    by_cases heq : recorded = token
    · subst heq
      rw [Function.update_self]
      rcases hprocess with hprocess | hprocess | hprocess
      · exact hprocess
      · exact absurd hrecorded hprocess
      · exact absurd hpolling hprocess
    · rw [Function.update_of_ne heq]
      exact hpolling
  · exact ⟨recorded, hrecorded, .inr hpending⟩

/-- Behind its start a monitor polls, and the others are as they were. -/
theorem polling_setMonitor {token other : String} (h : s.monitors other = .polling) :
    (s.setMonitor token .polling).monitors other = .polling := by
  show Function.update s.monitors token .polling other = .polling
  by_cases heq : other = token
  · rw [heq, Function.update_self]
  · rw [Function.update_of_ne heq]
    exact h

theorem Unscheduled.goTo (h : Unscheduled s) (call : ℕ) : Unscheduled (s.goTo call .deciding) := by
  refine ⟨fun other => ?_, h.missing⟩
  by_cases heq : other = call
  · exact .inr (by rw [heq]; exact Function.update_self _ _ _)
  · rw [show (s.goTo call .deciding).calls other = s.calls other from Function.update_of_ne heq _ _]
    exact h.calls other

/-- A call that goes on has started a monitor only behind `Popen`. -/
theorem spawned_goTo {call : ℕ} {phase : SchedulePhase}
    (h : ∀ other token, s.calls other = .spawned token → s.monitors token = .polling)
    (hphase : ∀ token, phase = .spawned token → s.monitors token = .polling) :
    ∀ other token, (s.goTo call phase).calls other = .spawned token →
      (s.goTo call phase).monitors token = .polling := by
  intro other token hspawned
  by_cases heq : other = call
  · rw [heq, show (s.goTo call phase).calls call = phase from Function.update_self _ _ _] at hspawned
    exact hphase token hspawned
  · rw [show (s.goTo call phase).calls other = s.calls other from Function.update_of_ne heq _ _] at hspawned
    exact h other token hspawned

theorem ScheduleFacts.step (h : ScheduleFacts s) (hstep : ReadStep s event t) : ScheduleFacts t := by
  obtain ⟨hstep, hcareful⟩ := hstep
  cases hstep with
  | @renew call hphase hlive =>
      refine ⟨spawned_goTo h.spawned nofun, ?_⟩
      rcases h.kept with hkept | hunscheduled
      · exact .inl (hkept.goTo _ (by simp [hphase]))
      · exact absurd (hlive.symm.trans hunscheduled.monitorLive_eq_false) nofun
  | @decide call hphase =>
      refine ⟨spawned_goTo h.spawned nofun, ?_⟩
      exact h.kept.imp (fun hkept => hkept.goTo _ (by simp [hphase])) fun hunscheduled =>
        hunscheduled.goTo call
  | @pend call token hphase hmonitor hcalls =>
      refine ⟨@spawned_goTo (s.write ⟨token, false⟩) _ _ h.spawned nofun, .inl ?_⟩
      exact ⟨token, rfl, .inr ⟨call, Function.update_self _ _ _⟩⟩
  | @spawn call token hphase =>
      have hself : (s.setMonitor token .polling).monitors token = .polling := Function.update_self _ _ _
      refine ⟨spawned_goTo (fun other started hother => polling_setMonitor (h.spawned other started hother))
        fun started heq => ?_, ?_⟩
      · cases heq
        exact hself
      · rcases h.kept with ⟨recorded, hrecorded, hkept⟩ | hunscheduled
        · left
          by_cases heq : recorded = token
          · exact ⟨token, heq ▸ hrecorded, .inl hself⟩
          · refine ⟨recorded, hrecorded, hkept.imp polling_setMonitor ?_⟩
            rintro ⟨other, hother⟩
            have hne : other ≠ call := by
              rintro rfl
              rw [hphase] at hother
              exact heq (SchedulePhase.pending.inj hother).symm
            exact ⟨other, (Function.update_of_ne hne _ _).trans hother⟩
        · rcases hunscheduled.calls call with hidle | hidle <;> rw [hphase] at hidle <;> cases hidle
  | @record call token identified hphase =>
      have hpolling := h.spawned call token hphase
      refine ⟨@spawned_goTo (s.write ⟨token, identified⟩) _ _ h.spawned nofun, .inl ?_⟩
      exact ⟨token, rfl, .inl hpolling⟩
  | stay hmonitor htoken => exact h
  | @leave token hmonitor htoken =>
      constructor
      · intro call started hspawned
        have hne : started ≠ token := by
          rintro rfl
          exact hcareful started rfl htoken call hspawned
        exact (Function.update_of_ne hne _ _).trans (h.spawned call started hspawned)
      · refine h.kept.imp (fun hkept => hkept.setMonitor (.inr (.inl htoken))) fun hunscheduled => ?_
        refine ⟨hunscheduled.calls, fun recorded hrecorded => ?_⟩
        have hne : recorded ≠ token := by
          rintro rfl
          exact htoken hrecorded
        exact (Function.update_of_ne hne _ _).trans (hunscheduled.missing recorded hrecorded)
  | @reap token hmonitor =>
      have hrunning : s.monitors token ≠ .polling := by simp [hmonitor]
      constructor
      · intro call started hspawned
        have hne : started ≠ token := by
          rintro rfl
          exact hrunning (h.spawned call started hspawned)
        exact (Function.update_of_ne hne _ _).trans (h.spawned call started hspawned)
      · refine h.kept.imp (fun hkept => hkept.setMonitor (.inr (.inr hrunning))) fun hunscheduled => ?_
        refine ⟨hunscheduled.calls, fun recorded hrecorded => ?_⟩
        by_cases heq : recorded = token
        · rw [heq]
          exact Function.update_self _ _ _
        · exact (Function.update_of_ne heq _ _).trans (hunscheduled.missing recorded hrecorded)

/-- A monitor that is not recorded ends with its poll. -/
theorem ended_of_poll {token : String} (htoken : s.token ≠ some token)
    (hstep : ScheduleStep s (.poll token) t) : t.monitors token = .ended := by
  cases hstep with
  | stay _ hown => exact absurd hown htoken
  | leave => exact Function.update_self _ _ _

end

/-- In a run in which no monitor polls the token of another call before its own call has written
twice, the recorded monitor runs as soon as all calls have returned.  At the start the recorded
monitor runs, or cannot be observed any more. -/
theorem monitor_kept {policy : Option PolicyRecord} {monitors : String → MonitorProcess}
    {labels : List ScheduleEvent} {s : Scheduling}
    (hstart : ∀ record, policy = some record → monitors record.monitorToken ≠ .ended)
    (hrun : Run ReadStep (.start policy monitors) labels s)
    (hreturned : ∀ call, s.calls call = .idle ∨ ∃ scheduled, s.calls call = .returned scheduled)
    (hcalled : ∃ call, s.calls call ≠ .idle) : MonitorKept s := by
  have hfacts : ScheduleFacts (.start policy monitors) := by
    refine ⟨nofun, ?_⟩
    cases policy with
    | none => exact .inr ⟨fun _ => .inl rfl, nofun⟩
    | some record =>
        cases hmonitor : monitors record.monitorToken with
        | missing =>
            refine .inr ⟨fun _ => .inl rfl, fun token htoken => ?_⟩
            cases htoken
            exact hmonitor
        | polling => exact .inl ⟨_, rfl, .inl hmonitor⟩
        | ended => exact absurd hmonitor (hstart record rfl)
  have hend := hrun.preserves (fun _ _ _ h hstep => ScheduleFacts.step h hstep) hfacts
  refine ⟨?_, fun token t htoken hstep => ended_of_poll htoken hstep⟩
  rcases hend.kept with ⟨token, htoken, hkept⟩ | hunscheduled
  · obtain ⟨record, hpolicy, hrecord⟩ := Option.map_eq_some_iff.mp htoken
    refine ⟨record, hpolicy, ?_⟩
    rw [hrecord]
    refine hkept.resolve_right ?_
    rintro ⟨call, hpending⟩
    rcases hreturned call with hcall | ⟨_, hcall⟩ <;> rw [hpending] at hcall <;> cases hcall
  · obtain ⟨call, hcall⟩ := hcalled
    rcases hreturned call with hidle | ⟨_, hback⟩
    · exact absurd hidle hcall
    · rcases hunscheduled.calls call with hcall | hcall <;> rw [hback] at hcall <;> cases hcall

/-- One call after the other: the second finds the monitor of the first, whose own poll it
survives. -/
theorem monitor_kept_renewed : ∃ s : Scheduling, s.policy = some ⟨"a", true⟩ ∧
    s.calls 1 = .returned false ∧ MonitorKept s := by
  have hdecided : ScheduleStep (.start none fun _ => .missing) (.call 0) _ := .decide rfl
  have hcalls : ∀ other, (Scheduling.goTo (.start none fun _ => .missing) 0 .deciding).calls other ≠
      .pending "a" ∧
      (Scheduling.goTo (.start none fun _ => .missing) 0 .deciding).calls other ≠ .spawned "a" := by
    intro other
    by_cases heq : other = 0
    · rw [heq]
      decide
    · simp [Scheduling.goTo, Scheduling.start, Function.update_of_ne heq]
  have hrun : ∃ s : Scheduling, s.policy = some ⟨"a", true⟩ ∧ s.calls 1 = .returned false ∧
      s.calls 0 = .returned true ∧ (∀ call, call ≠ 0 → call ≠ 1 → s.calls call = .idle) ∧
      Run ReadStep (.start none fun _ => .missing)
        [.call 0, .call 0, .call 0, .poll "a", .call 0, .call 1] s := by
    refine ⟨_, rfl, rfl, rfl, ?_, .cons ⟨hdecided, nofun⟩ (.cons ⟨.pend rfl rfl hcalls, nofun⟩
      (.cons ⟨.spawn rfl, nofun⟩ (.cons ⟨.stay rfl rfl, ?_⟩ (.cons ⟨.record true rfl, nofun⟩
        (.cons ⟨.renew rfl rfl, nofun⟩ (.nil _))))))⟩
    · intro call hzero hone
      simp [Scheduling.goTo, Scheduling.write, Scheduling.setMonitor, Scheduling.start,
        Function.update_of_ne hzero, Function.update_of_ne hone]
    · intro token heq htoken
      cases heq
      exact absurd rfl htoken
  obtain ⟨s, hpolicy, hsecond, hfirst, hothers, hrun⟩ := hrun
  refine ⟨s, hpolicy, hsecond, monitor_kept (by simp) hrun ?_ ⟨1, by simp [hsecond]⟩⟩
  intro call
  by_cases hzero : call = 0
  · exact .inr ⟨true, hzero ▸ hfirst⟩
  · by_cases hone : call = 1
    · exact .inr ⟨false, hone ▸ hsecond⟩
    · exact .inl (hothers call hzero hone)

/-- Two calls at once: the monitor of the first reads the token of the second and ends, and then
the second write of the first call puts its token back. -/
theorem token_written_back : ∃ (labels : List ScheduleEvent) (s : Scheduling),
    Run ScheduleStep (.start none fun _ => .missing) labels s ∧
      (∀ call, s.calls call = .idle ∨ s.calls call = .returned true) ∧ s.calls 0 = .returned true ∧
      s.policy = some ⟨"a", true⟩ ∧ s.monitors "a" = .ended ∧ ¬ MonitorKept s := by
  -- Both calls have found no monitor, and the first has started its own.
  have hstarted : ∃ s : Scheduling, Run ScheduleStep (.start none fun _ => .missing)
      [.call 0, .call 1, .call 0, .call 0] s ∧ s.calls 0 = .spawned "a" ∧ s.calls 1 = .deciding ∧
        (∀ call, call ≠ 0 → call ≠ 1 → s.calls call = .idle) ∧
        s.monitors "a" = .polling ∧ s.monitors "b" = .missing := by
    refine ⟨_, .cons (.decide rfl) (.cons (.decide rfl) (.cons (@ScheduleStep.pend _ 0 "a" rfl rfl ?_)
      (.cons (.spawn rfl) (.nil _)))), rfl, rfl, ?_, rfl, rfl⟩
    · intro other
      by_cases hzero : other = 0
      · exact ⟨by rw [hzero]; nofun, by rw [hzero]; nofun⟩
      · by_cases hone : other = 1
        · exact ⟨by rw [hone]; nofun, by rw [hone]; nofun⟩
        · simp [Scheduling.goTo, Scheduling.start, Function.update_of_ne hzero, Function.update_of_ne hone]
    · intro call hzero hone
      simp [Scheduling.goTo, Scheduling.write, Scheduling.setMonitor, Scheduling.start,
        Function.update_of_ne hzero, Function.update_of_ne hone]
  obtain ⟨s, hrun, hfirst, hsecond, hothers, hrunning, hfree⟩ := hstarted
  have hpend : ScheduleStep s (.call 1) ((s.write ⟨"b", false⟩).goTo 1 (.pending "b")) := by
    refine .pend hsecond hfree fun other => ?_
    by_cases hzero : other = 0
    · rw [hzero, hfirst]
      decide
    · by_cases hone : other = 1
      · rw [hone, hsecond]
        decide
      · rw [hothers other hzero hone]
        decide
  -- The token of the second call is there when the first monitor polls.
  have hleave : ScheduleStep ((s.write ⟨"b", false⟩).goTo 1 (.pending "b")) (.poll "a") _ :=
    .leave hrunning (by simp [Scheduling.token, Scheduling.write, Scheduling.goTo])
  refine ⟨_, _, hrun.append (.cons hpend (.cons hleave (.cons (@ScheduleStep.spawn _ 1 "b" rfl)
    (.cons (@ScheduleStep.record _ 1 "b" true rfl) (.cons (@ScheduleStep.record _ 0 "a" true hfirst)
      (.nil _)))))), ?_, rfl, rfl, rfl, ?_⟩
  · intro call
    by_cases hzero : call = 0
    · exact .inr (by rw [hzero]; rfl)
    · by_cases hone : call = 1
      · exact .inr (by rw [hone]; rfl)
      · left
        simpa [Scheduling.goTo, Scheduling.write, Scheduling.setMonitor, Function.update_of_ne hzero,
          Function.update_of_ne hone] using hothers call hzero hone
  · rintro ⟨⟨record, hpolicy, hpolling⟩, -⟩
    cases hpolicy
    cases hpolling

end Hearth.Shelf
