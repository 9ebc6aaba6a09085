import Hearth.Library.Transition

/-!
# Programs that load files once

A file is a program of effects on a state and of calls to load other files.  A load is
either forced, or skips a file whose key is already registered; a file is registered
when its program is done.  The machine keeps the files being evaluated on a stack, so
that one step is one effect or one decision about a load.

`run_agree` says what a finished run asks of the registered keys: only whether they
contain the keys of the files that it loads.
-/

namespace Hearth.Library.Loading

variable {Path Key State : Type*}

/-- What a file does. -/
inductive Program (Path State : Type*)
  | done
  | act (effect : State → Option State) (next : State → Program Path State)
  | load (once : Bool) (path : Path) (next : Program Path State)

/-- A file: the key under which it is registered, and its program. -/
structure Source (Path Key State : Type*) where
  key : Key
  program : Program Path State

/-- The files. -/
abbrev Sources (Path Key State : Type*) := Path → Option (Source Path Key State)

/-- A program under evaluation, and the key to register when it is done. -/
structure Frame (Path Key State : Type*) where
  program : Program Path State
  key : Option Key

structure Machine (Path Key State : Type*) where
  stack : List (Frame Path Key State)
  state : State
  loaded : List Key

/-- What happens in one step. -/
inductive Event (Path : Type*)
  | leave
  | act
  | enter (path : Path)
  | skip (path : Path)
  deriving DecidableEq, Repr

section

variable [DecidableEq Key] (sources : Sources Path Key State)

/-- One step, if the machine has not finished and nothing fails. -/
def next (machine : Machine Path Key State) : Option (Event Path × Machine Path Key State) :=
  match machine.stack with
  | [] => none
  | ⟨.done, key⟩ :: rest => some (.leave, ⟨rest, machine.state, key.toList ++ machine.loaded⟩)
  | ⟨.act effect continuation, key⟩ :: rest =>
      (effect machine.state).map fun state =>
        (.act, ⟨⟨continuation state, key⟩ :: rest, state, machine.loaded⟩)
  | ⟨.load once path continuation, key⟩ :: rest =>
      (sources path).map fun source =>
        if once && source.key ∈ machine.loaded then
          (.skip path, ⟨⟨continuation, key⟩ :: rest, machine.state, machine.loaded⟩)
        else
          (.enter path, ⟨⟨source.program, some source.key⟩ :: ⟨continuation, key⟩ :: rest,
            machine.state, machine.loaded⟩)

/-- The step relation. -/
def Step (machine : Machine Path Key State) (event : Event Path)
    (after : Machine Path Key State) : Prop :=
  next sources machine = some (event, after)

/-- As many steps as are possible within `fuel`. -/
def execute : ℕ → Machine Path Key State → List (Event Path) × Machine Path Key State
  | 0, machine => ([], machine)
  | fuel + 1, machine =>
      match next sources machine with
      | none => ([], machine)
      | some (event, after) =>
          let (events, final) := execute fuel after
          (event :: events, final)

/-- A file is evaluated from a state to a state, with the registered keys before and
after. -/
def Evaluates (path : Path) (state : State) (loaded : List Key) (state' : State)
    (loaded' : List Key) : Prop :=
  ∃ source events, sources path = some source ∧
    Run (Step sources) ⟨[⟨source.program, some source.key⟩], state, loaded⟩ events
      ⟨[], state', loaded'⟩

end

variable [DecidableEq Key] {sources : Sources Path Key State}

/-- What `execute` does is a run. -/
theorem execute_run (fuel : ℕ) (machine : Machine Path Key State) :
    Run (Step sources) machine (execute sources fuel machine).1
      (execute sources fuel machine).2 := by
  induction fuel generalizing machine with
  | zero => exact .nil machine
  | succ fuel ih =>
      unfold execute
      cases hnext : next sources machine with
      | none => exact .nil machine
      | some result => exact .cons hnext (ih result.2)

/-- A step is one of four. -/
theorem step_cases {machine after : Machine Path Key State} {event : Event Path}
    (h : Step sources machine event after) :
    (∃ key rest, machine.stack = ⟨.done, key⟩ :: rest ∧ event = .leave ∧
      after = ⟨rest, machine.state, key.toList ++ machine.loaded⟩) ∨
    (∃ effect continuation key rest state, machine.stack = ⟨.act effect continuation, key⟩ :: rest ∧
      effect machine.state = some state ∧ event = .act ∧
      after = ⟨⟨continuation state, key⟩ :: rest, state, machine.loaded⟩) ∨
    (∃ path continuation key rest source, machine.stack = ⟨.load true path continuation, key⟩ :: rest ∧
      sources path = some source ∧ source.key ∈ machine.loaded ∧ event = .skip path ∧
      after = ⟨⟨continuation, key⟩ :: rest, machine.state, machine.loaded⟩) ∨
    (∃ once path continuation key rest source,
      machine.stack = ⟨.load once path continuation, key⟩ :: rest ∧
      sources path = some source ∧ (once = true → source.key ∉ machine.loaded) ∧
      event = .enter path ∧
      after = ⟨⟨source.program, some source.key⟩ :: ⟨continuation, key⟩ :: rest, machine.state,
        machine.loaded⟩) := by
  obtain ⟨stack, state, loaded⟩ := machine
  unfold Step next at h
  match stack with
  | [] => cases h
  | ⟨.done, key⟩ :: rest =>
      cases h
      exact .inl ⟨key, rest, rfl, rfl, rfl⟩
  | ⟨.act effect continuation, key⟩ :: rest =>
      obtain ⟨state', heffect, hafter⟩ := Option.map_eq_some_iff.mp h
      cases hafter
      exact .inr (.inl ⟨effect, continuation, key, rest, state', rfl, heffect, rfl, rfl⟩)
  | ⟨.load once path continuation, key⟩ :: rest =>
      obtain ⟨source, hsource, hafter⟩ := Option.map_eq_some_iff.mp h
      split at hafter
      · rename_i hskip
        rw [Bool.and_eq_true, decide_eq_true_iff] at hskip
        obtain ⟨rfl, hloaded⟩ := hskip
        cases hafter
        exact .inr (.inr (.inl ⟨path, continuation, key, rest, source, rfl, hsource, hloaded, rfl,
          rfl⟩))
      · rename_i henter
        cases hafter
        refine .inr (.inr (.inr ⟨once, path, continuation, key, rest, source, rfl, hsource, ?_, rfl,
          rfl⟩))
        intro honce hloaded
        exact henter (by simp [honce, hloaded])

section

variable {rest : List (Frame Path Key State)} {state : State} {loaded : List Key} {key : Option Key}

theorem step_leave :
    Step sources ⟨⟨.done, key⟩ :: rest, state, loaded⟩ .leave
      ⟨rest, state, key.toList ++ loaded⟩ :=
  rfl

theorem step_act {effect : State → Option State} {continuation : State → Program Path State}
    {state' : State} (h : effect state = some state') :
    Step sources ⟨⟨.act effect continuation, key⟩ :: rest, state, loaded⟩ .act
      ⟨⟨continuation state', key⟩ :: rest, state', loaded⟩ := by
  simp [Step, next, h]

theorem step_skip {path : Path} {continuation : Program Path State} {source : Source Path Key State}
    (hsource : sources path = some source) (hloaded : source.key ∈ loaded) :
    Step sources ⟨⟨.load true path continuation, key⟩ :: rest, state, loaded⟩ (.skip path)
      ⟨⟨continuation, key⟩ :: rest, state, loaded⟩ := by
  simp [Step, next, hsource, hloaded]

theorem step_enter {once : Bool} {path : Path} {continuation : Program Path State}
    {source : Source Path Key State} (hsource : sources path = some source)
    (hfresh : once = true → source.key ∉ loaded) :
    Step sources ⟨⟨.load once path continuation, key⟩ :: rest, state, loaded⟩ (.enter path)
      ⟨⟨source.program, some source.key⟩ :: ⟨continuation, key⟩ :: rest, state, loaded⟩ := by
  simp only [Step, next, hsource, Option.map_some, Option.some.injEq]
  rw [if_neg]
  rw [Bool.and_eq_true, decide_eq_true_iff, not_and]
  exact hfresh

end

/-! ## Frames below and registered keys -/

/-- The frames below do not matter to a step. -/
theorem step_append {stack stack' below : List (Frame Path Key State)} {state state' : State}
    {loaded loaded' : List Key} {event : Event Path}
    (h : Step sources ⟨stack, state, loaded⟩ event ⟨stack', state', loaded'⟩) :
    Step sources ⟨stack ++ below, state, loaded⟩ event ⟨stack' ++ below, state', loaded'⟩ := by
  rcases step_cases h with ⟨key, rest, hstack, rfl, hafter⟩ |
    ⟨effect, continuation, key, rest, state'', hstack, heffect, rfl, hafter⟩ |
    ⟨path, continuation, key, rest, source, hstack, hsource, hloaded, rfl, hafter⟩ |
    ⟨once, path, continuation, key, rest, source, hstack, hsource, hfresh, rfl, hafter⟩
  · cases hstack
    cases hafter
    exact step_leave
  · cases hstack
    cases hafter
    exact step_act heffect
  · cases hstack
    cases hafter
    exact step_skip hsource hloaded
  · cases hstack
    cases hafter
    exact step_enter hsource hfresh

theorem run_append {machine after : Machine Path Key State} {events : List (Event Path)}
    (h : Run (Step sources) machine events after) (below : List (Frame Path Key State)) :
    Run (Step sources) ⟨machine.stack ++ below, machine.state, machine.loaded⟩ events
      ⟨after.stack ++ below, after.state, after.loaded⟩ := by
  induction h with
  | nil => exact .nil _
  | cons hstep _ ih => exact .cons (step_append hstep) ih

/-- Nothing is ever unregistered. -/
theorem step_loaded {machine after : Machine Path Key State} {event : Event Path}
    (h : Step sources machine event after) : machine.loaded ⊆ after.loaded := by
  rcases step_cases h with ⟨key, rest, -, -, rfl⟩ | ⟨_, _, _, _, _, -, -, -, rfl⟩ |
    ⟨_, _, _, _, _, -, -, -, -, rfl⟩ | ⟨_, _, _, _, _, _, -, -, -, -, rfl⟩
  · exact List.subset_append_right _ _
  · exact List.Subset.refl _
  · exact List.Subset.refl _
  · exact List.Subset.refl _

theorem run_loaded {machine after : Machine Path Key State} {events : List (Event Path)}
    (h : Run (Step sources) machine events after) : machine.loaded ⊆ after.loaded := by
  induction h with
  | nil => exact List.Subset.refl _
  | cons hstep _ ih => exact List.Subset.trans (step_loaded hstep) ih

/-- The keys of the files under evaluation. -/
def Machine.pending (machine : Machine Path Key State) : List Key :=
  machine.stack.flatMap fun frame => frame.key.toList

/-- A file under evaluation stays so, or is registered. -/
theorem step_pending {machine after : Machine Path Key State} {event : Event Path}
    (h : Step sources machine event after) {key : Key} (hkey : key ∈ machine.pending) :
    key ∈ after.pending ∨ key ∈ after.loaded := by
  unfold Machine.pending at hkey ⊢
  rcases step_cases h with ⟨_, rest, hstack, -, rfl⟩ | ⟨_, _, _, _, _, hstack, -, -, rfl⟩ |
    ⟨_, _, _, _, _, hstack, -, -, -, rfl⟩ | ⟨_, _, _, _, _, _, hstack, -, -, -, rfl⟩ <;>
    rw [hstack, List.flatMap_cons, List.mem_append] at hkey
  · exact hkey.elim (fun hdone => .inr (List.mem_append_left _ hdone)) .inl
  · exact .inl (by simpa using hkey)
  · exact .inl (by simpa using hkey)
  · exact .inl (by
      rw [List.flatMap_cons, List.flatMap_cons, List.mem_append, List.mem_append]
      exact .inr hkey)

/-- When the run is over, every file that was under evaluation is registered. -/
theorem run_pending {machine after : Machine Path Key State} {events : List (Event Path)}
    (h : Run (Step sources) machine events after) (hdone : after.stack = []) {key : Key}
    (hkey : key ∈ machine.pending) : key ∈ after.loaded := by
  induction h with
  | nil machine =>
      unfold Machine.pending at hkey
      rw [hdone] at hkey
      cases hkey
  | cons hstep hrest ih =>
      rcases step_pending hstep hkey with hpending | hloaded
      · exact ih hdone hpending
      · exact run_loaded hrest hloaded

/-- The second machine has registered the `extra` keys on top of those of the first. -/
structure Agree (extra : Key → Prop) (machine machine' : Machine Path Key State) : Prop where
  stack : machine'.stack = machine.stack
  state : machine'.state = machine.state
  loaded : ∀ key, key ∈ machine'.loaded ↔ extra key ∨ key ∈ machine.loaded

/-- A step on which no extra key depends is a step of the other machine as well. -/
theorem step_agree {extra : Key → Prop} {machine machine' after : Machine Path Key State}
    {event : Event Path} (hagree : Agree extra machine machine')
    (h : Step sources machine event after)
    (hextra : ∀ key, extra key → key ∉ after.pending) :
    ∃ after', Step sources machine' event after' ∧ Agree extra after after' := by
  obtain ⟨stack', state', loaded'⟩ := machine'
  obtain ⟨hstack', rfl, hloaded'⟩ := hagree
  simp only at hstack' hloaded'
  subst hstack'
  rcases step_cases h with ⟨key, rest, hstack, rfl, rfl⟩ |
    ⟨effect, continuation, key, rest, state, hstack, heffect, rfl, rfl⟩ |
    ⟨path, continuation, key, rest, source, hstack, hsource, hloaded, rfl, rfl⟩ |
    ⟨once, path, continuation, key, rest, source, hstack, hsource, hfresh, rfl, rfl⟩ <;>
    rw [hstack]
  · refine ⟨_, step_leave, rfl, rfl, ?_⟩
    intro other
    simp only [List.mem_append, hloaded']
    exact or_left_comm
  · exact ⟨_, step_act heffect, rfl, rfl, hloaded'⟩
  · exact ⟨_, step_skip hsource ((hloaded' _).mpr (.inr hloaded)), rfl, rfl, hloaded'⟩
  · -- the key of the entered file is pending from now on, so it is not an extra one
    have hnot : ¬ extra source.key := by
      intro hkey
      exact hextra _ hkey (by simp [Machine.pending])
    have hfresh' : once = true → source.key ∉ loaded' := by
      intro honce hkey
      rcases (hloaded' _).mp hkey with hkey | hkey
      · exact hnot hkey
      · exact hfresh honce hkey
    exact ⟨_, step_enter hsource hfresh', rfl, rfl, hloaded'⟩

/-- **Registered keys that a finished run does not load make no difference to it.** -/
theorem run_agree {extra : Key → Prop} {machine machine' after : Machine Path Key State}
    {events : List (Event Path)} (hagree : Agree extra machine machine')
    (h : Run (Step sources) machine events after) (hdone : after.stack = [])
    (hextra : ∀ key, extra key → key ∉ after.loaded) :
    ∃ after', Run (Step sources) machine' events after' ∧ Agree extra after after' := by
  induction h generalizing machine' with
  | nil => exact ⟨machine', .nil _, hagree⟩
  | cons hstep hrest ih =>
      have hpending : ∀ key, extra key → key ∉ Machine.pending _ :=
        fun key hkey hmem => hextra key hkey (run_pending hrest hdone hmem)
      obtain ⟨middle', hstep', hagree'⟩ := step_agree hagree hstep hpending
      obtain ⟨after', hrest', hafter⟩ := ih hagree' hdone hextra
      exact ⟨after', .cons hstep' hrest', hafter⟩

/-- The evaluation of a program that is not registered, with its registration behind it. -/
theorem run_register {key : Key} {machine after : Machine Path Key State}
    {events : List (Event Path)} (h : Run (Step sources) machine events after) (hdone : after.stack = [])
    {above : List (Frame Path Key State)} {program : Program Path State}
    (hstack : machine.stack = above ++ [⟨program, none⟩]) :
    Run (Step sources) ⟨above ++ [⟨program, some key⟩], machine.state, machine.loaded⟩ events
      ⟨[], after.state, key :: after.loaded⟩ := by
  induction h generalizing above program with
  | nil machine => simp [hdone] at hstack
  | @cons machine middle after event events hstep hrest ih =>
      cases above with
      | cons frame above =>
          -- the step is about the frames above
          obtain ⟨stack, state, loaded⟩ := machine
          obtain rfl : stack = frame :: above ++ [⟨program, none⟩] := hstack
          have hshape : ∃ above', middle.stack = above' ++ [⟨program, none⟩] ∧
              Step sources ⟨frame :: above ++ [⟨program, some key⟩], state, loaded⟩ event
                ⟨above' ++ [⟨program, some key⟩], middle.state, middle.loaded⟩ := by
            rcases step_cases hstep with ⟨_, rest, hcons, rfl, rfl⟩ |
              ⟨_, _, _, rest, _, hcons, heffect, rfl, rfl⟩ |
              ⟨_, _, _, rest, _, hcons, hsource, hloaded, rfl, rfl⟩ |
              ⟨_, _, _, _, rest, _, hcons, hsource, hfresh, rfl, rfl⟩ <;>
              simp only [List.cons_append, List.cons.injEq] at hcons <;>
              obtain ⟨rfl, rfl⟩ := hcons
            · exact ⟨above, rfl, step_leave⟩
            · exact ⟨_ :: above, rfl, step_act heffect⟩
            · exact ⟨_ :: above, rfl, step_skip hsource hloaded⟩
            · exact ⟨_ :: _ :: above, rfl, step_enter hsource hfresh⟩
          obtain ⟨above', hmiddle, hstep'⟩ := hshape
          exact .cons hstep' (ih hdone hmiddle)
      | nil =>
          obtain ⟨stack, state, loaded⟩ := machine
          obtain rfl : stack = [⟨program, none⟩] := hstack
          rcases step_cases hstep with ⟨_, rest, hcons, rfl, rfl⟩ |
            ⟨_, _, _, rest, _, hcons, heffect, rfl, rfl⟩ |
            ⟨_, _, _, rest, _, hcons, hsource, hloaded, rfl, rfl⟩ |
            ⟨_, _, _, _, rest, source, hcons, hsource, hfresh, rfl, rfl⟩ <;> cases hcons
          · -- the program is done, and so is the machine
            cases hrest with
            | nil => exact .cons step_leave (.nil _)
            | cons hstuck _ => cases hstuck
          · exact .cons (step_act heffect) (ih hdone (List.nil_append _).symm)
          · exact .cons (step_skip hsource hloaded) (ih hdone (List.nil_append _).symm)
          · exact .cons (step_enter hsource hfresh)
              (@ih hdone [⟨source.program, some source.key⟩] _ rfl)

/-- A machine has at most one finished run. -/
theorem run_deterministic {machine after after' : Machine Path Key State}
    {events events' : List (Event Path)} (h : Run (Step sources) machine events after)
    (hdone : after.stack = []) (h' : Run (Step sources) machine events' after')
    (hdone' : after'.stack = []) : events = events' ∧ after = after' := by
  have hstuck : ∀ {machine event after}, machine.stack = [] →
      ¬ Step sources machine event after := by
    intro machine event after hempty hstep
    simp [Step, next, hempty] at hstep
  induction h generalizing events' with
  | nil =>
      cases h' with
      | nil => exact ⟨rfl, rfl⟩
      | cons hstep _ => exact absurd hstep (hstuck hdone)
  | cons hstep _ ih =>
      cases h' with
      | nil => exact absurd hstep (hstuck hdone')
      | cons hstep' hrest' =>
          have hsame := hstep.symm.trans hstep'
          cases hsame
          obtain ⟨rfl, rfl⟩ := ih hdone hrest'
          exact ⟨rfl, rfl⟩

/-- Two machines that differ in the order of the registered keys only. -/
abbrev Alike (machine machine' : Machine Path Key State) : Prop :=
  Agree (fun _ => False) machine machine'

theorem run_alike {machine machine' after : Machine Path Key State} {events : List (Event Path)}
    (halike : Alike machine machine') (h : Run (Step sources) machine events after)
    (hdone : after.stack = []) :
    ∃ after', Run (Step sources) machine' events after' ∧ Alike after after' :=
  run_agree halike h hdone (fun _ hkey => hkey.elim)

end Hearth.Library.Loading
