import Hearth.Library.Loading

/-!
# Loading a file ahead of its call

A program that loads the file `base` somewhere can also be started in the state that
`base` leaves behind; its call of `base` is then skipped.  `run_ahead` says when the two
runs end alike: when everything before the call is independent of `base`.  The
simulation keeps one machine behind the other by exactly one evaluation of `base`
(`Behind`), until the call brings them together.
-/

namespace Hearth.Library.Loading

variable {Path Key State : Type*} [DecidableEq Key] (sources : Sources Path Key State)

/-! ## Independence -/

/-- Two lists with the same members. -/
def SameKeys (loaded loaded' : List Key) : Prop :=
  ∀ key, key ∈ loaded' ↔ key ∈ loaded

section

variable (base : Path) (baseKey : Key)

/-- The effect can be had before `base` or behind it, and the program goes on alike. -/
def Commutes (effect : State → Option State) (continuation : State → Program Path State) : Prop :=
  ∀ state loaded state' loaded' after, baseKey ∉ loaded →
    Evaluates sources base state loaded state' loaded' → effect state' = some after →
    ∃ before loaded'', effect state = some before ∧
      Evaluates sources base before loaded after loaded'' ∧ SameKeys loaded' loaded'' ∧
      continuation before = continuation after

/-- A file that `base` loads can be evaluated before `base`, to the same end. -/
def MayPrecede (path : Path) : Prop :=
  ∀ source state loaded state' loaded', sources path = some source → baseKey ∉ loaded →
    Evaluates sources base state loaded state' loaded' → source.key ∈ loaded' →
    source.key ∉ loaded →
    ∃ before loadedBefore loaded'', Evaluates sources path state loaded before loadedBefore ∧
      baseKey ∉ loadedBefore ∧ Evaluates sources base before loadedBefore state' loaded'' ∧
      SameKeys loaded' loaded''

/-- The program's next step is independent of `base`, where `known` is registered before
`base` and `ahead` behind it. -/
def Independent (known ahead : List Key) : Program Path State → Prop
  | .done => True
  | .act effect continuation => Commutes sources base baseKey effect continuation
  | .load true path _ => MayPrecede sources base baseKey path
  | .load false path _ => ∀ source, sources path = some source → source.key ∈ ahead →
      source.key ∈ known

end

variable {sources}

/-! ## Evaluations -/

theorem Evaluates.loaded_subset {path : Path} {state state' : State} {loaded loaded' : List Key}
    (h : Evaluates sources path state loaded state' loaded') : loaded ⊆ loaded' := by
  obtain ⟨source, events, -, hrun⟩ := h
  exact run_loaded hrun

/-- A file is registered when it has been evaluated. -/
theorem Evaluates.registered {path : Path} {state state' : State} {loaded loaded' : List Key}
    {source : Source Path Key State} (hsource : sources path = some source)
    (h : Evaluates sources path state loaded state' loaded') : source.key ∈ loaded' := by
  obtain ⟨source', events, hsource', hrun⟩ := h
  obtain rfl : source = source' := Option.some.inj (hsource.symm.trans hsource')
  exact run_pending hrun rfl (by simp [Machine.pending])

/-- Registered keys that the evaluation does not load make no difference to it. -/
theorem Evaluates.agree {path : Path} {state state' : State} {loaded loaded' more : List Key}
    {extra : Key → Prop} (h : Evaluates sources path state loaded state' loaded')
    (hmore : ∀ key, key ∈ more ↔ extra key ∨ key ∈ loaded)
    (hextra : ∀ key, extra key → key ∉ loaded') :
    ∃ more', Evaluates sources path state more state' more' ∧
      ∀ key, key ∈ more' ↔ extra key ∨ key ∈ loaded' := by
  obtain ⟨source, events, hsource, hrun⟩ := h
  have hagree : Agree extra
      (⟨[⟨source.program, some source.key⟩], state, loaded⟩ : Machine Path Key State)
      ⟨[⟨source.program, some source.key⟩], state, more⟩ := ⟨rfl, rfl, hmore⟩
  obtain ⟨⟨stack, state'', more'⟩, hrun', hstack, hstate, hmore'⟩ := run_agree hagree hrun rfl hextra
  simp only at hstack hstate hmore'
  subst hstack hstate
  exact ⟨more', ⟨source, events, hsource, hrun'⟩, hmore'⟩

/-- A call runs the evaluation of the file. -/
theorem Evaluates.call {once : Bool} {path : Path} {continuation : Program Path State}
    {key : Option Key} {rest : List (Frame Path Key State)} {state state' : State}
    {loaded loaded' : List Key} {source : Source Path Key State}
    (h : Evaluates sources path state loaded state' loaded') (hsource : sources path = some source)
    (hfresh : once = true → source.key ∉ loaded) :
    ∃ events, Run (Step sources) ⟨⟨.load once path continuation, key⟩ :: rest, state, loaded⟩ events
      ⟨⟨continuation, key⟩ :: rest, state', loaded'⟩ := by
  obtain ⟨source', events, hsource', hrun⟩ := h
  obtain rfl : source = source' := Option.some.inj (hsource.symm.trans hsource')
  exact ⟨_, .cons (step_enter hsource hfresh) (run_append hrun (⟨continuation, key⟩ :: rest))⟩

/-! ## One evaluation behind -/

section

variable {base : Path} {baseSource : Source Path Key State} {known ahead : List Key}

/-- The first machine is behind the second by one evaluation of `base`. -/
structure Behind (sources : Sources Path Key State) (base : Path) (baseKey : Key)
    (known ahead : List Key) (machine machine' : Machine Path Key State) : Prop where
  stack : machine'.stack = machine.stack
  fresh : baseKey ∉ machine.loaded
  evaluates : ∃ loaded', Evaluates sources base machine.state machine.loaded machine'.state loaded' ∧
    SameKeys loaded' machine'.loaded
  known_loaded : known ⊆ machine.loaded
  ahead_loaded : ahead ⊆ machine'.loaded
  /-- What only the second machine has registered, it had registered from the start. -/
  ahead_only : ∀ key ∈ machine'.loaded, key ∈ machine.loaded ∨ key ∈ ahead
  pending : ∀ key ∈ machine.pending, key ∈ ahead → key ∈ known

omit [DecidableEq Key] in
theorem pending_cons (frame : Frame Path Key State) (rest : List (Frame Path Key State))
    (state state' : State) (loaded loaded' : List Key) (key : Key) :
    key ∈ (⟨frame :: rest, state, loaded⟩ : Machine Path Key State).pending ↔
      key ∈ frame.key.toList ∨ key ∈ (⟨rest, state', loaded'⟩ : Machine Path Key State).pending := by
  simp [Machine.pending]

/-- Registering a file that is done keeps the machines apart by one evaluation. -/
theorem Behind.register {key : Key} {rest : List (Frame Path Key State)} {state state' : State}
    {loaded loaded' : List Key} (hahead : baseSource.key ∈ ahead) (hknown : baseSource.key ∉ known)
    (h : Behind sources base baseSource.key known ahead
      ⟨⟨.done, some key⟩ :: rest, state, loaded⟩ ⟨⟨.done, some key⟩ :: rest, state', loaded'⟩) :
    Behind sources base baseSource.key known ahead
      ⟨rest, state, key :: loaded⟩ ⟨rest, state', key :: loaded'⟩ := by
  obtain ⟨-, hfresh, ⟨after, hevaluates, hsame⟩, hknownLoaded, haheadLoaded, honly, hpending⟩ := h
  simp only at hfresh hevaluates hsame hknownLoaded haheadLoaded honly
  have hkey : key ∈ ahead → key ∈ known :=
    hpending key (by simp [Machine.pending])
  have hextra : ∀ other, (other = key ∧ key ∉ loaded) → other ∉ after := by
    rintro other ⟨rfl, hnot⟩ hmem
    rcases honly other ((hsame other).mpr hmem) with hloaded | hother
    · exact hnot hloaded
    · exact hnot (hknownLoaded (hkey hother))
  have hmore : ∀ other, other ∈ key :: loaded ↔ (other = key ∧ key ∉ loaded) ∨ other ∈ loaded := by
    intro other
    rw [List.mem_cons]
    by_cases hother : other = key <;> by_cases hloaded : key ∈ loaded <;> simp [hother, hloaded]
  obtain ⟨after', hevaluates', hafter'⟩ := hevaluates.agree hmore hextra
  refine ⟨rfl, ?_, ⟨after', hevaluates', ?_⟩, ?_, ?_, ?_, ?_⟩
  · rintro (_ | _)
    · exact hknown (hkey hahead)
    · contradiction
  · intro other
    simp only [hafter', List.mem_cons, hsame other]
    constructor
    · rintro (rfl | hmem)
      · by_cases hloaded : other ∈ loaded
        · exact .inr (hevaluates.loaded_subset hloaded)
        · exact .inl ⟨rfl, hloaded⟩
      · exact .inr hmem
    · rintro (⟨rfl, -⟩ | hmem)
      · exact .inl rfl
      · exact .inr hmem
  · exact List.subset_cons_of_subset _ hknownLoaded
  · exact List.subset_cons_of_subset _ haheadLoaded
  · intro other hother
    rcases List.mem_cons.mp hother with rfl | hother
    · exact .inl (List.mem_cons_self ..)
    · exact (honly other hother).imp_left (List.mem_cons_of_mem _)
  · intro other hother
    exact hpending other ((pending_cons _ _ _ _ _ _ _).mpr (.inr hother))

/-- **One independent step of the machine that is ahead.** -/
theorem Behind.step {machine machine' after' : Machine Path Key State} {event : Event Path}
    (hahead : baseSource.key ∈ ahead) (hknown : baseSource.key ∉ known)
    (h : Behind sources base baseSource.key known ahead machine machine')
    (hstep : Step sources machine' event after')
    (hindependent : ∀ frame ∈ machine'.stack.head?,
      Independent sources base baseSource.key known ahead frame.program) :
    ∃ events after, Run (Step sources) machine events after ∧
      Behind sources base baseSource.key known ahead after after' := by
  obtain ⟨stack, state, loaded⟩ := machine
  obtain ⟨stack', state', loaded'⟩ := machine'
  have hstack : stack' = stack := h.stack
  subst hstack
  rcases step_cases hstep with ⟨key, rest, hstack, rfl, rfl⟩ |
    ⟨effect, continuation, key, rest, state'', hstack, heffect, rfl, rfl⟩ |
    ⟨path, continuation, key, rest, source, hstack, hsource, hloaded, rfl, rfl⟩ |
    ⟨once, path, continuation, key, rest, source, hstack, hsource, hfresh, rfl, rfl⟩ <;>
    simp only at hstack <;> subst hstack <;>
    simp only [List.head?_cons, Option.mem_def, Option.some.injEq, forall_eq'] at hindependent
  · -- a file is done
    refine ⟨_, _, .cons step_leave (.nil _), ?_⟩
    cases key with
    | some key => exact h.register hahead hknown
    | none => exact ⟨rfl, h.fresh, h.evaluates, h.known_loaded, h.ahead_loaded, h.ahead_only, fun key hkey =>
        h.pending key ((pending_cons _ _ _ _ _ _ _).mpr (.inr hkey))⟩
  · -- an effect
    obtain ⟨after, hevaluates, hsame⟩ := h.evaluates
    obtain ⟨before, more, heffect', hevaluates', hsame', hnext⟩ :=
      hindependent _ _ _ _ _ h.fresh hevaluates heffect
    refine ⟨_, _, .cons (step_act heffect') (.nil _), ?_⟩
    rw [hnext]
    exact ⟨rfl, h.fresh, ⟨more, hevaluates', fun key => (hsame key).trans (hsame' key).symm⟩, h.known_loaded,
      h.ahead_loaded, h.ahead_only, h.pending⟩
  · -- a load that the machine ahead skips
    obtain ⟨after, hevaluates, hsame⟩ := h.evaluates
    by_cases hknownKey : source.key ∈ loaded
    · exact ⟨_, _, .cons (step_skip hsource hknownKey) (.nil _), rfl, h.fresh, h.evaluates, h.known_loaded,
        h.ahead_loaded, h.ahead_only, h.pending⟩
    · have hafter : source.key ∈ after := (hsame _).mp hloaded
      obtain ⟨before, loadedBefore, more, hpathEvaluates, hfresh', hbaseEvaluates, hsame'⟩ :=
        hindependent source _ _ _ _ hsource h.fresh hevaluates hafter hknownKey
      obtain ⟨events, hrun⟩ := hpathEvaluates.call hsource (fun _ => hknownKey)
      refine ⟨events, _, hrun, rfl, hfresh', ⟨more, hbaseEvaluates,
        fun key => (hsame key).trans (hsame' key).symm⟩, ?_, h.ahead_loaded, ?_, h.pending⟩
      · exact List.Subset.trans h.known_loaded hpathEvaluates.loaded_subset
      · intro key hkey
        exact (h.ahead_only key hkey).imp_left fun hmem => hpathEvaluates.loaded_subset hmem
  · -- a load that both machines carry out
    have hnot : once = true → source.key ∉ loaded := by
      intro honce hmem
      obtain ⟨after, hevaluates, hsame⟩ := h.evaluates
      exact hfresh honce ((hsame _).mpr (hevaluates.loaded_subset hmem))
    have hkey : source.key ∈ ahead → source.key ∈ known := by
      intro hmem
      cases once with
      | true => exact absurd (h.ahead_loaded hmem) (hfresh rfl)
      | false => exact hindependent source hsource hmem
    refine ⟨_, _, .cons (step_enter hsource hnot) (.nil _), rfl, h.fresh, h.evaluates, h.known_loaded, h.ahead_loaded,
      h.ahead_only, ?_⟩
    intro other hother
    rcases (pending_cons _ _ _ state _ loaded _).mp hother with hnew | hold
    · obtain rfl : other = source.key := by simpa using hnew
      exact hkey
    · exact h.pending other hold

/-- The call of `base` brings the machines together. -/
theorem Behind.call {machine machine' after' : Machine Path Key State}
    (hbase : sources base = some baseSource)
    (h : Behind sources base baseSource.key known ahead machine machine')
    (hstep : Step sources machine' (.skip base) after') :
    ∃ events after, Run (Step sources) machine events after ∧ Alike after' after := by
  obtain ⟨stack, state, loaded⟩ := machine
  obtain ⟨stack', state', loaded'⟩ := machine'
  have hstack : stack' = stack := h.stack
  subst hstack
  rcases step_cases hstep with ⟨_, _, _, hevent, _⟩ | ⟨_, _, _, _, _, _, _, hevent, _⟩ |
    ⟨path, continuation, key, rest, source, hstack, hsource, hloaded, hevent, rfl⟩ |
    ⟨_, _, _, _, _, _, _, _, _, hevent, _⟩ <;> cases hevent
  simp only at hstack
  subst hstack
  obtain ⟨after, hevaluates, hsame⟩ := h.evaluates
  obtain ⟨events, hrun⟩ := hevaluates.call hbase (fun _ => h.fresh)
  exact ⟨events, _, hrun, rfl, rfl, fun key => by simpa using (hsame key).symm⟩

/-- **Loading ahead.**  A finished run in the state that `base` leaves behind is matched by
a run without `base` loaded ahead, if all steps before its call of `base` are
independent of `base`. -/
theorem Behind.run {machine machine' final' : Machine Path Key State} {early late : List (Event Path)}
    (hbase : sources base = some baseSource) (hahead : baseSource.key ∈ ahead)
    (hknown : baseSource.key ∉ known)
    (h : Behind sources base baseSource.key known ahead machine machine')
    (hrun : Run (Step sources) machine' (early ++ .skip base :: late) final')
    (hdone : final'.stack = [])
    (hearly : ∀ before event after middle middle', early = before ++ event :: after →
      Run (Step sources) machine' before middle → Step sources middle event middle' →
      ∀ frame ∈ middle.stack.head?,
        Independent sources base baseSource.key known ahead frame.program) :
    ∃ events final, Run (Step sources) machine events final ∧ Alike final' final := by
  induction early generalizing machine machine' with
  | nil =>
      cases hrun with
      | cons hstep hlate =>
          obtain ⟨events, middle, hcall, halike⟩ := h.call hbase hstep
          obtain ⟨final, hrun', hfinal⟩ := run_alike halike hlate hdone
          exact ⟨_, final, hcall.append hrun', hfinal⟩
  | cons event early ih =>
      cases hrun with
      | @cons _ second _ _ _ hstep hrest =>
          have hfirst : ∀ frame ∈ machine'.stack.head?,
              Independent sources base baseSource.key known ahead frame.program :=
            hearly [] event early machine' second rfl (.nil _) hstep
          obtain ⟨events, middle, hstart, hbehind⟩ := h.step hahead hknown hstep hfirst
          have hearly' : ∀ before event' after third fourth, early = before ++ event' :: after →
              Run (Step sources) second before third → Step sources third event' fourth →
              ∀ frame ∈ third.stack.head?,
                Independent sources base baseSource.key known ahead frame.program := by
            intro before event' after third fourth hsplit hbefore hthird
            exact hearly (event :: before) event' after third fourth (by rw [hsplit]; rfl)
              (.cons hstep hbefore) hthird
          obtain ⟨events', final, hrun', hfinal⟩ := ih hbehind hrest hearly'
          exact ⟨_, final, hstart.append hrun', hfinal⟩

/-- Before the program starts, it is behind by the evaluation that was done ahead. -/
theorem Behind.start {program : Program Path State} {state state' : State}
    (hevaluates : Evaluates sources base state known state' ahead) (hknown : baseSource.key ∉ known) :
    Behind sources base baseSource.key known ahead
      ⟨[⟨program, none⟩], state, known⟩ ⟨[⟨program, none⟩], state', ahead⟩ := by
  refine ⟨rfl, hknown, ⟨ahead, hevaluates, fun _ => Iff.rfl⟩, List.Subset.refl _, List.Subset.refl _,
    fun _ hkey => .inr hkey, ?_⟩
  intro key hkey
  simp [Machine.pending] at hkey

end

end Hearth.Library.Loading
