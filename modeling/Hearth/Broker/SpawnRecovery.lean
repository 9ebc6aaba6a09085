import Hearth.Broker.SpawnTokens

/-!
# Recovery of a spawn that timed out

A recovery reads the token of the phrase that its client sent before, registers the late child and
fails to write its ACK path.  The client then reports a reusable seat.  Whether that is true rests on
three things: that the token names the one process forked for the attempt, that this handler is the only
one of the attempt, and that the process was gone when it left the registry.
-/

namespace Hearth.Broker

open Hearth.Library

section

variable {state after : SpawnState} {actor : SpawnActor}

/-! ## Connections -/

/-- An attempt has at most one connection that is being handled, and its client waits for it or has
given up. -/
structure ConnectionFacts (state : SpawnState) : Prop where
  awaited : ∀ connection, (state.phase connection).live = true →
    state.client connection.attemptId = .awaiting connection.number ∨
      state.client connection.attemptId = .gaveUp
  alone : ∀ connection other, (state.phase connection).live = true → (state.phase other).live = true →
    connection.attemptId = other.attemptId → connection = other

/-- A handler that steps was handling its request, and goes on from there. -/
theorem SpawnStep.live {connection : Connection} {shared later : SpawnShared} {phase next : SpawnPhase}
    (hstep : SpawnStep connection shared phase next later) :
    phase.live = true ∧ next ≠ .absent ∧ next ≠ .waiting := by
  cases hstep <;> exact ⟨rfl, nofun, nofun⟩

theorem connectionFacts_start : ConnectionFacts .start where
  awaited _ hlive := nomatch hlive
  alone _ _ hlive := nomatch hlive

/-- A client that is not in a connection moves on. -/
theorem ConnectionFacts.setClient (h : ConnectionFacts state) {attemptId : String} {client : ClientPhase}
    (hclient : client = .gaveUp ∨ ∀ connection, connection.attemptId = attemptId →
      (state.phase connection).live = false) : ConnectionFacts (state.setClient attemptId client) := by
  refine ⟨fun connection hlive => ?_, h.alone⟩
  show Function.update state.client attemptId client connection.attemptId = _ ∨
    Function.update state.client attemptId client connection.attemptId = _
  by_cases heq : connection.attemptId = attemptId
  · rw [heq, Function.update_self]
    rcases hclient with hgave | hnone
    · exact .inr hgave
    · have hdead : (state.phase connection).live = false := hnone connection heq
      rw [show (state.phase connection).live = true from hlive] at hdead
      cases hdead
  · rw [Function.update_of_ne heq]
    exact h.awaited connection hlive

theorem ConnectionFacts.step (h : ConnectionFacts state) (hstep : SystemStep state actor after) :
    ConnectionFacts after := by
  cases hstep with
  | basis | process | reap => exact ⟨h.awaited, h.alone⟩
  | @handler connection phase shared hstep =>
      have hlive : ∀ other, (Function.update state.phase connection phase other).live = true →
          (state.phase other).live = true := by
        intro other hother
        by_cases heq : other = connection
        · rw [heq]
          exact hstep.live.1
        · rwa [Function.update_of_ne heq] at hother
      exact ⟨fun other hother => h.awaited other (hlive other hother),
        fun one other hone hother => h.alone one other (hlive one hone) (hlive other hother)⟩
  | @connect attemptId number hclient habsent =>
      -- The client is between two connections, so none of the attempt is handled.
      have hnone : ∀ connection, connection.attemptId = attemptId →
          (state.phase connection).live = false := by
        intro connection heq
        by_contra hlive
        have hwaits := h.awaited connection (by simpa using hlive)
        rw [heq] at hwaits
        rcases hclient with ⟨hidle, -⟩ | hrecovering
        · rw [hidle] at hwaits
          rcases hwaits with hwaits | hwaits <;> cases hwaits
        · rw [hrecovering] at hwaits
          rcases hwaits with hwaits | hwaits <;> cases hwaits
      have hother : ∀ connection, connection ≠ ⟨attemptId, number⟩ →
          (Function.update state.phase ⟨attemptId, number⟩ .waiting connection).live = true →
            (state.phase connection).live = true ∧ connection.attemptId ≠ attemptId := by
        intro connection hne hlive
        rw [Function.update_of_ne hne] at hlive
        refine ⟨hlive, fun heq => ?_⟩
        rw [hnone connection heq] at hlive
        cases hlive
      refine ⟨fun connection hlive => ?_, fun one other hone hother' heq => ?_⟩
      · show Function.update state.client attemptId _ connection.attemptId = _ ∨
          Function.update state.client attemptId _ connection.attemptId = _
        by_cases hsame : connection = ⟨attemptId, number⟩
        · rw [hsame, Function.update_self]
          exact .inl rfl
        · obtain ⟨hold, hne⟩ := hother connection hsame hlive
          rw [Function.update_of_ne hne]
          exact h.awaited connection hold
      · by_cases hone' : one = ⟨attemptId, number⟩
        · by_contra hdiffer
          have hne : other ≠ ⟨attemptId, number⟩ := fun hsame => hdiffer (hone'.trans hsame.symm)
          refine (hother other hne hother').2 ?_
          rw [← heq, hone']
        · obtain ⟨hold, hne⟩ := hother one hone' hone
          have hother'' : other ≠ ⟨attemptId, number⟩ := by
            rintro rfl
            exact hne heq
          exact h.alone one other hold (hother other hother'' hother').1 heq
  | @receive attemptId number event hawaiting hreplied =>
      refine h.setClient (.inr fun connection heq => ?_)
      by_contra hlive
      rw [Bool.not_eq_false] at hlive
      have hwaits := h.awaited connection hlive
      rw [heq, hawaiting] at hwaits
      rcases hwaits with hwaits | hwaits
      · obtain rfl := ClientPhase.awaiting.inj hwaits
        obtain ⟨id, number⟩ := connection
        obtain rfl : id = attemptId := heq
        rw [hreplied] at hlive
        cases hlive
      · cases hwaits
  | @confirm attemptId hconfirming =>
      refine h.setClient (.inr fun connection heq => ?_)
      by_contra hlive
      have hwaits := h.awaited connection (by simpa using hlive)
      rw [heq, hconfirming] at hwaits
      rcases hwaits with hwaits | hwaits <;> cases hwaits
  | giveUp => exact h.setClient (.inl rfl)

/-! ## Forks -/

/-- The attempts whose phrases the basis has still to read. -/
def SpawnShared.queued (shared : SpawnShared) : List String :=
  shared.inbox.filterMap Script.token

/-- The phrase of an attempt is sent once and forks once, and its token names that process. -/
structure ForkFacts (state : SpawnState) : Prop where
  unsent : ∀ attemptId, state.phase ⟨attemptId, 0⟩ = .absent ∨ state.phase ⟨attemptId, 0⟩ = .waiting →
    attemptId ∉ state.shared.queued ∧ ∀ pid, state.shared.forkedFor pid ≠ some attemptId
  queued : ∀ attemptId ∈ state.shared.queued, ∀ pid, state.shared.forkedFor pid ≠ some attemptId
  once : state.shared.queued.Nodup
  single : ∀ attemptId pid other, state.shared.forkedFor pid = some attemptId →
    state.shared.forkedFor other = some attemptId → pid = other
  born : ∀ attemptId pid, state.shared.forkedFor pid = some attemptId → state.shared.process pid ≠ .unborn
  answered : ∀ attemptId pid, state.shared.answering = some (.spawned attemptId pid) →
    state.shared.forkedFor pid = some attemptId
  printed : ∀ attemptId pid, .spawned attemptId pid ∈ state.shared.pipe →
    state.shared.forkedFor pid = some attemptId
  read : ∀ connection attemptId pid, .spawned attemptId pid ∈ (state.phase connection).lines →
    state.shared.forkedFor pid = some attemptId
  held : ∀ connection pid, (state.phase connection).child = some pid →
    state.shared.forkedFor pid = some connection.attemptId

theorem forkFacts_start : ForkFacts .start where
  unsent _ _ := ⟨List.not_mem_nil, nofun⟩
  queued _ hmem := nomatch hmem
  once := List.nodup_nil
  single _ _ _ hforked := nomatch hforked
  born _ _ hforked := nomatch hforked
  answered _ _ hanswering := nomatch hanswering
  printed _ _ hmem := nomatch hmem
  read _ _ _ hmem := nomatch hmem
  held _ _ hchild := nomatch hchild

/-- A handler sends its script when it takes the lock. -/
theorem SpawnStep.queued {connection : Connection} {shared later : SpawnShared} {phase next : SpawnPhase}
    (hstep : SpawnStep connection shared phase next later) :
    later.queued = shared.queued ∨ phase = .waiting ∧ connection.number = 0 ∧
      later.queued = shared.queued ++ [connection.attemptId] := by
  cases hstep with
  | lock hfree =>
      by_cases hnumber : connection.number = 0
      · refine .inr ⟨rfl, hnumber, ?_⟩
        simp [SpawnShared.queued, Connection.script, hnumber, Script.token]
      · refine .inl ?_
        simp [SpawnShared.queued, Connection.script, hnumber, Script.token]
  | _ => exact .inl rfl

theorem ForkFacts.handlerStep (h : ForkFacts state) {connection : Connection} {phase : SpawnPhase}
    {shared : SpawnShared} (hstep : SpawnStep connection state.shared (state.phase connection) phase shared) :
    ForkFacts { state.setPhase connection phase with shared := shared } := by
  obtain ⟨hprocess, hforked, hanswering, hpipe⟩ := hstep.leaves
  obtain ⟨-, hnotAbsent, hnotWaiting⟩ := hstep.live
  have hqueued : ∀ attemptId ∈ shared.queued, attemptId ∈ state.shared.queued ∨
      state.phase connection = .waiting ∧ connection = ⟨attemptId, 0⟩ := by
    intro attemptId hmem
    rcases hstep.queued with hsame | ⟨hwaiting, hnumber, hsent⟩
    · exact .inl (hsame ▸ hmem)
    · rw [hsent] at hmem
      rcases List.mem_append.mp hmem with hold | hnew
      · exact .inl hold
      · obtain ⟨id, number⟩ := connection
        obtain rfl : attemptId = id := List.mem_singleton.mp hnew
        obtain rfl : number = 0 := hnumber
        exact .inr ⟨hwaiting, rfl⟩
  refine ⟨fun attemptId hphase => ?_, fun attemptId hmem pid => ?_, ?_, ?_, ?_, ?_, ?_, ?_, ?_⟩
  · change Function.update state.phase connection phase _ = _ ∨
      Function.update state.phase connection phase _ = _ at hphase
    by_cases heq : (⟨attemptId, 0⟩ : Connection) = connection
    · subst heq
      rw [Function.update_self] at hphase
      exact absurd hphase (not_or.mpr ⟨hnotAbsent, hnotWaiting⟩)
    · rw [Function.update_of_ne heq] at hphase
      obtain ⟨hnone, hunforked⟩ := h.unsent attemptId hphase
      refine ⟨fun hmem => ?_, fun pid => hforked ▸ hunforked pid⟩
      rcases hqueued attemptId hmem with hold | ⟨-, hsent⟩
      · exact hnone hold
      · exact heq hsent.symm
  · show shared.forkedFor pid ≠ _
    rw [hforked]
    rcases hqueued attemptId hmem with hold | ⟨hwaiting, rfl⟩
    · exact h.queued attemptId hold pid
    · exact (h.unsent attemptId (.inr hwaiting)).2 pid
  · show shared.queued.Nodup
    rcases hstep.queued with hsame | ⟨hwaiting, hnumber, hsent⟩
    · rw [hsame]
      exact h.once
    · obtain ⟨sent, number⟩ := connection
      obtain rfl : number = 0 := hnumber
      rw [hsent]
      apply h.once.append (List.nodup_singleton _)
      intro attemptId hold hnew
      obtain rfl : attemptId = sent := List.mem_singleton.mp hnew
      exact (h.unsent attemptId (.inr hwaiting)).1 hold
  · show ∀ attemptId pid other, shared.forkedFor pid = _ → shared.forkedFor other = _ → _
    rw [hforked]
    exact h.single
  · show ∀ attemptId pid, shared.forkedFor pid = _ → shared.process pid ≠ _
    rw [hforked, hprocess]
    exact h.born
  · show ∀ attemptId pid, shared.answering = _ → shared.forkedFor pid = _
    rw [hforked, hanswering]
    exact h.answered
  · show ∀ attemptId pid, _ ∈ shared.pipe → shared.forkedFor pid = _
    rw [hforked]
    exact fun attemptId pid hmem => h.printed attemptId pid (hpipe _ hmem)
  · intro other attemptId pid hmem
    show shared.forkedFor pid = _
    rw [hforked]
    change _ ∈ (Function.update state.phase connection phase other).lines at hmem
    by_cases heq : other = connection
    · rw [heq, Function.update_self] at hmem
      rcases hstep.reads hmem with hold | hnew
      · exact h.read connection attemptId pid hold
      · exact h.printed attemptId pid hnew
    · rw [Function.update_of_ne heq] at hmem
      exact h.read other attemptId pid hmem
  · intro other pid hchild
    show shared.forkedFor pid = _
    rw [hforked]
    change (Function.update state.phase connection phase other).child = _ at hchild
    by_cases heq : other = connection
    · rw [heq, Function.update_self] at hchild
      rw [heq]
      rcases hstep.child hchild with hold | houtcome
      · exact h.held connection pid hold
      · exact h.read connection _ pid (mem_of_spawnOutcome houtcome)
    · rw [Function.update_of_ne heq] at hchild
      exact h.held other pid hchild

/-- What the basis reads is sent no more. -/
theorem BasisStep.queued {shared later : SpawnShared} (hstep : BasisStep shared later) :
    later.queued.Sublist shared.queued := by
  cases hstep with
  | fork hinbox | refuse hinbox | skip hinbox =>
      unfold SpawnShared.queued
      rw [hinbox]
      exact (List.sublist_cons_self _ _).filterMap _
  | print | chatter => exact List.Sublist.refl _

/-- The process of the phrase that forks is the first of its attempt, and new. -/
theorem ForkFacts.fork (h : ForkFacts state) {attemptId : String} {rest : List Script} {pid : ℕ}
    (hinbox : state.shared.inbox = .phrase attemptId :: rest) (hunborn : state.shared.process pid = .unborn) :
    ForkFacts { state with
      shared := { state.shared.setProcess pid .forked with
        inbox := rest
        answering := some (.spawned attemptId pid)
        forkedFor := Function.update state.shared.forkedFor pid (some attemptId) } } := by
  have hqueue : state.shared.queued = attemptId :: rest.filterMap Script.token := by
    unfold SpawnShared.queued
    rw [hinbox]
    rfl
  have hmem : attemptId ∈ state.shared.queued := by
    rw [hqueue]
    exact List.mem_cons_self
  have hrest : ∀ {other : String}, other ∈ rest.filterMap Script.token →
      other ∈ state.shared.queued ∧ other ≠ attemptId := by
    intro other hother
    have honce := h.once
    rw [hqueue, List.nodup_cons] at honce
    refine ⟨by rw [hqueue]; exact List.mem_cons_of_mem _ hother, ?_⟩
    rintro rfl
    exact honce.1 hother
  -- A process that was forked before is another one.
  have hkeep : ∀ {other : ℕ} {name : String}, state.shared.forkedFor other = some name →
      Function.update state.shared.forkedFor pid (some attemptId) other = some name := by
    intro other name hforked
    have hne : other ≠ pid := by
      rintro rfl
      exact h.born name other hforked hunborn
    rw [Function.update_of_ne hne]
    exact hforked
  have hcases : ∀ {other : ℕ} {name : String},
      Function.update state.shared.forkedFor pid (some attemptId) other = some name →
        other = pid ∧ name = attemptId ∨ other ≠ pid ∧ state.shared.forkedFor other = some name := by
    intro other name hforked
    by_cases heq : other = pid
    · rw [heq, Function.update_self] at hforked
      exact .inl ⟨heq, (Option.some.inj hforked).symm⟩
    · rw [Function.update_of_ne heq] at hforked
      exact .inr ⟨heq, hforked⟩
  refine ⟨fun other hphase => ?_, fun other hother found hforked => ?_, ?_, fun name one other hone hother => ?_,
    fun name other hforked => ?_, fun name other hanswering => ?_, fun name other hprinted => ?_,
    fun connection name other hread => ?_, fun connection other hchild => ?_⟩
  · obtain ⟨hnone, hunforked⟩ := h.unsent other hphase
    refine ⟨fun hother => hnone (hrest hother).1, fun found hforked => ?_⟩
    rcases hcases hforked with ⟨-, rfl⟩ | ⟨-, hold⟩
    · exact hnone hmem
    · exact hunforked found hold
  · rcases hcases hforked with ⟨-, rfl⟩ | ⟨-, hold⟩
    · exact (hrest hother).2 rfl
    · exact h.queued other (hrest hother).1 found hold
  · have honce := h.once
    rw [hqueue, List.nodup_cons] at honce
    exact honce.2
  · rcases hcases hone with ⟨rfl, rfl⟩ | ⟨-, hfirst⟩ <;>
      rcases hcases hother with ⟨rfl, hname⟩ | ⟨-, hsecond⟩
    · rfl
    · exact absurd hsecond (h.queued name hmem other)
    · rw [hname] at hfirst
      exact absurd hfirst (h.queued attemptId hmem one)
    · exact h.single name one other hfirst hsecond
  · show Function.update state.shared.process pid .forked other ≠ .unborn
    rcases hcases hforked with ⟨rfl, -⟩ | ⟨hne, hold⟩
    · rw [Function.update_self]
      exact nofun
    · rw [Function.update_of_ne hne]
      exact h.born name other hold
  · obtain ⟨rfl, rfl⟩ := BasisLine.spawned.inj (Option.some.inj hanswering)
    exact Function.update_self _ _ _
  · exact hkeep (h.printed name other hprinted)
  · exact hkeep (h.read connection name other hread)
  · exact hkeep (h.held connection other hchild)

/-- Steps that fork nothing and print only what was answered. -/
theorem ForkFacts.mono (h : ForkFacts state)
    (hphase : ∀ connection, after.phase connection = state.phase connection ∨
      state.phase connection = .absent ∧ after.phase connection = .waiting)
    (hqueued : after.shared.queued.Sublist state.shared.queued)
    (hforked : after.shared.forkedFor = state.shared.forkedFor)
    (hborn : ∀ pid, state.shared.process pid ≠ .unborn → after.shared.process pid ≠ .unborn)
    (hanswering : ∀ attemptId pid, after.shared.answering = some (.spawned attemptId pid) →
      state.shared.forkedFor pid = some attemptId)
    (hprinted : ∀ attemptId pid, .spawned attemptId pid ∈ after.shared.pipe →
      state.shared.forkedFor pid = some attemptId) : ForkFacts after := by
  refine ⟨fun attemptId hunsent => ?_, fun attemptId hmem => ?_, h.once.sublist hqueued, ?_, ?_, ?_, ?_, ?_, ?_⟩
  · rw [hforked]
    have hbefore : state.phase ⟨attemptId, 0⟩ = .absent ∨ state.phase ⟨attemptId, 0⟩ = .waiting := by
      rcases hphase ⟨attemptId, 0⟩ with hsame | ⟨habsent, -⟩
      · rwa [hsame] at hunsent
      · exact .inl habsent
    obtain ⟨hnone, hunforked⟩ := h.unsent attemptId hbefore
    exact ⟨fun hmem => hnone (hqueued.subset hmem), hunforked⟩
  · rw [hforked]
    exact h.queued attemptId (hqueued.subset hmem)
  · rw [hforked]
    exact h.single
  · rw [hforked]
    exact fun attemptId pid hpid => hborn pid (h.born attemptId pid hpid)
  · rw [hforked]
    exact hanswering
  · rw [hforked]
    exact hprinted
  · intro connection attemptId pid hmem
    rw [hforked]
    rcases hphase connection with hsame | ⟨-, hwaiting⟩
    · rw [hsame] at hmem
      exact h.read connection attemptId pid hmem
    · rw [hwaiting] at hmem
      cases hmem
  · intro connection pid hchild
    rw [hforked]
    rcases hphase connection with hsame | ⟨-, hwaiting⟩
    · rw [hsame] at hchild
      exact h.held connection pid hchild
    · rw [hwaiting] at hchild
      cases hchild

/-- A process that is born stays so. -/
theorem SpawnedStep.born {shared later : SpawnShared} {pid : ℕ} (hstep : SpawnedStep shared pid later)
    {other : ℕ} (hborn : shared.process other ≠ .unborn) : later.process other ≠ .unborn := by
  have hset : ∀ process : ChildProcess, process ≠ .unborn →
      Function.update shared.process pid process other ≠ .unborn := by
    intro process hprocess
    by_cases heq : other = pid
    · rwa [heq, Function.update_self]
    · rwa [Function.update_of_ne heq]
  cases hstep with
  | lead => exact hset .leading nofun
  | orphan => exact hset .orphaned nofun
  | die => exact hset .gone nofun

theorem ForkFacts.step (h : ForkFacts state) (hstep : SystemStep state actor after) : ForkFacts after := by
  cases hstep with
  | basis hstep =>
      have hqueued := hstep.queued
      cases hstep with
      | fork hinbox _ hunborn => exact h.fork hinbox hunborn
      | refuse => exact h.mono (fun _ => .inl rfl) hqueued rfl (fun _ hborn => hborn) nofun h.printed
      | skip => exact h.mono (fun _ => .inl rfl) hqueued rfl (fun _ hborn => hborn) h.answered h.printed
      | print hline =>
          refine h.mono (fun _ => .inl rfl) hqueued rfl (fun _ hborn => hborn) nofun ?_
          intro attemptId pid hmem
          rcases List.mem_append.mp hmem with hold | hnew
          · exact h.printed attemptId pid hold
          · rw [← List.mem_singleton.mp hnew] at hline
            exact h.answered attemptId pid hline
      | chatter =>
          refine h.mono (fun _ => .inl rfl) hqueued rfl (fun _ hborn => hborn) h.answered ?_
          intro attemptId pid hmem
          rcases List.mem_append.mp hmem with hold | hnew
          · exact h.printed attemptId pid hold
          · cases List.mem_singleton.mp hnew
  | @process pid shared hstep =>
      have hborn : ∀ other, state.shared.process other ≠ .unborn → shared.process other ≠ .unborn :=
        fun _ => hstep.born
      cases hstep <;>
        exact h.mono (fun _ => .inl rfl) (List.Sublist.refl _) rfl hborn h.answered h.printed
  | reap =>
      exact h.mono (fun _ => .inl rfl) (List.Sublist.refl _) rfl (fun _ hborn => hborn) h.answered h.printed
  | handler hstep => exact h.handlerStep hstep
  | @connect attemptId number _ habsent =>
      refine h.mono (fun connection => ?_) (List.Sublist.refl _) rfl (fun _ hborn => hborn) h.answered h.printed
      show Function.update state.phase ⟨attemptId, number⟩ .waiting connection = _ ∨
        _ ∧ Function.update state.phase ⟨attemptId, number⟩ .waiting connection = _
      by_cases heq : connection = ⟨attemptId, number⟩
      · subst heq
        exact .inr ⟨habsent, Function.update_self _ _ _⟩
      · exact .inl (Function.update_of_ne heq _ _)
  | receive | confirm | giveUp =>
      exact h.mono (fun _ => .inl rfl) (List.Sublist.refl _) rfl (fun _ hborn => hborn) h.answered h.printed

/-! ## Late children -/

/-- The process is gone, or the registry has it. -/
def SpawnShared.Accounted (shared : SpawnShared) (pid : ℕ) : Prop :=
  shared.process pid = .gone ∨ ∃ child ∈ shared.children, child.pid = pid

/-- The process that was forked for the attempt is gone. -/
def SpawnShared.Quiesced (shared : SpawnShared) (attemptId : String) : Prop :=
  ∃ pid, shared.forkedFor pid = some attemptId ∧ shared.process pid = .gone

/-- What a blocked ACK path says about the child of its attempt. -/
structure LateFacts (state : SpawnState) : Prop where
  listed : ∀ connection pid, (state.phase connection).listed = some pid → state.shared.Accounted pid
  blocked : ∀ connection, state.phase connection = .raising .blocked →
    ∃ pid, state.shared.forkedFor pid = some connection.attemptId ∧ state.shared.Accounted pid
  reported : ∀ connection, state.phase connection = .replied (.error .blocked []) →
    state.shared.Quiesced connection.attemptId
  confirmed : ∀ attemptId, state.client attemptId = .confirming ∨ state.client attemptId = .recovered →
    state.shared.Quiesced attemptId

theorem lateFacts_start : LateFacts .start where
  listed _ _ hlisted := nomatch hlisted
  blocked _ hphase := nomatch hphase
  reported _ hphase := nomatch hphase
  confirmed _ hclient := by rcases hclient with hclient | hclient <;> cases hclient

/-- Steps that revive no process and forget no child that is not gone. -/
theorem LateFacts.mono (h : LateFacts state)
    (hphase : ∀ connection, after.phase connection = state.phase connection ∨
      after.phase connection = .waiting)
    (hclient : after.client = state.client)
    (hforked : ∀ attemptId pid, state.shared.forkedFor pid = some attemptId →
      after.shared.forkedFor pid = some attemptId)
    (hgone : ∀ pid, state.shared.process pid = .gone → after.shared.process pid = .gone)
    (haccounted : ∀ pid, state.shared.Accounted pid → after.shared.Accounted pid) : LateFacts after := by
  have hquiesced : ∀ attemptId, state.shared.Quiesced attemptId → after.shared.Quiesced attemptId := by
    rintro attemptId ⟨pid, hpid, hdead⟩
    exact ⟨pid, hforked attemptId pid hpid, hgone pid hdead⟩
  refine ⟨fun connection pid hlisted => ?_, fun connection hraising => ?_, fun connection hreplied => ?_, ?_⟩
  · rcases hphase connection with hsame | hwaiting
    · rw [hsame] at hlisted
      exact haccounted pid (h.listed connection pid hlisted)
    · rw [hwaiting] at hlisted
      cases hlisted
  · rcases hphase connection with hsame | hwaiting
    · rw [hsame] at hraising
      obtain ⟨pid, hpid, hlist⟩ := h.blocked connection hraising
      exact ⟨pid, hforked _ pid hpid, haccounted pid hlist⟩
    · rw [hwaiting] at hraising
      cases hraising
  · rcases hphase connection with hsame | hwaiting
    · rw [hsame] at hreplied
      exact hquiesced _ (h.reported connection hreplied)
    · rw [hwaiting] at hreplied
      cases hreplied
  · rw [hclient]
    exact fun attemptId hold => hquiesced attemptId (h.confirmed attemptId hold)

theorem spawnOutcome_ne_blocked (attemptId : String) (lines : List BasisLine) :
    spawnOutcome attemptId lines ≠ .error .blocked := by
  fun_induction spawnOutcome attemptId lines with
  | case1 => exact nofun
  | case2 => exact nofun
  | case3 _ _ _ _ ih => exact ih
  | case4 => exact nofun
  | case5 _ _ _ ih => exact ih
  | case6 _ ih => exact ih

theorem SpawnPhase.child_of_listed {phase : SpawnPhase} {pid : ℕ} (h : phase.listed = some pid) :
    phase.child = some pid := by
  cases phase with
  | registered | acknowledged | disowning | disowned | serving => exact h
  | _ => cases h

theorem SpawnPhase.live_of_child {phase : SpawnPhase} {pid : ℕ} (h : phase.child = some pid) :
    phase.live = true := by
  cases phase with
  | absent | replied => cases h
  | _ => rfl

/-- The child of an attempt leaves the registry with its own handler, or when it is gone. -/
theorem LateFacts.accounted (hconnections : ConnectionFacts state) (hforks : ForkFacts state)
    {connection other : Connection} {phase : SpawnPhase} {shared : SpawnShared}
    (hstep : SpawnStep connection state.shared (state.phase connection) phase shared)
    (hne : other ≠ connection) (hlive : (state.phase other).live = true) {pid : ℕ}
    (hforked : state.shared.forkedFor pid = some other.attemptId)
    (haccounted : state.shared.Accounted pid) : shared.Accounted pid := by
  have hprocess := hstep.leaves.1
  unfold SpawnShared.Accounted
  rw [hprocess]
  rcases haccounted with hgone | ⟨child, hchild, rfl⟩
  · exact .inl hgone
  · rcases hstep.unlists hchild with hkept | hgone | ⟨error, hphase, -⟩
    · exact .inr hkept
    · exact .inl hgone
    · have hholds : (state.phase connection).child = some child.pid := by
        rw [hphase]
        rfl
      have hsame := hforks.held connection child.pid hholds
      rw [hforked] at hsame
      exact absurd (hconnections.alone other connection hlive (SpawnPhase.live_of_child hholds)
        (Option.some.inj hsame)) hne

theorem LateFacts.handlerStep (h : LateFacts state) (hconnections : ConnectionFacts state)
    (hforks : ForkFacts state) {connection : Connection} {phase : SpawnPhase} {shared : SpawnShared}
    (hstep : SpawnStep connection state.shared (state.phase connection) phase shared)
    (hquiet : ∀ pid, state.phase connection = .disowned pid .blocked → state.shared.process pid ≠ .forked) :
    LateFacts { state.setPhase connection phase with shared := shared } := by
  obtain ⟨hprocess, hforked, -⟩ := hstep.leaves
  have hquiesced : ∀ attemptId, state.shared.Quiesced attemptId → shared.Quiesced attemptId := by
    rintro attemptId ⟨pid, hpid, hgone⟩
    exact ⟨pid, hforked ▸ hpid, hprocess ▸ hgone⟩
  refine ⟨fun other pid hlisted => ?_, fun other hraising => ?_, fun other hreplied => ?_,
    fun attemptId hclient => hquiesced attemptId (h.confirmed attemptId hclient)⟩
  · change (Function.update state.phase connection phase other).listed = _ at hlisted
    show shared.Accounted pid
    by_cases heq : other = connection
    · rw [heq, Function.update_self] at hlisted
      rcases hstep.listed hlisted with hlater | ⟨hold, hchildren⟩
      · exact .inr hlater
      · unfold SpawnShared.Accounted
        rw [hprocess, hchildren]
        exact h.listed connection pid hold
    · rw [Function.update_of_ne heq] at hlisted
      have hchild := SpawnPhase.child_of_listed hlisted
      exact LateFacts.accounted hconnections hforks hstep heq (SpawnPhase.live_of_child hchild)
        (hforks.held other pid hchild) (h.listed other pid hlisted)
  · change Function.update state.phase connection phase other = _ at hraising
    show ∃ pid, shared.forkedFor pid = _ ∧ shared.Accounted pid
    rw [hforked]
    by_cases heq : other = connection
    · subst heq
      rw [Function.update_self] at hraising
      subst hraising
      generalize hphase : state.phase other = earlier at hstep
      cases hstep with
      | unspawned houtcome => exact absurd houtcome (spawnOutcome_ne_blocked _ _)
      | @disownedQuiescent pid _ hgroup =>
          have hholds := hforks.held other pid (by rw [hphase]; rfl)
          refine ⟨pid, hholds, .inl ?_⟩
          -- Of the processes that have no group, only one that is gone is left.
          cases hpid : state.shared.process pid with
          | unborn => exact absurd hpid (hforks.born _ pid hholds)
          | forked => exact absurd hpid (hquiet pid hphase)
          | leading | orphaned =>
              rw [hpid] at hgroup
              cases hgroup
          | gone => exact hpid
      | @disownedAlive pid =>
          exact ⟨pid, hforks.held other pid (by rw [hphase]; rfl),
            h.listed other pid (by rw [hphase]; rfl)⟩
    · rw [Function.update_of_ne heq] at hraising
      obtain ⟨pid, hpid, haccounted⟩ := h.blocked other hraising
      exact ⟨pid, hpid, LateFacts.accounted hconnections hforks hstep heq (by rw [hraising]; rfl) hpid
        haccounted⟩
  · change Function.update state.phase connection phase other = _ at hreplied
    by_cases heq : other = connection
    · subst heq
      rw [Function.update_self] at hreplied
      subst hreplied
      generalize hphase : state.phase other = earlier at hstep
      generalize hchildren : ([] : List ChildRecord) = children at hstep
      cases hstep with
      | reply =>
          obtain ⟨pid, hpid, haccounted⟩ := h.blocked other hphase
          refine ⟨pid, hpid, ?_⟩
          rcases haccounted with hgone | ⟨child, hchild, -⟩
          · exact hgone
          · have hmem := ActiveBrokerChildren.mem_snapshot.mpr hchild
            rw [← hchildren] at hmem
            cases hmem
    · rw [Function.update_of_ne heq] at hreplied
      exact hquiesced _ (h.reported other hreplied)

/-- A client that takes the word of a blocked ACK path. -/
theorem LateFacts.setClient (h : LateFacts state) {attemptId : String} {client : ClientPhase}
    (hclient : client = .confirming ∨ client = .recovered → state.shared.Quiesced attemptId) :
    LateFacts (state.setClient attemptId client) := by
  refine ⟨h.listed, h.blocked, h.reported, fun other hother => ?_⟩
  change Function.update state.client attemptId client other = _ ∨
    Function.update state.client attemptId client other = _ at hother
  by_cases heq : other = attemptId
  · rw [heq, Function.update_self] at hother
    rw [heq]
    exact hclient hother
  · rw [Function.update_of_ne heq] at hother
    exact h.confirmed other hother

/-- What is confirmed was reported behind a blocked ACK path. -/
theorem ClientPhase.receive_confirming {number : ℕ} {event : SpawnEvent}
    (h : ClientPhase.receive number event = .confirming ∨ ClientPhase.receive number event = .recovered) :
    event = .error .blocked [] := by
  unfold ClientPhase.receive at h
  split at h
  · rcases h with h | h <;> cases h
  · split at h
    · rcases h with h | h <;> cases h
    · rcases h with h | h <;> cases h
    · rfl
    · rcases h with h | h <;> cases h

theorem LateFacts.step (h : LateFacts state) (hconnections : ConnectionFacts state) (hforks : ForkFacts state)
    (hstep : CarefulStep state actor after) : LateFacts after := by
  obtain ⟨hstep, hcareful⟩ := hstep
  -- Processes that are gone stay so, whatever is done to another.
  have hset : ∀ (pid : ℕ) (process : ChildProcess),
      (state.shared.process pid = .gone → process = .gone) → ∀ other, state.shared.process other = .gone →
        (state.shared.setProcess pid process).process other = .gone := by
    intro pid process hprocess other hgone
    show Function.update state.shared.process pid process other = .gone
    by_cases heq : other = pid
    · rw [heq, Function.update_self]
      exact hprocess (heq ▸ hgone)
    · rwa [Function.update_of_ne heq]
  cases hstep with
  | basis hstep =>
      cases hstep with
      | @fork attemptId rest pid hinbox _ hunborn =>
          have hgone := hset pid .forked fun hgone => by
            rw [hunborn] at hgone
            cases hgone
          refine h.mono (fun _ => .inl rfl) rfl (fun other found hforked => ?_) hgone
            (fun other haccounted => haccounted.imp (hgone other) id)
          show Function.update state.shared.forkedFor pid (some attemptId) found = _
          have hne : found ≠ pid := by
            rintro rfl
            exact hforks.born other found hforked hunborn
          rw [Function.update_of_ne hne]
          exact hforked
      | refuse | skip | print | chatter =>
          exact h.mono (fun _ => .inl rfl) rfl (fun _ _ hforked => hforked) (fun _ hgone => hgone)
            (fun _ haccounted => haccounted)
  | @process pid shared hstep =>
      cases hstep with
      | lead hforked =>
          have hgone := hset pid .leading fun hgone => by
            rw [hforked] at hgone
            cases hgone
          exact h.mono (fun _ => .inl rfl) rfl (fun _ _ hforked => hforked) hgone
            (fun other haccounted => haccounted.imp (hgone other) id)
      | orphan hleading =>
          have hgone := hset pid .orphaned fun hgone => by
            rw [hleading] at hgone
            cases hgone
          exact h.mono (fun _ => .inl rfl) rfl (fun _ _ hforked => hforked) hgone
            (fun other haccounted => haccounted.imp (hgone other) id)
      | die =>
          have hgone := hset pid .gone fun _ => rfl
          exact h.mono (fun _ => .inl rfl) rfl (fun _ _ hforked => hforked) hgone
            (fun other haccounted => haccounted.imp (hgone other) id)
  | @reap _ pid _ _ hgone =>
      refine h.mono (fun _ => .inl rfl) rfl (fun _ _ hforked => hforked) (fun _ hgone => hgone) ?_
      intro other haccounted
      rcases haccounted with hdead | ⟨child, hchild, rfl⟩
      · exact .inl hdead
      · by_cases heq : child.pid = pid
        · exact .inl (heq ▸ hgone)
        · exact .inr ⟨child, ActiveBrokerChildren.mem_unregister.mpr ⟨hchild, heq⟩, rfl⟩
  | @handler connection phase shared hstep =>
      exact h.handlerStep hconnections hforks hstep (hcareful connection rfl).2.2
  | @connect attemptId number hclient habsent =>
      have hopened : LateFacts (state.setPhase ⟨attemptId, number⟩ .waiting) := by
        refine h.mono (fun connection => ?_) rfl (fun _ _ hforked => hforked) (fun _ hgone => hgone)
          (fun _ haccounted => haccounted)
        show Function.update state.phase ⟨attemptId, number⟩ .waiting connection = _ ∨
          Function.update state.phase ⟨attemptId, number⟩ .waiting connection = _
        by_cases heq : connection = ⟨attemptId, number⟩
        · rw [heq, Function.update_self]
          exact .inr rfl
        · exact .inl (Function.update_of_ne heq _ _)
      exact hopened.setClient (by rintro (hnot | hnot) <;> cases hnot)
  | @receive attemptId number event _ hreplied =>
      refine h.setClient fun hreceived => ?_
      rw [ClientPhase.receive_confirming hreceived] at hreplied
      exact h.reported ⟨attemptId, number⟩ hreplied
  | @confirm attemptId hconfirming =>
      exact h.setClient fun _ => h.confirmed attemptId (.inl hconfirming)
  | giveUp => exact h.setClient (by rintro (hnot | hnot) <;> cases hnot)

end

/-! ## Isolation -/

/-- What the handshake promises: a token is read only by a handler of its attempt, a client never raises
on the timeout of its spawn, and a client that reports a reusable seat has no process left. -/
structure SpawnIsolation (state : SpawnState) : Prop where
  isolated : ∀ reader line, (reader, line) ∈ state.shared.consumed →
    ∀ attemptId, line.token = some attemptId → attemptId = reader
  recovers : ∀ attemptId children, state.client attemptId ≠ .raised 0 (.error .timedOut children)
  reusable : ∀ attemptId pid, state.client attemptId = .recovered →
    state.shared.forkedFor pid = some attemptId → state.shared.process pid = .gone

/-- A handler's step, where its phase is known. -/
theorem SystemStep.ofPhase {state : SpawnState} {connection : Connection} {phase next : SpawnPhase}
    {shared : SpawnShared} (hphase : state.phase connection = phase)
    (hstep : SpawnStep connection state.shared phase next shared) :
    SystemStep state (.handler connection) { state.setPhase connection next with shared := shared } := by
  subst hphase
  exact .handler hstep

/-- The phrase of the first attempt is answered while the handler of the second reads. -/
theorem late_token_run : ∃ labels state, Run SystemStep .start labels state ∧
    ("second", .spawned "first" 4711) ∈ state.shared.consumed :=
  ⟨[.client "first", .handler ⟨"first", 0⟩, .handler ⟨"first", 0⟩, .client "second",
      .handler ⟨"second", 0⟩, .basis, .basis, .handler ⟨"second", 0⟩], _,
    .cons (.connect (.inl ⟨rfl, rfl⟩) rfl) (.cons (.ofPhase rfl (.lock rfl)) (.cons
    (.ofPhase rfl (.timeOut rfl)) (.cons (.connect (.inl ⟨rfl, rfl⟩) rfl) (.cons
    (.ofPhase rfl (.lock rfl)) (.cons (.basis (@BasisStep.fork _ _ _ 4711 rfl rfl rfl)) (.cons
    (.basis (.print rfl)) (.cons
    (.ofPhase rfl (@SpawnStep.read _ _ _ [.spawned "first" 4711] [] rfl rfl)) (.nil _)))))))),
    List.mem_singleton_self _⟩

/-- The first attempt times out while the second has a child: its client raises. -/
theorem sibling_timeout_run : ∃ labels state, Run SystemStep .start labels state ∧
    state.client "first" = .raised 0 (.error .timedOut [⟨"second", 4711⟩]) :=
  ⟨[.client "second", .handler ⟨"second", 0⟩, .basis, .basis, .handler ⟨"second", 0⟩,
      .handler ⟨"second", 0⟩, .handler ⟨"second", 0⟩, .handler ⟨"second", 0⟩, .client "first",
      .handler ⟨"first", 0⟩, .handler ⟨"first", 0⟩, .handler ⟨"first", 0⟩, .client "first"], _,
    .cons (.connect (.inl ⟨rfl, rfl⟩) rfl) (.cons (.ofPhase rfl (.lock rfl)) (.cons
    (.basis (@BasisStep.fork _ _ _ 4711 rfl rfl rfl)) (.cons (.basis (.print rfl)) (.cons
    (.ofPhase rfl (@SpawnStep.read _ _ _ [.spawned "second" 4711] [] rfl rfl)) (.cons
    (.ofPhase rfl (.observe rfl)) (.cons (.ofPhase rfl (.spawned rfl)) (.cons
    (.ofPhase rfl (.register rfl)) (.cons (.connect (.inl ⟨rfl, rfl⟩) rfl) (.cons
    (.ofPhase rfl (.lock rfl)) (.cons (.ofPhase rfl (.timeOut rfl)) (.cons (.ofPhase rfl .reply) (.cons
    (.receive rfl rfl) (.nil _))))))))))))), rfl⟩

/-- A recovery registers the late child and unregisters it alive: its seat is reported reusable. -/
theorem living_recovery_run : ∃ labels state, Run SystemStep .start labels state ∧
    state.client "first" = .recovered ∧ state.shared.forkedFor 4711 = some "first" ∧
      state.shared.process 4711 = .forked :=
  ⟨[.client "first", .handler ⟨"first", 0⟩, .handler ⟨"first", 0⟩, .handler ⟨"first", 0⟩,
      .client "first", .client "first", .handler ⟨"first", 1⟩, .basis, .basis, .handler ⟨"first", 1⟩,
      .handler ⟨"first", 1⟩, .handler ⟨"first", 1⟩, .handler ⟨"first", 1⟩, .handler ⟨"first", 1⟩,
      .handler ⟨"first", 1⟩, .handler ⟨"first", 1⟩, .handler ⟨"first", 1⟩, .client "first",
      .client "first"], _,
    .cons (.connect (.inl ⟨rfl, rfl⟩) rfl) (.cons (.ofPhase rfl (.lock rfl)) (.cons
    (.ofPhase rfl (.timeOut rfl)) (.cons (.ofPhase rfl .reply) (.cons (.receive rfl rfl) (.cons
    (.connect (.inr rfl) rfl) (.cons (.ofPhase rfl (.lock rfl)) (.cons
    (.basis (@BasisStep.fork _ _ _ 4711 rfl rfl rfl)) (.cons (.basis (.print rfl)) (.cons
    (.ofPhase rfl (@SpawnStep.read _ _ _ [.spawned "first" 4711] [] rfl rfl)) (.cons
    (.ofPhase rfl (.observe rfl)) (.cons (.ofPhase rfl (.spawned rfl)) (.cons
    (.ofPhase rfl (.register rfl)) (.cons (.ofPhase rfl (.blocked nofun)) (.cons
    (.ofPhase rfl .disown) (.cons (.ofPhase rfl (.disownedQuiescent rfl)) (.cons
    (.ofPhase rfl .reply) (.cons (.receive rfl rfl) (.cons (.confirm rfl rfl)
    (.nil _))))))))))))))))))), rfl, rfl, rfl⟩

theorem CarefulStep.ofPhase {state : SpawnState} {connection : Connection} {phase next : SpawnPhase}
    {shared : SpawnShared} (hphase : state.phase connection = phase)
    (hstep : SpawnStep connection state.shared phase next shared)
    (hquiet : phase = .waiting → ∀ attemptId ∈ state.shared.outstanding, attemptId = connection.attemptId)
    (htold : phase = .raising .timedOut → connection.number = 0 → state.shared.children = [])
    (hgone : ∀ pid, phase = .disowned pid .blocked → state.shared.process pid ≠ .forked) :
    CarefulStep state (.handler connection) { state.setPhase connection next with shared := shared } := by
  refine ⟨.ofPhase hphase hstep, ?_⟩
  rintro _ ⟨⟩
  rw [hphase]
  exact ⟨fun hwaiting _ => hquiet hwaiting, htold, hgone⟩

/-- A step in a phase on which there is no condition. -/
theorem CarefulStep.plain {state : SpawnState} {connection : Connection} {phase next : SpawnPhase}
    {shared : SpawnShared} (hphase : state.phase connection = phase)
    (hstep : SpawnStep connection state.shared phase next shared) (hwaiting : phase ≠ .waiting)
    (hraising : phase ≠ .raising .timedOut) (hdisowned : ∀ pid, phase ≠ .disowned pid .blocked) :
    CarefulStep state (.handler connection) { state.setPhase connection next with shared := shared } :=
  .ofPhase hphase hstep (fun hphase => absurd hphase hwaiting) (fun hphase => absurd hphase hraising)
    (fun pid hphase => absurd hphase (hdisowned pid))

/-- The cleanup behind a blocked ACK path finds its child gone. -/
theorem CarefulStep.disowned {state : SpawnState} {connection : Connection} {pid : ℕ} {error : SpawnError}
    (hphase : state.phase connection = .disowned pid error) (hgone : state.shared.process pid = .gone) :
    CarefulStep state (.handler connection)
      { state.setPhase connection (.raising error) with shared := state.shared.unregister pid } := by
  refine .ofPhase hphase (.disownedQuiescent (by rw [hgone]; rfl)) nofun nofun fun other hsame => ?_
  obtain ⟨rfl, -⟩ := SpawnPhase.disowned.inj hsame
  rw [hgone]
  exact nofun

theorem careful_recovery_run : ∃ labels state, Run CarefulStep .start labels state ∧
    state.client "first" = .recovered ∧ state.shared.forkedFor 4711 = some "first" :=
  ⟨[.client "first", .handler ⟨"first", 0⟩, .handler ⟨"first", 0⟩, .handler ⟨"first", 0⟩,
      .client "first", .client "first", .handler ⟨"first", 1⟩, .basis, .basis, .handler ⟨"first", 1⟩,
      .handler ⟨"first", 1⟩, .handler ⟨"first", 1⟩, .handler ⟨"first", 1⟩, .handler ⟨"first", 1⟩,
      .process 4711, .handler ⟨"first", 1⟩, .handler ⟨"first", 1⟩, .handler ⟨"first", 1⟩, .client "first",
      .client "first"], _,
    .cons ⟨.connect (.inl ⟨rfl, rfl⟩) rfl, nofun⟩ (.cons
    (.ofPhase rfl (.lock rfl) (fun _ => List.forall_mem_nil _) nofun nofun) (.cons
    (.plain rfl (.timeOut rfl) nofun nofun nofun) (.cons
    (.ofPhase rfl .reply nofun (fun _ _ => rfl) nofun) (.cons ⟨.receive rfl rfl, nofun⟩ (.cons
    ⟨.connect (.inr rfl) rfl, nofun⟩ (.cons
    (.ofPhase rfl (.lock rfl) (fun _ => List.forall_mem_singleton.mpr rfl) nofun nofun) (.cons
    ⟨.basis (@BasisStep.fork _ _ _ 4711 rfl rfl rfl), nofun⟩ (.cons ⟨.basis (.print rfl), nofun⟩ (.cons
    (.plain rfl (@SpawnStep.read _ _ _ [.spawned "first" 4711] [] rfl rfl) nofun nofun nofun) (.cons
    (.plain rfl (.observe rfl) nofun nofun nofun) (.cons
    (.plain rfl (.spawned rfl) nofun nofun nofun) (.cons
    (.plain rfl (.register rfl) nofun nofun nofun) (.cons
    (.plain rfl (.blocked nofun) nofun nofun nofun) (.cons ⟨.process (.die nofun), nofun⟩ (.cons
    (.plain rfl .disown nofun nofun nofun) (.cons
    (.disowned rfl rfl) (.cons
    (.plain rfl .reply nofun nofun nofun) (.cons ⟨.receive rfl rfl, nofun⟩ (.cons
    ⟨.confirm rfl rfl, nofun⟩ (.nil _)))))))))))))))))))), rfl, rfl⟩

end Hearth.Broker
