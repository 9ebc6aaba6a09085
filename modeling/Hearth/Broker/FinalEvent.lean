import Hearth.Broker.Transfer

/-!
# The final event

Once the broker has sent its final event, the event is under way until the controller
returns it: nothing the child or the broker still does takes it away, and each step of
the controller brings it nearer.  The one way to lose it is a cancel that the controller
sends after the broker has closed: the send fails, and `run_broker_attempt` raises with
the event unread.
-/

namespace Hearth.Broker

open Hearth.Library

/-- The steps of an attempt in which no cancel is sent to a closed broker. -/
def TimelyStep (request : AttemptRequest) (attempt : Attempt) (party : Party) (later : Attempt) :
    Prop :=
  AttemptStep request attempt party later ∧
    (party = .controller → attempt.controller.phase = .cancelling → attempt.brokerOpen = true)

/-! ## How much the controller still has to do -/

/-- How many of the received bytes are not handed over. -/
def BufferedBrokerFrameReader.size (reader : BufferedBrokerFrameReader) : ℕ :=
  (if reader.header.isSome then brokerFrameHeaderSize else 0) + reader.buffer.length

/-- How many steps of its loop the controller is from the next `receive`. -/
def ControllerPhase.distance : ControllerPhase → ℕ
  | .looping => 1
  | .cancelling => 2
  | .deciding => 3
  | _ => 0

/-- A bound on the steps that the controller needs for what is under way: a frame takes
five bytes away and at most three further steps follow it. -/
def Attempt.remaining (attempt : Attempt) : ℕ :=
  4 * (attempt.controller.reader.size + attempt.toController.length) +
    attempt.toController.length + attempt.controller.phase.distance

namespace BufferedBrokerFrameReader

variable {reader later : BufferedBrokerFrameReader} {kept : Bytes}

theorem Holds.length (h : reader.Holds kept) : kept.length = reader.size := by
  unfold Holds at h
  unfold size
  cases hheader : reader.header with
  | none =>
      rw [hheader] at h
      rw [h]
      simp
  | some header =>
      rw [hheader] at h
      obtain ⟨raw, rfl, hraw, -⟩ := h
      rw [List.length_append, hraw]
      simp

theorem Holds.partly_size (h : reader.Holds kept) (hattempt : reader.attempt = .partly later) :
    later.size = reader.size := by
  have hspec := attempt_spec h
  rw [hattempt] at hspec
  rw [← hspec.2.length, ← h.length]

/-- A frame has a header. -/
theorem Holds.complete_size (h : reader.Holds kept) {frame : Frame}
    (hattempt : reader.attempt = .complete frame later) :
    later.size + brokerFrameHeaderSize ≤ reader.size := by
  have hspec := attempt_spec h
  rw [hattempt] at hspec
  obtain ⟨hdone, hheader⟩ := hspec
  obtain ⟨raw, payload, header, hkept, hraw, -⟩ := nextFrame_eq_done.mp hdone
  have hlater : later.size = later.buffer.length := by
    simp [size, hheader]
  rw [← h.length, hkept, hlater]
  simp only [List.length_append, hraw]
  omega

end BufferedBrokerFrameReader

section

variable {request : AttemptRequest} {attempt later : Attempt} {party : Party}

/-- No frame touches the reader, and none makes the controller send. -/
theorem handleFrame_spec (controller : Controller) (frame : Frame) :
    (controller.handleFrame request frame).reader = controller.reader ∧
      (controller.handleFrame request frame).phase.distance ≤ 3 ∧
      (controller.handleFrame request frame).phase ≠ .raised .sendFailed := by
  unfold Controller.handleFrame
  split
  · exact ⟨rfl, Nat.le_refl 3, by simp⟩
  cases hloads : request.codec.loads frame.payload with
  | none => exact ⟨rfl, Nat.zero_le 3, by simp⟩
  | some event =>
      cases event with
      | spawned child generation =>
          dsimp only [Controller.handleEvent]
          split
          · exact ⟨rfl, Nat.zero_le 3, by simp⟩
          split
          · exact ⟨rfl, Nat.zero_le 3, by simp⟩
          split
          · exact ⟨rfl, Nat.zero_le 3, by simp⟩
          · exact ⟨rfl, Nat.le_refl 3, by simp⟩
      | final event =>
          dsimp only [Controller.handleEvent]
          split
          · exact ⟨rfl, Nat.zero_le 3, by simp⟩
          split
          · exact ⟨rfl, Nat.zero_le 3, by simp⟩
          split
          · exact ⟨rfl, Nat.zero_le 3, by simp⟩
          · exact ⟨rfl, Nat.zero_le 3, by simp⟩
      | error message activeChildren =>
          dsimp only [Controller.handleEvent]
          split
          · exact ⟨rfl, Nat.zero_le 3, by simp⟩
          · exact ⟨rfl, Nat.zero_le 3, by simp⟩

/-- What the broker has emitted stays emitted. -/
theorem AttemptStep.emitted {event : FinalEvent} (hstep : AttemptStep request attempt party later)
    (hbroker : BrokerFacts request attempt) (hemitted : attempt.emitted = some event) :
    later.emitted = some event := by
  cases hstep with
  | report observedAlive hphase hchild hopen halive hsent =>
      have hnone := hbroker.unfinished (by simp [hphase]) (by simp [hphase])
      rw [hnone] at hemitted
      cases hemitted
  | create | append | exit | spawn | refuse | pollOutput | pollNothing | gone | alive | confirm
  | idle | receiveCancel | receiveEnd | terminate | drainOutput | drained | fail | reraise
  | sendError | suppressError | close | turn | chunk | timeout | eof | frame | refused | ask
  | cancel | cancelFails => exact hemitted

/-- After its final event the broker sends nothing. -/
theorem BrokerFacts.closing (h : BrokerFacts request attempt) {event : FinalEvent}
    (hemitted : attempt.emitted = some event) :
    attempt.phase = .closing ∨ attempt.phase = .closed := by
  by_contra hphase
  push Not at hphase
  rw [h.unfinished hphase.1 hphase.2] at hemitted
  cases hemitted

theorem ControllerFacts.holds (h : ControllerFacts request attempt)
    (hopen : attempt.controllerOpen = true) : ∃ kept, attempt.controller.reader.Holds kept := by
  obtain ⟨backlog, hstreams⟩ := h.streams hopen
  obtain ⟨kept, sent, hkept, -, -⟩ := hstreams.carries
  exact ⟨kept, hkept⟩

/-- With the final event under way the controller is never kept waiting. -/
theorem ControllerFacts.not_waiting (h : ControllerFacts request attempt) {event : FinalEvent}
    (hemitted : attempt.emitted = some event) {reader : BufferedBrokerFrameReader}
    (hphase : attempt.controller.phase = .receiving)
    (hattempt : attempt.controller.reader.attempt = .partly reader) :
    attempt.toController ≠ [] := by
  intro hnothing
  unfold ControllerFacts at h
  rw [hphase] at h
  obtain ⟨backlog, hstreams⟩ := h
  have hcarries := hstreams.carries
  rw [hnothing] at hcarries
  have hnone := hstreams.emitted_eq_none (hcarries.eq_nil hattempt)
  rw [hnone] at hemitted
  cases hemitted

/-- Every step of the controller leaves less to do; the others leave it as it is. -/
theorem AttemptStep.remaining {event : FinalEvent} (hstep : AttemptStep request attempt party later)
    (hbroker : BrokerFacts request attempt) (hcontroller : ControllerFacts request attempt)
    (hemitted : attempt.emitted = some event) :
    later.remaining + [party].count .controller ≤ attempt.remaining := by
  have hclosing := hbroker.closing hemitted
  have hrunning : ∀ {phase : ControllerPhase}, attempt.controller.phase = phase →
      phase.running = true → attempt.controllerOpen = true := by
    intro phase hphase hruns
    unfold Attempt.controllerOpen
    rw [hphase]
    exact hruns
  cases hstep with
  | create | append | exit => exact Nat.le_refl _
  | spawn hphase | refuse hphase | pollOutput hphase | pollNothing hphase | gone hphase
  | alive hphase | confirm _ hphase | idle hphase | receiveCancel hphase | receiveEnd hphase
  | terminate _ hphase | drainOutput hphase | drained hphase | report _ hphase | reraise hphase
  | sendError hphase | suppressError hphase => simp [hphase] at hclosing
  | fail hphase => rcases hclosing with heq | heq <;> simp [heq, ServePhase.serving] at hphase
  | close hphase => exact Nat.le_refl _
  | turn expired hphase =>
      unfold Attempt.remaining
      simp only [hphase, ControllerPhase.distance, List.count_singleton_self]
      omega
  | chunk hphase hattempt hpiece hsplit =>
      obtain ⟨kept, hkept⟩ := hcontroller.holds (hrunning hphase rfl)
      have hsize := hkept.partly_size hattempt
      have hpositive := List.length_pos_of_ne_nil hpiece
      unfold BufferedBrokerFrameReader.size at hsize
      unfold Attempt.remaining BufferedBrokerFrameReader.size
      simp only [hphase, hsplit, List.length_append, List.count_singleton_self]
      omega
  | timeout hphase hattempt hnothing hopen =>
      exact absurd hnothing (hcontroller.not_waiting hemitted hphase hattempt)
  | eof hphase hattempt hnothing hclosed =>
      exact absurd hnothing (hcontroller.not_waiting hemitted hphase hattempt)
  | @frame reader frame hphase hattempt =>
      obtain ⟨kept, hkept⟩ := hcontroller.holds (hrunning hphase rfl)
      have hsize := hkept.complete_size hattempt
      have hspec := @handleFrame_spec request { attempt.controller with reader := reader } frame
      generalize Controller.handleFrame request _ frame = handled at hspec ⊢
      obtain ⟨hreader, hdistance, -⟩ := hspec
      unfold Attempt.remaining
      show 4 * (handled.reader.size + attempt.toController.length) + attempt.toController.length +
        handled.phase.distance + 1 ≤ _
      rw [hreader]
      unfold brokerFrameHeaderSize at hsize
      dsimp only
      omega
  | refused hphase hattempt =>
      obtain ⟨backlog, hstreams⟩ := hcontroller.streams (hrunning hphase rfl)
      exact absurd hattempt (hstreams.carries.not_refused _)
  | ask wish hphase =>
      obtain ⟨hreader, -, -, -⟩ := attempt.controller.decide_reader wish
      unfold Attempt.remaining
      dsimp only
      rw [hreader, hphase, List.count_singleton_self]
      split
      · show _ + 2 + 1 ≤ _ + 3
        omega
      · show _ + 1 + 1 ≤ _ + 3
        omega
  | cancel hphase hopen =>
      unfold Attempt.remaining
      simp only [hphase, ControllerPhase.distance, List.count_singleton_self]
      omega
  | cancelFails hphase hclosed =>
      unfold Attempt.remaining
      simp only [hphase, ControllerPhase.distance, List.count_singleton_self]
      omega

/-- A running controller can always go on. -/
theorem exists_controller_step (hopen : attempt.controllerOpen = true) :
    ∃ next, AttemptStep request attempt .controller next := by
  unfold Attempt.controllerOpen at hopen
  cases hphase : attempt.controller.phase with
  | looping => exact ⟨_, .turn false hphase⟩
  | deciding => exact ⟨_, .ask none hphase⟩
  | cancelling =>
      cases hbroker : attempt.brokerOpen with
      | true => exact ⟨_, .cancel hphase hbroker⟩
      | false => exact ⟨_, .cancelFails hphase hbroker⟩
  | receiving =>
      cases hattempt : attempt.controller.reader.attempt with
      | refused error => exact ⟨_, .refused hphase hattempt⟩
      | complete frame reader => exact ⟨_, .frame hphase hattempt⟩
      | partly reader =>
          by_cases hwire : attempt.toController = []
          · cases hbroker : attempt.brokerOpen with
            | true => exact ⟨_, .timeout hphase hattempt hwire hbroker⟩
            | false => exact ⟨_, .eof hphase hattempt hwire hbroker⟩
          · exact ⟨_, .chunk hphase hattempt hwire (List.append_nil _).symm⟩
  | returned | recovering | raised =>
      rw [hphase] at hopen
      cases hopen

/-- No cancel fails that is sent in time. -/
theorem TimelyStep.not_sendFailed (hstep : TimelyStep request attempt party later)
    (h : attempt.controller.phase ≠ .raised .sendFailed) :
    later.controller.phase ≠ .raised .sendFailed := by
  obtain ⟨hstep, htimely⟩ := hstep
  cases hstep with
  | cancelFails hphase hclosed =>
      rw [htimely rfl hphase] at hclosed
      cases hclosed
  | frame hphase hattempt => exact (handleFrame_spec _ _).2.2
  | ask wish hphase =>
      dsimp only
      split
      · simp
      · simp
  | turn | timeout | eof | refused | cancel => simp
  | chunk | create | append | exit | spawn | refuse | pollOutput | pollNothing | gone | alive | confirm
  | idle | receiveCancel | receiveEnd | terminate | drainOutput | drained | report | fail | reraise
  | sendError | suppressError | close => exact h

/-- With its final event emitted the controller runs, unless it returned that event. -/
theorem ControllerFacts.returned_or_running (h : ControllerFacts request attempt)
    {event : FinalEvent} (hemitted : attempt.emitted = some event)
    (hsent : attempt.controller.phase ≠ .raised .sendFailed) :
    attempt.controller.phase = .returned event ∨ attempt.controllerOpen = true := by
  unfold ControllerFacts at h
  unfold Attempt.controllerOpen
  cases hphase : attempt.controller.phase with
  | looping | receiving | deciding | cancelling => exact .inr rfl
  | returned final =>
      rw [hphase, hemitted] at h
      cases h.1
      exact .inl rfl
  | recovering =>
      rw [hphase, hemitted] at h
      cases h.1
  | raised error =>
      rw [hphase, hemitted] at h
      cases error with
      | sendFailed => exact absurd hphase hsent
      | disconnected | refusedFrame | malformedEvent | brokerError | changedGeneration
      | changedAttempt | duplicateSpawn | changedChild => cases h.1

/-! ## Runs -/

/-- What is so in every state of a run in which cancels are sent in time. -/
structure TimelyFacts (request : AttemptRequest) (attempt : Attempt) : Prop where
  broker : BrokerFacts request attempt
  controller : ControllerFacts request attempt
  sent : attempt.controller.phase ≠ .raised .sendFailed

theorem TimelyFacts.step (h : TimelyFacts request attempt)
    (hstep : TimelyStep request attempt party later) : TimelyFacts request later :=
  ⟨h.broker.step hstep.1, h.controller.step h.broker hstep.1, hstep.not_sendFailed h.sent⟩

theorem timelyFacts_of_run {labels : List Party}
    (hrun : Run (TimelyStep request) .start labels attempt) : TimelyFacts request attempt := by
  have hstep : ∀ state label next, TimelyFacts request state →
      TimelyStep request state label next → TimelyFacts request next :=
    fun state label next h hone => h.step hone
  refine hrun.preserves hstep ⟨brokerFacts_start, controllerFacts_start, ?_⟩
  intro hphase
  cases hphase

/-- The steps of the controller are paid for by what it has left to do. -/
theorem TimelyFacts.remaining_of_run {labels : List Party} {event : FinalEvent}
    (hrun : Run (TimelyStep request) attempt labels later) (h : TimelyFacts request attempt)
    (hemitted : attempt.emitted = some event) :
    TimelyFacts request later ∧ later.emitted = some event ∧
      later.remaining + labels.count .controller ≤ attempt.remaining := by
  induction hrun with
  | nil attempt => exact ⟨h, hemitted, Nat.le_refl _⟩
  | @cons attempt middle later party labels hstep hrest ih =>
      have hone := hstep.1.remaining h.broker h.controller hemitted
      obtain ⟨hfacts, hlast, hpaid⟩ := ih (h.step hstep) (hstep.1.emitted h.broker hemitted)
      refine ⟨hfacts, hlast, ?_⟩
      have hcount : (party :: labels).count .controller =
          [party].count .controller + labels.count .controller := by
        rw [← List.count_append]
        rfl
      omega

end

/-- **The final event is not lost.**  In every run in which no cancel is sent to a closed
broker, once the broker has emitted its final event the controller has returned it, or it
runs and can go on, and after a bounded number of its own steps it has returned it. -/
theorem final_event_returned (request : AttemptRequest) {labels : List Party} {attempt : Attempt}
    {event : FinalEvent} (hrun : Run (TimelyStep request) .start labels attempt)
    (hemitted : attempt.emitted = some event) :
    ∃ bound, ∀ further later, Run (TimelyStep request) attempt further later →
      later.controller.phase = .returned event ∨
        later.controllerOpen = true ∧ further.count .controller ≤ bound ∧
          ∃ next, AttemptStep request later .controller next := by
  refine ⟨attempt.remaining, ?_⟩
  intro further later hfurther
  obtain ⟨hfacts, hlast, hpaid⟩ := (timelyFacts_of_run hrun).remaining_of_run hfurther hemitted
  rcases hfacts.controller.returned_or_running hlast hfacts.sent with hreturned | hopen
  · exact .inl hreturned
  · exact .inr ⟨hopen, by omega, exists_controller_step hopen⟩

/-- Without a step of the controller no cancel is sent. -/
theorem timely_of_no_controller {request : AttemptRequest} {attempt later : Attempt}
    {labels : List Party} (hrun : Run (AttemptStep request) attempt labels later)
    (h : Party.controller ∉ labels) : Run (TimelyStep request) attempt labels later := by
  induction hrun with
  | nil attempt => exact .nil attempt
  | cons hstep hrest ih =>
      rw [List.mem_cons, not_or] at h
      refine .cons ⟨hstep, ?_⟩ (ih h.2)
      intro hparty
      exact absurd hparty.symm h.1

theorem final_event_returned_solo :
    soloServed.emitted = some soloFinal ∧
      ∃ bound, ∀ further later, Run (TimelyStep soloRequest) soloServed further later →
        later.controller.phase = .returned soloFinal ∨
          later.controllerOpen = true ∧ further.count .controller ≤ bound ∧
            ∃ next, AttemptStep soloRequest later .controller next := by
  have htimely := timely_of_no_controller soloServed_run (by decide)
  exact ⟨rfl, final_event_returned soloRequest htimely rfl⟩

/-- The broker has emitted its final event and closed.  The controller has read that its
child is spawned, decides to stop it, and raises. -/
theorem final_event_lost : ∃ labels attempt,
    Run (AttemptStep soloRequest) .start labels attempt ∧ attempt.emitted = some soloFinal ∧
      attempt.controller.phase = .raised .sendFailed := by
  have hlate : Run (AttemptStep soloRequest) soloAnnounced [.controller, .controller]
      { soloAnnounced with
        controller := { soloAnnounced.controller with
          cancellationReason := some "stop", phase := .raised .sendFailed } } :=
    .cons (.ask (some "stop") rfl) (.cons (.cancelFails rfl rfl) (.nil _))
  exact ⟨_, _, (soloServed_run.append soloAnnounced_run).append hlate, rfl, rfl⟩

end Hearth.Broker
