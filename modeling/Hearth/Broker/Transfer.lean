import Hearth.Broker.Codec
import Hearth.Broker.FrameReader

/-!
# Output transfer

What is on the socket is always a list of frames: those the broker has sent and the
controller has not handled.  With the frame reader this is an invariant of the bytes,
however they are cut.  On top of it, what the controller has written and what is still
under way is always the part of the output file that the broker has read.
-/

namespace Hearth.Broker

open Hearth.Library

/-! ## Frames under way -/

/-- The bytes that the reader holds and those on the socket are these frames. -/
def Carries (reader : BufferedBrokerFrameReader) (wire : Bytes) (frames : List Frame) : Prop :=
  ∃ kept sent, reader.Holds kept ∧ frames.mapM sendFrame = .ok sent ∧ kept ++ wire = sent.flatten

namespace Carries

variable {reader later : BufferedBrokerFrameReader} {wire : Bytes} {frames : List Frame}

theorem start : Carries {} [] [] :=
  ⟨[], [], BufferedBrokerFrameReader.holds_new, rfl, rfl⟩

/-- A sent frame is under way behind the others. -/
theorem send (h : Carries reader wire frames) {frame : Frame} {bytes : Bytes}
    (hsent : sendFrame frame = .ok bytes) : Carries reader (wire ++ bytes) (frames ++ [frame]) := by
  obtain ⟨kept, sent, hkept, hframes, hbytes⟩ := h
  refine ⟨kept, sent ++ [bytes], hkept, ?_, ?_⟩
  · apply mapM_eq_ok.mpr
    apply List.rel_append (mapM_eq_ok.mp hframes)
    exact .cons hsent .nil
  · rw [← List.append_assoc, hbytes, List.flatten_append, List.flatten_singleton]

/-- Received bytes are under way as before. -/
theorem chunk {piece : Bytes} (h : Carries reader (piece ++ wire) frames)
    (hattempt : reader.attempt = .partly later) :
    Carries { later with buffer := later.buffer ++ piece } wire frames := by
  obtain ⟨kept, sent, hkept, hframes, hbytes⟩ := h
  have hspec := BufferedBrokerFrameReader.attempt_spec hkept
  rw [hattempt] at hspec
  refine ⟨kept ++ piece, sent, hspec.2.extend piece, hframes, ?_⟩
  rw [List.append_assoc, hbytes]

theorem partly (h : Carries reader wire frames) (hattempt : reader.attempt = .partly later) :
    Carries later wire frames := by
  obtain ⟨kept, sent, hkept, hframes, hbytes⟩ := h
  have hspec := BufferedBrokerFrameReader.attempt_spec hkept
  rw [hattempt] at hspec
  exact ⟨kept, sent, hspec.2, hframes, hbytes⟩

/-- The first frame of those under way, as the decoder sees it. -/
theorem next (h : Carries reader wire frames) {kept : Bytes} {sent : List Bytes}
    (hframes : frames.mapM sendFrame = .ok sent) (hbytes : kept ++ wire = sent.flatten) :
    (frames = [] ∧ nextFrame (kept ++ wire) = .more) ∨
      ∃ frame rest later, frames = frame :: rest ∧ rest.mapM sendFrame = .ok later ∧
        nextFrame (kept ++ wire) = .done frame later.flatten := by
  have hsent := mapM_eq_ok.mp hframes
  cases hsent with
  | nil =>
      left
      refine ⟨rfl, ?_⟩
      rw [hbytes]
      rfl
  | @cons frame bytes rest later hframe hrest =>
      right
      refine ⟨frame, rest, later, rfl, mapM_eq_ok.mpr hrest, ?_⟩
      rw [hbytes, List.flatten_cons]
      exact nextFrame_sendFrame hframe _

/-- A complete frame is the first one under way. -/
theorem complete (h : Carries reader wire frames) {frame : Frame}
    (hattempt : reader.attempt = .complete frame later) :
    ∃ rest, frames = frame :: rest ∧ Carries later wire rest := by
  have hcarries := h
  obtain ⟨kept, sent, hkept, hframes, hbytes⟩ := h
  have hspec := BufferedBrokerFrameReader.attempt_spec hkept
  rw [hattempt] at hspec
  have hdone : nextFrame (kept ++ wire) = .done frame (later.buffer ++ wire) :=
    frameDecoder.done_append wire hspec.1
  rcases hcarries.next hframes hbytes with ⟨-, hmore⟩ | ⟨first, rest, behind, rfl, hrest, hfirst⟩
  · rw [hdone] at hmore
    cases hmore
  · rw [hdone] at hfirst
    injection hfirst with hframe hbehind
    subst hframe
    refine ⟨rest, rfl, later.buffer, behind, ?_, hrest, hbehind⟩
    unfold BufferedBrokerFrameReader.Holds
    rw [hspec.2]

/-- No frame under way is refused. -/
theorem not_refused (h : Carries reader wire frames) (error : BrokerProtocolError) :
    reader.attempt ≠ .refused error := by
  intro hattempt
  have hcarries := h
  obtain ⟨kept, sent, hkept, hframes, hbytes⟩ := h
  have hspec := BufferedBrokerFrameReader.attempt_spec hkept
  rw [hattempt] at hspec
  have hfailed : nextFrame (kept ++ wire) = .failed error := frameDecoder.failed_append wire hspec
  rcases hcarries.next hframes hbytes with ⟨-, hmore⟩ | ⟨_, _, _, -, -, hdone⟩
  · rw [hfailed] at hmore
    cases hmore
  · rw [hfailed] at hdone
    cases hdone

/-- A reader that needs more has nothing to wait for only when no frame is under way. -/
theorem eq_nil (h : Carries reader [] frames) (hattempt : reader.attempt = .partly later) :
    frames = [] := by
  have hcarries := h
  obtain ⟨kept, sent, hkept, hframes, hbytes⟩ := h
  have hspec := BufferedBrokerFrameReader.attempt_spec hkept
  rw [hattempt] at hspec
  rcases hcarries.next hframes hbytes with ⟨hnil, -⟩ | ⟨_, _, _, -, -, hdone⟩
  · exact hnil
  · rw [List.append_nil, hspec.1] at hdone
    cases hdone

end Carries

/-! ## The broker's side -/

section

variable (request : AttemptRequest)

/-- What the broker knows in each phase once the output it still had to read is read. -/
def PhaseFacts (attempt : Attempt) : Prop :=
  match attempt.phase with
  | .draining _ true => attempt.groupAlive = false
  | .reporting _ true => attempt.groupAlive = false ∧ attempt.offset = attempt.content.length
  | _ => True

/-- What the broker has found out is so. -/
structure BrokerFacts (attempt : Attempt) : Prop where
  offset : attempt.offset ≤ attempt.content.length
  phase : PhaseFacts attempt
  unspawned : attempt.child = none → attempt.offset = 0
  child : ∀ child, attempt.child = some child → child.attemptId = request.attemptId
  spawning : attempt.phase = .spawning → attempt.child = none
  serving : attempt.phase.serving = true → attempt.child ≠ none
  unfinished : attempt.phase ≠ .closing → attempt.phase ≠ .closed → attempt.emitted = none
  closed : attempt.brokerOpen = false → attempt.phase = .closed
  emitted : ∀ event, attempt.emitted = some event →
    attempt.child = some event.child ∧ event.generation = request.generation ∧
      event.outputBytes = attempt.offset ∧
      (event.status = .completed →
        attempt.groupAlive = false ∧ attempt.offset = attempt.content.length)

end

theorem readNewOutput_eq (output : Option Bytes) (offset : ℕ) :
    readNewOutput output offset = ((output.getD []).drop offset).take brokerRawChunkBytes := by
  cases output with
  | none => simp [readNewOutput]
  | some content => rfl

namespace Attempt

variable (attempt : Attempt)

/-- What is read begins where the last read ended. -/
theorem take_newOutput : attempt.content.take attempt.offset ++ attempt.newOutput =
    attempt.content.take (attempt.offset + attempt.newOutput.length) := by
  unfold newOutput content
  rw [readNewOutput_eq, List.take_add]
  congr 1
  rw [List.length_take, List.take_eq_take_iff, List.length_drop]
  omega

theorem newOutput_length_le (h : attempt.offset ≤ attempt.content.length) :
    attempt.offset + attempt.newOutput.length ≤ attempt.content.length := by
  unfold newOutput
  rw [readNewOutput_eq, List.length_take, List.length_drop]
  unfold content at h ⊢
  omega

/-- Nothing is read only at the end of the file. -/
theorem offset_eq_of_newOutput (h : attempt.offset ≤ attempt.content.length)
    (hnew : attempt.newOutput = []) : attempt.offset = attempt.content.length := by
  have hlength := congrArg List.length hnew
  unfold newOutput at hlength
  rw [readNewOutput_eq, List.length_take, List.length_drop, List.length_nil] at hlength
  have hpositive : 0 < brokerRawChunkBytes := by decide
  unfold content at h ⊢
  omega

end Attempt

section

variable {request : AttemptRequest} {attempt later : Attempt} {party : Party}

theorem brokerFacts_start : BrokerFacts request .start := by
  refine ⟨Nat.le_refl 0, trivial, fun _ => rfl, ?_, fun _ => rfl, ?_, fun _ _ => rfl, ?_, ?_⟩
  · intro child h
    cases h
  · intro h
    cases h
  · intro h
    cases h
  · intro event h
    cases h

/-- The broker's facts are about its own fields, the file and the process group. -/
theorem BrokerFacts.controller (h : BrokerFacts request attempt) (toController : Bytes)
    (cancelPending : Bool) (controller : Controller) :
    BrokerFacts request { attempt with
      toController := toController, cancelPending := cancelPending, controller := controller } :=
  ⟨h.offset, h.phase, h.unspawned, h.child, h.spawning, h.serving, h.unfinished, h.closed,
    h.emitted⟩

/-- A step inside the `try` that neither reads nor finds anything out. -/
theorem BrokerFacts.move (h : BrokerFacts request attempt) (phase : ServePhase)
    (hunfinished : attempt.phase ≠ .closing ∧ attempt.phase ≠ .closed)
    (hspawning : phase ≠ .spawning) (hserving : phase.serving = true → attempt.phase.serving = true)
    (hphase : PhaseFacts { attempt with phase := phase }) (cancelPending : Bool) :
    BrokerFacts request { attempt with phase := phase, cancelPending := cancelPending } := by
  have hnone := h.unfinished hunfinished.1 hunfinished.2
  refine ⟨h.offset, hphase, h.unspawned, h.child, ?_, ?_, fun _ _ => hnone, ?_, h.emitted⟩
  · intro hspawn
    exact absurd hspawn hspawning
  · intro hserves
    exact h.serving (hserving hserves)
  · intro hclosed
    exact absurd (h.closed hclosed) hunfinished.2

/-- While the process group lives, nothing is known that its members could change. -/
theorem PhaseFacts.of_alive (h : PhaseFacts attempt) (halive : attempt.groupAlive = true)
    (output : Option Bytes) : PhaseFacts { attempt with output := output } := by
  unfold PhaseFacts at h ⊢
  dsimp only
  split
  · rename_i hphase
    rw [hphase, halive] at h
    cases h
  · rename_i hphase
    rw [hphase, halive] at h
    cases h.1
  · trivial

/-- The end of the process group makes nothing false. -/
theorem PhaseFacts.exit (h : PhaseFacts attempt) :
    PhaseFacts { attempt with groupAlive := false } := by
  unfold PhaseFacts at h ⊢
  dsimp only
  split
  · rfl
  · rename_i hphase
    rw [hphase] at h
    exact ⟨rfl, h.2⟩
  · trivial

/-- What a living member of the process group does to the file. -/
theorem BrokerFacts.write (h : BrokerFacts request attempt) (halive : attempt.groupAlive = true)
    {output : Option Bytes} (hgrows : attempt.content.length ≤ (output.getD []).length) :
    BrokerFacts request { attempt with output := output } := by
  refine ⟨Nat.le_trans h.offset hgrows, h.phase.of_alive halive output, h.unspawned, h.child,
    h.spawning, h.serving, h.unfinished, h.closed, ?_⟩
  intro event hevent
  obtain ⟨hchild, hgeneration, hbytes, hcompleted⟩ := h.emitted event hevent
  refine ⟨hchild, hgeneration, hbytes, ?_⟩
  intro hstatus
  have hdead := (hcompleted hstatus).1
  rw [halive] at hdead
  cases hdead

/-- The broker reads on and sends what it read. -/
theorem BrokerFacts.read (h : BrokerFacts request attempt) (phase : ServePhase)
    (hunfinished : attempt.phase ≠ .closing ∧ attempt.phase ≠ .closed)
    (hspawning : phase ≠ .spawning) (hserves : attempt.phase.serving = true)
    (hphase : PhaseFacts { attempt with
      phase := phase, offset := attempt.offset + attempt.newOutput.length })
    (toController : Bytes) :
    BrokerFacts request { attempt with
      phase := phase, offset := attempt.offset + attempt.newOutput.length,
      toController := toController } := by
  have hnone := h.unfinished hunfinished.1 hunfinished.2
  have hchild := h.serving hserves
  refine ⟨attempt.newOutput_length_le h.offset, hphase, ?_, h.child, ?_, fun _ => hchild,
    fun _ _ => hnone, ?_, ?_⟩
  · intro hno
    exact absurd hno hchild
  · intro hspawn
    exact absurd hspawn hspawning
  · intro hclosed
    exact absurd (h.closed hclosed) hunfinished.2
  · intro event hevent
    have hsome : attempt.emitted = some event := hevent
    rw [hnone] at hsome
    cases hsome

/-- The final event reports what has been found out. -/
theorem BrokerFacts.report (h : BrokerFacts request attempt) {termination : Termination}
    {verified observedAlive : Bool} {child : ChildRecord}
    (hphase : attempt.phase = .reporting termination verified) (hchild : attempt.child = some child)
    (toController : Bytes) :
    BrokerFacts request { attempt with
      phase := .closing, toController := toController,
      emitted := some (attempt.finalEvent request child termination (verified && !observedAlive)) } := by
  refine ⟨h.offset, trivial, h.unspawned, h.child, ?_, ?_, ?_, ?_, ?_⟩
  · intro hspawn
    cases hspawn
  · intro hserves
    cases hserves
  · intro hclosing
    exact absurd rfl hclosing
  · intro hclosed
    have hphase' := h.closed hclosed
    rw [hphase] at hphase'
    cases hphase'
  · rintro event hevent
    cases hevent
    refine ⟨hchild, rfl, rfl, ?_⟩
    intro hcompleted
    -- A completed event was verified, and then the facts of `reporting` hold.
    have hverified : verified = true := by
      cases verified with
      | true => rfl
      | false => cases hcompleted
    have hfacts := h.phase
    unfold PhaseFacts at hfacts
    rw [hphase, hverified] at hfacts
    exact hfacts

theorem BrokerFacts.step (h : BrokerFacts request attempt)
    (hstep : AttemptStep request attempt party later) : BrokerFacts request later := by
  cases hstep with
  | create halive hnone =>
      apply h.write halive
      rw [Attempt.content, hnone]
      exact Nat.le_refl _
  | append written halive houtput =>
      apply h.write halive
      rw [Attempt.content, houtput]
      simp
  | exit =>
      refine ⟨h.offset, h.phase.exit, h.unspawned, h.child, h.spawning, h.serving, h.unfinished,
        h.closed, ?_⟩
      intro event hevent
      obtain ⟨hchild, hgeneration, hbytes, hcompleted⟩ := h.emitted event hevent
      exact ⟨hchild, hgeneration, hbytes, fun hstatus => ⟨rfl, (hcompleted hstatus).2⟩⟩
  | @spawn child sent hphase hchild hopen hsent =>
      have hzero := h.unspawned (h.spawning hphase)
      have hnone : attempt.emitted = none := h.unfinished (by simp [hphase]) (by simp [hphase])
      refine ⟨h.offset, trivial, fun _ => hzero, ?_, ?_, ?_, fun _ _ => hnone, ?_, ?_⟩
      · intro other hother
        cases hother
        exact hchild
      · intro hspawn
        cases hspawn
      · intro _ hno
        cases hno
      · intro hclosed
        have hphase' := h.closed hclosed
        rw [hphase] at hphase'
        cases hphase'
      · intro event hevent
        have hsome : attempt.emitted = some event := hevent
        rw [hnone] at hsome
        cases hsome
  | refuse hphase =>
      exact h.move .erring (by simp [hphase]) (by simp) (by simp [ServePhase.serving]) trivial _
  | pollOutput hphase hopen hnew hsent =>
      exact h.read .checking (by simp [hphase]) (by simp) (by rw [hphase]; rfl) trivial _
  | pollNothing hphase hnew =>
      exact h.move .checking (by simp [hphase]) (by simp) (by simp [hphase, ServePhase.serving])
        trivial _
  | gone hphase hdead =>
      exact h.move .confirming (by simp [hphase]) (by simp) (by simp [hphase, ServePhase.serving])
        trivial _
  | alive hphase =>
      exact h.move .selecting (by simp [hphase]) (by simp) (by simp [hphase, ServePhase.serving])
        trivial _
  | confirm verified hphase hquiescent =>
      refine h.move (.draining .childExited verified) (by simp [hphase]) (by simp)
        (by simp [hphase, ServePhase.serving]) ?_ _
      cases verified with
      | true => exact hquiescent rfl
      | false => trivial
  | idle hphase hpending hopen =>
      exact h.move .polling (by simp [hphase]) (by simp) (by simp [hphase, ServePhase.serving])
        trivial _
  | receiveCancel hphase hpending =>
      exact h.move (.terminating .explicitCancel) (by simp [hphase]) (by simp)
        (by simp [hphase, ServePhase.serving]) trivial _
  | receiveEnd hphase hpending hclosed =>
      exact h.move (.terminating .controllerDisconnected) (by simp [hphase]) (by simp)
        (by simp [hphase, ServePhase.serving]) trivial _
  | @terminate termination verified hphase hquiescent =>
      refine h.move (.draining termination verified) (by simp [hphase]) (by simp)
        (by simp [hphase, ServePhase.serving]) ?_ _
      cases verified with
      | true => exact hquiescent rfl
      | false => trivial
  | @drainOutput termination verified sent hphase hopen hnew hsent =>
      refine h.read attempt.phase (by simp [hphase]) (by simp [hphase]) (by rw [hphase]; rfl) ?_ _
      have hfacts := h.phase
      unfold PhaseFacts at hfacts ⊢
      dsimp only
      rw [hphase] at hfacts ⊢
      cases verified with
      | true => exact hfacts
      | false => trivial
  | @drained termination verified hphase hnew =>
      refine h.move (.reporting termination verified) (by simp [hphase]) (by simp)
        (by simp [hphase, ServePhase.serving]) ?_ _
      have hfacts := h.phase
      unfold PhaseFacts at hfacts ⊢
      rw [hphase] at hfacts
      cases verified with
      | true => exact ⟨hfacts, attempt.offset_eq_of_newOutput h.offset hnew⟩
      | false => trivial
  | report observedAlive hphase hchild hopen halive hsent => exact h.report hphase hchild _
  | fail hphase =>
      refine h.move .failing ?_ (by simp) (by simp [ServePhase.serving]) trivial _
      constructor
      · intro heq
        rw [heq] at hphase
        cases hphase
      · intro heq
        rw [heq] at hphase
        cases hphase
  | reraise hphase =>
      exact h.move .erring (by simp [hphase]) (by simp) (by simp [ServePhase.serving]) trivial _
  | sendError hphase hopen hsent =>
      have hmove := h.move .closing (by simp [hphase]) (by simp) (by simp [ServePhase.serving]) trivial
        attempt.cancelPending
      exact hmove.controller _ _ _
  | suppressError hphase =>
      exact h.move .closing (by simp [hphase]) (by simp) (by simp [ServePhase.serving]) trivial _
  | close hphase =>
      refine ⟨h.offset, trivial, h.unspawned, h.child, ?_, ?_, ?_, fun _ => rfl, h.emitted⟩
      · intro hspawn
        cases hspawn
      · intro hserves
        cases hserves
      · intro _ hclosed
        exact absurd rfl hclosed
  | turn | chunk | timeout | eof | frame | refused | ask | cancel | cancelFails =>
      exact h.controller _ _ _

end

/-! ## The socket and the controller's side -/

/-- What the broker has sent and the controller has not handled, in the order in which
it was sent. -/
structure Backlog where
  announced : Option ChildRecord
  chunks : List Bytes
  ending : Option Event

namespace Backlog

variable (request : AttemptRequest)

/-- The frames of a backlog. -/
def frames (backlog : Backlog) : List Frame :=
  (backlog.announced.toList.map fun child =>
      request.controlFrame (.spawned child request.generation)) ++
    (backlog.chunks.map rawFrame ++ backlog.ending.toList.map request.controlFrame)

/-- The first frame of a backlog, and the backlog behind it. -/
theorem frames_eq_cons {backlog : Backlog} {frame : Frame} {rest : List Frame}
    (h : backlog.frames request = frame :: rest) :
    (∃ child, backlog.announced = some child ∧
        frame = request.controlFrame (.spawned child request.generation) ∧
        rest = ({ backlog with announced := none } : Backlog).frames request) ∨
      (∃ chunk chunks, backlog.announced = none ∧ backlog.chunks = chunk :: chunks ∧
        frame = rawFrame chunk ∧ rest = ({ backlog with chunks := chunks } : Backlog).frames request) ∨
      ∃ event, backlog.announced = none ∧ backlog.chunks = [] ∧ backlog.ending = some event ∧
        frame = request.controlFrame event ∧ rest = [] := by
  rcases backlog with ⟨announced, chunks, ending⟩
  cases announced with
  | some child =>
      left
      injection h with hframe hrest
      exact ⟨child, rfl, hframe.symm, hrest.symm⟩
  | none =>
      right
      cases chunks with
      | cons chunk chunks =>
          left
          injection h with hframe hrest
          exact ⟨chunk, chunks, rfl, rfl, hframe.symm, hrest.symm⟩
      | nil =>
          right
          cases ending with
          | none => cases h
          | some event =>
              injection h with hframe hrest
              exact ⟨event, rfl, rfl, rfl, hframe.symm, hrest.symm⟩

end Backlog

section

variable (request : AttemptRequest)

/-- The ending of a backlog is the final event or an error, and nothing follows it. -/
def EndsWith (attempt : Attempt) (ending : Option Event) : Prop :=
  match attempt.emitted with
  | some event => ending = some (.final event)
  | none => ending = none ∨
      ∃ message activeChildren, ending = some (.error message activeChildren) ∧
        (attempt.phase = .closing ∨ attempt.phase = .closed)

/-- While the controller runs: what it has and what is under way is what was sent. -/
structure Streams (attempt : Attempt) (backlog : Backlog) : Prop where
  carries : Carries attempt.controller.reader attempt.toController (backlog.frames request)
  output : attempt.controller.transcript ++ backlog.chunks.flatten =
    attempt.content.take attempt.offset
  counted : attempt.controller.rawBytes = attempt.controller.transcript.length
  spawned : attempt.child = backlog.announced.or attempt.controller.spawned
  once : backlog.announced ≠ none → attempt.controller.spawned = none
  ordered : attempt.child = none → backlog.chunks = []
  ends : EndsWith attempt backlog.ending

/-- The controller's side: running on the backlog, or returned with the final event.  But
for a cancel that comes too late it gives up only when there will be no final event. -/
def ControllerFacts (attempt : Attempt) : Prop :=
  match attempt.controller.phase with
  | .looping | .receiving | .deciding | .cancelling => ∃ backlog, Streams request attempt backlog
  | .returned event => attempt.emitted = some event ∧
      attempt.controller.transcript = attempt.content.take attempt.offset ∧
      attempt.controller.rawBytes = attempt.controller.transcript.length
  | .raised .sendFailed => True
  | .recovering | .raised _ =>
      attempt.emitted = none ∧ (attempt.phase = .closing ∨ attempt.phase = .closed)

end

section

variable {request : AttemptRequest} {attempt later : Attempt} {party : Party} {backlog : Backlog}

theorem controllerFacts_start : ControllerFacts request .start := by
  refine ⟨⟨none, [], none⟩, ?_, rfl, rfl, rfl, ?_, fun _ => rfl, .inl rfl⟩
  · exact Carries.start
  · intro h
    exact absurd rfl h

theorem ControllerFacts.streams (h : ControllerFacts request attempt)
    (hopen : attempt.controllerOpen = true) : ∃ backlog, Streams request attempt backlog := by
  unfold ControllerFacts at h
  unfold Attempt.controllerOpen at hopen
  cases hphase : attempt.controller.phase with
  | looping | receiving | deciding | cancelling =>
      rw [hphase] at h
      exact h
  | returned | recovering | raised =>
      rw [hphase] at hopen
      cases hopen

/-- A running controller's facts, from its backlog. -/
theorem controllerFacts_of_streams (backlog : Backlog) (h : Streams request attempt backlog)
    (hopen : attempt.controllerOpen = true) : ControllerFacts request attempt := by
  unfold ControllerFacts
  unfold Attempt.controllerOpen at hopen
  cases hphase : attempt.controller.phase with
  | looping | receiving | deciding | cancelling => exact ⟨backlog, h⟩
  | returned | recovering | raised =>
      rw [hphase] at hopen
      cases hopen

theorem EndsWith.frame {ending : Option Event} (h : EndsWith attempt ending)
    (hemitted : later.emitted = attempt.emitted)
    (hphase : attempt.phase = .closing ∨ attempt.phase = .closed →
      later.phase = .closing ∨ later.phase = .closed) : EndsWith later ending := by
  unfold EndsWith at h ⊢
  rw [hemitted]
  cases hevent : attempt.emitted with
  | some event =>
      rw [hevent] at h
      exact h
  | none =>
      rw [hevent] at h
      rcases h with hnone | ⟨message, activeChildren, herror, hclosing⟩
      · exact .inl hnone
      · exact .inr ⟨message, activeChildren, herror, hphase hclosing⟩

/-- The facts survive what neither touches the socket and the controller nor takes
anything from what was read. -/
theorem ControllerFacts.frame (h : ControllerFacts request attempt)
    (hcontroller : later.controller = attempt.controller)
    (hwire : later.toController = attempt.toController) (hchild : later.child = attempt.child)
    (hcontent : later.content.take later.offset = attempt.content.take attempt.offset)
    (hemitted : later.emitted = attempt.emitted)
    (hclosing : attempt.phase = .closing ∨ attempt.phase = .closed →
      later.phase = .closing ∨ later.phase = .closed) :
    ControllerFacts request later := by
  unfold ControllerFacts at h ⊢
  rw [hcontroller]
  cases hphase : attempt.controller.phase with
  | looping | receiving | deciding | cancelling =>
      rw [hphase] at h
      obtain ⟨backlog, hstreams⟩ := h
      refine ⟨backlog, ?_, ?_, ?_, ?_, ?_, ?_, hstreams.ends.frame hemitted hclosing⟩
      · rw [hcontroller, hwire]
        exact hstreams.carries
      · rw [hcontroller, hcontent]
        exact hstreams.output
      · rw [hcontroller]
        exact hstreams.counted
      · rw [hchild, hcontroller]
        exact hstreams.spawned
      · rw [hcontroller]
        exact hstreams.once
      · rw [hchild]
        exact hstreams.ordered
  | returned event =>
      rw [hphase] at h
      rw [hemitted, hcontent]
      exact h
  | recovering =>
      rw [hphase] at h
      rw [hemitted]
      exact ⟨h.1, hclosing h.2⟩
  | raised error =>
      rw [hphase] at h
      rw [hemitted]
      cases error with
      | sendFailed => trivial
      | disconnected | refusedFrame | malformedEvent | brokerError | changedGeneration
      | changedAttempt | duplicateSpawn | changedChild => exact ⟨h.1, hclosing h.2⟩

/-- Before the broker is done nothing ends the backlog. -/
theorem Streams.ending_eq_none (h : Streams request attempt backlog)
    (hemitted : attempt.emitted = none)
    (hphase : attempt.phase ≠ .closing ∧ attempt.phase ≠ .closed) : backlog.ending = none := by
  have hends := h.ends
  unfold EndsWith at hends
  rw [hemitted] at hends
  rcases hends with hnone | ⟨_, _, -, hclosing | hclosed⟩
  · exact hnone
  · exact absurd hclosing hphase.1
  · exact absurd hclosed hphase.2

/-- With nothing under way there was no final event. -/
theorem Streams.emitted_eq_none (h : Streams request attempt backlog)
    (hframes : backlog.frames request = []) : attempt.emitted = none := by
  have hends := h.ends
  unfold EndsWith at hends
  cases hemitted : attempt.emitted with
  | none => rfl
  | some event =>
      rw [hemitted] at hends
      simp [Backlog.frames, hends] at hframes

theorem Backlog.frames_send_chunk (hending : backlog.ending = none) (payload : Bytes) :
    ({ backlog with chunks := backlog.chunks ++ [payload] } : Backlog).frames request =
      backlog.frames request ++ [rawFrame payload] := by
  simp [Backlog.frames, hending]

theorem Backlog.frames_send_ending (hending : backlog.ending = none) (event : Event) :
    ({ backlog with ending := some event } : Backlog).frames request =
      backlog.frames request ++ [request.controlFrame event] := by
  simp [Backlog.frames, hending]

/-- The broker announces its child: nothing else has been sent. -/
theorem Streams.spawn (h : Streams request attempt backlog) (hnone : attempt.child = none)
    (hending : backlog.ending = none) {child : ChildRecord} {sent : Bytes}
    (hsent : sendFrame (request.controlFrame (.spawned child request.generation)) = .ok sent)
    (hemitted : attempt.emitted = none) :
    Streams request { attempt with
        phase := .polling, child := some child, toController := attempt.toController ++ sent }
      { backlog with announced := some child } := by
  have hspawned := h.spawned
  rw [hnone] at hspawned
  obtain ⟨hannounced, hcontroller⟩ := Option.or_eq_none_iff.mp hspawned.symm
  have hchunks := h.ordered hnone
  have hframes : backlog.frames request = [] := by
    simp [Backlog.frames, hannounced, hchunks, hending]
  have hcarries := h.carries
  rw [hframes] at hcarries
  refine ⟨?_, h.output, h.counted, rfl, fun _ => hcontroller, ?_, ?_⟩
  · have hannouncement := hcarries.send hsent
    simpa [Backlog.frames, hchunks, hending] using hannouncement
  · intro hno
    cases hno
  · unfold EndsWith
    dsimp only
    rw [hemitted]
    exact .inl hending

/-- The broker sends what it has just read. -/
theorem Streams.sendOutput (h : Streams request attempt backlog) (hchild : attempt.child ≠ none)
    (hending : backlog.ending = none) {sent : Bytes}
    (hsent : sendFrame (rawFrame attempt.newOutput) = .ok sent) (hemitted : attempt.emitted = none)
    (phase : ServePhase) :
    Streams request { attempt with
        phase := phase, offset := attempt.offset + attempt.newOutput.length,
        toController := attempt.toController ++ sent }
      { backlog with chunks := backlog.chunks ++ [attempt.newOutput] } := by
  refine ⟨?_, ?_, h.counted, h.spawned, h.once, ?_, ?_⟩
  · rw [Backlog.frames_send_chunk hending]
    exact h.carries.send hsent
  · show _ = attempt.content.take (attempt.offset + attempt.newOutput.length)
    rw [List.flatten_append, List.flatten_singleton, ← List.append_assoc, h.output,
      attempt.take_newOutput]
  · intro hno
    exact absurd hno hchild
  · unfold EndsWith
    dsimp only
    rw [hemitted]
    exact .inl hending

/-- The broker sends its last event. -/
theorem Streams.sendEnding (h : Streams request attempt backlog) (hending : backlog.ending = none)
    {event : Event} {sent : Bytes} (hsent : sendFrame (request.controlFrame event) = .ok sent)
    {emitted : Option FinalEvent}
    (hends : EndsWith { attempt with phase := .closing, emitted := emitted } (some event)) :
    Streams request { attempt with
        phase := .closing, toController := attempt.toController ++ sent, emitted := emitted }
      { backlog with ending := some event } := by
  refine ⟨?_, h.output, h.counted, h.spawned, h.once, h.ordered, hends⟩
  rw [Backlog.frames_send_ending hending]
  exact h.carries.send hsent

/-- The loop goes on with the same backlog and transcript. -/
theorem Streams.goOn (h : Streams request attempt backlog) {controller : Controller}
    {toController : Bytes} (hruns : controller.phase.running = true)
    (htranscript : controller.transcript = attempt.controller.transcript)
    (hrawBytes : controller.rawBytes = attempt.controller.rawBytes)
    (hspawned : controller.spawned = attempt.controller.spawned)
    (hcarries : Carries controller.reader toController (backlog.frames request))
    (cancelPending : Bool) :
    ControllerFacts request { attempt with
      toController := toController, cancelPending := cancelPending, controller := controller } := by
  refine controllerFacts_of_streams backlog ?_ hruns
  refine ⟨hcarries, ?_, ?_, ?_, ?_, h.ordered, h.ends⟩
  · show controller.transcript ++ _ = _
    rw [htranscript]
    exact h.output
  · show controller.rawBytes = controller.transcript.length
    rw [hrawBytes, htranscript]
    exact h.counted
  · show _ = backlog.announced.or controller.spawned
    rw [hspawned]
    exact h.spawned
  · show _ → controller.spawned = none
    rw [hspawned]
    exact h.once

theorem handleFrame_raw (controller : Controller) (chunk : Bytes) :
    controller.handleFrame request (rawFrame chunk) = { controller with
      transcript := controller.transcript ++ chunk
      rawBytes := controller.rawBytes + chunk.length
      phase := .deciding } := rfl

theorem handleFrame_control (controller : Controller) (event : Event) :
    controller.handleFrame request (request.controlFrame event) =
      controller.handleEvent request event := by
  have htype : (request.controlFrame event).frameType ≠ brokerFrameRawOutput := by
    show brokerFrameControl ≠ brokerFrameRawOutput
    decide
  have hloads : request.codec.loads (request.controlFrame event).payload = some event :=
    request.codec.loads_dumps event
  unfold Controller.handleFrame
  rw [if_neg htype, hloads]

/-- What the controller does with the frame in front of its backlog: an announcement or
an output chunk moves over, the final event is returned. -/
theorem Streams.handleFrame (h : Streams request attempt backlog)
    (hbroker : BrokerFacts request attempt) {reader : BufferedBrokerFrameReader} {frame : Frame}
    (hattempt : attempt.controller.reader.attempt = .complete frame reader) :
    ControllerFacts request { attempt with
      controller := ({ attempt.controller with reader := reader }).handleFrame request frame } := by
  obtain ⟨rest, hframes, hrest⟩ := h.carries.complete hattempt
  rcases Backlog.frames_eq_cons request hframes with
    ⟨child, hannounced, rfl, hbehind⟩ | ⟨chunk, chunks, hannounced, hchunks, rfl, hbehind⟩ |
      ⟨event, hannounced, hchunks, hending, rfl, hbehind⟩
  · -- The announcement is the first thing sent, so no child is known yet.
    have hchild : attempt.child = some child := by
      rw [h.spawned, hannounced]
      rfl
    have hnone : attempt.controller.spawned = none := h.once (by simp [hannounced])
    have hid := hbroker.child child hchild
    rw [handleFrame_control]
    unfold Controller.handleEvent
    dsimp only
    rw [if_neg (by simp), if_neg (by simp [hid]), if_neg (by simp [hnone])]
    refine controllerFacts_of_streams { backlog with announced := none } ?_ rfl
    refine ⟨hbehind ▸ hrest, h.output, h.counted, hchild, ?_, h.ordered, h.ends⟩
    intro hno
    exact absurd rfl hno
  · rw [handleFrame_raw]
    refine controllerFacts_of_streams { backlog with chunks := chunks } ?_ rfl
    refine ⟨hbehind ▸ hrest, ?_, ?_, h.spawned, h.once, ?_, h.ends⟩
    · have houtput := h.output
      rw [hchunks, List.flatten_cons, ← List.append_assoc] at houtput
      exact houtput
    · show _ + chunk.length = (_ ++ chunk).length
      rw [List.length_append, h.counted]
    · intro hno
      have hnil := h.ordered hno
      rw [hchunks] at hnil
      cases hnil
  · rw [handleFrame_control]
    have hends := h.ends
    unfold EndsWith at hends
    cases hemitted : attempt.emitted with
    | some final =>
        rw [hemitted, hending] at hends
        cases hends
        obtain ⟨hchild, hgeneration, -, -⟩ := hbroker.emitted final hemitted
        have hid := hbroker.child final.child hchild
        have hspawned : attempt.controller.spawned = some final.child := by
          rw [← hchild, h.spawned, hannounced]
          rfl
        unfold Controller.handleEvent
        dsimp only
        rw [if_neg (by simp [hgeneration]), if_neg (by simp [hid]), if_neg (by simp [hspawned])]
        refine ⟨rfl, ?_, h.counted⟩
        have houtput := h.output
        rw [hchunks, List.flatten_nil, List.append_nil] at houtput
        exact houtput
    | none =>
        rw [hemitted, hending] at hends
        rcases hends with hno | ⟨message, activeChildren, herror, hclosing⟩
        · cases hno
        · cases herror
          unfold Controller.handleEvent
          dsimp only
          split
          · exact ⟨rfl, hclosing⟩
          · exact ⟨rfl, hclosing⟩

theorem Controller.decide_reader (controller : Controller) (wish : Option String) :
    (controller.decide wish).reader = controller.reader ∧
      (controller.decide wish).transcript = controller.transcript ∧
      (controller.decide wish).rawBytes = controller.rawBytes ∧
      (controller.decide wish).spawned = controller.spawned := by
  unfold Controller.decide
  split
  · exact ⟨rfl, rfl, rfl, rfl⟩
  · exact ⟨rfl, rfl, rfl, rfl⟩

/-- A step of the broker that sends nothing. -/
theorem ControllerFacts.brokerMove (h : ControllerFacts request attempt) {phase : ServePhase}
    (hphase : attempt.phase = .closing ∨ attempt.phase = .closed → phase = .closing ∨ phase = .closed)
    (cancelPending brokerOpen : Bool) :
    ControllerFacts request { attempt with
      phase := phase, cancelPending := cancelPending, brokerOpen := brokerOpen } := by
  exact h.frame rfl rfl rfl rfl rfl hphase

theorem ControllerFacts.step (h : ControllerFacts request attempt)
    (hbroker : BrokerFacts request attempt) (hstep : AttemptStep request attempt party later) :
    ControllerFacts request later := by
  have hrunning : ∀ {phase : ControllerPhase}, attempt.controller.phase = phase →
      phase.running = true → attempt.controllerOpen = true := by
    intro phase hphase hruns
    unfold Attempt.controllerOpen
    rw [hphase]
    exact hruns
  cases hstep with
  | create halive hnone =>
      refine h.frame rfl rfl rfl ?_ rfl id
      simp [Attempt.content, hnone]
  | @append content written halive houtput =>
      refine h.frame rfl rfl rfl ?_ rfl id
      have hoffset := hbroker.offset
      unfold Attempt.content at hoffset ⊢
      rw [houtput] at hoffset ⊢
      exact List.take_append_of_le_length hoffset
  | exit => exact h.frame rfl rfl rfl rfl rfl id
  | spawn hphase hchild hopen hsent =>
      obtain ⟨backlog, hstreams⟩ := h.streams hopen
      have hemitted := hbroker.unfinished (by simp [hphase]) (by simp [hphase])
      have hending := hstreams.ending_eq_none hemitted (by simp [hphase])
      have hspawn := hstreams.spawn (hbroker.spawning hphase) hending hsent hemitted
      exact controllerFacts_of_streams _ hspawn hopen
  | refuse hphase => exact h.brokerMove (by simp [hphase]) attempt.cancelPending attempt.brokerOpen
  | pollOutput hphase hopen hnew hsent =>
      obtain ⟨backlog, hstreams⟩ := h.streams hopen
      have hemitted := hbroker.unfinished (by simp [hphase]) (by simp [hphase])
      have hending := hstreams.ending_eq_none hemitted (by simp [hphase])
      have hchild := hbroker.serving (by rw [hphase]; rfl)
      exact controllerFacts_of_streams _
        (hstreams.sendOutput hchild hending hsent hemitted .checking) hopen
  | pollNothing hphase hnew =>
      exact h.brokerMove (by simp [hphase]) attempt.cancelPending attempt.brokerOpen
  | gone hphase hdead =>
      exact h.brokerMove (by simp [hphase]) attempt.cancelPending attempt.brokerOpen
  | alive hphase => exact h.brokerMove (by simp [hphase]) attempt.cancelPending attempt.brokerOpen
  | confirm verified hphase hquiescent =>
      exact h.brokerMove (by simp [hphase]) attempt.cancelPending attempt.brokerOpen
  | idle hphase hpending hopen =>
      exact h.brokerMove (by simp [hphase]) attempt.cancelPending attempt.brokerOpen
  | receiveCancel hphase hpending => exact h.brokerMove (by simp [hphase]) false attempt.brokerOpen
  | receiveEnd hphase hpending hclosed =>
      exact h.brokerMove (by simp [hphase]) attempt.cancelPending attempt.brokerOpen
  | terminate verified hphase hquiescent =>
      exact h.brokerMove (by simp [hphase]) attempt.cancelPending attempt.brokerOpen
  | drainOutput hphase hopen hnew hsent =>
      obtain ⟨backlog, hstreams⟩ := h.streams hopen
      have hemitted := hbroker.unfinished (by simp [hphase]) (by simp [hphase])
      have hending := hstreams.ending_eq_none hemitted (by simp [hphase])
      have hchild := hbroker.serving (by rw [hphase]; rfl)
      exact controllerFacts_of_streams _
        (hstreams.sendOutput hchild hending hsent hemitted attempt.phase) hopen
  | drained hphase hnew =>
      exact h.brokerMove (by simp [hphase]) attempt.cancelPending attempt.brokerOpen
  | report observedAlive hphase hchild hopen halive hsent =>
      obtain ⟨backlog, hstreams⟩ := h.streams hopen
      have hemitted := hbroker.unfinished (by simp [hphase]) (by simp [hphase])
      have hending := hstreams.ending_eq_none hemitted (by simp [hphase])
      exact controllerFacts_of_streams _ (hstreams.sendEnding hending hsent rfl) hopen
  | fail hphase =>
      refine h.brokerMove ?_ attempt.cancelPending attempt.brokerOpen
      rintro (hclosing | hclosed)
      · rw [hclosing] at hphase
        cases hphase
      · rw [hclosed] at hphase
        cases hphase
  | reraise hphase => exact h.brokerMove (by simp [hphase]) attempt.cancelPending attempt.brokerOpen
  | sendError hphase hopen hsent =>
      obtain ⟨backlog, hstreams⟩ := h.streams hopen
      have hemitted := hbroker.unfinished (by simp [hphase]) (by simp [hphase])
      have hending := hstreams.ending_eq_none hemitted (by simp [hphase])
      refine controllerFacts_of_streams _ (hstreams.sendEnding hending hsent ?_) hopen
      unfold EndsWith
      dsimp only
      rw [hemitted]
      exact .inr ⟨_, _, rfl, .inl rfl⟩
  | suppressError hphase =>
      exact h.brokerMove (by simp) attempt.cancelPending attempt.brokerOpen
  | close hphase => exact h.brokerMove (by simp) attempt.cancelPending false
  | turn expired hphase =>
      obtain ⟨backlog, hstreams⟩ := h.streams (hrunning hphase rfl)
      refine hstreams.goOn ?_ ?_ ?_ ?_ ?_ attempt.cancelPending
      · rfl
      · rfl
      · rfl
      · rfl
      · exact hstreams.carries
  | chunk hphase hattempt hpiece hsplit =>
      obtain ⟨backlog, hstreams⟩ := h.streams (hrunning hphase rfl)
      have hcarries := hstreams.carries
      rw [hsplit] at hcarries
      refine hstreams.goOn ?_ ?_ ?_ ?_ ?_ attempt.cancelPending
      · exact hrunning hphase rfl
      · rfl
      · rfl
      · rfl
      · exact hcarries.chunk hattempt
  | timeout hphase hattempt hnothing hopen =>
      obtain ⟨backlog, hstreams⟩ := h.streams (hrunning hphase rfl)
      refine hstreams.goOn ?_ ?_ ?_ ?_ ?_ attempt.cancelPending
      · rfl
      · rfl
      · rfl
      · rfl
      · exact hstreams.carries.partly hattempt
  | eof hphase hattempt hnothing hclosed =>
      obtain ⟨backlog, hstreams⟩ := h.streams (hrunning hphase rfl)
      have hcarries := hstreams.carries
      rw [hnothing] at hcarries
      exact ⟨hstreams.emitted_eq_none (hcarries.eq_nil hattempt), .inr (hbroker.closed hclosed)⟩
  | frame hphase hattempt =>
      obtain ⟨backlog, hstreams⟩ := h.streams (hrunning hphase rfl)
      exact hstreams.handleFrame hbroker hattempt
  | refused hphase hattempt =>
      obtain ⟨backlog, hstreams⟩ := h.streams (hrunning hphase rfl)
      exact absurd hattempt (hstreams.carries.not_refused _)
  | ask wish hphase =>
      obtain ⟨backlog, hstreams⟩ := h.streams (hrunning hphase rfl)
      obtain ⟨hreader, htranscript, hrawBytes, hspawned⟩ := attempt.controller.decide_reader wish
      refine hstreams.goOn ?_ ?_ ?_ ?_ ?_ attempt.cancelPending
      · show ControllerPhase.running (if _ then _ else _) = true
        split
        · rfl
        · rfl
      · exact htranscript
      · exact hrawBytes
      · exact hspawned
      · show Carries (attempt.controller.decide wish).reader _ _
        rw [hreader]
        exact hstreams.carries
  | cancel hphase hopen =>
      obtain ⟨backlog, hstreams⟩ := h.streams (hrunning hphase rfl)
      refine hstreams.goOn ?_ ?_ ?_ ?_ ?_ true
      · rfl
      · rfl
      · rfl
      · rfl
      · exact hstreams.carries
  | cancelFails => trivial

/-! ## Runs -/

/-- What both sides know holds in every state of every run. -/
theorem facts_of_run {labels : List Party} (hrun : Run (AttemptStep request) .start labels later) :
    BrokerFacts request later ∧ ControllerFacts request later := by
  have hstep : ∀ state label next, BrokerFacts request state ∧ ControllerFacts request state →
      AttemptStep request state label next →
      BrokerFacts request next ∧ ControllerFacts request next :=
    fun state label next hfacts hone => ⟨hfacts.1.step hone, hfacts.2.step hfacts.1 hone⟩
  exact hrun.preserves hstep ⟨brokerFacts_start, controllerFacts_start⟩

/-- A reader to which a whole frame has come hands it over and is new. -/
theorem attempt_of_sendFrame {frame : Frame} {sent : Bytes} (hsent : sendFrame frame = .ok sent) :
    (⟨sent, none⟩ : BufferedBrokerFrameReader).attempt = .complete frame {} := by
  have hspec := BufferedBrokerFrameReader.attempt_spec
    (show (⟨sent, none⟩ : BufferedBrokerFrameReader).Holds sent from rfl)
  have hnext : nextFrame sent = .done frame [] := by
    have happend := nextFrame_sendFrame hsent []
    rwa [List.append_nil] at happend
  cases hattempt : (⟨sent, none⟩ : BufferedBrokerFrameReader).attempt with
  | refused error =>
      rw [hattempt] at hspec
      rw [hnext] at hspec
      cases hspec
  | partly reader =>
      rw [hattempt] at hspec
      rw [hnext] at hspec
      cases hspec.1
  | complete received reader =>
      rw [hattempt] at hspec
      obtain ⟨hdone, hheader⟩ := hspec
      rw [hnext] at hdone
      injection hdone with hframe hbuffer
      rcases reader with ⟨buffer, header⟩
      dsimp only at hheader hbuffer
      rw [hframe, hheader, ← hbuffer]

/-- A turn of the controller in which a whole frame is next on the socket. -/
theorem turn_run {frame : Frame} {sent wire : Bytes} {handled : Controller}
    (hphase : attempt.controller.phase = .looping) (hreader : attempt.controller.reader = {})
    (hreason : attempt.controller.cancellationReason = none)
    (hsent : sendFrame frame = .ok sent) (hwire : attempt.toController = sent ++ wire)
    (hhandled : ({ attempt.controller with
      cancellationReason := none, phase := .receiving } : Controller).handleFrame request frame =
        handled) :
    Run (AttemptStep request) attempt [.controller, .controller, .controller] { attempt with
      toController := wire, controller := handled } := by
  have hnew : attempt.controller.reader.attempt = .partly {} := by
    rw [hreader]
    rfl
  have hne : sent ≠ [] := by
    intro hnil
    have hnext := nextFrame_sendFrame hsent []
    rw [hnil] at hnext
    cases hnext
  have hlast : ({ attempt.controller with
      cancellationReason := attempt.controller.cancellationReason.or none
      phase := .receiving, reader := {} } : Controller).handleFrame request frame = handled := by
    rw [← hhandled, hreason, ← hreader]
    rfl
  refine .cons (.turn false hphase) (.cons (.chunk rfl hnew hne hwire) ?_)
  rw [← hlast]
  exact .cons (.frame rfl (attempt_of_sendFrame hsent)) (.nil _)

theorem sendFrame_eq_ok {frame : Frame}
    (hknown : frame.frameType = brokerFrameControl ∨ frame.frameType = brokerFrameRawOutput)
    (hbounded : frame.payload.length ≤ maximumBytes frame.frameType) :
    sendFrame frame = .ok (packHeader frame.frameType frame.payload.length ++ frame.payload) := by
  unfold sendFrame admitHeader
  rw [dif_pos hknown, dif_pos hbounded]
  rfl

end

/-- **The transfer is lossless.**  In every run that ends with a returned `completed`
event, the transcript is the child's output file, byte for byte, and both counts are its
length. -/
theorem output_transfer_lossless (request : AttemptRequest) {labels : List Party}
    {attempt : Attempt} {event : FinalEvent}
    (hrun : Run (AttemptStep request) .start labels attempt)
    (hreturned : attempt.controller.phase = .returned event)
    (hcompleted : event.status = .completed) :
    attempt.controller.transcript = attempt.content ∧
      event.outputBytes = attempt.content.length ∧
      attempt.controller.rawBytes = attempt.content.length := by
  obtain ⟨hbroker, hcontroller⟩ := facts_of_run hrun
  unfold ControllerFacts at hcontroller
  rw [hreturned] at hcontroller
  obtain ⟨hemitted, htranscript, hcounted⟩ := hcontroller
  obtain ⟨-, -, hbytes, hfinished⟩ := hbroker.emitted event hemitted
  obtain ⟨-, hoffset⟩ := hfinished hcompleted
  have hall : attempt.controller.transcript = attempt.content := by
    rw [htranscript, hoffset, List.take_length]
  refine ⟨hall, ?_, ?_⟩
  · rw [hbytes, hoffset]
  · rw [hcounted, hall]

/-! ### A child that writes three bytes and exits -/

def soloRequest : AttemptRequest := ⟨"a-1", "0f", jsonCodec⟩
def soloChild : ChildRecord := ⟨"a-1", 4711⟩
def soloOutput : Bytes := [111, 107, 10]

def soloFinal : FinalEvent where
  status := .completed
  termination := .childExited
  child := soloChild
  childQuiescent := true
  seatReusable := true
  outputBytes := 3
  generation := "0f"

/-- The bytes of a frame of this attempt. -/
def soloBytes (frame : Frame) : Bytes :=
  packHeader frame.frameType frame.payload.length ++ frame.payload

/-- The broker has served the attempt and closed; the controller has read nothing. -/
def soloServed : Attempt where
  output := some soloOutput
  groupAlive := false
  phase := .closed
  child := some soloChild
  offset := 3
  emitted := some soloFinal
  brokerOpen := false
  toController := [] ++ soloBytes (soloRequest.controlFrame (.spawned soloChild "0f")) ++
    soloBytes (rawFrame soloOutput) ++ soloBytes (soloRequest.controlFrame (.final soloFinal))
  cancelPending := false
  controller := .start

theorem sendFrame_solo :
    sendFrame (soloRequest.controlFrame (.spawned soloChild "0f")) =
        .ok (soloBytes (soloRequest.controlFrame (.spawned soloChild "0f"))) ∧
      sendFrame (rawFrame soloOutput) = .ok (soloBytes (rawFrame soloOutput)) ∧
      sendFrame (soloRequest.controlFrame (.final soloFinal)) =
        .ok (soloBytes (soloRequest.controlFrame (.final soloFinal))) := by
  refine ⟨sendFrame_eq_ok (.inl rfl) ?_, sendFrame_eq_ok (.inr rfl) ?_, sendFrame_eq_ok (.inl rfl) ?_⟩
  · decide +kernel
  · decide +kernel
  · decide +kernel

theorem soloServed_run : Run (AttemptStep soloRequest) .start
    [.child, .child, .broker, .broker, .child, .broker, .broker, .broker, .broker, .broker]
    soloServed := by
  obtain ⟨hspawned, hraw, hfinal⟩ := sendFrame_solo
  refine .cons (.create rfl rfl) (.cons (.append soloOutput rfl rfl) ?_)
  refine .cons (.spawn rfl rfl rfl hspawned) ?_
  refine .cons (.pollOutput rfl rfl (by decide) hraw) ?_
  refine .cons .exit (.cons (.gone rfl rfl) (.cons (.confirm true rfl (fun _ => rfl)) ?_))
  refine .cons (.drained rfl rfl) ?_
  refine .cons (.report false rfl rfl rfl (fun h => by cases h) hfinal) ?_
  exact .cons (.close rfl) (.nil _)

/-- The controller has read that its child is spawned. -/
def soloAnnounced : Attempt :=
  { soloServed with
    toController := soloBytes (rawFrame soloOutput) ++ soloBytes (soloRequest.controlFrame (.final soloFinal))
    controller := { Controller.start with spawned := some soloChild, phase := .deciding } }

theorem soloAnnounced_run : Run (AttemptStep soloRequest) soloServed
    [.controller, .controller, .controller] soloAnnounced := by
  refine turn_run rfl rfl rfl sendFrame_solo.1 (List.append_assoc _ _ _) ?_
  rw [handleFrame_control]
  rfl

/-- The controller has returned. -/
def soloReturned : Attempt :=
  { soloServed with
    toController := []
    controller := { Controller.start with
      transcript := soloOutput, rawBytes := 3, spawned := some soloChild
      phase := .returned soloFinal } }

theorem soloReturned_run : Run (AttemptStep soloRequest) soloAnnounced
    [.controller, .controller, .controller, .controller, .controller, .controller, .controller,
      .controller] soloReturned := by
  have hwritten : Run (AttemptStep soloRequest) { soloAnnounced with
      controller := { soloAnnounced.controller with phase := .looping } }
      [.controller, .controller, .controller] { soloReturned with
        toController := soloBytes (soloRequest.controlFrame (.final soloFinal))
        controller := { soloReturned.controller with phase := .deciding } } :=
    turn_run rfl rfl rfl sendFrame_solo.2.1 rfl rfl
  have hreturned : Run (AttemptStep soloRequest) { soloReturned with
        toController := soloBytes (soloRequest.controlFrame (.final soloFinal))
        controller := { soloReturned.controller with phase := .looping } }
      [.controller, .controller, .controller] soloReturned := by
    refine turn_run rfl rfl rfl sendFrame_solo.2.2 (List.append_nil _).symm ?_
    rw [handleFrame_control]
    rfl
  exact .cons (.ask none rfl) (hwritten.append (.cons (.ask none rfl) hreturned))

theorem output_transfer_lossless_solo :
    soloReturned.controller.transcript = soloReturned.content ∧
      soloFinal.outputBytes = soloReturned.content.length ∧
      soloReturned.controller.rawBytes = soloReturned.content.length :=
  output_transfer_lossless soloRequest
    ((soloServed_run.append soloAnnounced_run).append soloReturned_run) rfl rfl

end Hearth.Broker
