import Hearth.Broker.Children
import Hearth.Library.Transition

/-!
# Spawn tokens and recovery

`_spawn_child` and `_read_parent_until` of the broker and `_recover_timed_out_broker_spawn` of its
client.  All sessions share one HOL basis, one pipe of its output and one registry.  A handler holds
`parent_lock` while it writes its phrase and reads until a line has a token of its attempt; when it
times out, the lines that it has read are gone, and the phrase it has sent is still to be answered.

The client then connects again, sends a blank phrase with an ACK path that cannot be written, and
takes the error about that path for the word that the late child was registered and quiesced.
-/

namespace Hearth.Broker

open Hearth.Library

/-! ## The basis -/

/-- A line of the output of the basis, as far as the broker looks for tokens in it. -/
inductive BasisLine
  | spawned (attemptId : String) (pid : ℕ)
  | refused (attemptId : String)
  | other
  deriving DecidableEq, Repr

/-- The attempt whose token is in the line. -/
def BasisLine.token : BasisLine → Option String
  | .spawned attemptId _ => some attemptId
  | .refused attemptId => some attemptId
  | .other => none

/-- What a handler writes to the basis: the phrase of an attempt, or the blank one of a recovery. -/
inductive Script
  | phrase (attemptId : String)
  | blank
  deriving DecidableEq, Repr

/-- The attempt whose token the basis will print. -/
def Script.token : Script → Option String
  | .phrase attemptId => some attemptId
  | .blank => none

/-! ## Handlers -/

/-- The message of an error event, as far as the client looks at it: the spawn timeout of the attempt,
or a message with the path of the blocker. -/
inductive SpawnError
  | timedOut | refused | blocked | other
  deriving DecidableEq, Repr

/-- What a connection ends with. -/
inductive SpawnEvent
  | error (error : SpawnError) (activeChildren : List ChildRecord)
  | completed
  | cleanupFailed
  deriving DecidableEq, Repr

/-- `_is_fork_spawn_timeout_event`. -/
def SpawnEvent.isForkSpawnTimeout : SpawnEvent → Bool
  | .error .timedOut [] => true
  | _ => false

/-- What `_spawn_child` makes of the lines that it has read. -/
def spawnOutcome (attemptId : String) : List BasisLine → Except SpawnError ℕ
  | [] => .error .other
  | .spawned other pid :: lines => if other = attemptId then .ok pid else spawnOutcome attemptId lines
  | .refused other :: lines =>
      if other = attemptId then .error .refused else spawnOutcome attemptId lines
  | .other :: lines => spawnOutcome attemptId lines

/-- A connection of an attempt: its spawn is number 0, and its recoveries follow. -/
structure Connection where
  attemptId : String
  number : ℕ
  deriving DecidableEq, Repr

/-- The script that a connection sends. -/
def Connection.script (connection : Connection) : Script :=
  if connection.number = 0 then .phrase connection.attemptId else .blank

/-- Where the handler of a connection is. -/
inductive SpawnPhase
  | absent
  /-- The request is here. -/
  | waiting
  /-- It holds `parent_lock` and has read these lines. -/
  | reading (lines : List BasisLine)
  /-- `_read_parent_until` returned these lines. -/
  | observed (lines : List BasisLine)
  | forked (pid : ℕ)
  | registered (pid : ℕ)
  | acknowledged (pid : ℕ)
  | disowning (pid : ℕ) (error : SpawnError)
  | disowned (pid : ℕ) (error : SpawnError)
  | serving (pid : ℕ)
  | raising (error : SpawnError)
  | replied (event : SpawnEvent)
  deriving DecidableEq, Repr

namespace SpawnPhase

/-- The request is being handled. -/
def live : SpawnPhase → Bool
  | .absent | .replied _ => false
  | _ => true

/-- Its attempt is in `active_attempt_ids`, once it is admitted. -/
def active : SpawnPhase → Bool
  | .absent | .waiting | .raising _ | .replied _ => false
  | _ => true

/-- The lines it has. -/
def lines : SpawnPhase → List BasisLine
  | .reading lines | .observed lines => lines
  | _ => []

/-- The child it has. -/
def child : SpawnPhase → Option ℕ
  | .forked pid | .registered pid | .acknowledged pid | .disowning pid _ | .disowned pid _
  | .serving pid => some pid
  | _ => none

/-- The child it has put into the registry. -/
def listed : SpawnPhase → Option ℕ
  | .registered pid | .acknowledged pid | .disowning pid _ | .disowned pid _ | .serving pid => some pid
  | _ => none

end SpawnPhase

/-- What the handlers share with the basis and with each other. -/
structure SpawnShared where
  /-- What the basis has still to read. -/
  inbox : List Script
  /-- The answer that the basis has still to print. -/
  answering : Option BasisLine
  /-- What the broker has still to read. -/
  pipe : List BasisLine
  process : ℕ → ChildProcess
  /-- The attempt that a process was forked for. -/
  forkedFor : ℕ → Option String
  /-- The pids whose children were acknowledged. -/
  acknowledged : List ℕ
  children : List ChildRecord
  parentLock : Option Connection
  /-- The lines that were read, each with the attempt that was served. -/
  consumed : List (String × BasisLine)

namespace SpawnShared

variable (shared : SpawnShared)

def register (record : ChildRecord) : SpawnShared :=
  { shared with children := ActiveBrokerChildren.register shared.children record }

def unregister (pid : ℕ) : SpawnShared :=
  { shared with children := ActiveBrokerChildren.unregister shared.children pid }

def setProcess (pid : ℕ) (process : ChildProcess) : SpawnShared :=
  { shared with process := Function.update shared.process pid process }

/-- A read takes these lines. -/
def take (attemptId : String) (chunk rest : List BasisLine) : SpawnShared :=
  { shared with
    pipe := rest
    consumed := shared.consumed ++ chunk.map fun line => (attemptId, line) }

/-- The attempts whose tokens are still to be read. -/
def outstanding : List String :=
  shared.inbox.filterMap Script.token ++ shared.answering.toList.filterMap BasisLine.token ++
    shared.pipe.filterMap BasisLine.token

end SpawnShared

/-- A line has a token of the attempt. -/
def tokenSeen (attemptId : String) (lines : List BasisLine) : Bool :=
  lines.any fun line => line.token = some attemptId

/-- One step of a handler: its phase and what it shares. -/
inductive SpawnStep (connection : Connection) (shared : SpawnShared) :
    SpawnPhase → SpawnPhase → SpawnShared → Prop
  /-- The request is refused, or its phrase cannot be sent. -/
  | refuse : SpawnStep connection shared .waiting (.raising .other) shared
  /-- `parent_lock` is taken and the script is sent. -/
  | lock (hfree : shared.parentLock = none) :
      SpawnStep connection shared .waiting (.reading [])
        { shared with
          parentLock := some connection
          inbox := shared.inbox ++ [connection.script] }
  | read {lines chunk rest : List BasisLine} (hpipe : shared.pipe = chunk ++ rest)
      (hunseen : tokenSeen connection.attemptId lines = false) :
      SpawnStep connection shared (.reading lines) (.reading (lines ++ chunk))
        (shared.take connection.attemptId chunk rest)
  /-- The lines are read, but the raw log cannot be written. -/
  | lose {lines chunk rest : List BasisLine} (hpipe : shared.pipe = chunk ++ rest)
      (hunseen : tokenSeen connection.attemptId lines = false) :
      SpawnStep connection shared (.reading lines) (.raising .other)
        { shared.take connection.attemptId chunk rest with parentLock := none }
  | timeOut {lines : List BasisLine} (hunseen : tokenSeen connection.attemptId lines = false) :
      SpawnStep connection shared (.reading lines) (.raising .timedOut)
        { shared with parentLock := none }
  /-- The basis has exited. -/
  | exited {lines : List BasisLine} :
      SpawnStep connection shared (.reading lines) (.raising .other)
        { shared with parentLock := none }
  | observe {lines : List BasisLine} (hseen : tokenSeen connection.attemptId lines = true) :
      SpawnStep connection shared (.reading lines) (.observed lines)
        { shared with parentLock := none }
  | spawned {lines : List BasisLine} {pid : ℕ}
      (houtcome : spawnOutcome connection.attemptId lines = .ok pid) :
      SpawnStep connection shared (.observed lines) (.forked pid) shared
  | unspawned {lines : List BasisLine} {error : SpawnError}
      (houtcome : spawnOutcome connection.attemptId lines = .error error) :
      SpawnStep connection shared (.observed lines) (.raising error) shared
  /-- `fork child birth identity is unavailable`. -/
  | unidentified {pid : ℕ} (hdead : (shared.process pid).leaderAlive = false) :
      SpawnStep connection shared (.forked pid) (.raising .other) shared
  | register {pid : ℕ} (halive : (shared.process pid).leaderAlive = true) :
      SpawnStep connection shared (.forked pid) (.registered pid)
        (shared.register ⟨connection.attemptId, pid⟩)
  /-- The registry has the child but cannot be written. -/
  | unwritten {pid : ℕ} (halive : (shared.process pid).leaderAlive = true) :
      SpawnStep connection shared (.forked pid) (.raising .other)
        (shared.register ⟨connection.attemptId, pid⟩)
  /-- The ACK path of a spawn is written. -/
  | acknowledge {pid : ℕ} (hspawn : connection.number = 0) :
      SpawnStep connection shared (.registered pid) (.acknowledged pid)
        { shared with acknowledged := pid :: shared.acknowledged }
  | unacknowledged {pid : ℕ} (hspawn : connection.number = 0) :
      SpawnStep connection shared (.registered pid) (.disowning pid .other) shared
  /-- The ACK path of a recovery is below a regular file. -/
  | blocked {pid : ℕ} (hrecovery : connection.number ≠ 0) :
      SpawnStep connection shared (.registered pid) (.disowning pid .blocked) shared
  | own {pid : ℕ} (hleading : shared.process pid = .leading) :
      SpawnStep connection shared (.acknowledged pid) (.serving pid) shared
  /-- `wait_for_child_ownership` raises. -/
  | unowned {pid : ℕ} : SpawnStep connection shared (.acknowledged pid) (.disowning pid .other) shared
  /-- `terminate_child` returns; its result is not looked at. -/
  | disown {pid : ℕ} {error : SpawnError} :
      SpawnStep connection shared (.disowning pid error) (.disowned pid error) shared
  | disownedQuiescent {pid : ℕ} {error : SpawnError} (hgroup : (shared.process pid).groupAlive = false) :
      SpawnStep connection shared (.disowned pid error) (.raising error) (shared.unregister pid)
  | disownedAlive {pid : ℕ} {error : SpawnError} (hgroup : (shared.process pid).groupAlive = true) :
      SpawnStep connection shared (.disowned pid error) (.raising error) shared
  /-- The attempt is over and its child is verified to be gone. -/
  | complete {pid : ℕ} (hgone : shared.process pid = .gone) :
      SpawnStep connection shared (.serving pid) (.replied .completed) (shared.unregister pid)
  | survive {pid : ℕ} : SpawnStep connection shared (.serving pid) (.replied .cleanupFailed) shared
  /-- Something raises, and the child is terminated. -/
  | failQuiescent {pid : ℕ} (hgone : shared.process pid = .gone) :
      SpawnStep connection shared (.serving pid) (.raising .other) (shared.unregister pid)
  | failAlive {pid : ℕ} : SpawnStep connection shared (.serving pid) (.raising .other) shared
  /-- The error event. -/
  | reply {error : SpawnError} :
      SpawnStep connection shared (.raising error)
        (.replied (.error error (ActiveBrokerChildren.snapshot shared.children))) shared

/-! ## The client -/

/-- Where the client of an attempt is. -/
inductive ClientPhase
  | idle
  /-- It has sent the request of this connection. -/
  | awaiting (number : ℕ)
  /-- It is about to open this connection to recover. -/
  | recovering (number : ℕ)
  /-- It asks for the status of the broker. -/
  | confirming
  /-- `seat_reusable` is reported. -/
  | recovered
  | served
  /-- It raised on this event of this connection. -/
  | raised (number : ℕ) (event : SpawnEvent)
  /-- It raised for a reason of its own. -/
  | gaveUp
  deriving DecidableEq, Repr

/-- What the client makes of the event that ends a connection. -/
def ClientPhase.receive (number : ℕ) (event : SpawnEvent) : ClientPhase :=
  if event.isForkSpawnTimeout then .recovering (number + 1)
  else
    match number, event with
    | 0, .completed | 0, .cleanupFailed => .served
    | _ + 1, .error .blocked [] => .confirming
    | _, _ => .raised number event

/-! ## The system -/

/-- The handlers of all connections, the clients of all attempts, and what they share. -/
structure SpawnState where
  phase : Connection → SpawnPhase
  client : String → ClientPhase
  shared : SpawnShared

/-- Before the first spawn. -/
def SpawnState.start : SpawnState where
  phase := fun _ => .absent
  client := fun _ => .idle
  shared :=
    { inbox := [], answering := none, pipe := [], process := fun _ => .unborn
      forkedFor := fun _ => none, acknowledged := [], children := [], parentLock := none, consumed := [] }

/-- Whose step it is. -/
inductive SpawnActor
  | basis | process (pid : ℕ) | handler (connection : Connection) | client (attemptId : String)
  deriving DecidableEq, Repr

/-- A step of the basis. -/
inductive BasisStep (shared : SpawnShared) : SpawnShared → Prop
  /-- The phrase of an attempt forks. -/
  | fork {attemptId : String} {rest : List Script} {pid : ℕ} (hinbox : shared.inbox = .phrase attemptId :: rest)
      (hready : shared.answering = none) (hunborn : shared.process pid = .unborn) :
      BasisStep shared
        { shared.setProcess pid .forked with
          inbox := rest
          answering := some (.spawned attemptId pid)
          forkedFor := Function.update shared.forkedFor pid (some attemptId) }
  | refuse {attemptId : String} {rest : List Script} (hinbox : shared.inbox = .phrase attemptId :: rest)
      (hready : shared.answering = none) :
      BasisStep shared { shared with inbox := rest, answering := some (.refused attemptId) }
  | skip {rest : List Script} (hinbox : shared.inbox = .blank :: rest) (hready : shared.answering = none) :
      BasisStep shared { shared with inbox := rest }
  /-- The answer is printed, however late. -/
  | print {line : BasisLine} (hline : shared.answering = some line) :
      BasisStep shared { shared with answering := none, pipe := shared.pipe ++ [line] }
  /-- Anything else is printed. -/
  | chatter : BasisStep shared { shared with pipe := shared.pipe ++ [.other] }

/-- A step of a child.  It makes its own group only after it was acknowledged. -/
inductive SpawnedStep (shared : SpawnShared) (pid : ℕ) : SpawnShared → Prop
  | lead (hforked : shared.process pid = .forked) (hack : pid ∈ shared.acknowledged) :
      SpawnedStep shared pid (shared.setProcess pid .leading)
  | orphan (hleading : shared.process pid = .leading) :
      SpawnedStep shared pid (shared.setProcess pid .orphaned)
  | die (hborn : shared.process pid ≠ .unborn) : SpawnedStep shared pid (shared.setProcess pid .gone)

namespace SpawnState

variable (state : SpawnState)

def setPhase (connection : Connection) (phase : SpawnPhase) : SpawnState :=
  { state with phase := Function.update state.phase connection phase }

def setClient (attemptId : String) (client : ClientPhase) : SpawnState :=
  { state with client := Function.update state.client attemptId client }

end SpawnState

/-- A step of the system. -/
inductive SystemStep (state : SpawnState) : SpawnActor → SpawnState → Prop
  | basis {shared : SpawnShared} (hstep : BasisStep state.shared shared) :
      SystemStep state .basis { state with shared := shared }
  | process {pid : ℕ} {shared : SpawnShared} (hstep : SpawnedStep state.shared pid shared) :
      SystemStep state (.process pid) { state with shared := shared }
  /-- An orphan is reaped where no attempt is active. -/
  | reap {connection : Connection} {pid : ℕ} (hwaiting : state.phase connection = .waiting)
      (hidle : ∀ other, (state.phase other).active = false) (hgone : state.shared.process pid = .gone) :
      SystemStep state (.handler connection) { state with shared := state.shared.unregister pid }
  | handler {connection : Connection} {phase : SpawnPhase} {shared : SpawnShared}
      (hstep : SpawnStep connection state.shared (state.phase connection) phase shared) :
      SystemStep state (.handler connection) { state.setPhase connection phase with shared := shared }
  /-- The request of a spawn, or of a recovery, arrives. -/
  | connect {attemptId : String} {number : ℕ}
      (hclient : state.client attemptId = .idle ∧ number = 0 ∨
        state.client attemptId = .recovering number)
      (habsent : state.phase ⟨attemptId, number⟩ = .absent) :
      SystemStep state (.client attemptId)
        ((state.setPhase ⟨attemptId, number⟩ .waiting).setClient attemptId (.awaiting number))
  | receive {attemptId : String} {number : ℕ} {event : SpawnEvent}
      (hclient : state.client attemptId = .awaiting number)
      (hreplied : state.phase ⟨attemptId, number⟩ = .replied event) :
      SystemStep state (.client attemptId) (state.setClient attemptId (.receive number event))
  /-- The status shows no active child. -/
  | confirm {attemptId : String} (hclient : state.client attemptId = .confirming)
      (hnone : state.shared.children = []) :
      SystemStep state (.client attemptId) (state.setClient attemptId .recovered)
  | giveUp {attemptId : String} : SystemStep state (.client attemptId) (state.setClient attemptId .gaveUp)

/-! ## What a handler does to what it shares -/

section

variable {connection : Connection} {shared later : SpawnShared} {phase next : SpawnPhase}

theorem mem_outstanding {attemptId : String} :
    attemptId ∈ shared.outstanding ↔ (∃ script ∈ shared.inbox, script.token = some attemptId) ∨
      (∃ line, shared.answering = some line ∧ line.token = some attemptId) ∨
        ∃ line ∈ shared.pipe, line.token = some attemptId := by
  unfold SpawnShared.outstanding
  rw [List.mem_append, List.mem_append, List.mem_filterMap, List.mem_filterMap, List.mem_filterMap,
    or_assoc]
  simp only [Option.mem_toList]

/-- Handlers leave the processes and the basis alone, and read from the front of the pipe. -/
theorem SpawnStep.leaves (hstep : SpawnStep connection shared phase next later) :
    later.process = shared.process ∧ later.forkedFor = shared.forkedFor ∧
      later.answering = shared.answering ∧ ∀ line ∈ later.pipe, line ∈ shared.pipe := by
  cases hstep with
  | read hpipe | lose hpipe =>
      refine ⟨rfl, rfl, rfl, fun line hline => ?_⟩
      rw [hpipe]
      exact List.mem_append_right _ hline
  | _ => exact ⟨rfl, rfl, rfl, fun line hline => hline⟩

/-- What a handler has read came through the pipe. -/
theorem SpawnStep.reads (hstep : SpawnStep connection shared phase next later) {line : BasisLine}
    (hline : line ∈ next.lines) : line ∈ phase.lines ∨ line ∈ shared.pipe := by
  cases hstep with
  | read hpipe =>
      rcases List.mem_append.mp hline with hin | hin
      · exact .inl hin
      · rw [hpipe]
        exact .inr (List.mem_append_left _ hin)
  | observe => exact .inl hline
  | _ => cases hline

/-- A child leaves the registry when it is gone, or with its handler. -/
theorem SpawnStep.unlists (hstep : SpawnStep connection shared phase next later) {child : ChildRecord}
    (hchild : child ∈ shared.children) :
    (∃ other ∈ later.children, other.pid = child.pid) ∨ shared.process child.pid = .gone ∨
      ∃ error, phase = .disowned child.pid error ∧ (shared.process child.pid).groupAlive = false := by
  have hregister : ∀ record : ChildRecord,
      ∃ other ∈ ActiveBrokerChildren.register shared.children record, other.pid = child.pid := by
    intro record
    by_cases hpid : child.pid = record.pid
    · exact ⟨record, ActiveBrokerChildren.mem_register_self _ _, hpid.symm⟩
    · exact ⟨child, ActiveBrokerChildren.mem_register_of_ne hchild hpid, rfl⟩
  have hunregister : ∀ pid, child.pid ≠ pid →
      ∃ other ∈ ActiveBrokerChildren.unregister shared.children pid, other.pid = child.pid :=
    fun pid hpid => ⟨child, ActiveBrokerChildren.mem_unregister.mpr ⟨hchild, hpid⟩, rfl⟩
  cases hstep with
  | register | unwritten => exact .inl (hregister _)
  | @disownedQuiescent pid error hgroup =>
      by_cases hpid : child.pid = pid
      · exact .inr (.inr ⟨error, by rw [hpid], by rw [hpid]; exact hgroup⟩)
      · exact .inl (hunregister pid hpid)
  | @complete pid hgone | @failQuiescent pid hgone =>
      by_cases hpid : child.pid = pid
      · exact .inr (.inl (by rw [hpid]; exact hgone))
      · exact .inl (hunregister pid hpid)
  | _ => exact .inl ⟨child, hchild, rfl⟩

/-- A handler has the child it had, or the one whose token it observed. -/
theorem SpawnStep.child (hstep : SpawnStep connection shared phase next later) {pid : ℕ}
    (hchild : next.child = some pid) :
    phase.child = some pid ∨ spawnOutcome connection.attemptId phase.lines = .ok pid := by
  cases hstep with
  | spawned houtcome =>
      obtain rfl := Option.some.inj hchild
      exact .inr houtcome
  | register | acknowledge | unacknowledged | blocked | own | unowned | disown => exact .inl hchild
  | _ => cases hchild

/-- A child is in the registry once its handler has put it there. -/
theorem SpawnStep.listed (hstep : SpawnStep connection shared phase next later) {pid : ℕ}
    (hlisted : next.listed = some pid) :
    (∃ child ∈ later.children, child.pid = pid) ∨ phase.listed = some pid ∧ later.children = shared.children := by
  cases hstep with
  | register =>
      obtain rfl := Option.some.inj hlisted
      exact .inl ⟨_, ActiveBrokerChildren.mem_register_self _ _, rfl⟩
  | acknowledge | unacknowledged | blocked | own | unowned | disown => exact .inr ⟨hlisted, rfl⟩
  | _ => cases hlisted

/-- A token of the attempt is where the pid was read. -/
theorem mem_of_spawnOutcome {attemptId : String} {lines : List BasisLine} {pid : ℕ}
    (h : spawnOutcome attemptId lines = .ok pid) : .spawned attemptId pid ∈ lines := by
  induction lines with
  | nil => cases h
  | cons line lines ih =>
      cases line with
      | spawned other found =>
          unfold spawnOutcome at h
          split at h
          · rename_i hsame
            obtain rfl := hsame
            obtain rfl := Except.ok.inj h
            exact List.mem_cons_self
          · exact List.mem_cons_of_mem _ (ih h)
      | refused other =>
          unfold spawnOutcome at h
          split at h
          · cases h
          · exact List.mem_cons_of_mem _ (ih h)
      | other => exact List.mem_cons_of_mem _ (ih h)

end

/-! ## Tokens -/

section

variable {state after : SpawnState} {actor : SpawnActor}

/-- While a handler reads, only tokens of its attempt are still to be read, and no others ever were. -/
structure TokenFacts (state : SpawnState) : Prop where
  lock : ∀ connection lines, state.phase connection = .reading lines →
    state.shared.parentLock = some connection
  own : ∀ connection, state.shared.parentLock = some connection →
    ∀ attemptId ∈ state.shared.outstanding, attemptId = connection.attemptId
  consumed : ∀ reader line, (reader, line) ∈ state.shared.consumed →
    ∀ attemptId, line.token = some attemptId → attemptId = reader

/-- A step that keeps to the conditions: `parent_lock` is taken only when no token of another attempt is
still to be read, the timeout of a spawn is reported only when no child is registered, and the cleanup
behind a blocked ACK path does not find its child in the group of the basis. -/
def CarefulStep (state : SpawnState) (actor : SpawnActor) (after : SpawnState) : Prop :=
  SystemStep state actor after ∧ ∀ connection, actor = .handler connection →
    (state.phase connection = .waiting → after.phase connection = .reading [] →
      ∀ attemptId ∈ state.shared.outstanding, attemptId = connection.attemptId) ∧
    (state.phase connection = .raising .timedOut → connection.number = 0 → state.shared.children = []) ∧
    ∀ pid, state.phase connection = .disowned pid .blocked → state.shared.process pid ≠ .forked

theorem tokenFacts_start : TokenFacts .start where
  lock _ _ hphase := nomatch hphase
  own _ hlock := nomatch hlock
  consumed _ _ hmem := nomatch hmem

/-- Steps that add no token and read none. -/
theorem TokenFacts.mono (h : TokenFacts state)
    (hphase : ∀ connection lines, after.phase connection = .reading lines →
      state.phase connection = .reading lines)
    (hlock : after.shared.parentLock = state.shared.parentLock)
    (houtstanding : ∀ attemptId ∈ after.shared.outstanding, attemptId ∈ state.shared.outstanding)
    (hconsumed : after.shared.consumed = state.shared.consumed) : TokenFacts after where
  lock connection lines hreading := by
    rw [hlock]
    exact h.lock connection lines (hphase connection lines hreading)
  own connection hholds attemptId hmem := by
    rw [hlock] at hholds
    exact h.own connection hholds attemptId (houtstanding attemptId hmem)
  consumed := by
    rw [hconsumed]
    exact h.consumed

/-- The basis answers what it was sent. -/
theorem BasisStep.outstanding {shared later : SpawnShared} (hstep : BasisStep shared later) :
    ∀ attemptId ∈ later.outstanding, attemptId ∈ shared.outstanding := by
  intro attemptId hmem
  rw [mem_outstanding] at hmem ⊢
  cases hstep with
  | fork hinbox | refuse hinbox =>
      rcases hmem with ⟨script, hscript, htoken⟩ | ⟨line, hline, htoken⟩ | hpipe
      · exact .inl ⟨script, by rw [hinbox]; exact List.mem_cons_of_mem _ hscript, htoken⟩
      · obtain rfl := Option.some.inj hline
        exact .inl ⟨.phrase _, by rw [hinbox]; exact List.mem_cons_self, htoken⟩
      · exact .inr (.inr hpipe)
  | skip hinbox =>
      rcases hmem with ⟨script, hscript, htoken⟩ | hrest
      · exact .inl ⟨script, by rw [hinbox]; exact List.mem_cons_of_mem _ hscript, htoken⟩
      · exact .inr hrest
  | print hline =>
      rcases hmem with hinbox | ⟨line, hnone, -⟩ | ⟨line, hpipe, htoken⟩
      · exact .inl hinbox
      · cases hnone
      · rcases List.mem_append.mp hpipe with hold | hnew
        · exact .inr (.inr ⟨line, hold, htoken⟩)
        · rw [List.mem_singleton.mp hnew] at htoken
          exact .inr (.inl ⟨_, hline, htoken⟩)
  | chatter =>
      rcases hmem with hinbox | hanswering | ⟨line, hpipe, htoken⟩
      · exact .inl hinbox
      · exact .inr (.inl hanswering)
      · rcases List.mem_append.mp hpipe with hold | hnew
        · exact .inr (.inr ⟨line, hold, htoken⟩)
        · rw [List.mem_singleton.mp hnew] at htoken
          cases htoken

/-- Only the tokens of what it reads leave the pipe, and only the lock adds any. -/
theorem SpawnStep.outstanding {connection : Connection} {shared later : SpawnShared}
    {phase next : SpawnPhase} (hstep : SpawnStep connection shared phase next later) {attemptId : String}
    (hmem : attemptId ∈ later.outstanding) :
    attemptId ∈ shared.outstanding ∨ phase = .waiting ∧ next = .reading [] ∧ attemptId = connection.attemptId := by
  rw [mem_outstanding] at hmem ⊢
  cases hstep with
  | lock hfree =>
      rcases hmem with ⟨script, hscript, htoken⟩ | hrest
      · rcases List.mem_append.mp hscript with hold | hnew
        · exact .inl (.inl ⟨script, hold, htoken⟩)
        · rw [List.mem_singleton.mp hnew] at htoken
          unfold Connection.script at htoken
          split at htoken
          · exact .inr ⟨rfl, rfl, (Option.some.inj htoken).symm⟩
          · cases htoken
      · exact .inl (.inr hrest)
  | read hpipe | lose hpipe =>
      rcases hmem with hinbox | hanswering | ⟨line, hline, htoken⟩
      · exact .inl (.inl hinbox)
      · exact .inl (.inr (.inl hanswering))
      · refine .inl (.inr (.inr ⟨line, ?_, htoken⟩))
        rw [hpipe]
        exact List.mem_append_right _ hline
  | _ => exact .inl hmem

/-- A handler takes `parent_lock`, lets it go, or leaves it. -/
theorem SpawnStep.parentLock {connection : Connection} {shared later : SpawnShared}
    {phase next : SpawnPhase} (hstep : SpawnStep connection shared phase next later) :
    (phase = .waiting ∧ next = .reading [] ∧ shared.parentLock = none ∧ later.parentLock = some connection) ∨
      ((∃ lines, phase = .reading lines) ∧ (∀ lines, next ≠ .reading lines) ∧ later.parentLock = none) ∨
        ((∀ lines, next = .reading lines → ∃ earlier, phase = .reading earlier) ∧
          later.parentLock = shared.parentLock) := by
  cases hstep with
  | lock hfree => exact .inl ⟨rfl, rfl, hfree, rfl⟩
  | lose | timeOut | exited | observe => exact .inr (.inl ⟨⟨_, rfl⟩, nofun, rfl⟩)
  | read => exact .inr (.inr ⟨fun _ _ => ⟨_, rfl⟩, rfl⟩)
  | _ => exact .inr (.inr ⟨nofun, rfl⟩)

/-- What is read while a handler holds the lock is of its attempt. -/
theorem TokenFacts.reads (h : TokenFacts state) {connection : Connection} {lines chunk rest : List BasisLine}
    (hphase : state.phase connection = .reading lines) (hpipe : state.shared.pipe = chunk ++ rest)
    {reader : String} {line : BasisLine}
    (hmem : (reader, line) ∈ (state.shared.take connection.attemptId chunk rest).consumed)
    {attemptId : String} (htoken : line.token = some attemptId) : attemptId = reader := by
  rcases List.mem_append.mp hmem with hold | hnew
  · exact h.consumed reader line hold attemptId htoken
  · obtain ⟨read, hread, heq⟩ := List.mem_map.mp hnew
    obtain ⟨rfl, rfl⟩ := Prod.mk.inj heq
    apply h.own connection (h.lock connection lines hphase)
    rw [mem_outstanding]
    refine .inr (.inr ⟨read, ?_, htoken⟩)
    rw [hpipe]
    exact List.mem_append_left _ hread

theorem TokenFacts.handlerStep (h : TokenFacts state) {connection : Connection} {phase : SpawnPhase}
    {shared : SpawnShared} (hstep : SpawnStep connection state.shared (state.phase connection) phase shared)
    (hquiet : state.phase connection = .waiting → phase = .reading [] →
      ∀ attemptId ∈ state.shared.outstanding, attemptId = connection.attemptId) :
    TokenFacts { state.setPhase connection phase with shared := shared } := by
  refine ⟨fun other lines hreading => ?_, fun other hholds attemptId hmem => ?_, ?_⟩
  · change Function.update state.phase connection phase other = .reading lines at hreading
    show shared.parentLock = some other
    by_cases heq : other = connection
    · subst heq
      rw [Function.update_self] at hreading
      rcases hstep.parentLock with ⟨-, -, -, hlock⟩ | ⟨-, hnot, -⟩ | ⟨hearlier, hlock⟩
      · exact hlock
      · exact absurd hreading (hnot lines)
      · obtain ⟨earlier, hphase⟩ := hearlier lines hreading
        rw [hlock]
        exact h.lock other earlier hphase
    · rw [Function.update_of_ne heq] at hreading
      have hother := h.lock other lines hreading
      rcases hstep.parentLock with ⟨-, -, hfree, -⟩ | ⟨⟨earlier, hphase⟩, -, -⟩ | ⟨-, hlock⟩
      · rw [hfree] at hother
        cases hother
      · -- Two handlers do not hold the lock at once.
        rw [h.lock connection earlier hphase] at hother
        exact absurd (Option.some.inj hother).symm heq
      · rw [hlock]
        exact hother
  · change shared.parentLock = some other at hholds
    rcases hstep.parentLock with ⟨hwaiting, hreading, -, hlock⟩ | ⟨-, -, hlock⟩ | ⟨hsame, hlock⟩
    · obtain rfl := Option.some.inj (hlock.symm.trans hholds)
      rcases hstep.outstanding hmem with hold | ⟨-, -, hown⟩
      · exact hquiet hwaiting hreading attemptId hold
      · exact hown
    · rw [hlock] at hholds
      cases hholds
    · rw [hlock] at hholds
      rcases hstep.outstanding hmem with hold | ⟨hwaiting, hreading, -⟩
      · exact h.own other hholds attemptId hold
      · obtain ⟨earlier, hphase⟩ := hsame [] hreading
        rw [hwaiting] at hphase
        cases hphase
  · intro reader line hmem attemptId htoken
    change (reader, line) ∈ shared.consumed at hmem
    generalize hphase : state.phase connection = earlier at hstep
    cases hstep with
    | read hpipe | lose hpipe => exact h.reads hphase hpipe hmem htoken
    | _ => exact h.consumed reader line hmem attemptId htoken

theorem TokenFacts.step (h : TokenFacts state) (hstep : CarefulStep state actor after) : TokenFacts after := by
  obtain ⟨hstep, hcareful⟩ := hstep
  cases hstep with
  | basis hstep =>
      refine h.mono (fun _ _ hphase => hphase) ?_ hstep.outstanding ?_ <;> cases hstep <;> rfl
  | process hstep =>
      refine h.mono (fun _ _ hphase => hphase) ?_ ?_ ?_ <;> cases hstep <;>
        first | rfl | exact fun attemptId hmem => hmem
  | reap => exact h.mono (fun _ _ hphase => hphase) rfl (fun _ hmem => hmem) rfl
  | @handler connection phase shared hstep =>
      refine h.handlerStep hstep fun hwaiting hreading => (hcareful connection rfl).1 hwaiting ?_
      show Function.update state.phase connection phase connection = .reading []
      rw [Function.update_self, hreading]
  | @connect attemptId number =>
      refine h.mono (fun connection lines hphase => ?_) rfl (fun _ hmem => hmem) rfl
      change Function.update state.phase ⟨attemptId, number⟩ .waiting connection = .reading lines at hphase
      by_cases heq : connection = ⟨attemptId, number⟩
      · rw [heq, Function.update_self] at hphase
        cases hphase
      · rwa [Function.update_of_ne heq] at hphase
  | receive | confirm | giveUp => exact h.mono (fun _ _ hphase => hphase) rfl (fun _ hmem => hmem) rfl

/-! ## Timeouts -/

/-- The spawn timeouts that were reported and received. -/
structure TimeoutFacts (state : SpawnState) : Prop where
  told : ∀ attemptId children, state.phase ⟨attemptId, 0⟩ = .replied (.error .timedOut children) →
    children = []
  raised : ∀ attemptId children, state.client attemptId ≠ .raised 0 (.error .timedOut children)

theorem timeoutFacts_start : TimeoutFacts .start where
  told _ _ hphase := nomatch hphase
  raised _ _ := nofun

theorem TimeoutFacts.step (h : TimeoutFacts state) (hstep : CarefulStep state actor after) :
    TimeoutFacts after := by
  obtain ⟨hstep, hcareful⟩ := hstep
  cases hstep with
  | basis | process | reap => exact ⟨h.told, h.raised⟩
  | @handler connection phase shared hstep =>
      refine ⟨fun attemptId children hphase => ?_, h.raised⟩
      change Function.update state.phase connection phase ⟨attemptId, 0⟩ = _ at hphase
      by_cases heq : (⟨attemptId, 0⟩ : Connection) = connection
      · subst heq
        rw [Function.update_self] at hphase
        subst hphase
        generalize hearlier : state.phase ⟨attemptId, 0⟩ = earlier at hstep
        cases hstep with
        | reply =>
            rw [(hcareful _ rfl).2.1 hearlier rfl]
            rfl
      · rw [Function.update_of_ne heq] at hphase
        exact h.told attemptId children hphase
  | @connect attemptId number =>
      refine ⟨fun other children hphase => ?_, fun other children hclient => ?_⟩
      · change Function.update state.phase ⟨attemptId, number⟩ .waiting ⟨other, 0⟩ = _ at hphase
        by_cases heq : (⟨other, 0⟩ : Connection) = ⟨attemptId, number⟩
        · rw [heq, Function.update_self] at hphase
          cases hphase
        · rw [Function.update_of_ne heq] at hphase
          exact h.told other children hphase
      · change Function.update state.client attemptId _ other = _ at hclient
        by_cases heq : other = attemptId
        · rw [heq, Function.update_self] at hclient
          cases hclient
        · rw [Function.update_of_ne heq] at hclient
          exact h.raised other children hclient
  | @receive attemptId number event hawaiting hreplied =>
      refine ⟨h.told, fun other children hclient => ?_⟩
      change Function.update state.client attemptId _ other = _ at hclient
      by_cases heq : other = attemptId
      · subst heq
        rw [Function.update_self] at hclient
        unfold ClientPhase.receive at hclient
        split at hclient
        · cases hclient
        · rename_i htimeout
          split at hclient <;> cases hclient
          -- The event that was received is a timeout without children after all.
          obtain rfl := h.told other children hreplied
          exact htimeout rfl
      · rw [Function.update_of_ne heq] at hclient
        exact h.raised other children hclient
  | @confirm attemptId | @giveUp attemptId =>
      refine ⟨h.told, fun other children hclient => ?_⟩
      change Function.update state.client attemptId _ other = _ at hclient
      by_cases heq : other = attemptId
      · rw [heq, Function.update_self] at hclient
        cases hclient
      · rw [Function.update_of_ne heq] at hclient
        exact h.raised other children hclient

end

end Hearth.Broker
