import Hearth.Pools.LeaseRuns

/-!
# The hot bootstrap

`run_hot_profile_source` of `hot_profile_session.py`, from the choice of its lease id to the
release of the admission slot, beside the other owners of the pool, the two signals it handles and
the child that the broker may start for it.

The first signal raises wherever the handler is armed and is only noted where it is deferred; later
ones are ignored.  There is one place where the exception of a signal is not caught before the lease
is settled: in front of the `try` of `_defer_interrupts`, behind the `try` of the request.  A lease
that is left there, or by a pool document that cannot be read or written, counts as lost.

The texts of the reasons are arguments of the steps that write them.
-/

namespace Hearth.Pools

variable {Owner : Type}

/-! ## The lease of an id -/

/-- `_lease_matches`. -/
def leaseMatches (pool : Pool) (leaseId : String) : List Seat :=
  pool.sessions.filter fun item => item.lease.map Lease.leaseId = some leaseId

/-- Why a lease could not be finalized or found again. -/
inductive LeaseError
  | pool (error : PoolError)
  | noLongerOwned
  | ambiguous
  deriving DecidableEq, Repr

/-- `_quarantine_ambiguous_lease`, where there are matches, and the error behind it. -/
def quarantineAmbiguousLease (pool : Pool) (leaseId reason utc updatedUtc : String) :
    Pool × Except LeaseError Seat :=
  ((quarantineForkBasisLeaseLocked pool leaseId reason utc updatedUtc).1, .error .ambiguous)

/-- `_session_for_lease`: the seat of a lease that was persisted although checkout did not return. -/
def sessionForLease (pool : Pool) (leaseId reason utc updatedUtc : String) :
    Pool × Except LeaseError (Option String) :=
  match leaseMatches pool leaseId with
  | [] => (pool, .ok none)
  | [item] =>
      if item.sessionDir ≠ "" then (pool, .ok (some item.sessionDir))
      else ((quarantineAmbiguousLease pool leaseId reason utc updatedUtc).1, .error .ambiguous)
  | _ => ((quarantineAmbiguousLease pool leaseId reason utc updatedUtc).1, .error .ambiguous)

/-- The rows of the pool that name the directory of a seat. -/
def sameSession (host : Host) (pool : Pool) (session : String) : List Seat :=
  pool.sessions.filter fun item => item.sessionDir ≠ "" ∧ host.resolve item.sessionDir = host.resolve session

/-- `_finalize_lease`: the seat is given back only while the lease still owns exactly this seat. -/
def finalizeLease (host : Host) (pool : Pool) (leaseId : String) (reusable : Bool)
    (reason utc updatedUtc : String) : Pool × Except LeaseError Seat :=
  match leaseMatches pool leaseId with
  | [] => (pool, .error .noLongerOwned)
  | [item] =>
      if item.sessionDir ≠ "" ∧ (sameSession host pool item.sessionDir).length = 1 then
        let result := finalizeForkPoolSeatLocked host pool item.sessionDir reusable reason utc updatedUtc
        (result.1, result.2.mapError .pool)
      else quarantineAmbiguousLease pool leaseId reason utc updatedUtc
  | _ => quarantineAmbiguousLease pool leaseId reason utc updatedUtc

/-! ## The call -/

/-- Where the call is. -/
inductive HotPoint
  /-- In front of the `try`. -/
  | entering
  /-- In front of `signal_state.defer()`. -/
  | deferring
  | checkingOut
  /-- In front of `signal_state.arm()`. -/
  | arming
  /-- Between `arm` and `request_started = True`. -/
  | reading
  | requesting
  /-- Behind the `try`, in front of that of `_defer_interrupts`. -/
  | closing
  /-- In the `try` of `_defer_interrupts`. -/
  | guarded
  /-- In front of `if session is None`. -/
  | settling
  | deciding
  /-- In `wait_for_fork_attempt_cleanup`. -/
  | probing
  /-- In front of `_finalize_lease`. -/
  | finalizing (reusable : Bool)
  /-- In front of the end of the admission. -/
  | leaving
  | ended
  deriving DecidableEq, Repr

/-- The child that the broker starts for the request. -/
inductive HotChild
  | unborn | running | gone
  deriving DecidableEq, Repr

/-- The owner of the call, and the lease id it has chosen. -/
structure HotCall (Owner : Type) where
  owner : Owner
  leaseId : String

structure HotState (Owner : Type) where
  world : World Owner
  point : HotPoint
  /-- `signal_state.deferred`. -/
  deferred : Bool
  /-- `signal_state.interrupted_signal is not None`. -/
  latched : Bool
  /-- The local `interrupted_signal is not None`. -/
  interrupted : Bool
  session : Option String
  requestStarted : Bool
  /-- `checkout_may_have_persisted`. -/
  mayHavePersisted : Bool
  /-- The response, and whether `broker_response_proves_reusable`. -/
  response : Option Bool
  /-- The request has been sent. -/
  dispatched : Bool
  child : HotChild
  /-- A lease was persisted. -/
  persisted : Bool
  /-- The leases finalized, and whether the seat was given back as reusable. -/
  settled : List Bool
  /-- The lease was left by a signal at `closing` or by a document that failed. -/
  lost : Bool

namespace HotState

variable (s : HotState Owner)

def goTo (point : HotPoint) : HotState Owner :=
  { s with point }

/-- The handler of SIGINT and SIGTERM. -/
def signalled : HotState Owner :=
  if s.latched then s
  else if s.deferred then { s with latched := true }
  else
    match s.point with
    | .deferring | .arming | .reading | .requesting =>
        { s with latched := true, interrupted := true, point := .closing }
    | .guarded => { s with latched := true, interrupted := true, deferred := true, point := .settling }
    | .closing => { s with latched := true, point := .leaving, lost := true }
    | .entering => { s with latched := true, point := .leaving }
    | .checkingOut | .settling | .deciding | .probing | .finalizing _ | .leaving | .ended =>
        { s with latched := true }

/-- `signal_state.arm()`: a signal noted meanwhile raises. -/
def armed : HotState Owner :=
  if s.latched then { s with deferred := false, interrupted := true, point := .closing }
  else { s with deferred := false, point := .reading }

/-- Behind `_checkout`; where it does not return, its seat is not known to the call. -/
def checkedOut [DecidableEq Owner] (call : HotCall Owner) (result : Pool × Except PoolError Seat)
    (returned : Bool) : HotState Owner :=
  let after := { s with world := s.world.receive call.owner call.leaseId result }
  match result.2 with
  | .ok item =>
      if returned then { after with session := some item.sessionDir, persisted := true, point := .arming }
      else { after with persisted := true, point := .closing }
  | .error (.leaseIdCollision _) => { after with mayHavePersisted := false, point := .closing }
  | .error _ => { after with point := .closing }

/-- The middle of the `finally`: what is to be done about the lease. -/
def decided : HotState Owner :=
  if s.session.isSome ∧ s.mayHavePersisted then
    if s.response = some true then s.goTo (.finalizing true)
    else if s.interrupted ∨ s.latched then
      if s.requestStarted then s.goTo .probing else s.goTo (.finalizing true)
    else s.goTo (.finalizing false)
  else s.goTo .leaving

/-- Behind `_session_for_lease`. -/
def recovered (result : Pool × Except LeaseError (Option String)) : HotState Owner :=
  match result.2 with
  | .ok session => { s with world := { s.world with pool := result.1 }, session, point := .deciding }
  | .error _ => { s with world := { s.world with pool := result.1 }, lost := true, point := .leaving }

/-- Behind `_finalize_lease`; where it does not return although the document is written, the seat
has been given back. -/
def finalized [DecidableEq Owner] (call : HotCall Owner) (reusable : Bool)
    (result : Pool × Except LeaseError Seat) : HotState Owner :=
  match result.2 with
  | .ok _ =>
      { s with
        world := { s.world with pool := result.1, held := Function.update s.world.held call.owner none }
        settled := s.settled ++ [reusable]
        point := .leaving }
  | .error _ => { s with world := { s.world with pool := result.1 }, lost := true, point := .leaving }

/-- No child of this call runs, and none will. -/
def Quiet : Prop :=
  s.child = .gone ∨ s.dispatched = false

end HotState

/-- What happens next: a step of another owner; a signal; something of the child; a document that
cannot be read or written when the lease is to be settled; a step of the code. -/
inductive HotEvent (Owner : Type)
  | other (label : Op Owner × Outcome)
  | signal
  | child
  | failure
  | code

/-- The request that `_checkout` makes. -/
structure HotCall.Asks (call : HotCall Owner) (pid : Owner → ℤ) (request : CheckoutRequest) : Prop where
  leaseId : request.leaseId = some call.leaseId
  ownerPid : request.ownerPid = pid call.owner
  ownerKind : request.ownerKind = "memory_first_bootstrap"
  ownerCommand : request.ownerCommand = some "prove --loop"

/-- The steps of the system.  The lease id is fresh: no other owner asks for it.  A response that
proves the seat reusable, and a cleanup that was found quiescent, are the word of the broker that the
child is gone. -/
inductive HotStep [DecidableEq Owner] (host : Host) (pid : Owner → ℤ) (call : HotCall Owner)
    (s : HotState Owner) : HotEvent Owner → HotState Owner → Prop
  | other {label : Op Owner × Outcome} {after : World Owner} (hstep : Step host pid s.world label after)
      (hother : label.1.actor ≠ some call.owner)
      (hfresh : ∀ owner request context, label.1 = .checkout owner request context →
        request.selectedLeaseId ≠ call.leaseId) :
      HotStep host pid call s (.other label) { s with world := after }
  | signal : HotStep host pid call s .signal s.signalled
  | childStarts (hdispatched : s.dispatched = true) (hchild : s.child = .unborn) :
      HotStep host pid call s .child { s with child := .running }
  | childEnds (hchild : s.child = .running) : HotStep host pid call s .child { s with child := .gone }
  | enter (hpoint : s.point = .entering) : HotStep host pid call s .code (s.goTo .deferring)
  | defer (hpoint : s.point = .deferring) :
      HotStep host pid call s .code { s with deferred := true, point := .checkingOut }
  | checkout {request : CheckoutRequest} {context : CheckoutContext} (returned : Bool)
      (hpoint : s.point = .checkingOut) (hasks : call.Asks pid request)
      (htruthful : s.world.truthful pid context.ownerAlive) :
      HotStep host pid call s .code
        (s.checkedOut call (checkoutPoolSeatLocked host s.world.pool request context) returned)
  /-- In front of the changed document. -/
  | checkoutFailed (hpoint : s.point = .checkingOut) : HotStep host pid call s .code (s.goTo .closing)
  | arm (hpoint : s.point = .arming) : HotStep host pid call s .code s.armed
  | readFailed (hpoint : s.point = .reading) : HotStep host pid call s .code (s.goTo .closing)
  | start (hpoint : s.point = .reading) :
      HotStep host pid call s .code { s with requestStarted := true, point := .requesting }
  | dispatch (hpoint : s.point = .requesting) : HotStep host pid call s .code { s with dispatched := true }
  | respond (reusable : Bool) (hpoint : s.point = .requesting) (hdispatched : s.dispatched = true)
      (hproves : reusable = true → s.child = .gone) :
      HotStep host pid call s .code { s with response := some reusable, point := .closing }
  | requestFailed (hpoint : s.point = .requesting) : HotStep host pid call s .code (s.goTo .closing)
  | guard (hpoint : s.point = .closing) : HotStep host pid call s .code (s.goTo .guarded)
  | deferAgain (hpoint : s.point = .guarded) :
      HotStep host pid call s .code { s with deferred := true, point := .settling }
  | recover {reason utc updatedUtc : String} (hpoint : s.point = .settling)
      (hsession : s.session = none) (hpersisted : s.mayHavePersisted = true) :
      HotStep host pid call s .code
        (s.recovered (sessionForLease s.world.pool call.leaseId reason utc updatedUtc))
  | recoverFailed (hpoint : s.point = .settling) (hsession : s.session = none)
      (hpersisted : s.mayHavePersisted = true) :
      HotStep host pid call s .failure { s with lost := true, point := .leaving }
  | known (hpoint : s.point = .settling) (hknown : s.session ≠ none ∨ s.mayHavePersisted = false) :
      HotStep host pid call s .code (s.goTo .deciding)
  | decide (hpoint : s.point = .deciding) : HotStep host pid call s .code s.decided
  | probe (quiescent : Bool) (hpoint : s.point = .probing) (hproves : quiescent = true → s.child = .gone) :
      HotStep host pid call s .code (s.goTo (.finalizing quiescent))
  | finalize {reusable : Bool} {reason utc updatedUtc : String} (hpoint : s.point = .finalizing reusable) :
      HotStep host pid call s .code
        (s.finalized call reusable (finalizeLease host s.world.pool call.leaseId reusable reason utc updatedUtc))
  /-- In front of the changed document. -/
  | finalizeFailed {reusable : Bool} (hpoint : s.point = .finalizing reusable) :
      HotStep host pid call s .failure { s with lost := true, point := .leaving }
  | leave (hpoint : s.point = .leaving) : HotStep host pid call s .code (s.goTo .ended)

/-- A step that does not lose the lease: no document fails, and no signal comes between the `try` of
the request and that of `_defer_interrupts`. -/
structure SparedStep [DecidableEq Owner] (host : Host) (pid : Owner → ℤ) (call : HotCall Owner)
    (s : HotState Owner) (event : HotEvent Owner) (t : HotState Owner) : Prop where
  step : HotStep host pid call s event t
  document : event ≠ .failure
  signal : event = .signal → s.point ≠ .closing

end Hearth.Pools
