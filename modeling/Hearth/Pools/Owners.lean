import Hearth.Pools.SeatLifecycle
import Mathlib.Logic.Function.Basic

/-!
# Owners of leases

A world is the pool document together with what each owner remembers: the session
directory that checkout returned to it and the lease id it asked for.  An owner is
one command that takes a seat; several owners may live in one process, and a
process id may come back after its process is gone.

The callers (`hot_profile_session.py`, `criu_loaded_capture.py`,
`cli/orbstack_criu_vanilla.py`) release or quarantine the seat they checked out,
once, and record their own process id.  `World.allows` says so.  The process table
may answer anything about a process, except that an owner that still holds a seat
is not reported dead.
-/

namespace Hearth.Pools

variable {Owner : Type}

/-- What an owner remembers of its checkout. -/
structure Holding where
  sessionDir : String
  leaseId : String
  deriving DecidableEq, Repr

/-- The pool and its owners. -/
structure World (Owner : Type) where
  pool : Pool
  held : Owner → Option Holding
  exited : Owner → Bool

/-- One locked operation on the pool, or the end of an owner's process. -/
inductive Op (Owner : Type)
  | checkout (owner : Owner) (request : CheckoutRequest) (context : CheckoutContext)
  | reclaim (releasedUtc updatedUtc : String) (ownerAlive : ℤ → Bool)
  | release (owner : Owner) (clean : Bool) (releasedUtc : String) (reason : Option String)
      (updatedUtc : String)
  | quarantine (owner : Owner) (reason quarantinedUtc updatedUtc : String)
  | quarantineLease (owner : Owner) (reason quarantinedUtc updatedUtc : String)
  | exit (owner : Owner)

/-- Who performs an operation; anybody may reclaim. -/
def Op.actor : Op Owner → Option Owner
  | .checkout owner _ _ => some owner
  | .reclaim _ _ _ => none
  | .release owner _ _ _ _ => some owner
  | .quarantine owner _ _ _ => some owner
  | .quarantineLease owner _ _ _ => some owner
  | .exit owner => some owner

/-- Whether an operation is a checkout. -/
def Op.isCheckout : Op Owner → Bool
  | .checkout _ _ _ => true
  | _ => false

/-- Whether an operation is one of the two quarantines. -/
def Op.isQuarantine : Op Owner → Bool
  | .quarantine _ _ _ _ | .quarantineLease _ _ _ _ => true
  | _ => false

/-- The status a caller gives a seat back with. -/
def returnedStatus (clean : Bool) : SeatStatus :=
  if clean then .idle else .dirty

/-- What a call returned or raised; reclaim and exit report nothing. -/
abbrev Outcome := Option (Except PoolError Seat)

/-- The process table does not report a seat's live holder as dead. -/
def World.truthful (pid : Owner → ℤ) (world : World Owner) (ownerAlive : ℤ → Bool) : Prop :=
  ∀ owner, world.exited owner = false → (world.held owner).isSome → ownerAlive (pid owner) = true

section

variable [DecidableEq Owner]

/-- The world after `owner` asked for a seat. -/
def World.receive (world : World Owner) (owner : Owner) (leaseId : String)
    (result : Pool × Except PoolError Seat) : World Owner :=
  match result.2 with
  | .ok item =>
      { world with
        pool := result.1
        held := Function.update world.held owner (some ⟨item.sessionDir, leaseId⟩) }
  | .error _ => { world with pool := result.1 }

/-- The world after `owner` gave its seat back; it still holds the seat if the
operation raised. -/
def World.giveBack (world : World Owner) (owner : Owner) (result : Pool × Except PoolError Seat) :
    World Owner :=
  match result.2 with
  | .ok _ => { world with pool := result.1, held := Function.update world.held owner none }
  | .error _ => { world with pool := result.1 }

/-- The steps of the system, labelled by the operation and its outcome.  Only a
live owner acts; it takes a seat when it holds none, under its own process id, and
gives back the seat it holds. -/
inductive Step (host : Host) (pid : Owner → ℤ) (world : World Owner) :
    Op Owner × Outcome → World Owner → Prop
  | checkout {owner : Owner} {request : CheckoutRequest} {context : CheckoutContext}
      (hlive : world.exited owner = false) (hheld : world.held owner = none)
      (hpid : request.ownerPid = pid owner) (htruthful : world.truthful pid context.ownerAlive) :
      Step host pid world
        (.checkout owner request context,
          some (checkoutPoolSeatLocked host world.pool request context).2)
        (world.receive owner request.selectedLeaseId
          (checkoutPoolSeatLocked host world.pool request context))
  | reclaim {releasedUtc updatedUtc : String} {ownerAlive : ℤ → Bool}
      (htruthful : world.truthful pid ownerAlive) :
      Step host pid world (.reclaim releasedUtc updatedUtc ownerAlive, none)
        { world with
          pool := persist (reclaimStaleLeases world.pool releasedUtc ownerAlive).1 updatedUtc }
  | release {owner : Owner} {holding : Holding} {clean : Bool} {releasedUtc updatedUtc : String}
      {reason : Option String} (hlive : world.exited owner = false)
      (hheld : world.held owner = some holding) :
      Step host pid world
        (.release owner clean releasedUtc reason updatedUtc,
          some (releasePoolSeatLocked host world.pool holding.sessionDir (returnedStatus clean)
            releasedUtc reason updatedUtc).2)
        (world.giveBack owner (releasePoolSeatLocked host world.pool holding.sessionDir
          (returnedStatus clean) releasedUtc reason updatedUtc))
  | quarantine {owner : Owner} {holding : Holding} {reason quarantinedUtc updatedUtc : String}
      (hlive : world.exited owner = false) (hheld : world.held owner = some holding) :
      Step host pid world
        (.quarantine owner reason quarantinedUtc updatedUtc,
          some (quarantineForkBasisLocked host world.pool holding.sessionDir reason quarantinedUtc
            updatedUtc).2)
        (world.giveBack owner (quarantineForkBasisLocked host world.pool holding.sessionDir reason
          quarantinedUtc updatedUtc))
  | quarantineLease {owner : Owner} {holding : Holding} {reason quarantinedUtc updatedUtc : String}
      (hlive : world.exited owner = false) (hheld : world.held owner = some holding) :
      Step host pid world
        (.quarantineLease owner reason quarantinedUtc updatedUtc,
          some (quarantineForkBasisLeaseLocked world.pool holding.leaseId reason quarantinedUtc
            updatedUtc).2)
        (world.giveBack owner (quarantineForkBasisLeaseLocked world.pool holding.leaseId reason
          quarantinedUtc updatedUtc))
  | exit {owner : Owner} (hlive : world.exited owner = false) :
      Step host pid world (.exit owner, none)
        { world with exited := Function.update world.exited owner true }

end

/-- A pool nobody has used yet: distinct session directories, no seat taken. -/
structure World.Fresh (host : Host) (world : World Owner) : Prop where
  dirs : (world.pool.sessions.map fun item => host.resolve item.sessionDir).Nodup
  vacant : ∀ item ∈ world.pool.sessions, item.status ≠ .busy ∧ item.lease = none
  held : ∀ owner, world.held owner = none

end Hearth.Pools
