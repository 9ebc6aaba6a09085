import Hearth.Pools.Leases

/-!
# Locked seat transitions

`pools/seat_lifecycle.py`: each operation runs under the metadata lock of the
pool, on the document just read, and writes the document back.  What is written
back when the operation raises differs from one operation to the other, so every
function here returns the document that is on disk afterwards.
-/

namespace Hearth.Pools

/-- The fields a checkout records about its owner, and the lease id: given by the
caller, or the fresh token `secrets.token_hex(8)`. -/
structure CheckoutRequest where
  agent : Option String
  leaseId : Option String
  token : String
  ownerKind : String
  ownerPid : ℤ
  ownerContextRun : Option String
  ownerCommand : Option String
  leasedUtc : String
  deriving DecidableEq, Repr

/-- `write_warm_pool_json`. -/
def persist (pool : Pool) (updatedUtc : String) : Pool :=
  { pool with updatedUtc := some updatedUtc }

/-- The lease id a request selects. -/
def CheckoutRequest.selectedLeaseId (request : CheckoutRequest) : String :=
  request.leaseId.getD request.token

/-- The lease that `lease_factory` makes for a request. -/
def CheckoutRequest.lease (request : CheckoutRequest) : Lease :=
  leaseOwnerMetadata request.agent request.selectedLeaseId request.leasedUtc request.ownerKind
    (some request.ownerPid) request.ownerContextRun request.ownerCommand

/-- The errors that `checkout_warm_pool_seat` raises as `WarmPoolCheckoutError`. -/
def PoolError.isCheckoutError : PoolError → Bool
  | .notReady _ | .attemptCapacityOccupied | .noBasisReadyWorker _ | .noIdleWorker => true
  | _ => false

/-- `checkout_pool_seat_locked`.  The document is written after a checkout and
after a refused checkout, but not when the lease id collides or the pool record
is malformed. -/
def checkoutPoolSeatLocked (host : Host) (pool : Pool) (request : CheckoutRequest)
    (context : CheckoutContext) : Pool × Except PoolError Seat :=
  if request.leaseId = some "" then (pool, .error .emptyLeaseId)
  else if pool.sessions.any fun item =>
      item.lease.map Lease.leaseId = some request.selectedLeaseId then
    (pool, .error (.leaseIdCollision request.selectedLeaseId))
  else
    let checkout := checkoutWarmPoolSeat host pool context request.lease
    match checkout.2 with
    | .ok item => (persist checkout.1 context.updatedUtc, .ok item)
    | .error error =>
        if error.isCheckoutError then (persist checkout.1 context.updatedUtc, .error error)
        else (pool, .error error)

/-- Write the document back unless the operation raised. -/
def persistUnlessRaised (before : Pool) (updatedUtc : String)
    (result : Pool × Except PoolError Seat) : Pool × Except PoolError Seat :=
  match result.2 with
  | .ok item => (persist result.1 updatedUtc, .ok item)
  | .error error => (before, .error error)

/-- `release_pool_seat_locked`. -/
def releasePoolSeatLocked (host : Host) (pool : Pool) (session : String) (status : SeatStatus)
    (releasedUtc : String) (reason : Option String) (updatedUtc : String) :
    Pool × Except PoolError Seat :=
  persistUnlessRaised pool updatedUtc
    (releaseWarmPoolSeat host pool session status releasedUtc reason)

/-- `quarantine_fork_basis_locked`. -/
def quarantineForkBasisLocked (host : Host) (pool : Pool)
    (session reason quarantinedUtc updatedUtc : String) : Pool × Except PoolError Seat :=
  persistUnlessRaised pool updatedUtc
    (quarantineForkBasisPool host pool session reason quarantinedUtc)

/-- `quarantine_fork_basis_lease_locked`. -/
def quarantineForkBasisLeaseLocked (pool : Pool)
    (leaseId reason quarantinedUtc updatedUtc : String) : Pool × Except PoolError Seat :=
  persistUnlessRaised pool updatedUtc
    (quarantineForkBasisLease pool leaseId reason quarantinedUtc)

/-- `finalize_fork_pool_seat_locked`: a proven-quiescent seat is released, any
other one quarantines its generation. -/
def finalizeForkPoolSeatLocked (host : Host) (pool : Pool) (session : String) (reusable : Bool)
    (reason utc updatedUtc : String) : Pool × Except PoolError Seat :=
  if reusable then releasePoolSeatLocked host pool session .idle utc (some reason) updatedUtc
  else quarantineForkBasisLocked host pool session reason utc updatedUtc

end Hearth.Pools
