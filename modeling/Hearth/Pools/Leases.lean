import Hearth.Pools.Seat

/-!
# Checkout, reclaim, release and quarantine

The seat policy of `pools/leases.py`.  The Python functions change the pool
document in place; here each returns the changed document, next to what the call
returns or raises.  A call that raises may still have changed its argument, so
`checkoutWarmPoolSeat` returns the document in both cases; whether that document
is written back is decided one layer up, in `SeatLifecycle.lean`.

The clocks, the process table and the liveness probe of a session are arguments
of each call: they answer differently from one call to the next.
-/

namespace Hearth.Pools

/-- The text of an optional field inside an f-string. -/
def optionText (value : Option String) : String :=
  value.getD "None"

/-- `value or default` for a text field. -/
def orText (value : Option String) (default : String) : String :=
  match value with
  | none => default
  | some text => if text = "" then default else text

/-- `lease_owner_metadata`: empty optional texts are left out of the lease. -/
def leaseOwnerMetadata (agent : Option String) (leaseId leasedUtc ownerKind : String)
    (ownerPid : Option ℤ) (ownerContextRun ownerCommand : Option String) : Lease where
  leaseId := leaseId
  agent := agent
  leasedUtc := leasedUtc
  ownerKind := ownerKind
  ownerPid := ownerPid
  ownerContextRun := ownerContextRun.filter (· ≠ "")
  ownerCommand := ownerCommand.filter (· ≠ "")

/-! ## Reclaim -/

/-- The stale lease of one seat: it is busy, its lease names an owner process,
and that process is gone. -/
def staleLease? (ownerAlive : ℤ → Bool) (item : Seat) : Option StaleLease :=
  if item.status = .busy then
    match item.lease with
    | none => none
    | some lease =>
        match lease.ownerPid with
        | none => none
        | some ownerPid =>
            if ownerAlive ownerPid then none
            else some
              { sessionDir := item.sessionDir
                ownerPid := ownerPid
                leaseId := lease.leaseId
                leasedUtc := lease.leasedUtc
                ownerCommand := lease.ownerCommand }
  else none

/-- `stale_pool_leases`. -/
def stalePoolLeases (pool : Pool) (ownerAlive : ℤ → Bool) : List StaleLease :=
  pool.sessions.filterMap (staleLease? ownerAlive)

/-- The `release_reason` of a reclaimed seat. -/
def reclaimReason (lease : Option Lease) : String :=
  let ownerPid := (lease.bind Lease.ownerPid).elim "None" toString
  let leasedUtc := optionText (lease.map Lease.leasedUtc)
  let command := orText (lease.bind Lease.ownerCommand) "unknown command"
  "stale lease reclaimed: owner pid " ++ ownerPid ++ " is not running (leased " ++ leasedUtc ++
    ", " ++ command ++ ")"

/-- Return one seat to idle. -/
def reclaimSeat (releasedUtc : String) (item : Seat) : Seat :=
  { item with
    status := .idle
    lease := none
    releasedUtc := some releasedUtc
    releaseReason := some (reclaimReason item.lease) }

/-- `reclaim_stale_leases`: every busy seat with a stale session directory
becomes idle; the history keeps the last twenty rows. -/
def reclaimStaleLeases (pool : Pool) (releasedUtc : String) (ownerAlive : ℤ → Bool) :
    Pool × List StaleLease :=
  let reclaimed := stalePoolLeases pool ownerAlive
  let staleDirs := reclaimed.map StaleLease.sessionDir
  let sessions := pool.sessions.map fun item =>
    if item.sessionDir ∈ staleDirs ∧ item.status = .busy then reclaimSeat releasedUtc item else item
  let history := pool.reclaimedLeases ++ reclaimed.map fun row => ⟨row, releasedUtc⟩
  ({ pool with
      sessions := sessions
      reclaimedLeases :=
        if reclaimed = [] then pool.reclaimedLeases else history.drop (history.length - 20) },
    reclaimed)

/-! ## Checkout -/

/-- A seat counts as taken while it is busy or carries a lease. -/
def Seat.occupied (item : Seat) : Bool :=
  item.status = .busy || item.lease.isSome

/-- What one checkout asks for, and what it observes of the machine. -/
structure CheckoutContext where
  sessionAlive : Seat → Bool
  ownerAlive : ℤ → Bool
  allowDirty : Bool
  releasedUtc : String
  updatedUtc : String

/-- The seat as it leaves checkout. -/
def takeSeat (lease : Lease) (item : Seat) : Seat :=
  { item with status := .busy, lease := some lease }

/-- The inner loop of `checkout_warm_pool_seat`: the first seat in the wanted
status that is on a free control session, has its preloads and is alive.  Seats
passed over for a missing preload or a dead session are marked on the way. -/
def scanSeats (pool : Pool) (blocked : Seat → Bool) (sessionAlive : Seat → Bool) (lease : Lease)
    (wanted : SeatStatus) : List Seat → List Seat × Option Seat
  | [] => ([], none)
  | item :: rest =>
      if item.status ≠ wanted ∨ blocked item then
        let (after, taken) := scanSeats pool blocked sessionAlive lease wanted rest
        (item :: after, taken)
      else if warmPoolMissingPreloads pool item ≠ [] then
        let (after, taken) := scanSeats pool blocked sessionAlive lease wanted rest
        ({ item with
            status := .basisMissing
            basisReady := some false
            basisMissingPreloads := some (warmPoolMissingPreloads pool item)
            lease := none } :: after, taken)
      else if ¬ sessionAlive item then
        let (after, taken) := scanSeats pool blocked sessionAlive lease wanted rest
        ({ item with status := .dead, lease := none } :: after, taken)
      else (takeSeat lease item :: rest, some (takeSeat lease item))

/-- The statuses a checkout accepts, in order of preference. -/
def preferredStatuses (allowDirty : Bool) : List SeatStatus :=
  if allowDirty then [.idle, .dirty] else [.idle]

/-- The outer loop of `checkout_warm_pool_seat`, over the preferred statuses. -/
def scanStatuses (blocked : Seat → Bool) (sessionAlive : Seat → Bool) (lease : Lease) (pool : Pool) :
    List SeatStatus → Pool × Option Seat
  | [] => (pool, none)
  | wanted :: rest =>
      let (sessions, taken) := scanSeats pool blocked sessionAlive lease wanted pool.sessions
      match taken with
      | some item => ({ pool with sessions := sessions }, some item)
      | none => scanStatuses blocked sessionAlive lease { pool with sessions := sessions } rest

/-- The control sessions that are taken, when the pool has physical capacity. -/
def occupiedControls (host : Host) (pool : Pool) : List (Except PoolError String) :=
  (pool.sessions.filter Seat.occupied).map (physicalControlSession host)

/-- `checkout_warm_pool_seat`. -/
def checkoutWarmPoolSeat (host : Host) (pool : Pool) (context : CheckoutContext) (lease : Lease) :
    Pool × Except PoolError Seat :=
  if pool.status ≠ .ready then (pool, .error (.notReady pool.status))
  else
    let reclaimed := (reclaimStaleLeases pool context.releasedUtc context.ownerAlive).1
    let annotated := (annotateWarmPoolBasisState reclaimed).1
    match brokerPoolAttemptLimit annotated with
    | .error error => (annotated, .error error)
    | .ok attemptLimit =>
        let active := (annotated.sessions.filter Seat.occupied).length
        if attemptLimit.any fun limit => limit ≤ active then
          (annotated, .error .attemptCapacityOccupied)
        else
          match physicalBrokerCapacity host annotated with
          | .error error => (annotated, .error error)
          | .ok physicalCapacity =>
              let occupied := occupiedControls host annotated
              let blocked := fun item =>
                physicalCapacity.isSome && occupied.contains (physicalControlSession host item)
              let scanned := scanStatuses blocked context.sessionAlive lease annotated
                (preferredStatuses context.allowDirty)
              match scanned.2 with
              | some item => (scanned.1, .ok item)
              | none =>
                  if requiredPoolPreloads scanned.1 ≠ [] then
                    (scanned.1, .error (.noBasisReadyWorker (requiredPoolPreloads scanned.1)))
                  else (scanned.1, .error .noIdleWorker)

/-! ## Release -/

/-- Replace the first seat that `found` accepts. -/
def updateFirst (found : Seat → Bool) (update : Seat → Seat) : List Seat → List Seat × Option Seat
  | [] => ([], none)
  | item :: rest =>
      if found item then (update item :: rest, some (update item))
      else
        let (after, updated) := updateFirst found update rest
        (item :: after, updated)

/-- What release does to the seat it finds.  A pool that is not ready owns its
seats' states; only a quarantined fork basis still accepts the seat back, as
poisoned. -/
def releaseSeat (pool : Pool) (status : SeatStatus) (releasedUtc : String) (reason : Option String)
    (item : Seat) : Seat :=
  if pool.status ≠ .ready then
    if pool.engine = .forkBasis ∧ pool.status = .poisoned then
      { item with
        status := .poisoned
        lease := none
        releasedUtc := some releasedUtc
        releaseReason := some (orText reason
          (orText pool.poisonReason "fork-basis pool generation is quarantined")) }
    else
      { item with
        releaseReason := some ("eval release deferred because pool lifecycle status " ++
          pool.status.text ++ " owns seat state") }
  else
    let cleaned := pool.engine = .forkBasis ∧ status = .dirty
    let reason := if cleaned then some "fork basis child exited; basis remains clean" else reason
    { item with
      status := if cleaned then .idle else status
      lease := none
      releasedUtc := some releasedUtc
      releaseReason := if orText reason "" = "" then item.releaseReason else reason }

/-- `release_warm_pool_seat`. -/
def releaseWarmPoolSeat (host : Host) (pool : Pool) (session : String) (status : SeatStatus)
    (releasedUtc : String) (reason : Option String) : Pool × Except PoolError Seat :=
  let updated := updateFirst (fun item => host.resolve item.sessionDir = host.resolve session)
    (releaseSeat pool status releasedUtc reason) pool.sessions
  match updated.2 with
  | some item => ({ pool with sessions := updated.1 }, .ok item)
  | none => (pool, .error (.sessionNotInPool session))

/-! ## Quarantine -/

/-- What quarantine does to one seat: the released seat and every seat without an
active lease become poisoned; an active sibling keeps its lease. -/
def quarantineSeat (isReleased : Seat → Bool) (reason quarantinedUtc : String) (item : Seat) :
    Seat :=
  let marked := { item with
    poolGenerationQuarantined := true
    poolGenerationPoisonReason := some reason }
  if item.status = .busy ∧ item.lease.isSome ∧ ¬ isReleased item then
    { marked with releaseAfterLeaseStatus := some .poisoned }
  else
    { marked with
      status := .poisoned
      lease := none
      releasedUtc := some quarantinedUtc
      releaseReason := some reason }

/-- The body shared by both quarantines: poison the generation, clear the seats,
and return the last one released. -/
def quarantinePool (pool : Pool) (isReleased : Seat → Bool) (reason quarantinedUtc : String)
    (missing : PoolError) : Pool × Except PoolError Seat :=
  let sessions := pool.sessions.map (quarantineSeat isReleased reason quarantinedUtc)
  let released := (pool.sessions.filter isReleased).getLast?
  ({ pool with
      status := .poisoned
      poisonReason := some reason
      quarantinedUtc := some quarantinedUtc
      sessions := sessions },
    match released with
    | some item => .ok (quarantineSeat isReleased reason quarantinedUtc item)
    | none => .error missing)

/-- `quarantine_fork_basis_pool`. -/
def quarantineForkBasisPool (host : Host) (pool : Pool) (session reason quarantinedUtc : String) :
    Pool × Except PoolError Seat :=
  if pool.engine ≠ .forkBasis then (pool, .error .notForkBasis)
  else quarantinePool pool (fun item => host.resolve item.sessionDir = host.resolve session) reason
    quarantinedUtc (.sessionNotInPool session)

/-- The quarantine of `quarantine_fork_basis_lease_locked`, which picks the
released seats by lease id. -/
def quarantineForkBasisLease (pool : Pool) (leaseId reason quarantinedUtc : String) :
    Pool × Except PoolError Seat :=
  if pool.engine ≠ .forkBasis then (pool, .error .notForkBasis)
  else quarantinePool pool (fun item => item.lease.map Lease.leaseId = some leaseId) reason
    quarantinedUtc (.leaseNotInPool leaseId)

end Hearth.Pools
