import Mathlib.Data.Int.Notation
import Mathlib.Data.List.Dedup

/-!
# The warm-pool document

`pool.json` holds one record for the pool and one for every seat.  This file is
the part of it that the lease operations read and write, together with the two
policies they consult before they hand out a seat:

* `pools/basis.py`: which reviewed preloads a seat still lacks;
* `criu_shelf_capacity.py`: which control session a seat belongs to, and how
  many attempts the broker of the pool serves at once.

A row of `sessions` that is not an object is skipped by every function below, so
`sessions` lists the objects only.  The host answers one question that the
document cannot: what path a session directory resolves to.
-/

namespace Hearth.Pools

/-- The `status` values that a pool record carries. -/
inductive PoolStatus
  | unknown | starting | ready | stopping | stopped | restoring | restoreFailed | poisoned
  deriving DecidableEq, Repr

/-- The `status` values that a seat carries. -/
inductive SeatStatus
  | unknown | starting | idle | dirty | busy | basisMissing | dead | failed | stopped | restoring
  | restoreFailed | poisoned
  deriving DecidableEq, Repr

/-- The text of a pool status in the document. -/
def PoolStatus.text : PoolStatus → String
  | unknown => "unknown"
  | starting => "starting"
  | ready => "ready"
  | stopping => "stopping"
  | stopped => "stopped"
  | restoring => "restoring"
  | restoreFailed => "restore_failed"
  | poisoned => "poisoned"

/-- `engine`: the only engine the lease operations single out is the fork basis. -/
inductive Engine
  | forkBasis | other
  deriving DecidableEq, Repr

/-- `execution_topology`: a mechanical v3 broker, or anything older. -/
inductive ExecutionTopology
  | mechanicalBasisBrokerV3 | other
  deriving DecidableEq, Repr

/-- One row of `preloads` or `loaded_preloads`. -/
structure Preload where
  path : Option String
  sha256 : Option String
  status : Option String
  deriving DecidableEq, Repr

/-- A preload that a seat lacks, as reported in `basis_missing_preloads`. -/
structure MissingPreload where
  path : Option String
  sha256 : Option String
  deriving DecidableEq, Repr

/-- The metadata of one lease. -/
structure Lease where
  leaseId : String
  agent : Option String
  leasedUtc : String
  ownerKind : String
  ownerPid : Option ℤ
  ownerContextRun : Option String
  ownerCommand : Option String
  deriving DecidableEq, Repr

/-- One seat of the pool. -/
structure Seat where
  sessionDir : String
  controlSessionDir : Option String
  status : SeatStatus
  lease : Option Lease
  loadedPreloads : List Preload
  basisReady : Option Bool
  basisMissingPreloads : Option (List MissingPreload)
  releasedUtc : Option String
  releaseReason : Option String
  poolGenerationQuarantined : Bool
  poolGenerationPoisonReason : Option String
  releaseAfterLeaseStatus : Option SeatStatus
  deriving DecidableEq, Repr

/-- A busy seat whose owner process is gone. -/
structure StaleLease where
  sessionDir : String
  ownerPid : ℤ
  leaseId : String
  leasedUtc : String
  ownerCommand : Option String
  deriving DecidableEq, Repr

/-- A stale lease as kept in the history of reclaimed leases. -/
structure ReclaimedLease where
  lease : StaleLease
  reclaimedUtc : String
  deriving DecidableEq, Repr

/-- The pool record. -/
structure Pool where
  status : PoolStatus
  engine : Engine
  executionTopology : ExecutionTopology
  brokerRuntimeSha256 : Option String
  preloads : List Preload
  sessions : List Seat
  poisonReason : Option String
  quarantinedUtc : Option String
  reclaimedLeases : List ReclaimedLease
  updatedUtc : Option String
  deriving DecidableEq, Repr

/-- What the file system says about a session directory: `Path(p).resolve()`. -/
structure Host where
  resolve : String → String

/-! ## Basis readiness -/

/-- The preloads every seat of the pool must have loaded. -/
def requiredPoolPreloads (pool : Pool) : List Preload :=
  pool.preloads.filter fun item => item.status = some "loaded"

/-- The required preloads that `item` has not loaded with the same bytes. -/
def warmPoolMissingPreloads (pool : Pool) (item : Seat) : List MissingPreload :=
  (requiredPoolPreloads pool).filterMap fun preload =>
    if item.loadedPreloads.any fun entry =>
        entry.path = preload.path ∧ entry.sha256 = preload.sha256 ∧ entry.status = some "loaded"
    then none
    else some ⟨preload.path, preload.sha256⟩

/-- `annotate_warm_pool_basis_state` on one seat: a free seat that lacks a
preload leaves the free list. -/
def annotateSeat (pool : Pool) (item : Seat) : Seat :=
  let missing := warmPoolMissingPreloads pool item
  let annotated := { item with
    basisReady := some missing.isEmpty
    basisMissingPreloads := some missing }
  if missing ≠ [] ∧ (item.status = .idle ∨ item.status = .dirty) then
    { annotated with status := .basisMissing, lease := none }
  else annotated

/-- `annotate_warm_pool_basis_state`: the annotated pool, and whether any seat
changed. -/
def annotateWarmPoolBasisState (pool : Pool) : Pool × Bool :=
  let sessions := pool.sessions.map (annotateSeat pool)
  ({ pool with sessions := sessions }, decide (sessions ≠ pool.sessions))

/-! ## Physical capacity -/

/-- Why an operation of the pool raised. -/
inductive PoolError
  | notReady (status : PoolStatus)
  | attemptCapacityOccupied
  | noBasisReadyWorker (requiredPreloads : List Preload)
  | noIdleWorker
  | noControlIdentity
  | invalidAttemptLimit
  | emptyLeaseId
  | leaseIdCollision (leaseId : String)
  | notForkBasis
  | sessionNotInPool (session : String)
  | leaseNotInPool (leaseId : String)
  deriving DecidableEq, Repr

/-- `Path(p).is_absolute()`. -/
def isAbsolute (path : String) : Bool :=
  path.toList.head? = some '/'

/-- `session.get("control_session_dir") or session.get("session_dir")`. -/
def controlIdentity (session : Seat) : String :=
  match session.controlSessionDir with
  | none => session.sessionDir
  | some control => if control = "" then session.sessionDir else control

/-- The control session whose broker endpoint serves this seat. -/
def physicalControlSession (host : Host) (session : Seat) : Except PoolError String :=
  if isAbsolute (controlIdentity session) then .ok (host.resolve (controlIdentity session))
  else .error .noControlIdentity

/-- `maximum_concurrent_attempts` of the reviewed broker variants. -/
def reviewedBrokerVariants : List (String × Option ℕ) :=
  [("28e427ad0ab22e001f3a4b852c2f7661dd23ea22760f69451f7c002303032ce6", some 1),
   ("0aaf71d37b37ebc76f7b1d9ca12c64ca1000e25d3d4f674761a05c6c711d8b8d", none),
   ("4e6281597b0f7fe538190dc100bfebfd6fdf16e150e7fdcf724f6b633ddc6cb7", none)]

/-- The reviewed broker-wide limit on concurrent attempts, when there is one. -/
def brokerPoolAttemptLimit (pool : Pool) : Except PoolError (Option ℕ) :=
  match pool.executionTopology with
  | .other => .ok none
  | .mechanicalBasisBrokerV3 =>
      match reviewedBrokerVariants.lookup (pool.brokerRuntimeSha256.getD "") with
      | none => .ok none
      | some (some 0) => .error .invalidAttemptLimit
      | some limit => .ok limit

/-- The capacity that the session locks and the broker-wide limit leave; `none`
for a pool that is not served by a mechanical v3 broker. -/
def physicalBrokerCapacity (host : Host) (pool : Pool) : Except PoolError (Option ℕ) :=
  match pool.executionTopology with
  | .other => .ok none
  | .mechanicalBasisBrokerV3 => do
      let controls ← pool.sessions.mapM (physicalControlSession host)
      let limit ← brokerPoolAttemptLimit pool
      return some (match limit with
        | none => controls.dedup.length
        | some limit => min controls.dedup.length limit)

end Hearth.Pools
