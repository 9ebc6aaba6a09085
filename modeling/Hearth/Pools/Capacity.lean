import Hearth.Pools.LeaseRuns

/-!
# Logical capacity

`ensure_fork_pool_logical_capacity` of `fork_pool_capacity.py`: a fork-basis pool gets more seats,
each an alias of the control session of its first physical seat.  The caller holds the locks of the
pool, so an expansion is one step beside the lease operations.

The session documents and the cards of the new seats, and the other fields that only tell of an
expansion, are not modelled.
-/

namespace Hearth.Pools

variable {Owner : Type}

/-- Why an expansion raised. -/
inductive CapacityError
  | notPositive
  | notForkBasis
  | notExpandable (status : PoolStatus)
  | noInventory
  | noPhysicalSession
  | noSessionDirectory
  | outsidePool (session : String)
  | symlinkedSeat (session : String)
  | pool (error : PoolError)
  deriving DecidableEq, Repr

/-- The answer of an expansion. -/
structure CapacityReport where
  changed : Bool
  previousCapacity : ℕ
  effectiveCapacity : ℕ
  physicalBasisCount : ℕ
  deriving DecidableEq, Repr

/-- The pool document with the counts that only the expansion reads and writes. -/
structure SizedPool where
  pool : Pool
  sizeRequested : Option ℕ
  snapshotSizeRequested : Option ℕ
  deriving DecidableEq, Repr

/-- Where the pool is, and what the file system says about it. -/
structure CapacityPlace where
  poolDir : String
  symlink : String → Bool
  /-- `pool_dir.resolve() in path.resolve().parents`. -/
  inside : String → Bool

/-- `EXPANDABLE_POOL_STATES`. -/
def PoolStatus.expandable : PoolStatus → Bool
  | .ready | .stopped => true
  | .unknown | .starting | .stopping | .restoring | .restoreFailed | .poisoned => false

/-- `_physical_session`. -/
def physicalSession (sessions : List Seat) : Option Seat :=
  sessions.find? fun session => session.controlSessionDir.getD "" = ""

/-- `_logical_session_dir`. -/
def CapacityPlace.logicalSessionDir (place : CapacityPlace) (workerIndex : ℕ) : String :=
  place.poolDir ++ "/sessions/logical-seat-" ++ toString workerIndex

/-- The seat that the loop appends. -/
def CapacityPlace.logicalSeat (place : CapacityPlace) (status : PoolStatus) (physical : Seat)
    (workerIndex : ℕ) : Seat :=
  { physical with
    status := if status = .ready then .idle else .stopped
    sessionDir := place.logicalSessionDir workerIndex
    controlSessionDir := some physical.sessionDir
    lease := none }

/-- The document with more seats, as it is written. -/
def Pool.withSeats (pool : Pool) (added : List Seat) (updatedUtc : String) : Pool :=
  { pool with sessions := pool.sessions ++ added, updatedUtc := some updatedUtc }

@[simp] theorem Pool.withSeats_sessions (pool : Pool) (added : List Seat) (updatedUtc : String) :
    (pool.withSeats added updatedUtc).sessions = pool.sessions ++ added := rfl

/-- The indices of the loop. -/
def newWorkers (current target : ℕ) : List ℕ :=
  (List.range (target - current)).map (current + 1 + ·)

/-- `ensure_fork_pool_logical_capacity`: the changed document, if it changes, and the answer. -/
def ensureForkPoolLogicalCapacity (host : Host) (place : CapacityPlace) (document : SizedPool)
    (targetCapacity : ℕ) (updatedUtc : String) : Except CapacityError (SizedPool × CapacityReport) :=
  let pool := document.pool
  if targetCapacity = 0 then .error .notPositive
  else if pool.engine ≠ .forkBasis then .error .notForkBasis
  else if ¬ pool.status.expandable then .error (.notExpandable pool.status)
  else if pool.sessions = [] then .error .noInventory
  else
    let currentCapacity := pool.sessions.length
    let requested := (document.sizeRequested.filter (· ≠ 0)).getD currentCapacity
    match physicalBrokerCapacity host pool with
    | .error error => .error (.pool error)
    | .ok (some physicalCapacity) =>
        .ok (document, ⟨false, currentCapacity, min requested (min currentCapacity physicalCapacity),
          physicalCapacity⟩)
    | .ok none =>
        if targetCapacity ≤ currentCapacity ∧ targetCapacity ≤ requested then
          .ok (document, ⟨false, currentCapacity, min requested currentCapacity, 1⟩)
        else
          match physicalSession pool.sessions with
          | none => .error .noPhysicalSession
          | some physical =>
              if physical.sessionDir = "" then .error .noSessionDirectory
              else if ¬ isAbsolute physical.sessionDir ∨ ¬ place.inside physical.sessionDir then
                .error (.outsidePool physical.sessionDir)
              else
                let workers := newWorkers currentCapacity targetCapacity
                match workers.find? fun worker => place.symlink (place.logicalSessionDir worker) with
                | some worker => .error (.symlinkedSeat (place.logicalSessionDir worker))
                | none =>
                    let expanded := pool.withSeats (workers.map (place.logicalSeat pool.status physical)) updatedUtc
                    .ok ({ document with
                        pool := expanded
                        sizeRequested := some (max targetCapacity currentCapacity)
                        snapshotSizeRequested := document.snapshotSizeRequested.or (some requested) },
                      ⟨true, currentCapacity, expanded.sessions.length, 1⟩)

/-! ## Beside the lease operations -/

/-- The pool and its owners, with the counts of the document. -/
structure CapacityWorld (Owner : Type) where
  world : World Owner
  sizeRequested : Option ℕ
  snapshotSizeRequested : Option ℕ

namespace CapacityWorld

variable (s : CapacityWorld Owner)

/-- The document of the pool. -/
def document : SizedPool :=
  ⟨s.world.pool, s.sizeRequested, s.snapshotSizeRequested⟩

/-- The state with a changed document. -/
def write (document : SizedPool) : CapacityWorld Owner where
  world := { s.world with pool := document.pool }
  sizeRequested := document.sizeRequested
  snapshotSizeRequested := document.snapshotSizeRequested

end CapacityWorld

/-- A lease operation, or an expansion with what it answers or raises. -/
inductive CapacityEvent (Owner : Type)
  | lease (label : Op Owner × Outcome)
  | expand (targetCapacity : ℕ) (answer : Except CapacityError CapacityReport)

/-- The steps of the system; an expansion that raises leaves the document as it was. -/
inductive CapacityStep [DecidableEq Owner] (host : Host) (pid : Owner → ℤ) (place : CapacityPlace)
    (s : CapacityWorld Owner) : CapacityEvent Owner → CapacityWorld Owner → Prop
  | lease {label : Op Owner × Outcome} {after : World Owner} (hstep : Step host pid s.world label after) :
      CapacityStep host pid place s (.lease label) { s with world := after }
  | expand {targetCapacity : ℕ} {updatedUtc : String} {document : SizedPool} {report : CapacityReport}
      (hexpand : ensureForkPoolLogicalCapacity host place s.document targetCapacity updatedUtc =
        .ok (document, report)) :
      CapacityStep host pid place s (.expand targetCapacity (.ok report)) (s.write document)
  | refused {targetCapacity : ℕ} {updatedUtc : String} {error : CapacityError}
      (hexpand : ensureForkPoolLogicalCapacity host place s.document targetCapacity updatedUtc =
        .error error) :
      CapacityStep host pid place s (.expand targetCapacity (.error error)) s

end Hearth.Pools
