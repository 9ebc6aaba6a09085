import Hearth.Library.JsonPatch
import Hearth.Library.Outcome
import Hearth.Library.PosixPath

/-!
# The documents of a restored pool

`criu_pool_restore.py` and `_mark_pool_restore_failed` of `cli/orbstack_criu_restore.py`: how
each step of a restore computes the files that it writes.  `pool.json` is one document and
every session has another; a step reads them all, raises before it writes anything, and then
writes one file after the other.

`pool.json` comes last, so that a step cut short leaves the gate as it was; only the mark of a
failure closes the gate first.
-/

namespace Hearth.Criu

open Hearth.Library

/-! ## Files and their writes -/

/-- The documents of a pool: `pool.json`, and `session.json` of the sessions that have one. -/
structure PoolFiles where
  pool : Json
  session : String → Option Json

/-- An atomic write of one document. -/
inductive FileWrite
  | pool (document : Json)
  | session (leaf : String) (document : Json)

namespace PoolFiles

def write (files : PoolFiles) : FileWrite → PoolFiles
  | .pool document => { files with pool := document }
  | .session leaf document => { files with session := Function.update files.session leaf (some document) }

/-- The writes in order. -/
def writeAll (files : PoolFiles) (writes : List FileWrite) : PoolFiles :=
  writes.foldl write files

def status (files : PoolFiles) : Json :=
  files.pool.get "status"

end PoolFiles

/-! ## Rows and their sessions -/

/-- `Path(text).name`. -/
def pathName (text : String) : String :=
  ((RawPath.ofString text).parts.getLast?).getD ""

/-- `restored_pool_session_json`: the name of the directory of a session, if it has one. -/
def restoredPoolSession (row : Json) : Except String (Option String) :=
  let recorded := row.get "session_dir"
  let checked (id : String) : Except String (Option String) :=
    if id = "" ∨ id = "." ∨ id = ".." ∨ '/' ∈ id.toList ∨ '\\' ∈ id.toList ∨ pathName id ≠ id then
      .error "restored pool session id is not one safe path leaf"
    else
      match recorded with
      | .str directory =>
          if directory ≠ "" ∧ pathName directory ≠ id then
            .error "restored pool session id disagrees with its recorded session directory"
          else .ok (some id)
      | _ => .ok (some id)
  match row.get "session_id", recorded with
  | .null, .str directory => if directory = "" then .ok none else checked (pathName directory)
  | .null, _ => .ok none
  | .str id, _ => checked id
  | _, _ => .error "restored pool session id is not one safe path leaf"

/-- `data.get("sessions") or []`, checked. -/
def sessionRows (data : Json) : Except String (List Json) :=
  match Json.orElse (data.get "sessions") (.arr []) with
  | .arr rows =>
      if rows.all Json.isDict then .ok rows
      else .error "pool sessions metadata is not an array of JSON objects"
  | _ => .error "pool sessions metadata is not an array of JSON objects"

/-- The field of the rows, where the document has any. -/
def rowsField (data : Json) (rows : List Json) : List (String × Json) :=
  if Json.truthy (data.get "sessions") then [("sessions", .arr rows)] else []

/-- The update of the session of a row, where it has a document: what is required of the row and
of the document, and what becomes of the document. -/
def rowUpdate (files : PoolFiles) (checkRow checkDocument : Json → Except String Unit)
    (update : Json → Json) (row : Json) : Except String (List FileWrite) := do
  checkRow row
  match ← restoredPoolSession row with
  | none => return []
  | some leaf =>
      match files.session leaf with
      | none => return []
      | some document =>
          checkDocument document
          return [.session leaf (update document)]

/-- The updates of the sessions of these rows. -/
def sessionUpdates (files : PoolFiles) (checkRow checkDocument : Json → Except String Unit)
    (update : Json → Json) : List Json → Except String (List FileWrite)
  | [] => .ok []
  | row :: rows => do
      let first ← rowUpdate files checkRow checkDocument update row
      let rest ← sessionUpdates files checkRow checkDocument update rows
      return first ++ rest

/-- `session metadata is not a JSON object`. -/
def requireDict (document : Json) : Except String Unit :=
  if document.isDict then .ok () else .error "session metadata is not a JSON object"

/-- The pool document must be an object in the wanted state. -/
def requireStatus (data : Json) (wanted refusal : String) : Except String Unit :=
  if data.isDict then
    if data.get "status" = .str wanted then .ok () else .error refusal
  else .error "pool metadata is not a JSON object"

/-! ## Roles -/

/-- The two owned processes. -/
inductive Role
  | worker | basis
  deriving DecidableEq, Repr

def Role.text : Role → String
  | .worker => "worker"
  | .basis => "basis"

/-- A field of a role: its identity, its start ticks, its pid or its group. -/
def Role.key (role : Role) (field : String) : String :=
  role.text ++ "_" ++ field

/-- What `stage_restored_pool_metadata` takes of a restored process. -/
structure RestoredRole where
  startTicks : Option ℕ
  identity : Option String
  deriving DecidableEq, Repr

/-- The processes of the two roles. -/
structure RestoredRoles where
  worker : RestoredRole
  basis : RestoredRole
  deriving DecidableEq, Repr

def RestoredRoles.role (roles : RestoredRoles) : Role → RestoredRole
  | .worker => roles.worker
  | .basis => roles.basis

/-- The identity fields of one role. -/
def identityFields (roles : RestoredRoles) (role : Role) : Except String (List (String × Json)) :=
  match (roles.role role).startTicks, (roles.role role).identity with
  | some ticks, some identity =>
      .ok [(role.key "start_ticks", .int ticks), (role.key "identity", .str identity)]
  | _, _ => .error ("restored " ++ role.text ++ " process identity is unavailable")

/-! ## Demotion -/

/-- What a demotion asks. -/
structure DemotionProbe where
  /-- `int` of a text. -/
  intOf : String → Option ℤ
  identityReader : ℕ → Option String
  pidDead : ℕ → Bool
  groupLive : ℕ → Bool
  activeChildren : Bool → Except String (List Json)
  now : String

namespace DemotionProbe

variable (probe : DemotionProbe)

/-- `_positive_metadata_int`. -/
def positiveInt (value : Json) (field : String) : Except String ℕ :=
  let refusal := "stale ready pool " ++ field ++ " is not a positive integer"
  let positive (number : ℤ) : Except String ℕ :=
    if 0 < number then .ok number.toNat else .error refusal
  match value with
  | .int number => positive number
  | .str text =>
      match probe.intOf text with
      | some number => positive number
      | none => .error refusal
  | _ => .error refusal

/-- The pid of a role and its group, which is the pid where none is recorded. -/
def processIds (record : Json) (role : Role) (label : String) : Except String (ℕ × ℕ) := do
  let pid ← probe.positiveInt (record.get (role.key "pid")) (label ++ role.key "pid")
  let pgid ← probe.positiveInt (Json.orElse (record.get (role.key "pgid")) (.int pid))
    (label ++ role.key "pgid")
  return (pid, pgid)

/-- What `pool.json` records of an owned process. -/
structure OwnedProcess where
  role : Role
  pid : ℕ
  pgid : ℕ
  identity : String
  deriving DecidableEq, Repr

def ownedProcess (data : Json) (role : Role) : Except String OwnedProcess := do
  let (pid, pgid) ← probe.processIds data role ""
  match data.get (role.key "identity") with
  | .str identity =>
      if identity = "" then .error ("stale ready pool " ++ role.key "identity" ++ " is unavailable")
      else .ok ⟨role, pid, pgid, identity⟩
  | _ => .error ("stale ready pool " ++ role.key "identity" ++ " is unavailable")

/-- The row agrees with the pool about a process. -/
def agreesOn (row : Json) (owned : OwnedProcess) : Except String Unit := do
  let (pid, pgid) ← probe.processIds row owned.role "session "
  if pid ≠ owned.pid ∨ pgid ≠ owned.pgid ∨
      row.get (owned.role.key "identity") ≠ .str owned.identity then
    .error ("stale ready pool session " ++ owned.role.text ++
      " process record disagrees with the pool")
  else .ok ()

/-- `str(session.get("status") or "unknown")`, of a text. -/
def rowStatus (row : Json) : String :=
  match Json.orElse (row.get "status") (.str "unknown") with
  | .str status => status
  | other => String.ofList (Json.render other)

/-- A row of a quiescent session. -/
def checkRow (owned : List OwnedProcess) (row : Json) : Except String Unit :=
  if rowStatus row ∉ ["idle", "ready", "dead"] then
    .error ("stale ready pool session status " ++ rowStatus row ++ " is not quiescent")
  else if row.get "lease" ≠ .null then .error "stale ready pool retains a session lease"
  else if !(row.get "stop_result").isDict ∨
      (row.get "stop_result").get "verified_quiescent" ≠ .bool true then
    .error "stale ready pool has no retained verified-quiescent stop receipt"
  else owned.forM (probe.agreesOn row)

/-- The recorded process and its group are dead. -/
def checkProcess (owned : OwnedProcess) : Except String Unit :=
  let observed := probe.identityReader owned.pid
  if observed = some owned.identity then
    .error ("stale ready pool recorded " ++ owned.role.text ++ " identity remains live")
  else if !probe.pidDead owned.pid then
    if observed = none then
      .error ("stale ready pool recorded " ++ owned.role.text ++
        " birth identity is unavailable and PID death is not conclusive")
    else
      .error ("stale ready pool recorded " ++ owned.role.text ++
        " PID is live with a different birth identity")
  else if probe.groupLive owned.pgid then
    .error ("stale ready pool recorded " ++ owned.role.text ++ " process group remains live")
  else .ok ()

/-- A process of the demotion record. -/
def processRecord (owned : OwnedProcess) : Json :=
  .dict [("role", .str owned.role.text), ("pid", .int owned.pid), ("pgid", .int owned.pgid),
    ("expected_identity", .str owned.identity),
    ("observed_identity", Json.ofOption .str (probe.identityReader owned.pid)),
    ("process_group_live", .bool false)]

/-- The rows of a pool that was ready. -/
def readyRows (data : Json) : Except String (List Json) :=
  match data.get "sessions" with
  | .arr rows =>
      if rows = [] ∨ !rows.all Json.isDict then
        .error "stale ready pool has no complete session records"
      else .ok rows
  | _ => .error "stale ready pool has no complete session records"

end DemotionProbe

/-- `demote_stale_ready_pool_for_restore`: nothing where the pool is not ready. -/
def demoteStaleReadyPool (probe : DemotionProbe) (files : PoolFiles) :
    Except String (Option (List FileWrite)) := do
  let data := files.pool
  if !data.isDict then throw "pool metadata is not a JSON object"
  if data.get "status" ≠ .str "ready" then return none
  let transaction := data.get "restore_transaction"
  if transaction ≠ .null ∧ (!transaction.isDict ∨ transaction.get "state" ≠ .str "ready") then
    throw "stale ready pool retains a non-ready restore transaction"
  let owned ← [Role.worker, .basis].mapM (probe.ownedProcess data)
  let rows ← DemotionProbe.readyRows data
  rows.forM (probe.checkRow owned)
  let children ← probe.activeChildren (data.get "engine" = .str "fork_basis")
  if children ≠ [] then throw "stale ready pool retains registered fork children"
  owned.forM probe.checkProcess
  let demotion := Json.dict [("schema", .str "hol-workbench.criu-stale-ready-demotion.v1"),
    ("status", .str "demoted"),
    ("reason", .str "recorded ready generation is identity- and process-group-quiescent"),
    ("previous_updated_utc", data.get "updated_utc"),
    ("processes", .arr (owned.map probe.processRecord)),
    ("active_child_count", .int 0), ("updated_utc", .str probe.now)]
  let stopped := rows.map fun row => row.extend [("status", .str "stopped"), ("lease", .null)]
  return some [.pool ((data.extend [("sessions", .arr stopped), ("status", .str "stopped"),
    ("updated_utc", .str probe.now), ("last_stale_ready_demotion", demotion)]).drop
      "restore_transaction")]

/-! ## The steps of a transaction -/

/-- What `begin_restored_pool_transaction` is given. -/
structure RestoreRequest where
  operationStamp : String
  imageDir : String
  device : ℕ
  inode : ℕ
  pidfile : String
  restoreLog : String
  outputAuthority : Option Json

/-- The transaction that is opened. -/
def RestoreRequest.transaction (request : RestoreRequest) (now : String) : Json :=
  .dict ([("state", .str "prelaunch"), ("operation_stamp", .str request.operationStamp),
    ("image_dir", .str request.imageDir),
    ("image_directory_identity",
      .dict [("device", .int request.device), ("inode", .int request.inode)]),
    ("pidfile", .str request.pidfile), ("restore_log", .str request.restoreLog),
    ("started_utc", .str now)] ++
    Json.optional "output_authority" id request.outputAuthority)

/-- `begin_restored_pool_transaction`. -/
def beginRestoredPoolTransaction (request : RestoreRequest) (now : String) (files : PoolFiles) :
    Except String (List FileWrite) := do
  let data := files.pool
  requireStatus data "stopped" "restore transaction requires status stopped"
  match request.outputAuthority with
  | some authority =>
      if authority.get "schema" ≠ .str "hol-workbench.criu-restore-output-authority.v1" then
        throw "CRIU restore output authority record has an unsupported schema"
  | none => pure ()
  let rows ← sessionRows data
  let restoring := rows.map fun row => row.extend [("status", .str "restoring"), ("lease", .null)]
  let updates ← sessionUpdates files (fun _ => .ok ()) requireDict
    (fun document => document.extend
      [("status", .str "restoring"), ("lease", .null), ("updated_utc", .str now)]) rows
  return updates ++ [.pool (data.extend (rowsField data restoring ++ [("status", .str "restoring"),
    ("restore_transaction", request.transaction now), ("updated_utc", .str now)]))]

/-- `record_restored_pool_launcher`. -/
def recordRestoredPoolLauncher (pid startTicks : ℕ) (identity now : String) (files : PoolFiles) :
    Except String (List FileWrite) := do
  let data := files.pool
  requireStatus data "restoring" "restore launcher publication requires pool status restoring"
  let transaction := data.get "restore_transaction"
  if !transaction.isDict ∨ transaction.get "state" ≠ .str "prelaunch" then
    throw "restore launcher publication requires a prelaunch transaction"
  let owned := transaction.extend [("state", .str "launcher_owned"),
    ("launcher", .dict [("pid", .int pid), ("start_ticks", .int startTicks), ("identity", .str identity)]),
    ("launcher_owned_utc", .str now)]
  return [.pool (data.extend [("restore_transaction", owned), ("updated_utc", .str now)])]

/-- `stage_restored_pool_metadata`. -/
def stageRestoredPoolMetadata (roles : RestoredRoles) (now : String) (files : PoolFiles) :
    Except String (List FileWrite) := do
  let data := files.pool
  requireStatus data "restoring" "restored identity staging requires status restoring"
  let worker ← identityFields roles .worker
  let basis ← identityFields roles .basis
  let rows ← sessionRows data
  let stagedRow (row : Json) : Json :=
    ((row.extend [("status", .str "restoring"), ("lease", .null)]).drop
      "restore_failure_cleanup").extend (worker ++ basis)
  let updates ← sessionUpdates files (fun _ => .ok ()) requireDict
    (fun document => ((document.extend (worker ++ basis)).drop "restore_failure_cleanup").extend
      [("status", .str "restoring"), ("updated_utc", .str now)]) rows
  let transaction := data.get "restore_transaction"
  let validated := transaction.extend [("state", .str "validated"), ("validated_utc", .str now)]
  return updates ++ [.pool (((data.extend (worker ++ basis)).drop "restore_failure_cleanup").extend
    (rowsField data (rows.map stagedRow) ++ [("status", .str "restoring"), ("updated_utc", .str now)] ++
      if transaction.isDict then [("restore_transaction", validated)] else []))]

/-- A session document is still in the restore. -/
def requireRestoring (document : Json) : Except String Unit :=
  if document.isDict then
    if document.get "status" = .str "restoring" then .ok ()
    else .error "restored session readiness requires status restoring"
  else .error "session metadata is not a JSON object"

/-- `publish_restored_pool_ready`. -/
def publishRestoredPoolReady (now : String) (files : PoolFiles) : Except String (List FileWrite) := do
  let data := files.pool
  requireStatus data "restoring" "restored pool readiness requires status restoring"
  let rows ← sessionRows data
  let idle := rows.map fun row => row.extend [("status", .str "idle"), ("lease", .null)]
  let updates ← sessionUpdates files (fun _ => .ok ()) requireRestoring
    (fun document => document.extend
      [("status", .str "ready"), ("lease", .null), ("updated_utc", .str now)]) rows
  let transaction := data.get "restore_transaction"
  let ready := transaction.extend [("state", .str "ready"), ("ready_utc", .str now)]
  return updates ++ [.pool (data.extend
    (rowsField data idle ++ [("status", .str "ready"), ("updated_utc", .str now)] ++
      if transaction.isDict then [("restore_transaction", ready)] else []))]

/-- The retained receipt of a verified stop. -/
def stopVerified (record : Json) : Bool :=
  let result := Json.orElse (record.get "stop_result") (.dict [])
  result.isDict && result.get "verified_quiescent" = .bool true

/-- A row of a restore that may be rolled back. -/
def requireRestoringRow (row : Json) : Except String Unit :=
  if row.get "status" = .str "restoring" ∧ stopVerified row = true then .ok ()
  else .error "root-collision retry requires retained verified-quiescent session receipts"

/-- A session document of such a restore. -/
def requireRestoringStopped (document : Json) : Except String Unit :=
  if document.isDict = true ∧ document.get "status" = .str "restoring" then
    if stopVerified document then .ok ()
    else .error "root-collision retry found no verified stop receipt"
  else .error "root-collision retry found non-restoring session metadata"

/-- `reset_root_collision_restore`. -/
def resetRootCollisionRestore (request : RestoreRequest) (retryReceipt now : String)
    (files : PoolFiles) : Except String (List FileWrite) := do
  let data := files.pool
  if !data.isDict ∨ data.get "status" ≠ .str "restoring" then
    throw "root-collision retry requires pool status restoring"
  let transaction := data.get "restore_transaction"
  if !transaction.isDict ∨ transaction.get "operation_stamp" ≠ .str request.operationStamp ∨
      transaction.get "pidfile" ≠ .str request.pidfile ∨
      transaction.get "restore_log" ≠ .str request.restoreLog ∨
      transaction.get "state" ≠ .str "launcher_owned" then
    throw "root-collision retry does not match the exact active restore transaction"
  let rows ← sessionRows data
  if rows = [] then throw "pool sessions metadata is not an array of JSON objects"
  let updates ← sessionUpdates files requireRestoringRow requireRestoringStopped
    (fun document => document.extend
      [("status", .str "stopped"), ("lease", .null), ("updated_utc", .str now)]) rows
  let stopped := rows.map fun row => row.extend [("status", .str "stopped"), ("lease", .null)]
  let retry := Json.dict [("status", .str "authorized"),
    ("reason", .str "exact_root_pid_collision_became_vacant"),
    ("operation_stamp", .str request.operationStamp), ("receipt", .str retryReceipt),
    ("updated_utc", .str now)]
  return updates ++ [.pool ((data.extend [("sessions", .arr stopped), ("status", .str "stopped"),
    ("updated_utc", .str now), ("last_restore_retry", retry)]).drop "restore_transaction")]

/-! ## The mark of a failure -/

/-- What becomes of a record of a restore that failed. -/
def failRecord (cleanup : Json) (record : Json) : Json :=
  record.extend [("status", .str "restore_failed"), ("lease", .null),
    ("restore_failure_cleanup", cleanup)]

/-- The sessions of these rows that have a document, with what becomes of it. -/
def failedSessions (files : PoolFiles) (cleanup : Json) (now : String) :
    List Json → Except String (List FileWrite)
  | [] => .ok []
  | row :: rows => do
      let leaf ← if row.isDict then restoredPoolSession row else pure none
      let rest ← failedSessions files cleanup now rows
      match leaf.bind fun leaf => (files.session leaf).map fun document => (leaf, document) with
      | some (leaf, document) =>
          if document.isDict then
            return .session leaf ((failRecord cleanup document).extend [("updated_utc", .str now)]) :: rest
          else return rest
      | none => return rest

/-- `_mark_pool_restore_failed`: the write that closes the gate, and the writes that follow as far
as they go. -/
def markPoolRestoreFailed (cleanup : Json) (now : String) (files : PoolFiles) :
    Except String (FileWrite × List FileWrite) := do
  let data := files.pool
  if !data.isDict then throw "pool metadata is not a JSON object"
  match Json.orElse (data.get "sessions") (.arr []) with
  | .arr rows => do
      let sessions ← failedSessions files cleanup now rows
      let failed := rows.map fun row => if row.isDict then failRecord cleanup row else row
      return (.pool (data.extend (rowsField data failed ++ [("status", .str "restore_failed"),
        ("updated_utc", .str now), ("restore_failure_cleanup", cleanup)])), sessions)
  | _ => throw "pool sessions metadata is not a JSON array"

end Hearth.Criu
