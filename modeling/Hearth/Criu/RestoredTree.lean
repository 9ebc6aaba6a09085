import Hearth.Criu.RestoreDocuments

/-!
# The tree that a restore leaves

`tree_capture_problems` and `validate_restored_tree` of `criu_restore_transaction.py`: whether
the processes below the restored root are the recorded ones, all of them held stopped.
-/

namespace Hearth.Criu

/-- A captured process. -/
structure TreeRecord where
  pid : ℕ
  pgid : Option ℕ
  startTicks : Option ℕ
  identity : Option String
  state : Option String
  childrenError : Bool
  children : List ℕ
  deriving DecidableEq, Repr

/-- What a stopped pool records of a role. -/
structure RecordedProcess where
  pid : ℕ
  recordedPgid : ℕ
  deriving DecidableEq, Repr

/-- The recorded processes of the two roles. -/
structure RecordedProcesses where
  worker : RecordedProcess
  basis : RecordedProcess
  deriving DecidableEq, Repr

def RecordedProcesses.role (recorded : RecordedProcesses) : Role → RecordedProcess
  | .worker => recorded.worker
  | .basis => recorded.basis

/-- A list of numbers as it is shown. -/
def numbersText (numbers : List ℕ) : String :=
  "[" ++ ", ".intercalate (numbers.map toString) ++ "]"

/-- The last record of a pid. -/
def byPid (tree : List TreeRecord) (pid : ℕ) : Option TreeRecord :=
  (tree.filter fun record => record.pid = pid).getLast?

/-- What is wrong with one record. -/
def TreeRecord.problems (record : TreeRecord) (earlier : List ℕ) : List String :=
  if record.pid = 0 then ["restored process record has an invalid pid"]
  else
    let about (text : String) : String := s!"restored process {record.pid} " ++ text
    (if record.pid ∈ earlier then [about "was captured more than once"] else []) ++
    (if record.pgid.getD 0 = 0 then [about "has no process group"] else []) ++
    (if record.startTicks.getD 0 = 0 then [about "has no start identity"] else []) ++
    (if record.identity.getD "" = "" then [about "has no birth identity"] else []) ++
    (if record.state = none then [about "has no readable state"] else []) ++
    (if record.childrenError then [about "child ownership is unavailable"] else []) ++
    (if 0 ∈ record.children then [about "has an invalid child list"] else [])

/-- The problems of the records in order. -/
def recordProblems : List TreeRecord → List ℕ → List String
  | [], _ => []
  | record :: tree, earlier =>
      record.problems earlier ++ recordProblems tree (record.pid :: earlier)

/-- `tree_capture_problems`. -/
def treeCaptureProblems (root : Option ℕ) (recorded : RecordedProcesses) (tree : List TreeRecord) :
    List String :=
  match root with
  | none => ["authoritative CRIU root pid is unavailable"]
  | some root =>
      if tree = [] then ["restored process tree is empty"]
      else
        let pids := (tree.map TreeRecord.pid).filter (0 < ·)
        let referenced := (tree.flatMap TreeRecord.children).filter (0 < ·)
        let missing := (referenced.filter (· ∉ pids)).eraseDups.mergeSort (· ≤ ·)
        (recordProblems tree [] ++
          (if root ∉ pids then
            [s!"authoritative CRIU root pid {root} is absent from the captured tree"] else []) ++
          ([Role.worker, .basis].flatMap fun role =>
            if (recorded.role role).pid ∉ pids then
              ["recorded " ++ role.text ++
                s!" pid {(recorded.role role).pid} is absent from the captured tree"]
            else []) ++
          (if missing ≠ [] then
            ["captured child processes are missing records " ++ numbersText missing] else [])).eraseDups

/-- A process that is held. -/
def isStopped (state : Option String) : Bool :=
  state = some "T" || state = some "t"

/-- What is wrong with the process of a role. -/
def roleErrors (recorded : RecordedProcesses) (tree : List TreeRecord) (role : Role) : List String :=
  let expected := recorded.role role
  match byPid tree expected.pid with
  | none => ["restored " ++ role.text ++ s!" pid {expected.pid} is outside the CRIU root tree"]
  | some observed =>
      let pgid := (observed.pgid.map toString).getD "None"
      (if observed.pgid ≠ some expected.recordedPgid then
        ["restored " ++ role.text ++ " pgid " ++ pgid ++
          s!" does not match recorded pgid {expected.recordedPgid}"] else []) ++
      (if observed.startTicks = none ∨ observed.identity = none then
        ["restored " ++ role.text ++ " process identity is unavailable"] else []) ++
      (if isStopped observed.state then []
        else ["restored " ++ role.text ++ " process is not stopped (state=" ++
          (observed.state.map fun state => "'" ++ state ++ "'").getD "None" ++ ")"]) ++
      (if observed.childrenError then
        ["restored " ++ role.text ++ " child ownership is unavailable"] else [])

/-- The errors of `validate_restored_tree`. -/
def treeErrors (root : ℕ) (recorded : RecordedProcesses) (tree : List TreeRecord) : List String :=
  let captured := treeCaptureProblems (some root) recorded tree
  let groups := [recorded.worker.recordedPgid, recorded.basis.recordedPgid]
  let strange := ((tree.filterMap TreeRecord.pgid).filter (· ∉ groups)).eraseDups.mergeSort (· ≤ ·)
  let running := ((tree.filter fun record => !isStopped record.state).map TreeRecord.pid).mergeSort (· ≤ ·)
  (if root ≠ recorded.worker.pid then
    [s!"CRIU root pid {root} does not match recorded worker pid {recorded.worker.pid}"] else []) ++
  (if recorded.worker.recordedPgid ≠ root then
    [s!"recorded worker pgid {recorded.worker.recordedPgid} does not match CRIU root pid {root}"]
    else []) ++
  (if captured ≠ [] then
    ["restored tree ownership capture is incomplete: " ++ "; ".intercalate captured] else []) ++
  roleErrors recorded tree .worker ++ roleErrors recorded tree .basis ++
  (if strange ≠ [] then ["restored tree has unrecorded process groups " ++ numbersText strange] else []) ++
  (if running ≠ [] then ["restored tree has processes not held stopped " ++ numbersText running] else [])

/-- `validate_restored_tree`. -/
def validateRestoredTree (root : ℕ) (recorded : RecordedProcesses) (tree : List TreeRecord) :
    Except String RestoredRoles :=
  let errors := treeErrors root recorded tree
  if errors ≠ [] then .error ("; ".intercalate errors.eraseDups)
  else
    match byPid tree recorded.worker.pid, byPid tree recorded.basis.pid with
    | some worker, some basis =>
        .ok ⟨⟨worker.startTicks, worker.identity⟩, ⟨basis.startTicks, basis.identity⟩⟩
    | _, _ => .error ""

end Hearth.Criu
