import Hearth.Library.JsonDict
import Hearth.Library.Outcome
import Hearth.Library.PosixPath
import Hearth.Library.Shell
import Hearth.Library.TextLines
import Hearth.Replay.Snapshot

/-!
# The replay script of a receipt

`cli/export_replay.py`: `_load_path_entries` collects the directories that made the recorded loads resolve, and
`build_script` writes the comments, the commands of the shell and the phrases for HOL.
-/

namespace Hearth.Replay.Export

open Hearth.Library

/-- What the script takes from outside the receipt. -/
structure World where
  /-- `str(value)` -/
  text : Json → String
  text_str : ∀ value, text (.str value) = value
  /-- `sha256_bytes(json.dumps(receipt, sort_keys=True).encode())[:16]` -/
  receiptDigest : Json → String
  receiptDigest_hex : ∀ receipt, (receiptDigest receipt).toList.all isLowerHex = true
  /-- `load_runtime_config().hol_light_dir`, or the text of its error -/
  holLightDir : Except String String

/-- Why there is no script. -/
inductive ExportFailure
  | exportError (message : String)
  /-- an `AttributeError` or a `TypeError` about a value of the receipt -/
  | raised
  deriving DecidableEq

/-- `for item in value`. -/
def iterate : Json → Except ExportFailure (List Json)
  | .arr items => .ok items
  | .obj fields => .ok (fields.map fun field => .str field.1)
  | .str text => .ok (text.toList.map fun char => .str (String.singleton char))
  | _ => .error .raised

/-- Whether the value can be in a set. -/
def hashable : Json → Bool
  | .arr _ => false
  | .obj _ => false
  | _ => true

/-- `CAPTURED`. -/
def captured : List String :=
  ["source_local", "source_overlay", "holdir_source", "mounted_source"]

/-- `resolution in CAPTURED`. -/
def isCaptured : Json → Bool
  | .str resolution => captured.contains resolution
  | _ => false

section LoadPath

variable (world : World)

/-- `profile_edges`. -/
def profileEdges (receipt : Json) : Except ExportFailure (List (Json × Json)) := do
  let edges ← iterate ((receipt.get "profile_satisfied_dependencies").orElse (.arr []))
  edges.mapM fun edge => do
    if !edge.isDict then throw .raised
    if !(hashable (edge.get "declared_path") && hashable (edge.get "declaring_file")) then throw .raised
    pure (edge.get "declared_path", edge.get "declaring_file")

/-- `closure.get("records") or []`. -/
def closureRecords (receipt : Json) : Except ExportFailure (List Json) := do
  let closure := (receipt.get "source_dependency_closure").orElse (.obj [])
  if !closure.isDict then throw .raised
  iterate ((closure.get "records").orElse (.arr []))

/-- What the loop finds in a record of the closure. -/
inductive Row
  /-- It resolves through the profile's working directory. -/
  | satisfied
  /-- It is captured, and `declared` is a relative path. -/
  | relative (declared resolved : String)
  /-- It is captured, without a relative path. -/
  | silent
  | foreign (declared : String) (resolution : Json)
  deriving DecidableEq

/-- A turn of the loop, up to what it does with the directory or the note. -/
def rowOf (edges : List (Json × Json)) (record : Json) : Except ExportFailure Row := do
  if !record.isDict then throw .raised
  let declared := world.text ((record.get "declared_path").orElse (.str ""))
  let declaring := record.get "declaring_file"
  if !hashable declaring then throw .raised
  if edges.any fun edge => (Json.str declared).equal edge.1 && declaring.equal edge.2 then pure .satisfied
  else
    let resolution := record.get "resolution"
    if !hashable resolution then throw .raised
    if isCaptured resolution then
      match record.get "resolved_path" with
      | .str resolved =>
          if declared ≠ "" && !(RawPath.ofString declared).isAbsolute then pure (.relative declared resolved)
          else pure .silent
      | _ => pure .silent
    else pure (.foreign declared resolution)

/-- The records of a receipt as the loop finds them. -/
def rowsOf (receipt : Json) : Except ExportFailure (List Row) := do
  let edges ← profileEdges receipt
  let records ← closureRecords receipt
  records.mapM (rowOf world edges)

/-- `Path(resolved).as_posix()`. -/
def asPosix (resolved : String) : String :=
  (RawPath.ofString resolved).text

/-- `resolved_posix[: -len(declared) - 1]`. -/
def baseOf (declared resolved : String) : String :=
  String.ofList ((asPosix resolved).toList.take ((asPosix resolved).toList.length - (declared.toList.length + 1)))

/-- `resolved_posix.endswith("/" + declared)`. -/
def endsWith (declared resolved : String) : Bool :=
  ('/' :: declared.toList).isSuffixOf (asPosix resolved).toList

/-- The entries and the notes so far. -/
structure LoadPath where
  entries : List String
  notes : List String

namespace LoadPath

/-- `add`. -/
def add (path : LoadPath) (directory : String) : LoadPath :=
  if directory ≠ "" ∧ directory ∉ path.entries then { path with entries := path.entries ++ [directory] } else path

def note (path : LoadPath) (text : String) : LoadPath :=
  { path with notes := path.notes ++ [text] }

def step (path : LoadPath) : Row → LoadPath
  | .satisfied => path
  | .silent => path
  | .relative declared resolved =>
      if endsWith declared resolved then path.add (baseOf declared resolved)
      else path.note (declared ++ " resolved to " ++ resolved ++ "; its load-path base could not be derived")
  | .foreign declared resolution =>
      path.note (declared ++ ": " ++ world.text resolution ++ "; HOL must resolve it itself")

end LoadPath

/-- `str(Path(source).parent)`. -/
def sourceDirectory (source : String) : String :=
  (RawPath.ofString source).parent.text

/-- `_load_path_entries`. -/
def loadPathEntries (receipt : Json) : Except ExportFailure LoadPath := do
  let source := world.text ((receipt.get "source").orElse (.str ""))
  let rows ← rowsOf world receipt
  pure (rows.foldl (LoadPath.step world) (LoadPath.add ⟨[], []⟩ (sourceDirectory source)))

end LoadPath

/-! ## The script -/

/-- `short_sha256(digest) or "?"`. -/
def shortSha256 (digest : String) : String :=
  match normalizedSha256 (String.ofList (Text.strip digest.toList)) with
  | none => "?"
  | some value => String.ofList (value.toList.take 12)

/-- What the script is written from. -/
structure Script where
  receiptPath : String
  source : String
  receiptDigest : String
  sourceDigest : String
  closureDigest : String
  logicalProfile : String
  basisId : String
  recipe : String
  notes : List String
  holdir : String
  profileCwd : String
  entries : List String
  profileBase : Option String
  proved : List String
  deriving DecidableEq

namespace Script

variable (script : Script)

/-- The texts of the comment lines, behind the number signs. -/
def comments : List String :=
  ["!/usr/bin/env bash",
    " Plain HOL Light replay of " ++ script.source,
    " Written by hearth export-replay from " ++ script.receiptPath,
    " Receipt SHA-256: " ++ script.receiptDigest ++ "...  source sha=" ++ script.sourceDigest ++ "  closure sha=" ++
      script.closureDigest,
    " Profile: " ++ script.logicalProfile ++ " basis=" ++ script.basisId ++ " recipe=" ++ script.recipe,
    "",
    " This is the independent check before publication: a cold HOL Light without",
    " Hearth, CRIU or the warm broker loads the same profile recipe, then the exact",
    " source. It reproduces the load environment; it does not read the receipt's",
    " evidence. Compare the printed axiom count before and after, and the theorems."] ++
  script.notes.map fun note => " NOTE: " ++ note

/-- `shlex.quote(text)`. -/
def quoted (text : String) : String :=
  String.ofList (Shell.quote text.toList)

/-- The commands up to the here-document. -/
def commands : List String :=
  ["set -euo pipefail",
    "HOLDIR=" ++ quoted script.holdir,
    "cd " ++ quoted script.profileCwd,
    "export HOLLIGHT_LOAD_PATH=" ++ quoted (":".intercalate script.entries),
    "# hol.sh wraps the toplevel in ledit, which garbles piped input; env just execs it.",
    "export LINE_EDITOR=env",
    "exec \"$HOLDIR/hol.sh\" <<'HOL'"]

/-- The phrases for HOL. -/
def phrases : List String :=
  "let hearth_export_axioms_before = List.length (axioms());;" ::
    (script.profileBase.toList.map fun base => "loadt " ++ ocamlStringLiteral base ++ ";;") ++
    ["loadt " ++ ocamlStringLiteral script.source ++ ";;",
      "Printf.printf \"HEARTH_EXPORT_REPLAY: source loaded\\n%!\";;"] ++
    script.proved.map (· ++ ";;") ++
    ["Printf.printf \"HEARTH_EXPORT_REPLAY: axioms before=%d after=%d\\n%!\" " ++
      "hearth_export_axioms_before (List.length (axioms()));;"]

/-- The lines of the script. -/
def lines : List String :=
  script.comments.map ("#" ++ ·) ++ script.commands ++ script.phrases ++ ["HOL", ""]

def text : String :=
  "\n".intercalate script.lines

end Script

section Build

variable (world : World)

/-- The names of the bindings that are proved. -/
def provedNames (receipt : Json) : Except ExportFailure (List String) := do
  let rows ← iterate ((receipt.get "bindings").orElse (.arr []))
  pure ((rows.filter fun row =>
    row.isDict && row.get "status" = Json.str "proved" && (row.get "name").truthy).map fun row =>
      world.text (row.get "name"))

/-- The directory of HOL: given, recorded or configured.  Where `profile_satisfaction` is no dictionary, it records
none. -/
def holdirOf (receipt : Json) (holdirOverride : Option String) : Except ExportFailure String :=
  match holdirOverride, (receipt.get "profile_satisfaction").get "host_holdir" with
  | some holdir, _ => .ok holdir
  | none, .null =>
      match world.holLightDir with
      | .ok holdir => .ok holdir
      | .error error => .error (.exportError
          ("no HOL directory is recorded and the runtime config is unavailable: " ++ error))
  | none, holdir => .ok (world.text holdir)

/-- A text that is not empty. -/
def nonemptyText : Json → Option String
  | .str text => if text = "" then none else some text
  | _ => none

/-- `build_script`, up to the text. -/
def scriptOf (receiptPath : String) (receipt : Json) (holdirOverride : Option String) :
    Except ExportFailure Script := do
  if receipt.get "evidence" ≠ .str "recorded_warm_replay" then
    throw (.exportError "requires a recorded warm replay receipt")
  match receipt.get "source" with
  | .str source =>
      if !(RawPath.ofString source).isAbsolute then
        throw (.exportError "receipt has no absolute entrypoint source")
      let holdir ← holdirOf world receipt holdirOverride
      let profileCwd := (receipt.get "profile_cwd").orElse (.str (sourceDirectory source))
      let path ← loadPathEntries world receipt
      let proved ← provedNames world receipt
      pure
        { receiptPath
          source
          receiptDigest := world.receiptDigest receipt
          sourceDigest := shortSha256 (world.text ((receipt.get "source_sha256").orElse (.str "")))
          closureDigest :=
            shortSha256 (world.text ((receipt.get "source_dependency_closure_sha256").orElse (.str "")))
          logicalProfile := world.text (receipt.get "logical_profile")
          basisId := world.text (receipt.get "profile_basis_id")
          recipe := world.text (receipt.get "profile_base")
          notes := path.notes
          holdir
          profileCwd := world.text profileCwd
          entries := path.entries
          profileBase := nonemptyText (receipt.get "profile_base")
          proved }
  | _ => throw (.exportError "receipt has no absolute entrypoint source")

/-- `build_script`. -/
def buildScript (receiptPath : String) (receipt : Json) (holdirOverride : Option String) :
    Except ExportFailure String := do
  let script ← scriptOf world receiptPath receipt holdirOverride
  pure script.text

end Build

end Hearth.Replay.Export
