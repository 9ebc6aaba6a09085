import Hearth.Library.FileTree
import Hearth.Library.JsonDict
import Hearth.Library.Outcome

/-!
# Frozen clients

`machine_client.py`: `_frozen_file_inventory` records the files of a tree, `_install_machine_client` and
`_install_warm_hol_client` write them into a manifest beside the files, and `_validate_frozen_client_candidate`
compares a tree with its manifest.
-/

namespace Hearth.Client

open Hearth.Library
open Hearth.Library.RawPath (partsOf relativeText partsOf_relativeText)

/-! ## Reading a tree -/

/-- The two kinds of clients that are installed, with the names of their manifests. -/
structure InstallKind where
  manifestName : String
  schema : String
  developmentOnly : Bool
  component : Parts.Component manifestName

def machineClient : InstallKind :=
  ⟨"machine-client-install.json", "hol-workbench.machine-client-install.v1", false, by decide⟩

def warmHol : InstallKind :=
  ⟨"warm-hol-install.json", "hol-workbench.warm-hol-install.v1", true, by decide⟩

/-- What the manifest says of the checkout. -/
structure ClientIdentity where
  target : String
  checkout : String
  revision : String
  branch : String
  remoteRef : String
  remoteUrl : String

/-- What ends the validation of a candidate or the inventory. -/
inductive ClientFailure
  /-- "frozen client install manifest is missing: …" -/
  | manifestMissing
  /-- "frozen client install manifest is invalid: …" -/
  | manifestInvalid
  /-- "frozen client install manifest has an unsupported shape: …" -/
  | unsupportedShape
  /-- "frozen client install manifest does not cover the candidate tree: …" -/
  | notCovering
  /-- "frozen client candidate file failed validation: …" -/
  | fileFailed (relative : String)
  /-- an `OSError` that is not caught -/
  | os
  deriving DecidableEq

variable {Ino : Type}

section Reading

variable (fs : FileSystem Ino ByteArray) (sha256 : ByteArray → String)

/-- `path.is_file()`. -/
def isFile (root : Ino) (path : Parts) : Except ClientFailure Bool :=
  match fs.stat root path with
  | .missing => .ok false
  | .denied => .error .os
  | .found ino => .ok (fs.node ino).isRegular

/-- `path.is_symlink()`. -/
def isSymlink (root : Ino) (path : Parts) : Except ClientFailure Bool :=
  match fs.lstat root path with
  | .missing => .ok false
  | .denied => .error .os
  | .found ino => .ok (fs.node ino).isLink

/-- `path.read_bytes()` and the bits of `path.stat().st_mode`. -/
def readFile (root : Ino) (path : Parts) : Except ClientFailure (ByteArray × ℕ) :=
  match fs.stat root path with
  | .found ino =>
      match fs.node ino with
      | .regular true content mode => .ok (content, mode &&& 0o777)
      | _ => .error .os
  | _ => .error .os

/-- The paths of a list that are files. -/
def filesAmong (root : Ino) : List Parts → Except ClientFailure (List Parts)
  | [] => .ok []
  | path :: paths => do
      let file ← isFile fs root path
      let files ← filesAmong root paths
      .ok (if file then path :: files else files)

/-- The row of a file in the inventory. -/
def inventoryRow (root : Ino) (path : Parts) : Except ClientFailure (String × Json) := do
  let (content, mode) ← readFile fs root path
  .ok (relativeText path, Json.dict [("sha256", .str (sha256 content)), ("mode", .int mode)])

/-- `_frozen_file_inventory`.  The rows go into a dictionary, which has no order. -/
def frozenFileInventory (root : Ino) : Except ClientFailure Json := do
  let files ← filesAmong fs root (fs.rglob root)
  let rows ← files.mapM (inventoryRow fs sha256 root)
  .ok (Json.dict rows)

/-- The document that `_install_machine_client` and `_install_warm_hol_client` write. -/
def installDocument (kind : InstallKind) (identity : ClientIdentity) (files : Json) : Json :=
  Json.dict
    ((if kind.developmentOnly then [("development_only", .bool true)] else []) ++
      [("schema", .str kind.schema),
        ("installed_client", .str identity.target),
        ("source_checkout", .str identity.checkout),
        ("revision", .str identity.revision),
        ("branch", .str identity.branch),
        ("remote_ref", .str identity.remoteRef),
        ("remote_url", .str identity.remoteUrl),
        ("files", files)])

/-- `read_json_strict`. -/
def readJsonStrict (content : ByteArray) : Option (List (String × Json)) := do
  let text ← String.fromUTF8? content
  let .obj fields ← Json.loads text.toList | none
  some fields

/-- The manifest of a candidate.  Every failure to read it is caught. -/
def readManifest (candidate : Ino) (manifest : Parts) : Except ClientFailure (List (String × Json)) :=
  match readFile fs candidate manifest with
  | .ok (content, _) =>
      match readJsonStrict content with
      | some document => .ok document
      | none => .error .manifestInvalid
  | .error _ => .error .manifestInvalid

/-- The test of one row of the manifest. -/
def checkRow (candidate : Ino) (row : String × Json) : Except ClientFailure PUnit := do
  let path := partsOf row.1.toList
  let failed := ClientFailure.fileFailed row.1
  if ← isSymlink fs candidate path then throw failed
  if !(← isFile fs candidate path) then throw failed
  if !row.2.isDict then throw failed
  let (content, mode) ← readFile fs candidate path
  if !Json.equal (.str (sha256 content)) (row.2.get "sha256") then throw failed
  if !Json.equal (.int mode) (row.2.get "mode") then throw failed

/-- `_validate_frozen_client_candidate`. -/
def validateFrozenClientCandidate (kind : InstallKind) (candidate : Ino) :
    Except ClientFailure (List (String × Json)) := do
  let manifest := [kind.manifestName]
  if !(← isFile fs candidate manifest) then throw .manifestMissing
  let document ← readManifest fs candidate manifest
  if !Json.equal (Json.get (.obj document) "schema") (.str kind.schema) then throw .unsupportedShape
  let .obj expectedFiles := Json.get (.obj document) "files" | throw .unsupportedShape
  let files ← filesAmong fs candidate (fs.rglob candidate)
  let observed := (files.filter (· ≠ manifest)).map relativeText
  if !(observed ⊆ expectedFiles.map Prod.fst ∧ expectedFiles.map Prod.fst ⊆ observed) then throw .notCovering
  expectedFiles.forM (checkRow fs sha256 candidate)
  .ok document

end Reading

end Hearth.Client
