import Hearth.Library.JsonDict
import Hearth.Library.Outcome
import Hearth.Library.PosixPath
import Mathlib.Data.List.Sort

/-!
# The closure of the loaded files

`criu_loaded_provenance.py`: `resolve_loaded_closure` finds for each record of the loader the one file that has its
name and its digest, and `validate_loaded_closure` compares a stored closure with the files as they are.
-/

namespace Hearth.Criu.Loaded

open Hearth.Library
open Hearth.Library.RawPath (relativeText absoluteText)

/-- A record of the loader, with its name decoded. -/
structure LoaderRecord where
  basename : String
  loaderMd5 : String
  deriving DecidableEq

/-- A path as it is given, with the components that a text can spell. -/
structure GivenPath where
  raw : RawPath
  spelled : Parts.Spelled raw.parts

structure SemanticInput where
  path : GivenPath
  role : String

/-- Why the closure cannot be resolved: a `LoadedProvenanceError`, or an `OSError` that is not caught. -/
inductive ProvenanceError
  /-- "loader export is empty" -/
  | emptyExport
  /-- "HOL directory is missing or not a directory: …" -/
  | holdirMissing (holdir : Parts)
  /-- "unresolved loader record: basename=… loader_md5=…" -/
  | unresolved (record : LoaderRecord)
  /-- "ambiguous loader record: basename=… loader_md5=… matches=[…]" -/
  | ambiguous (record : LoaderRecord) (paths : List Parts)
  /-- "cannot hash loaded input …: …" -/
  | cannotHash (path : Parts)
  /-- "cannot stat loaded input …: …" -/
  | cannotStat (path : Parts)
  | os

/-- What the two functions read of the files. -/
structure Files where
  /-- `path.is_dir()` -/
  isDir : Parts → Except ProvenanceError Bool
  /-- `path.is_file()` -/
  isFile : Parts → Except ProvenanceError Bool
  /-- the directories that `os.walk(top, followlinks=False)` visits, with their file names -/
  walk : Parts → List (Parts × List String)
  read : Parts → Option ByteArray
  /-- `path.resolve(strict=True)` -/
  resolve : Parts → Option Parts
  walk_beneath : ∀ top, ∀ row ∈ walk top, ∃ rest, row.1 = top ++ rest ∧ Parts.Spelled (rest ++ row.2) ∧
    Parts.Clean (rest ++ row.2)
  resolve_spelled : ∀ path resolved, resolve path = some resolved → Parts.Spelled resolved

/-- The files with what does not change. -/
structure World extends Files where
  expanduser : GivenPath → GivenPath
  cwd : GivenPath
  md5 : ByteArray → String
  sha256 : ByteArray → String
  /-- `str(value)` -/
  text : Json → String
  text_str : ∀ value, text (.str value) = value

/-- `_lexical_absolute`. -/
def World.lexicalAbsolute (world : World) (path : GivenPath) : Parts :=
  let path := (world.expanduser path).raw
  Parts.abspath (if path.isAbsolute then path.parts else world.cwd.raw.parts ++ path.parts)

/-! ## Resolution -/

structure Candidate where
  path : Parts
  name : String
  role : String

section Resolution

variable (world : World)

/-- The candidates of a directory.  The path of a file is absolute, so that `_lexical_absolute` only normalizes it. -/
def candidatesBeneath (wanted : List String) (role : String) (top : Parts) : List Candidate :=
  (world.walk top).flatMap fun row =>
    (row.2.filter (· ∈ wanted)).map fun name => ⟨Parts.abspath (row.1 ++ [name]), name, role⟩

/-- `path.name`. -/
def nameOf (path : Parts) : String :=
  path.getLast?.getD ""

/-- The candidates of a semantic input, which is a directory or a file. -/
def candidatesOfInput (wanted : List String) (item : SemanticInput) : Except ProvenanceError (List Candidate) := do
  let path := world.lexicalAbsolute item.path
  if ← world.isDir path then .ok (candidatesBeneath world wanted item.role path)
  else .ok (if nameOf path ∈ wanted then [⟨path, nameOf path, item.role⟩] else [])

/-- `_candidate_map`. -/
def candidateMap (holdir : Parts) (wanted : List String) (semanticInputs : List SemanticInput) :
    Except ProvenanceError (List Candidate) := do
  let more ← semanticInputs.mapM (candidatesOfInput world wanted)
  .ok (candidatesBeneath world wanted "holdir" holdir ++ more.flatten)

/-- The paths of a name, each once. -/
def pathsOf (candidates : List Candidate) (basename : String) : List Parts :=
  ((candidates.filter (·.name = basename)).map Candidate.path).dedup

/-- The roles of a path in order, each once. -/
def rolesOf (candidates : List Candidate) (basename : String) (path : Parts) : List String :=
  (((candidates.filter fun candidate => candidate.name = basename ∧ candidate.path = path).map
    Candidate.role).dedup).insertionSort (· ≤ ·)

/-- The files among the paths that have the digest. -/
def matching (loaderMd5 : String) : List Parts → Except ProvenanceError (List Parts)
  | [] => .ok []
  | path :: paths => do
      if !(← world.isFile path) then matching loaderMd5 paths
      else
        match world.read path with
        | none => .error (.cannotHash path)
        | some content => do
            let rest ← matching loaderMd5 paths
            .ok (if world.md5 content = loaderMd5 then path :: rest else rest)

/-- `_stored_path_identity`. -/
def storedPathIdentity (path holdir : Parts) : String × String :=
  if Parts.Within path holdir then ("holdir_relative", relativeText (Parts.relativeTo path holdir))
  else ("absolute", absoluteText path)

/-- The entry of a record that one path matches. -/
def entryOf (record : LoaderRecord) (occurrences : ℕ) (identity : String × String) (resolved : Parts)
    (roles : List String) (content : ByteArray) : Json :=
  Json.dict
    [("basename", .str record.basename),
      ("loader_md5", .str record.loaderMd5),
      ("occurrences", .int occurrences),
      ("path_kind", .str identity.1),
      ("path", .str identity.2),
      ("resolved_path", .str (absoluteText resolved)),
      ("roles", .arr (roles.map .str)),
      ("sha256", .str (world.sha256 content)),
      ("size_bytes", .int content.size)]

/-- The entry of a record. -/
def resolveRecord (holdir : Parts) (candidates : List Candidate) (records : List LoaderRecord)
    (record : LoaderRecord) : Except ProvenanceError Json := do
  match ← matching world record.loaderMd5 (pathsOf candidates record.basename) with
  | [] => .error (.unresolved record)
  | [path] =>
      match world.read path, world.resolve path with
      | none, _ => .error (.cannotHash path)
      | some _, none => .error (.cannotStat path)
      | some content, some resolved =>
          .ok (entryOf world record (records.count record) (storedPathIdentity path holdir) resolved
            (rolesOf candidates record.basename path) content)
  | paths => .error (.ambiguous record paths)

/-- The fields under the strict digest. -/
def strictKeys : List String :=
  ["basename", "loader_md5", "occurrences", "path_kind", "path", "resolved_path", "roles", "sha256"]

/-- `_canonical_digest`. -/
def canonicalDigest (payload : Json) : String :=
  world.sha256 (String.ofList (Json.dumps payload)).toUTF8

/-- The order of `sorted(occurrences)`. -/
def sortRecords (records : List LoaderRecord) : List LoaderRecord :=
  records.insertionSort fun one other =>
    one.basename < other.basename ∨ one.basename = other.basename ∧ one.loaderMd5 ≤ other.loaderMd5

/-- The document of a closure. -/
def closureOf (records : List LoaderRecord) (entries : List Json) : Json :=
  Json.dict
    [("schema", .str "hol-workbench.loaded-closure.v1"),
      ("export_schema", .str "hol-workbench.loaded-files-export.v1"),
      ("record_count", .int records.length),
      ("unique_record_count", .int entries.length),
      ("entries", .arr entries),
      ("strict_sha256", .str (canonicalDigest world (.arr (entries.map (Json.pick strictKeys)))))]

/-- `resolve_loaded_closure`. -/
def resolveLoadedClosure (records : List LoaderRecord) (holdir : GivenPath) (semanticInputs : List SemanticInput) :
    Except ProvenanceError Json := do
  if records = [] then throw .emptyExport
  let holdir := world.lexicalAbsolute holdir
  if !(← world.isDir holdir) then throw (.holdirMissing holdir)
  let candidates ← candidateMap world holdir (records.map LoaderRecord.basename) semanticInputs
  let entries ← (sortRecords records.dedup).mapM (resolveRecord world holdir candidates records)
  .ok (closureOf world records entries)

end Resolution

/-! ## Validation -/

/-- A failure of `validate_loaded_closure`. -/
inductive ClosureFailure
  /-- "loaded closure schema is incompatible" -/
  | schema
  /-- "loaded closure entries are missing" -/
  | entriesMissing
  /-- "loaded closure entry … is invalid" -/
  | entryInvalid (index : ℕ)
  /-- "loaded closure entry … duplicates loader identity …" -/
  | duplicate (index : ℕ) (key : String × String)
  /-- "loaded closure entry … has invalid occurrence count" -/
  | occurrences (index : ℕ)
  /-- "invalid HOLDIR-relative closure path: …" -/
  | relativePath (path : String)
  /-- "invalid closure path identity: …" -/
  | pathIdentity (entry : Json)
  /-- "loaded closure basename/path mismatch: …" -/
  | basename (entry : Json) (path : Parts)
  /-- "loaded closure input is missing: …" -/
  | missing (entry : Json) (path : Parts)
  /-- "cannot hash loaded input …: …" -/
  | cannotHash (path : Parts)
  /-- "loaded closure MD5 mismatch: …" -/
  | md5 (entry : Json) (path : Parts)
  /-- "loaded closure SHA-256 mismatch: …" -/
  | sha256 (entry : Json) (path : Parts)
  /-- "loaded closure resolved path mismatch: …" -/
  | resolvedPath (entry : Json) (path : Parts)
  /-- "cannot resolve loaded closure input …: …" -/
  | cannotResolve (entry : Json) (path : Parts)
  /-- "loaded closure entry … is missing …" -/
  | fieldMissing (index : ℕ) (key : String)
  /-- "loaded closure record count is inconsistent" -/
  | recordCount
  /-- "loaded closure unique-record count is inconsistent" -/
  | uniqueCount
  /-- "loaded closure strict digest is inconsistent" -/
  | strictDigest

section Validation

variable (world : World)

/-- `str(entry.get(key) or "")`. -/
def textOf (entry : Json) (key : String) : String :=
  world.text (Json.orElse (entry.get key) (.str ""))

/-- `loaded_closure_entry_path`. -/
def loadedClosureEntryPath (entry : Json) (holdir : Parts) : Except ClosureFailure Parts :=
  let path := textOf world entry "path"
  let raw := RawPath.ofString path
  if entry.get "path_kind" = .str "holdir_relative" then
    if path = "" ∨ raw.isAbsolute = true ∨ ".." ∈ raw.parts then .error (.relativePath path)
    else .ok (holdir ++ raw.parts)
  else if entry.get "path_kind" = .str "absolute" ∧ raw.isAbsolute = true then .ok raw.parts
  else .error (.pathIdentity entry)

/-- What the loop over the entries carries on. -/
structure Tally where
  failures : List ClosureFailure
  strictEntries : List Json
  loaderKeys : List (String × String)
  occurrenceTotal : ℤ

def Tally.fail (tally : Tally) (failure : ClosureFailure) : Tally :=
  { tally with failures := tally.failures ++ [failure] }

/-- A failure where the condition does not hold. -/
def Tally.require (tally : Tally) (condition : Prop) [Decidable condition] (failure : ClosureFailure) : Tally :=
  if condition then tally else tally.fail failure

/-- The loader identity of an entry. -/
def loaderKey (entry : Json) : String × String :=
  (textOf world entry "basename", textOf world entry "loader_md5")

def tallyKey (index : ℕ) (entry : Json) (tally : Tally) : Tally :=
  let tally := tally.require (loaderKey world entry ∉ tally.loaderKeys) (.duplicate index (loaderKey world entry))
  { tally with loaderKeys := loaderKey world entry :: tally.loaderKeys }

def tallyOccurrences (index : ℕ) (entry : Json) (tally : Tally) : Tally :=
  match entry.get "occurrences" with
  | .int occurrences =>
      if occurrences < 1 then tally.fail (.occurrences index)
      else { tally with occurrenceTotal := tally.occurrenceTotal + occurrences }
  | _ => tally.fail (.occurrences index)

/-- The checks of a file that is there. -/
def tallyFile (entry : Json) (path : Parts) (tally : Tally) : Tally :=
  let tally :=
    match world.read path with
    | none => (tally.fail (.cannotHash path)).require (entry.get "sha256" = Json.null) (.sha256 entry path)
    | some content =>
        (tally.require (entry.get "loader_md5" = Json.str (world.md5 content)) (.md5 entry path)).require
          (entry.get "sha256" = Json.str (world.sha256 content)) (.sha256 entry path)
  match world.resolve path with
  | none => tally.fail (.cannotResolve entry path)
  | some resolved =>
      tally.require (entry.get "resolved_path" = Json.str (absoluteText resolved)) (.resolvedPath entry path)

def tallyStrict (index : ℕ) (entry : Json) (tally : Tally) : Tally :=
  match strictKeys.find? fun key => (entry.field key).isNone with
  | some key => tally.fail (.fieldMissing index key)
  | none => { tally with strictEntries := tally.strictEntries ++ [Json.pick strictKeys entry] }

/-- One round of the loop. -/
def tallyEntry (holdir : Parts) (index : ℕ) (entry : Json) (tally : Tally) : Except ProvenanceError Tally :=
  if entry.isDict = false then .ok (tally.fail (.entryInvalid index))
  else
    let tally := tallyOccurrences index entry (tallyKey world index entry tally)
    match loadedClosureEntryPath world entry holdir with
    | .error failure => .ok (tally.fail failure)
    | .ok path => do
        let tally := tally.require (entry.get "basename" = Json.str (nameOf path)) (.basename entry path)
        let file ← world.isFile path
        let tally := if file then tallyFile world entry path tally else tally.fail (.missing entry path)
        .ok (tallyStrict index entry tally)

def tallyEntries (holdir : Parts) : ℕ → List Json → Tally → Except ProvenanceError Tally
  | _, [], tally => .ok tally
  | index, entry :: entries, tally => do
      let tally ← tallyEntry world holdir index entry tally
      tallyEntries holdir (index + 1) entries tally

/-- `validate_loaded_closure`. -/
def validateLoadedClosure (closure : Json) (holdir : GivenPath) : Except ProvenanceError (List ClosureFailure) :=
  if closure.get "schema" ≠ .str "hol-workbench.loaded-closure.v1" then .ok [.schema]
  else
    match closure.get "entries" with
    | .arr (entry :: entries) => do
        let tally ← tallyEntries world (world.lexicalAbsolute holdir) 0 (entry :: entries) ⟨[], [], [], 0⟩
        let count := (entry :: entries).length
        let tally := tally.require (Json.equal (closure.get "record_count") (.int tally.occurrenceTotal) = true)
          .recordCount
        let tally := tally.require (Json.equal (closure.get "unique_record_count") (.int count) = true) .uniqueCount
        let digest := canonicalDigest world (.arr tally.strictEntries)
        .ok (tally.require (closure.get "strict_sha256" = Json.str digest) .strictDigest).failures
    | _ => .ok [.entriesMissing]

end Validation

end Hearth.Criu.Loaded
