import Hearth.Library.Outcome
import Mathlib.Data.List.Basic

/-!
# Admission of a project basis

`project_basis.py` and `cli/project_basis_replay.py`, as far as they decide whether a leaf
may be evaluated from the retained state of a basis.  All of it is a comparison of
records: paths, loaders and digests, and never the order in which the leaf does things.
-/

namespace Hearth.Basis

open Hearth.Library

/-- The source loaders. -/
inductive SourceLoader
  | needs | loadt | loads | load | use
  deriving DecidableEq, Repr

/-- A source record of a closure. -/
structure SourceRecord where
  loader : SourceLoader
  resolvedPath : Option String
  sha256 : Option String
  deriving DecidableEq, Repr

/-- A path with its digest: an artifact of a closure, or an edge that the warm shelf
satisfies. -/
structure InputRecord where
  path : Option String
  sha256 : Option String
  deriving DecidableEq, Repr

/-- What admission reads of a closure; `identityMatches` is
`source_dependency_closure_identity_matches`, `transportRefusal` the reason of
`dependency_transport_status` when the closure is not packaged. -/
structure Closure where
  entrypointSha256 : String
  records : List SourceRecord
  artifacts : List InputRecord
  identityMatches : Bool
  transportRefusal : Option String
  deriving DecidableEq, Repr

/-- The part of a plan's identity that is compared later. -/
structure BasisIdentity where
  source : String
  sourceSha256 : String
  sourceMd5 : String
  capturedInputs : List (String × String)
  deriving DecidableEq, Repr

/-- What is read of a row that carries a path and a digest. -/
def SourceRecord.input (record : SourceRecord) : InputRecord :=
  ⟨record.resolvedPath, record.sha256⟩

/-- The rows that count as inputs. -/
def captureInputs (closure : Closure) : List InputRecord :=
  closure.records.map SourceRecord.input ++ closure.artifacts

/-! ## The plan -/

/-- `inputs[path] = digest`. -/
def setInput (inputs : List (String × String)) (path digest : String) : List (String × String) :=
  (path, digest) :: inputs.filter fun input => input.1 ≠ path

/-- Rows with an absolute path and a digest. -/
def planInput (inputs : List (String × String)) (row : InputRecord) : List (String × String) :=
  match row.path, row.sha256 with
  | some path, some digest =>
      if path.toList.head? = some '/' then setInput inputs path digest else inputs
  | _, _ => inputs

/-- `plan_basis`; `sourceSha256` and `sourceMd5` are the digests of the source file. -/
def planBasis (basisSource sourceSha256 sourceMd5 : String) (closure : Closure)
    (satisfiedEdges : List InputRecord) : Except String BasisIdentity := do
  if closure.entrypointSha256 ≠ sourceSha256 then
    throw "project basis source differs from its captured dependency closure"
  if !closure.identityMatches then throw "project basis dependency closure identity is malformed"
  if closure.transportRefusal.isSome then
    throw ("project basis requires bounded literal dependencies: " ++
      closure.transportRefusal.getD "")
  return {
    source := basisSource
    sourceSha256 := sourceSha256
    sourceMd5 := sourceMd5
    capturedInputs := (captureInputs closure ++ satisfiedEdges).foldl planInput
      [(basisSource, sourceSha256)] }

/-- The checks of `run_project_basis_replay` on the leaf and the basis. -/
def admitBasis (leafSource basisSource sourceSha256 sourceMd5 : String)
    (leafClosure basisClosure : Closure) (satisfiedEdges : List InputRecord) :
    Except String BasisIdentity := do
  if basisSource = leafSource then
    throw "--basis must name a separate file imported by the leaf through literal needs"
  if !leafClosure.records.any fun record => record.loader = .needs ∧
      record.resolvedPath = some basisSource ∧
      record.sha256 = some basisClosure.entrypointSha256 then
    throw "--basis must be reachable with the same bytes through a literal needs in the leaf closure"
  planBasis basisSource sourceSha256 sourceMd5 basisClosure satisfiedEdges

/-! ## The use -/

/-- One row of `captured`; two digests of one path are refused. -/
def captureInput (refusal : String) (captured : List (String × String)) (row : InputRecord) :
    Except String (List (String × String)) :=
  match row.path, row.sha256 with
  | some path, some digest =>
      if (captured.lookup path).any (· ≠ digest) then .error refusal
      else .ok (setInput captured path digest)
  | _, _ => .ok captured

/-- A loop over rows that may refuse. -/
def captureAll (refusal : String) :
    List (String × String) → List InputRecord → Except String (List (String × String))
  | captured, [] => .ok captured
  | captured, row :: rows => do
      let captured ← captureInput refusal captured row
      captureAll refusal captured rows

/-- The first captured input of the basis that the leaf does not have, or that has
changed on disk. -/
def differingInput (sha256File : String → Option String) (captured : List (String × String))
    (inputs : List (String × String)) : Option (String × String) :=
  inputs.find? fun (path, expected) =>
    captured.lookup path ≠ some expected || sha256File path ≠ some expected

/-- `validate_basis_use`; `live` is `assert_live_basis`. -/
def validateBasisUse (sha256File : String → Option String) (live : Except String Unit)
    (identity : BasisIdentity) (closure : Closure) (satisfiedEdges : List InputRecord) :
    Except String Unit := do
  if !closure.identityMatches then
    throw "project basis leaf dependency closure identity is malformed"
  let basisEdges := closure.records.filter fun record => record.resolvedPath = some identity.source
  if basisEdges = [] ∨ basisEdges.any fun record => record.loader ≠ .needs then
    throw "project basis must be an exact literal needs dependency of the leaf"
  let captured ← captureAll "project basis leaf has inconsistent duplicate input identities" []
    (captureInputs closure)
  let captured ← captureAll "project basis leaf has inconsistent profile input identities" captured
    satisfiedEdges
  let differing := differingInput sha256File captured identity.capturedInputs
  if differing.isSome then
    throw ("project basis differs from the packaged leaf dependency: " ++
      (differing.getD ("", "")).1)
  live

/-! ## What admission guarantees -/

theorem admitBasis_source {leafSource basisSource sourceSha256 sourceMd5 : String}
    {leafClosure basisClosure : Closure} {satisfiedEdges : List InputRecord}
    {identity : BasisIdentity}
    (h : admitBasis leafSource basisSource sourceSha256 sourceMd5 leafClosure basisClosure
      satisfiedEdges = .ok identity) :
    identity.source = basisSource ∧ identity.sourceMd5 = sourceMd5 := by
  simp only [admitBasis, planBasis, guard_eq_ok, pure_eq_ok] at h
  obtain ⟨-, -, -, -, -, rfl⟩ := h
  exact ⟨rfl, rfl⟩

/-- An admitted leaf reaches the basis through `needs` only. -/
theorem validateBasisUse_needs {sha256File : String → Option String} {live : Except String Unit}
    {identity : BasisIdentity} {closure : Closure} {satisfiedEdges : List InputRecord}
    (h : validateBasisUse sha256File live identity closure satisfiedEdges = .ok ()) :
    ∀ record ∈ closure.records, record.resolvedPath = some identity.source →
      record.loader = .needs := by
  simp only [validateBasisUse, guard_eq_ok] at h
  obtain ⟨-, hedges, -⟩ := h
  rw [not_or] at hedges
  intro record hrecord hpath
  by_contra hloader
  apply hedges.2
  rw [List.any_eq_true]
  refine ⟨record, ?_, by simpa using hloader⟩
  exact List.mem_filter.mpr ⟨hrecord, by simpa using hpath⟩

end Hearth.Basis
