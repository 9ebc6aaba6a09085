import Hearth.Replay.ClaimProbe
import Mathlib.Data.Int.Notation

/-!
# The foundation delta

`foundation_delta.py`: the trusted wrapper prints one line with the growth of HOL's
axiom, definition, type and constant registries.  The line is accepted only when it
is the only one with its nonce-bound prefix and has exactly the expected form.
-/

namespace Hearth.Replay

def foundationDeltaPrefix : String := "__HOL_FOUNDATION_DELTA__"

/-- `FOUNDATION_MARKER_PREFIX_RE`. -/
def isFoundationMarkerPrefix (markerPrefix : String) : Bool :=
  let head := (foundationDeltaPrefix ++ ":").toList
  let body := markerPrefix.toList.drop head.length
  markerPrefix.toList.take head.length = head && body.length = 33 &&
    (body.take 32).all isLowerHex && body.getLast? = some ':'

/-- `foundation_probe_contract`: the marker prefix of the contract. -/
def foundationProbeContract (nonce : String) : Except ProbeError String :=
  let markerPrefix := foundationDeltaPrefix ++ ":" ++ nonce ++ ":"
  if isFoundationMarkerPrefix markerPrefix then .ok markerPrefix
  else .error .malformedFoundationPrefix

/-- The growth of the four registries. -/
structure Deltas where
  axioms : ℤ
  definitions : ℤ
  types : ℤ
  constants : ℤ
  deriving DecidableEq, Repr

/-- `status` of a foundation delta. -/
inductive DeltaStatus
  | unavailable | invalidContract | missing | ambiguous | malformed | observed | invalid
  deriving DecidableEq, Repr

/-- The accounting of the foundation delta. -/
structure FoundationDelta where
  status : DeltaStatus
  markerCount : ℕ
  observedTranscriptLine : Option ℕ
  deltas : Option Deltas
  newAxiomCount : Option ℤ
  advisoryReasons : List String
  deriving DecidableEq, Repr

/-- `-?[0-9]{1,18}`. -/
def parseCount (field : Bytes) : Option ℤ :=
  let digits := if field.head? = some 0x2D then field.tail else field
  if digits ≠ [] ∧ digits.length ≤ 18 ∧ digits.all fun byte => 0x30 ≤ byte && byte ≤ 0x39 then
    let value : ℤ := digits.foldl (fun total byte => total * 10 + (byte.toNat - 0x30 : ℕ)) (0 : ℕ)
    some (if field.head? = some 0x2D then -value else value)
  else none

/-- What follows the marker prefix: `(ok|invalid)` and four counts, colon-separated. -/
def parseDelta (line : Bytes) : Option (Bool × Deltas) :=
  match line.splitOn 0x3A with
  | [status, axioms, definitions, types, constants] =>
      if status = utf8 "ok" ∨ status = utf8 "invalid" then do
        let axioms ← parseCount axioms
        let definitions ← parseCount definitions
        let types ← parseCount types
        let constants ← parseCount constants
        return (status = utf8 "ok", ⟨axioms, definitions, types, constants⟩)
      else none
  | _ => none

/-- A delta whose wrapper status and counts are acceptable. -/
def Deltas.acceptable (ok : Bool) (deltas : Deltas) : Bool :=
  ok && 0 ≤ deltas.axioms && 0 ≤ deltas.definitions && 0 ≤ deltas.types && 0 ≤ deltas.constants

/-- A foundation delta without an accepted marker line. -/
def noDelta (status : DeltaStatus) (markerCount : ℕ) (line : Option ℕ) (reason : String) :
    FoundationDelta where
  status := status
  markerCount := markerCount
  observedTranscriptLine := line
  deltas := none
  newAxiomCount := none
  advisoryReasons := [reason]

/-- The only marker line, without its prefix. -/
def accountCandidate (number : ℕ) (line : Bytes) : FoundationDelta :=
  match parseDelta line with
  | none => noDelta .malformed 1 (some number) "runtime foundation delta marker is malformed"
  | some (ok, deltas) =>
      if deltas.acceptable ok then
        { status := .observed
          markerCount := 1
          observedTranscriptLine := some number
          deltas := some deltas
          newAxiomCount := some deltas.axioms
          advisoryReasons := if 0 < deltas.axioms then
            ["recorded replay payload introduced " ++ toString deltas.axioms ++
              " runtime axiom(s)"] else [] }
      else noDelta .invalid 1 (some number)
        "runtime foundation registries were not exact prepend-extensions"

/-- `account_foundation_delta`. -/
def accountFoundationDelta (transcript : Bytes) (contract : Contract) : FoundationDelta :=
  match contract.foundationDelta with
  | none => noDelta .unavailable 0 none "runtime foundation delta contract is unavailable"
  | some markerPrefix =>
      if !isFoundationMarkerPrefix markerPrefix then
        noDelta .invalidContract 0 none "runtime foundation delta contract is malformed"
      else
        match ((splitLines transcript).zipIdx 1).filter fun (line, _) =>
            (utf8 markerPrefix).isPrefixOf line with
        | [] => noDelta .missing 0 none "runtime foundation delta marker is missing"
        | [(candidate, number)] =>
            accountCandidate number (candidate.drop (utf8 markerPrefix).length)
        | candidates => noDelta .ambiguous candidates.length none
            "runtime foundation delta marker is ambiguous"

/-- An observed delta carries its counts, and the axiom count is not negative. -/
theorem accountCandidate_observed {number : ℕ} {line : Bytes}
    (h : (accountCandidate number line).status = .observed) :
    ∃ deltas, (accountCandidate number line).deltas = some deltas ∧
      (accountCandidate number line).newAxiomCount = some deltas.axioms ∧ 0 ≤ deltas.axioms := by
  unfold accountCandidate at h ⊢
  split at h
  · cases h
  · rename_i ok deltas hparsed
    by_cases hacceptable : deltas.acceptable ok
    · rw [if_pos hacceptable]
      refine ⟨deltas, rfl, rfl, ?_⟩
      simp only [Deltas.acceptable, Bool.and_eq_true, decide_eq_true_eq] at hacceptable
      exact hacceptable.1.1.1.2
    · rw [if_neg hacceptable] at h
      cases h

theorem accountFoundationDelta_observed {transcript : Bytes} {contract : Contract}
    (h : (accountFoundationDelta transcript contract).status = .observed) :
    ∃ deltas, (accountFoundationDelta transcript contract).deltas = some deltas ∧
      (accountFoundationDelta transcript contract).newAxiomCount = some deltas.axioms ∧
      0 ≤ deltas.axioms := by
  unfold accountFoundationDelta at h ⊢
  split at h
  · cases h
  · split at h
    · cases h
    · rename_i hvalid
      rw [if_neg hvalid]
      split at h
      · cases h
      · exact accountCandidate_observed h
      · cases h

end Hearth.Replay
