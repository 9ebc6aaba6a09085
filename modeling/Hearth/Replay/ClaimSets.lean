import Hearth.Library.Association
import Mathlib.Data.List.Dedup
import Mathlib.Data.List.Sort
import Mathlib.Data.String.Basic

/-!
# Claim sets

`proof_run_claim_sets.py` compares a claim set with a baseline.  It compares by the name of the theorem, and so it sees of
several claims with one name only the last, and none without a name; and it compares the digests of statements, so it
does not see a claim whose statement has none.  A clean comparison says what it should of the claims that it saw, and of all
claims if those that it did not see agree by themselves.
-/

namespace Hearth.Replay

open Hearth.Library

/-! ## The sets -/

/-- A claim of a claim set.  Its proof constructor and its lines are only displayed. -/
structure ClaimRecord where
  /-- `theorem`. -/
  name : Option String := none
  source : Option String := none
  sourceSha256 : Option String := none
  statementSha256 : Option String := none
  proofStatus : Option String := none
  evidence : Option String := none
  verificationStatus : Option String := none
  deriving DecidableEq, Repr

/-- A claim set, as it is built or as a file has it. -/
structure ClaimSet where
  claimCount : Option ℕ
  claims : List ClaimRecord
  duplicateTheorems : List String
  warnings : List String
  deriving DecidableEq, Repr

/-- `sorted(names)`. -/
def sortedNames (names : List String) : List String :=
  names.insertionSort (· ≤ ·)

/-- The key by which claims are sorted. -/
def ClaimRecord.sortKey (claim : ClaimRecord) : String × String :=
  (claim.name.getD "", claim.source.getD "")

/-- `claim_set_document`. -/
def claimSetDocument (claims : List ClaimRecord) (warnings : List String) : ClaimSet :=
  let sortedClaims := claims.insertionSort fun first second =>
    first.sortKey.1 < second.sortKey.1 ∨ first.sortKey.1 = second.sortKey.1 ∧ first.sortKey.2 ≤ second.sortKey.2
  let names := sortedClaims.map fun claim => claim.name.getD ""
  let duplicateTheorems := sortedNames (names.dedup.filter fun name => name ≠ "" ∧ 1 < names.count name)
  { claimCount := some sortedClaims.length
    claims := sortedClaims
    duplicateTheorems := duplicateTheorems
    warnings := warnings ++
      if duplicateTheorems = [] then []
      else ["duplicate theorem name(s): " ++ ", ".intercalate duplicateTheorems] }

/-! ## The comparison -/

/-- One round of the loop of `claims_by_theorem`. -/
def indexClaim (byName : List (String × ClaimRecord)) (claim : ClaimRecord) : List (String × ClaimRecord) :=
  match claim.name with
  | none => byName
  | some name => if name = "" then byName else setRow name claim byName

/-- `claims_by_theorem`. -/
def claimsByTheorem (claims : List ClaimRecord) : List (String × ClaimRecord) :=
  claims.foldl indexClaim []

/-- `claim_has_observed_proof`. -/
def claimHasObservedProof (claim : ClaimRecord) : Bool :=
  if claim.proofStatus ≠ some "proved" then false
  else
    claim.evidence ∈ [some "semantic_probe", some "observed_output_name", some "observed_theorem_binding"] ∨
      claim.verificationStatus = some "observed"

/-- `claim_has_failed_proof`. -/
def claimHasFailedProof (claim : ClaimRecord) : Bool :=
  claim.proofStatus ∉ [none, some "unknown", some "proved"]

inductive DiffStatus
  | changed | clean
  deriving DecidableEq, Repr

/-- A row of `statement_changed`. -/
structure StatementChange where
  name : String
  baselineStatementSha256 : Option String
  currentStatementSha256 : Option String
  baseline : ClaimRecord
  current : ClaimRecord
  deriving DecidableEq, Repr

/-- The report of a comparison. -/
structure ClaimSetDiff where
  status : DiffStatus
  baselineClaimCount : ℕ
  currentClaimCount : ℕ
  newTheorems : List ClaimRecord
  deletedTheorems : List ClaimRecord
  statementChanged : List StatementChange
  proofFailed : List ClaimRecord
  proofStillObserved : List ClaimRecord
  warnings : List String
  deriving DecidableEq, Repr

/-- `[these[name] for name in sorted(names - other_names)]`. -/
def claimsOnlyIn (these others : List (String × ClaimRecord)) : List ClaimRecord :=
  (sortedNames ((these.map Prod.fst).filter (· ∉ others.map Prod.fst))).filterMap fun name => these.lookup name

/-- What the loop over the common names binds. -/
def claimPairs (baselineByName currentByName : List (String × ClaimRecord)) : List (String × ClaimRecord × ClaimRecord) :=
  (sortedNames ((baselineByName.map Prod.fst).filter (· ∈ currentByName.map Prod.fst))).filterMap fun name =>
    (baselineByName.lookup name).bind fun old => (currentByName.lookup name).map fun new => (name, old, new)

/-- `compare_claim_sets`. -/
def compareClaimSets (baseline current : ClaimSet) : ClaimSetDiff :=
  let baselineByName := claimsByTheorem baseline.claims
  let currentByName := claimsByTheorem current.claims
  let newTheorems := claimsOnlyIn currentByName baselineByName
  let deletedTheorems := claimsOnlyIn baselineByName currentByName
  let pairs := claimPairs baselineByName currentByName
  let statementChanged := pairs.filterMap fun (name, old, new) =>
    if old.statementSha256 ≠ new.statementSha256 then
      some ⟨name, old.statementSha256, new.statementSha256, old, new⟩
    else none
  let proofFailed := pairs.filterMap fun (_, _, new) => if claimHasFailedProof new then some new else none
  let proofStillObserved := pairs.filterMap fun (_, old, new) =>
    if old.statementSha256 = new.statementSha256 ∧ claimHasObservedProof new then some new else none
  { status :=
      if newTheorems ≠ [] ∨ deletedTheorems ≠ [] ∨ statementChanged ≠ [] ∨ proofFailed ≠ [] then .changed else .clean
    baselineClaimCount := baseline.claimCount.getD baselineByName.length
    currentClaimCount := current.claimCount.getD currentByName.length
    newTheorems := newTheorems
    deletedTheorems := deletedTheorems
    statementChanged := statementChanged
    proofFailed := proofFailed
    proofStillObserved := proofStillObserved
    warnings := baseline.warnings ++ current.warnings }

/-! ## What the comparison looks at -/

/-- Whether a claim can be found by its name: none behind it has the same. -/
def ClaimRecord.isIndexed (claim : ClaimRecord) (later : List ClaimRecord) : Bool :=
  claim.name.any (· ≠ "") && later.all fun other => other.name ≠ claim.name

/-- The claims that can be found by their names. -/
def indexedClaims (claims : List ClaimRecord) : List ClaimRecord :=
  filterLater ClaimRecord.isIndexed claims

/-- The claims that cannot be found: they have no name, or one behind them has the same. -/
def overwrittenClaims (claims : List ClaimRecord) : List ClaimRecord :=
  filterLater (fun claim later => !claim.isIndexed later) claims

/-- The claims whose digests are compared. -/
def comparedClaims (claims : List ClaimRecord) : List ClaimRecord :=
  filterLater (fun claim later => claim.isIndexed later && claim.statementSha256.isSome) claims

/-- The claims whose digests are not: they cannot be found, or their statements have no digest. -/
def uncomparedClaims (claims : List ClaimRecord) : List ClaimRecord :=
  filterLater (fun claim later => !(claim.isIndexed later && claim.statementSha256.isSome)) claims

/-- The name and the statement of a claim. -/
def ClaimRecord.stamp (claim : ClaimRecord) : Option String × Option String :=
  (claim.name, claim.statementSha256)

/-- The name and the digest of a claim: that of its statement, or else of its source. -/
def ClaimRecord.digested (claim : ClaimRecord) : Option String × Option String :=
  (claim.name, claim.statementSha256.or claim.sourceSha256)

/-- Both sets have the same names and digests, as often. -/
def SameClaims (baseline current : List ClaimRecord) : Prop :=
  (baseline.map ClaimRecord.digested).Perm (current.map ClaimRecord.digested)

/-- None of these claims failed. -/
def NoneFailed (claims : List ClaimRecord) : Prop :=
  ∀ claim ∈ claims, claimHasFailedProof claim = false

/-- The claims that can be found have the same names and statements, and none failed. -/
structure IndexedAgree (baseline current : List ClaimRecord) : Prop where
  stamps : ((indexedClaims baseline).map ClaimRecord.stamp).Perm ((indexedClaims current).map ClaimRecord.stamp)
  proofs : NoneFailed (indexedClaims current)

/-! ## The index -/

theorem isIndexed_iff {claim : ClaimRecord} {later : List ClaimRecord} :
    claim.isIndexed later = true ↔
      (∃ name, claim.name = some name ∧ name ≠ "") ∧ ∀ other ∈ later, other.name ≠ claim.name := by
  rw [ClaimRecord.isIndexed, Bool.and_eq_true, Option.any_eq_true, List.all_eq_true]
  simp only [decide_eq_true_eq]

theorem indexedClaims_cons (claim : ClaimRecord) (later : List ClaimRecord) :
    indexedClaims (claim :: later) =
      if claim.isIndexed later then claim :: indexedClaims later else indexedClaims later := rfl

theorem mem_of_mem_indexedClaims {claims : List ClaimRecord} {claim : ClaimRecord} (h : claim ∈ indexedClaims claims) :
    claim ∈ claims :=
  mem_of_mem_filterLater _ h

/-- Of the claims with one name, the last can be found. -/
theorem exists_indexed {claims : List ClaimRecord} {other : ClaimRecord} {name : String} (hmem : other ∈ claims)
    (hother : other.name = some name) (hname : name ≠ "") : ∃ claim ∈ indexedClaims claims, claim.name = some name := by
  induction claims generalizing other with
  | nil => cases hmem
  | cons first later ih =>
      rw [indexedClaims_cons]
      by_cases hlater : ∃ behind ∈ later, behind.name = some name
      · obtain ⟨behind, hbehind, hsame⟩ := hlater
        obtain ⟨claim, hclaim, hfound⟩ := ih hbehind hsame
        refine ⟨claim, ?_, hfound⟩
        split
        · exact .tail _ hclaim
        · exact hclaim
      · obtain rfl | hbehind := List.mem_cons.mp hmem
        · have hindexed : other.isIndexed later = true :=
            isIndexed_iff.mpr ⟨⟨name, hother, hname⟩, fun behind hbehind hsame =>
              hlater ⟨behind, hbehind, hsame.trans hother⟩⟩
          rw [if_pos hindexed]
          exact ⟨other, .head _, hother⟩
        · exact absurd ⟨other, hbehind, hother⟩ hlater

/-- Indexing a claim changes what its name finds. -/
theorem lookup_indexClaim (rows : List (String × ClaimRecord)) {claim : ClaimRecord} {named : String}
    (hname : claim.name = some named) (hne : named ≠ "") (name : String) :
    (indexClaim rows claim).lookup name = if name = named then some claim else rows.lookup name := by
  rw [indexClaim, hname]
  dsimp only
  rw [if_neg hne, lookup_setRow]

theorem lookup_foldl_indexClaim (claims : List ClaimRecord) (rows : List (String × ClaimRecord)) (name : String) :
    (claims.foldl indexClaim rows).lookup name =
      ((indexedClaims claims).find? fun claim => claim.name = some name).or (rows.lookup name) := by
  induction claims generalizing rows with
  | nil => rfl
  | cons claim later ih =>
      rw [List.foldl_cons, ih, indexedClaims_cons]
      by_cases hnamed : ∃ named, claim.name = some named ∧ named ≠ ""
      · obtain ⟨named, hname, hne⟩ := hnamed
        rw [lookup_indexClaim rows hname hne]
        by_cases hindexed : claim.isIndexed later = true
        · rw [if_pos hindexed]
          have hlast := (isIndexed_iff.mp hindexed).2
          by_cases hfind : name = named
          · -- none of the later claims is found instead
            subst hfind
            have hnone : (indexedClaims later).find? (fun claim => claim.name = some name) = none := by
              rw [List.find?_eq_none]
              intro other hother hsame
              exact hlast other (mem_of_mem_indexedClaims hother) ((of_decide_eq_true hsame).trans hname.symm)
            rw [hnone, if_pos rfl, List.find?_cons_of_pos (by simpa using hname)]
            rfl
          · rw [if_neg hfind, List.find?_cons_of_neg]
            rw [hname, decide_eq_true_eq, Option.some_inj]
            exact Ne.symm hfind
        · rw [if_neg hindexed]
          by_cases hfind : name = named
          · -- one of the later claims is found instead
            subst hfind
            have hbehind : ∃ other ∈ later, other.name = claim.name := by
              by_contra hnone
              exact hindexed (isIndexed_iff.mpr ⟨⟨name, hname, hne⟩, fun other hother hsame =>
                hnone ⟨other, hother, hsame⟩⟩)
            obtain ⟨other, hother, hsame⟩ := hbehind
            obtain ⟨last, hlast, hlastName⟩ := exists_indexed hother (hsame.trans hname) hne
            have hsome : ((indexedClaims later).find? fun claim => claim.name = some name).isSome := by
              rw [List.find?_isSome]
              exact ⟨last, hlast, by simpa using hlastName⟩
            obtain ⟨found, hfound⟩ := Option.isSome_iff_exists.mp hsome
            rw [hfound]
            rfl
          · rw [if_neg hfind]
      · have hindexed : ¬ claim.isIndexed later = true := fun h => hnamed (isIndexed_iff.mp h).1
        have hsame : indexClaim rows claim = rows := by
          unfold indexClaim
          cases hname : claim.name with
          | none => rfl
          | some named =>
              dsimp only
              rw [if_pos]
              by_contra hne
              exact hnamed ⟨named, hname, hne⟩
        rw [if_neg hindexed, hsame]

/-- The names of the claims that can be found are distinct. -/
theorem nodup_indexedClaims (claims : List ClaimRecord) : ((indexedClaims claims).map ClaimRecord.name).Nodup := by
  induction claims with
  | nil => exact .nil
  | cons claim later ih =>
      rw [indexedClaims_cons]
      split
      · rename_i hindexed
        rw [List.map_cons, List.nodup_cons]
        refine ⟨fun hmem => ?_, ih⟩
        obtain ⟨other, hother, hsame⟩ := List.mem_map.mp hmem
        exact (isIndexed_iff.mp hindexed).2 other (mem_of_mem_indexedClaims hother) hsame
      · exact ih

theorem name_of_mem_indexedClaims {claims : List ClaimRecord} {claim : ClaimRecord} (h : claim ∈ indexedClaims claims) :
    ∃ name, claim.name = some name := by
  induction claims with
  | nil => cases h
  | cons first later ih =>
      rw [indexedClaims_cons] at h
      by_cases hindexed : first.isIndexed later = true
      · rw [if_pos hindexed] at h
        obtain rfl | hlater := List.mem_cons.mp h
        · obtain ⟨⟨name, hname, -⟩, -⟩ := isIndexed_iff.mp hindexed
          exact ⟨name, hname⟩
        · exact ih hlater
      · rw [if_neg hindexed] at h
        exact ih h

/-- A name finds the claim of this name that can be found. -/
theorem lookup_claimsByTheorem {claims : List ClaimRecord} {name : String} {claim : ClaimRecord} :
    (claimsByTheorem claims).lookup name = some claim ↔ claim ∈ indexedClaims claims ∧ claim.name = some name := by
  have hlookup := lookup_foldl_indexClaim claims [] name
  rw [List.lookup_nil, Option.or_none] at hlookup
  rw [claimsByTheorem, hlookup]
  constructor
  · intro h
    exact ⟨List.mem_of_find?_eq_some h, by simpa using List.find?_some h⟩
  · rintro ⟨hmem, hname⟩
    cases hfind : (indexedClaims claims).find? fun claim => claim.name = some name with
    | none => exact absurd (List.find?_eq_none.mp hfind claim hmem) (by simpa using hname)
    | some found =>
        have hsame : found.name = claim.name := by
          rw [hname]
          simpa using List.find?_some hfind
        rw [List.inj_on_of_nodup_map (nodup_indexedClaims claims) (List.mem_of_find?_eq_some hfind) hmem hsame]

/-- What is compared of a name. -/
theorem mem_stamps {claims : List ClaimRecord} {stamp : Option String × Option String} :
    stamp ∈ (indexedClaims claims).map ClaimRecord.stamp ↔
      ∃ name, stamp.1 = some name ∧ ((claimsByTheorem claims).lookup name).map ClaimRecord.statementSha256 = some stamp.2 := by
  rw [List.mem_map]
  constructor
  · rintro ⟨claim, hmem, rfl⟩
    obtain ⟨name, hname⟩ := name_of_mem_indexedClaims hmem
    exact ⟨name, hname, by rw [lookup_claimsByTheorem.mpr ⟨hmem, hname⟩]; rfl⟩
  · rintro ⟨name, hname, hstatement⟩
    obtain ⟨claim, hlookup, hsame⟩ := Option.map_eq_some_iff.mp hstatement
    obtain ⟨hmem, hclaim⟩ := lookup_claimsByTheorem.mp hlookup
    exact ⟨claim, hmem, Prod.ext (hclaim.trans hname.symm) hsame⟩

theorem nodup_stamps (claims : List ClaimRecord) : ((indexedClaims claims).map ClaimRecord.stamp).Nodup := by
  have hnames := nodup_indexedClaims claims
  rw [show ClaimRecord.name = Prod.fst ∘ ClaimRecord.stamp from rfl, ← List.map_map] at hnames
  exact hnames.of_map _

/-- The stamps are the same when every name finds the same statement. -/
theorem stamps_perm_iff {baseline current : List ClaimRecord} :
    ((indexedClaims baseline).map ClaimRecord.stamp).Perm ((indexedClaims current).map ClaimRecord.stamp) ↔
      ∀ name, ((claimsByTheorem baseline).lookup name).map ClaimRecord.statementSha256 =
        ((claimsByTheorem current).lookup name).map ClaimRecord.statementSha256 := by
  rw [List.perm_ext_iff_of_nodup (nodup_stamps baseline) (nodup_stamps current)]
  constructor
  · intro h name
    refine Option.ext fun statement => ?_
    have hstamp := h (some name, statement)
    rw [mem_stamps, mem_stamps] at hstamp
    constructor
    · intro hfound
      obtain ⟨same, hsame, hother⟩ := hstamp.mp ⟨name, rfl, hfound⟩
      obtain rfl := Option.some.inj hsame
      exact hother
    · intro hfound
      obtain ⟨same, hsame, hother⟩ := hstamp.mpr ⟨name, rfl, hfound⟩
      obtain rfl := Option.some.inj hsame
      exact hother
  · intro h stamp
    rw [mem_stamps, mem_stamps]
    exact exists_congr fun name => by rw [h name]

/-! ## A clean comparison -/

theorem mem_keys_iff {claims : List ClaimRecord} {name : String} :
    name ∈ (claimsByTheorem claims).map Prod.fst ↔ ∃ claim, (claimsByTheorem claims).lookup name = some claim := by
  rw [List.mem_map]
  constructor
  · rintro ⟨row, hrow, rfl⟩
    by_contra hnone
    have hlookup : (claimsByTheorem claims).lookup row.1 = none := by
      cases h : (claimsByTheorem claims).lookup row.1 with
      | none => rfl
      | some claim => exact absurd ⟨claim, h⟩ hnone
    exact lookup_eq_none.mp hlookup row.2 hrow
  · rintro ⟨claim, hlookup⟩
    exact ⟨(name, claim), mem_of_lookup hlookup, rfl⟩

theorem mem_sortedNames {names : List String} {name : String} : name ∈ sortedNames names ↔ name ∈ names :=
  (List.perm_insertionSort _ names).mem_iff

theorem claimsOnlyIn_eq_nil {these others : List ClaimRecord} :
    claimsOnlyIn (claimsByTheorem these) (claimsByTheorem others) = [] ↔
      ∀ name claim, (claimsByTheorem these).lookup name = some claim →
        ∃ other, (claimsByTheorem others).lookup name = some other := by
  rw [claimsOnlyIn, List.filterMap_eq_nil_iff]
  constructor
  · intro h name claim hlookup
    by_contra hnone
    have hmem : name ∈ sortedNames (((claimsByTheorem these).map Prod.fst).filter
        (· ∉ (claimsByTheorem others).map Prod.fst)) := by
      rw [mem_sortedNames, List.mem_filter, decide_eq_true_eq, mem_keys_iff, mem_keys_iff]
      exact ⟨⟨claim, hlookup⟩, hnone⟩
    exact absurd (hlookup.symm.trans (h name hmem)) (Option.some_ne_none claim)
  · intro h name hmem
    rw [mem_sortedNames, List.mem_filter, decide_eq_true_eq, mem_keys_iff, mem_keys_iff] at hmem
    obtain ⟨⟨claim, hlookup⟩, hnone⟩ := hmem
    exact absurd (h name claim hlookup) hnone

theorem mem_claimPairs {baseline current : List ClaimRecord} {name : String} {old new : ClaimRecord} :
    (name, old, new) ∈ claimPairs (claimsByTheorem baseline) (claimsByTheorem current) ↔
      (claimsByTheorem baseline).lookup name = some old ∧ (claimsByTheorem current).lookup name = some new := by
  rw [claimPairs, List.mem_filterMap]
  constructor
  · rintro ⟨found, -, hpair⟩
    obtain ⟨old', hold, hrest⟩ := Option.bind_eq_some_iff.mp hpair
    obtain ⟨new', hnew, hsame⟩ := Option.map_eq_some_iff.mp hrest
    cases hsame
    exact ⟨hold, hnew⟩
  · rintro ⟨hold, hnew⟩
    refine ⟨name, ?_, ?_⟩
    · rw [mem_sortedNames, List.mem_filter, decide_eq_true_eq, mem_keys_iff, mem_keys_iff]
      exact ⟨⟨old, hold⟩, ⟨new, hnew⟩⟩
    · rw [hold, hnew]
      rfl

/-- A comparison is clean when what it looks at agrees. -/
theorem clean_iff_indexedAgree (baseline current : ClaimSet) :
    (compareClaimSets baseline current).status = .clean ↔ IndexedAgree baseline.claims current.claims := by
  have hstatus : (compareClaimSets baseline current).status = .clean ↔
      (claimsOnlyIn (claimsByTheorem current.claims) (claimsByTheorem baseline.claims) = [] ∧
        claimsOnlyIn (claimsByTheorem baseline.claims) (claimsByTheorem current.claims) = []) ∧
      (∀ pair ∈ claimPairs (claimsByTheorem baseline.claims) (claimsByTheorem current.claims),
        pair.2.1.statementSha256 = pair.2.2.statementSha256) ∧
      ∀ pair ∈ claimPairs (claimsByTheorem baseline.claims) (claimsByTheorem current.claims),
        claimHasFailedProof pair.2.2 = false := by
    have hclean : ∀ changed : Prop, [Decidable changed] →
        ((if changed then DiffStatus.changed else .clean) = .clean ↔ ¬ changed) := by
      intro changed _
      by_cases h : changed <;> simp [h]
    unfold compareClaimSets
    rw [hclean, not_or, not_or, not_or, not_not, not_not, not_not, not_not, List.filterMap_eq_nil_iff,
      List.filterMap_eq_nil_iff, ← and_assoc]
    refine and_congr_right fun _ => and_congr (forall₂_congr fun pair _ => ?_) (forall₂_congr fun pair _ => ?_)
    · simp
    · simp
  rw [hstatus, claimsOnlyIn_eq_nil, claimsOnlyIn_eq_nil]
  constructor
  · rintro ⟨⟨hnew, hdeleted⟩, hstatements, hproofs⟩
    constructor
    · rw [stamps_perm_iff]
      intro name
      cases hold : (claimsByTheorem baseline.claims).lookup name with
      | none =>
          cases hcurrent : (claimsByTheorem current.claims).lookup name with
          | none => rfl
          | some new =>
              obtain ⟨old, hfound⟩ := hnew name new hcurrent
              exact absurd (hfound.symm.trans hold) (Option.some_ne_none old)
      | some old =>
          obtain ⟨new, hcurrent⟩ := hdeleted name old hold
          rw [hcurrent]
          exact congrArg some (hstatements _ (mem_claimPairs.mpr ⟨hold, hcurrent⟩))
    · intro claim hmem
      obtain ⟨name, hname⟩ := name_of_mem_indexedClaims hmem
      have hcurrent := lookup_claimsByTheorem.mpr ⟨hmem, hname⟩
      obtain ⟨old, hold⟩ := hnew name claim hcurrent
      exact hproofs _ (mem_claimPairs.mpr ⟨hold, hcurrent⟩)
  · rintro ⟨hstamps, hproofs⟩
    rw [stamps_perm_iff] at hstamps
    refine ⟨⟨fun name claim hlookup => ?_, fun name claim hlookup => ?_⟩, fun pair hpair => ?_, fun pair hpair => ?_⟩
    · have hsame := hstamps name
      rw [hlookup] at hsame
      obtain ⟨other, hother, -⟩ := Option.map_eq_some_iff.mp hsame
      exact ⟨other, hother⟩
    · have hsame := hstamps name
      rw [hlookup] at hsame
      obtain ⟨other, hother, -⟩ := Option.map_eq_some_iff.mp hsame.symm
      exact ⟨other, hother⟩
    · obtain ⟨hold, hnew⟩ := mem_claimPairs.mp hpair
      have hsame := hstamps pair.1
      rw [hold, hnew] at hsame
      exact Option.some.inj hsame
    · exact hproofs _ (lookup_claimsByTheorem.mp (mem_claimPairs.mp hpair).2).1

/-! ## The claims that are not seen -/

theorem compared_perm (claims : List ClaimRecord) : (comparedClaims claims ++ uncomparedClaims claims).Perm claims :=
  filterLater_append_not _ claims

/-- The digests that are compared are those of statements. -/
theorem comparedClaims_digested (claims : List ClaimRecord) :
    (comparedClaims claims).map ClaimRecord.digested =
      ((indexedClaims claims).map ClaimRecord.stamp).filter fun stamp => stamp.2.isSome := by
  induction claims with
  | nil => rfl
  | cons claim later ih =>
      rw [indexedClaims_cons]
      unfold comparedClaims at ih ⊢
      rw [filterLater]
      by_cases hindexed : claim.isIndexed later = true
      · rw [if_pos hindexed, List.map_cons, hindexed, Bool.true_and]
        cases hstatement : claim.statementSha256 with
        | none =>
            rw [List.filter_cons_of_neg]
            · exact ih
            · rw [ClaimRecord.stamp, hstatement]
              exact Bool.false_ne_true
        | some digest =>
            have hsame : claim.digested = claim.stamp := by
              rw [ClaimRecord.digested, ClaimRecord.stamp, hstatement]
              rfl
            rw [List.filter_cons_of_pos]
            · show claim.digested :: _ = _
              rw [ih, hsame]
            · rw [ClaimRecord.stamp, hstatement]
              rfl
      · rw [if_neg hindexed, Bool.eq_false_iff.mpr hindexed, Bool.false_and]
        exact ih

/-- **A clean comparison is sound when the claims that it does not see agree by themselves**, and only then. -/
theorem clean_sound_iff (baseline current : ClaimSet) :
    ((compareClaimSets baseline current).status = .clean →
        SameClaims baseline.claims current.claims ∧ NoneFailed current.claims) ↔
      (IndexedAgree baseline.claims current.claims →
        SameClaims (uncomparedClaims baseline.claims) (uncomparedClaims current.claims) ∧
          NoneFailed (overwrittenClaims current.claims)) := by
  rw [clean_iff_indexedAgree]
  refine forall_congr' fun hagree => and_congr ?_ ?_
  · have hcompared : ((comparedClaims baseline.claims).map ClaimRecord.digested).Perm
        ((comparedClaims current.claims).map ClaimRecord.digested) := by
      rw [comparedClaims_digested, comparedClaims_digested]
      exact hagree.stamps.filter _
    have hbaseline := (compared_perm baseline.claims).map ClaimRecord.digested
    have hcurrent := (compared_perm current.claims).map ClaimRecord.digested
    rw [List.map_append] at hbaseline hcurrent
    constructor
    · intro h
      have hwhole := (hbaseline.trans h).trans hcurrent.symm
      exact (List.perm_append_left_iff _).mp ((hcompared.append_right _).symm.trans hwhole)
    · intro h
      exact hbaseline.symm.trans ((hcompared.append h).trans hcurrent)
  · have hall := filterLater_append_not ClaimRecord.isIndexed current.claims
    constructor
    · intro h claim hmem
      exact h claim (hall.mem_iff.mp (List.mem_append_right _ hmem))
    · intro h claim hmem
      obtain hindexed | hoverwritten := List.mem_append.mp (hall.mem_iff.mpr hmem)
      · exact hagree.proofs claim hindexed
      · exact h claim hoverwritten

/-- A claim of a baseline. -/
def sampleProved : ClaimRecord where
  name := some "T"
  source := some "b.ml"
  statementSha256 := some "digest"
  proofStatus := some "proved"

/-- A claim with its name, whose proof fails. -/
def sampleFailed : ClaimRecord where
  name := some "T"
  source := some "a.ml"
  statementSha256 := some "other"
  proofStatus := some "failed"

/-- A failed proof of another statement is not seen. -/
theorem failed_claim_overwritten :
    (compareClaimSets (claimSetDocument [sampleProved] []) (claimSetDocument [sampleProved, sampleFailed] [])).status =
        .clean ∧
      ¬ SameClaims (claimSetDocument [sampleProved] []).claims (claimSetDocument [sampleProved, sampleFailed] []).claims ∧
      ¬ NoneFailed (claimSetDocument [sampleProved, sampleFailed] []).claims := by
  refine ⟨by decide +kernel, fun h => ?_, fun h => ?_⟩
  · exact absurd h.length_eq (by decide +kernel)
  · exact absurd (h sampleFailed (by decide +kernel)) (by decide)

end Hearth.Replay
