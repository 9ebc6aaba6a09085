import Hearth.Library.Association
import Hearth.Library.TextLines
import Hearth.Replay.ClaimProbe

/-!
# The files of a cold run

`run_vanilla` writes one JSON file for each claim that it has accounted for.  A file is
named by the slug of its claim's name, in which primes are dashes, dashes at the ends are
gone, and no more than eighty characters are left: distinct names may have one slug.
-/

namespace Hearth.Replay

open Hearth.Library

/-! ## Slugs -/

/-- The characters of `[A-Za-z0-9_.-]`. -/
def isSlugChar (c : Char) : Bool :=
  isAsciiLetter c || isAsciiDigit c || c = '_' || c = '.' || c = '-'

/-- `re.sub(r"[^A-Za-z0-9_.-]+", "-", text)`; the flag says that a run of other characters has begun. -/
def dashRuns : Bool → List Char → List Char
  | _, [] => []
  | inRun, char :: rest =>
      if isSlugChar char then char :: dashRuns false rest
      else if inRun then dashRuns true rest
      else '-' :: dashRuns true rest

/-- `text.strip("-")`. -/
def stripDashes (text : List Char) : List Char :=
  (text.rdropWhile (· = '-')).dropWhile (· = '-')

/-- `slugify`, for the default of `max_chars`. -/
def slugify (text fallback : String) : String :=
  let slug := (stripDashes (dashRuns false (Text.strip text.toList))).take 80
  if slug = [] then fallback else String.ofList slug

/-! ## The files -/

/-- The path that is written for a claim, and kept in its `claim_json`. -/
def claimPath (claimsDir : String) (doc : ClaimDoc) : String :=
  claimsDir ++ "/" ++ slugify ((doc.theorem_.filter (· ≠ "")).getD "claim") "claim" ++ ".json"

/-- The document of a claim as it is written. -/
structure ClaimArtifact where
  doc : ClaimDoc
  claimJson : String
  deriving DecidableEq, Repr

def claimArtifact (claimsDir : String) (doc : ClaimDoc) : ClaimArtifact :=
  ⟨doc, claimPath claimsDir doc⟩

/-- The loop of `run_vanilla` over the accounted claims; the directory was just made. -/
def writeClaimFiles (claimsDir : String) (docs : List ClaimDoc) : List (String × ClaimArtifact) :=
  docs.foldl (fun files doc => setRow (claimPath claimsDir doc) (claimArtifact claimsDir doc) files) []

/-- What `run_vanilla` makes of a transcript: the accounted claims, and their files. -/
def coldClaims (diagnostics : Diagnostics) (claims : List Claim) (transcript : Bytes) (contract : Contract)
    (claimsDir : String) : Except ProbeError (List ClaimArtifact × List (String × ClaimArtifact)) := do
  let (docs, _) ← accountClaims diagnostics claims transcript contract
  return (docs.map (claimArtifact claimsDir), writeClaimFiles claimsDir docs)

/-- The file that each claim names holds the claim's own document. -/
def Lossless (artifacts : List ClaimArtifact) (files : List (String × ClaimArtifact)) : Prop :=
  ∀ artifact ∈ artifacts, files.lookup artifact.claimJson = some artifact

/-- The slugs of the claims that are probed. -/
def claimSlugs (claims : List Claim) : List String :=
  (claims.filter Claim.named).map fun claim => slugify claim.nameText "claim"

/-! ## Names that share a slug -/

theorem dashRuns_prime (inRun : Bool) (text : List Char) :
    dashRuns inRun (text ++ ['\'']) = dashRuns inRun text ∨
      dashRuns inRun (text ++ ['\'']) = dashRuns inRun text ++ ['-'] := by
  induction text generalizing inRun with
  | nil => cases inRun <;> decide
  | cons char rest ih =>
      rw [List.cons_append, dashRuns, dashRuns]
      by_cases hchar : isSlugChar char = true
      · rw [if_pos hchar, if_pos hchar]
        exact (ih false).imp (congrArg _) (congrArg _)
      · rw [if_neg hchar, if_neg hchar]
        cases inRun with
        | true => exact ih true
        | false => exact (ih true).imp (congrArg ('-' :: ·)) (congrArg ('-' :: ·))

/-- A prime at the end of a text does not change its slug. -/
theorem stripDashes_prime (text : List Char) :
    stripDashes (dashRuns false (text ++ ['\''])) = stripDashes (dashRuns false text) := by
  rcases dashRuns_prime false text with h | h
  · rw [h]
  · rw [h, stripDashes, List.rdropWhile_concat_pos _ _ _ (by decide), stripDashes]

/-- The characters of a HOL identifier. -/
theorem holName_chars {name : String} (h : isHolIdentifier name = true) :
    name ≠ "" ∧ ∀ char ∈ name.toList, isAsciiLetter char = true ∨ isAsciiDigit char = true ∨ char = '_' ∨ char = '\'' := by
  unfold isHolIdentifier at h
  cases hname : name.toList with
  | nil =>
      rw [hname] at h
      cases h
  | cons first rest =>
      rw [hname] at h
      simp only [Bool.and_eq_true, Bool.or_eq_true, decide_eq_true_eq, List.all_eq_true] at h
      constructor
      · intro hempty
        rw [hempty] at hname
        cases hname
      · intro char hchar
        rcases List.mem_cons.mp hchar with rfl | hchar
        · exact h.1.imp_right fun hunder => .inr (.inl hunder)
        · rcases h.2 char hchar with ((hletter | hdigit) | hunder) | hprime
          · exact .inl hletter
          · exact .inr (.inl hdigit)
          · exact .inr (.inr (.inl hunder))
          · exact .inr (.inr (.inr hprime))

theorem not_isSpace_of_holName {name : String} (h : isHolIdentifier name = true) {char : Char}
    (hchar : char ∈ name.toList) : Text.isSpace char = false := by
  have hcode : 39 ≤ char.toNat ∧ char.toNat ≤ 122 := by
    rcases (holName_chars h).2 char hchar with hletter | hdigit | rfl | rfl
    · simp only [isAsciiLetter, Bool.or_eq_true, Bool.and_eq_true, decide_eq_true_eq, Char.le_def,
        UInt32.le_iff_toNat_le] at hletter
      have hbounds : 65 ≤ char.toNat ∧ char.toNat ≤ 90 ∨ 97 ≤ char.toNat ∧ char.toNat ≤ 122 := hletter
      omega
    · simp only [isAsciiDigit, Bool.and_eq_true, decide_eq_true_eq, Char.le_def, UInt32.le_iff_toNat_le] at hdigit
      have hbounds : 48 ≤ char.toNat ∧ char.toNat ≤ 57 := hdigit
      omega
    · decide
    · decide
  simp [Text.isSpace]
  omega

/-- A name is not stripped. -/
theorem strip_of_holName {name : String} (h : isHolIdentifier name = true) : Text.strip name.toList = name.toList :=
  Text.strip_eq_self (fun _ hchar => not_isSpace_of_holName h (List.mem_of_mem_head? hchar))
    fun _ hchar => not_isSpace_of_holName h (List.mem_of_getLast? hchar)

/-- A claim and its primed sibling share a slug. -/
theorem slugify_prime {name : String} (h : isHolIdentifier name = true) (fallback : String) :
    slugify (name ++ "'") fallback = slugify name fallback := by
  have hprimed : isHolIdentifier (name ++ "'") = true := by
    unfold isHolIdentifier at h ⊢
    rw [String.toList_append]
    cases hname : name.toList with
    | nil =>
        rw [hname] at h
        cases h
    | cons first rest =>
        rw [hname] at h
        simp only [Bool.and_eq_true, List.cons_append, List.all_append] at h ⊢
        exact ⟨h.1, h.2, by decide⟩
  have htext : (name ++ "'").toList = name.toList ++ ['\''] := String.toList_append
  unfold slugify
  rw [strip_of_holName hprimed, strip_of_holName h, htext, stripDashes_prime]

/-- A short name without primes is its own slug. -/
theorem slugify_plain {name : String} (h : isHolIdentifier name = true) (hprime : '\'' ∉ name.toList)
    (hshort : name.toList.length ≤ 80) (fallback : String) : slugify name fallback = name := by
  have hkept : ∀ char ∈ name.toList, isSlugChar char = true ∧ char ≠ '-' := by
    intro char hchar
    rcases (holName_chars h).2 char hchar with hletter | hdigit | rfl | rfl
    · refine ⟨by simp [isSlugChar, hletter], ?_⟩
      rintro rfl
      exact absurd hletter (by decide)
    · refine ⟨by simp [isSlugChar, hdigit], ?_⟩
      rintro rfl
      exact absurd hdigit (by decide)
    · decide
    · exact absurd hchar hprime
  have hdash : ∀ text : List Char, (∀ char ∈ text, isSlugChar char = true) → dashRuns false text = text := by
    intro text
    induction text with
    | nil => exact fun _ => rfl
    | cons char rest ih =>
        intro hall
        rw [dashRuns, if_pos (hall char List.mem_cons_self), ih fun other hother => hall other (List.mem_cons_of_mem _ hother)]
  have hstrip : stripDashes name.toList = name.toList := by
    unfold stripDashes
    rw [List.rdropWhile_eq_self_iff.mpr, List.dropWhile_eq_self_iff.mpr]
    · intro hlength hhead
      exact (hkept _ (List.getElem_mem hlength)).2 (of_decide_eq_true hhead)
    · intro hne hlast
      exact (hkept _ (List.getLast_mem hne)).2 (of_decide_eq_true hlast)
  unfold slugify
  rw [strip_of_holName h, hdash _ fun char hchar => (hkept char hchar).1, hstrip, List.take_of_length_le hshort]
  dsimp only
  rw [if_neg, String.ofList_toList]
  exact fun hnil => (holName_chars h).1 (String.toList_eq_nil_iff.mp hnil)

/-! ## Losing a document -/

/-- The claims that are probed are those with names, which are distinct. -/
theorem nodup_names_of_validated {claims selected : List Claim} (h : validatedClaims claims = .ok selected) :
    (selected.map Claim.nameText).Nodup := by
  have hselected := validatedClaims_eq h
  unfold validatedClaims at h
  dsimp only at h
  rw [← hselected] at h
  cases hfind : selected.find? fun claim => !isHolIdentifier claim.nameText with
  | some claim =>
      rw [hfind] at h
      cases h
  | none =>
      rw [hfind] at h
      dsimp only at h
      by_cases hduplicates : ((selected.map Claim.nameText).filter fun name =>
          1 < (selected.map Claim.nameText).count name).dedup = []
      · rw [List.nodup_iff_count_le_one]
        intro name
        by_contra hcount
        have hmem : name ∈ ((selected.map Claim.nameText).filter fun name =>
            1 < (selected.map Claim.nameText).count name).dedup := by
          rw [List.mem_dedup, List.mem_filter]
          exact ⟨List.count_pos_iff.mp (by omega), decide_eq_true (by omega)⟩
        rw [hduplicates] at hmem
        exact absurd hmem List.not_mem_nil
      · rw [if_neg hduplicates] at h
        cases h

section

variable {transcript : Bytes} {natural : String → List ℕ} {claims selected : List Claim} {rows : List ProbeRow}

/-- A document keeps the name of its claim. -/
theorem theorem_of_accounted (hnames : selected.map Claim.nameText = rows.map ProbeRow.name) :
    (List.zipWith (accountClaim transcript natural) selected rows).map ClaimDoc.theorem_ = selected.map Claim.name := by
  have hlength : selected.length = rows.length := by
    simpa using congrArg List.length hnames
  clear hnames
  induction selected generalizing rows with
  | nil => rfl
  | cons claim selected ih =>
      cases rows with
      | nil => cases hlength
      | cons row rows =>
          rw [List.zipWith_cons_cons, List.map_cons, List.map_cons, ih (Nat.succ.inj hlength)]
          rfl

theorem nodup_accounted (hselected : validatedClaims claims = .ok selected)
    (hnames : selected.map Claim.nameText = rows.map ProbeRow.name) :
    (List.zipWith (accountClaim transcript natural) selected rows).Nodup := by
  refine List.Nodup.of_map ClaimDoc.theorem_ ?_
  rw [theorem_of_accounted hnames]
  refine List.Nodup.of_map (·.getD "") ?_
  rw [List.map_map]
  exact nodup_names_of_validated hselected

/-- The files are named by the slugs of the claims. -/
theorem claimPaths_accounted (hselected : validatedClaims claims = .ok selected)
    (hnames : selected.map Claim.nameText = rows.map ProbeRow.name) (claimsDir : String) :
    (List.zipWith (accountClaim transcript natural) selected rows).map (claimPath claimsDir) =
      (claimSlugs claims).map fun slug => claimsDir ++ "/" ++ slug ++ ".json" := by
  have hpath : claimPath claimsDir = (fun name : Option String =>
      claimsDir ++ "/" ++ slugify ((name.filter (· ≠ "")).getD "claim") "claim" ++ ".json") ∘ ClaimDoc.theorem_ := rfl
  rw [hpath, ← List.map_map, theorem_of_accounted hnames, validatedClaims_eq hselected, claimSlugs, List.map_map,
    List.map_map]
  refine List.map_congr_left fun claim hclaim => ?_
  have hnamed := (List.mem_filter.mp hclaim).2
  cases hname : claim.name with
  | none =>
      rw [Claim.named, hname] at hnamed
      cases hnamed
  | some name =>
      rw [Claim.named, hname] at hnamed
      have hne : name ≠ "" := of_decide_eq_true hnamed
      have hfilter : (some name).filter (fun text => decide (text ≠ "")) = some name := by
        rw [Option.filter_some, if_pos (decide_eq_true hne)]
      show claimsDir ++ "/" ++ slugify ((claim.name.filter (· ≠ "")).getD "claim") "claim" ++ ".json" =
        claimsDir ++ "/" ++ slugify claim.nameText "claim" ++ ".json"
      rw [Claim.nameText, hname, hfilter]
      rfl

theorem nodup_claimPaths_iff (hselected : validatedClaims claims = .ok selected)
    (hnames : selected.map Claim.nameText = rows.map ProbeRow.name) (claimsDir : String) :
    ((List.zipWith (accountClaim transcript natural) selected rows).map (claimPath claimsDir)).Nodup ↔
      (claimSlugs claims).Nodup := by
  rw [claimPaths_accounted hselected hnames]
  refine List.nodup_map_iff fun first second h => ?_
  simpa using h

/-- What is written for the claims is lossless exactly when no two of them share a slug. -/
theorem lossless_iff (hselected : validatedClaims claims = .ok selected)
    (hnames : selected.map Claim.nameText = rows.map ProbeRow.name) (claimsDir : String) :
    Lossless ((List.zipWith (accountClaim transcript natural) selected rows).map (claimArtifact claimsDir))
        (writeClaimFiles claimsDir (List.zipWith (accountClaim transcript natural) selected rows)) ↔
      (claimSlugs claims).Nodup := by
  have hnodup : (List.zipWith (accountClaim transcript natural) selected rows).Nodup := nodup_accounted hselected hnames
  rw [← nodup_claimPaths_iff hselected hnames claimsDir]
  unfold Lossless writeClaimFiles
  rw [List.forall_mem_map]
  show (∀ doc ∈ _, List.lookup (claimPath claimsDir doc) _ = some (claimArtifact claimsDir doc)) ↔ _
  rw [lookup_foldl_setRow_iff]
  constructor
  · intro h
    refine hnodup.map_on fun first hfirst second hsecond hpath => ?_
    exact congrArg ClaimArtifact.doc (h first hfirst second hsecond hpath)
  · intro h first hfirst second hsecond hpath
    rw [List.inj_on_of_nodup_map h hfirst hsecond hpath]

end

/-- Claims with short names without primes lose nothing. -/
theorem nodup_claimSlugs_of_plain {claims selected : List Claim} (hselected : validatedClaims claims = .ok selected)
    (hplain : ∀ claim ∈ selected, isHolIdentifier claim.nameText = true ∧ '\'' ∉ claim.nameText.toList ∧
      claim.nameText.toList.length ≤ 80) : (claimSlugs claims).Nodup := by
  have hslugs : claimSlugs claims = selected.map Claim.nameText := by
    rw [claimSlugs, ← validatedClaims_eq hselected]
    refine List.map_congr_left fun claim hclaim => ?_
    obtain ⟨hname, hprime, hshort⟩ := hplain claim hclaim
    exact slugify_plain hname hprime hshort _
  rw [hslugs]
  exact nodup_names_of_validated hselected

/-- A cold run of an accepted probe writes one document for each of its claims. -/
theorem coldClaims_eq {sha256 : Bytes → String} {sourceBytes prefixBytes payload : Bytes} {claims : List Claim}
    {nonce : Option String} {token : String} {contract : Contract}
    (h : buildClaimProbe sha256 sourceBytes claims nonce token prefixBytes = .ok (payload, contract))
    (diagnostics : Diagnostics) (transcript : Bytes) (claimsDir : String) :
    ∃ selected natural, validatedClaims claims = .ok selected ∧
      selected.map Claim.nameText = contract.claims.map ProbeRow.name ∧
      coldClaims diagnostics claims transcript contract claimsDir =
        .ok ((List.zipWith (accountClaim transcript natural) selected contract.claims).map (claimArtifact claimsDir),
          writeClaimFiles claimsDir (List.zipWith (accountClaim transcript natural) selected contract.claims)) := by
  obtain ⟨selected, hselected, hnames⟩ := buildClaimProbe_claims h
  obtain ⟨natural, accounting, haccounts, -⟩ := accountClaims_eq diagnostics transcript hselected hnames
  refine ⟨selected, natural, hselected, hnames, ?_⟩
  unfold coldClaims
  rw [haccounts]
  rfl

/-- **The files of a cold run keep every claim exactly when no two claims share a slug.** -/
theorem claim_files_lossless_iff {sha256 : Bytes → String} {sourceBytes prefixBytes payload : Bytes}
    {claims : List Claim} {nonce : Option String} {token : String} {contract : Contract}
    (h : buildClaimProbe sha256 sourceBytes claims nonce token prefixBytes = .ok (payload, contract))
    (diagnostics : Diagnostics) (transcript : Bytes) (claimsDir : String) :
    ∃ artifacts files, coldClaims diagnostics claims transcript contract claimsDir = .ok (artifacts, files) ∧
      (Lossless artifacts files ↔ (claimSlugs claims).Nodup) ∧
      ((artifacts.map ClaimArtifact.claimJson).Nodup ↔ (claimSlugs claims).Nodup) := by
  obtain ⟨selected, natural, hselected, hnames, hcold⟩ := coldClaims_eq h diagnostics transcript claimsDir
  refine ⟨_, _, hcold, lossless_iff hselected hnames claimsDir, ?_⟩
  rw [List.map_map]
  exact nodup_claimPaths_iff hselected hnames claimsDir

/-! ## Two cold runs -/

/-- A binding without a literal statement. -/
def bareClaim (name : String) : Claim := ⟨some name, none, false, none, some 1, none⟩

def coldNonce : String := "00112233445566778899aabbccddeeff"

/-- Such claims are accepted by their names. -/
theorem bareProbe_ok (names : List String)
    (hnames : validatedClaims (names.map bareClaim) = .ok (names.map bareClaim)) :
    ∃ payload contract, buildClaimProbe (fun _ => "digest") (utf8 "1;;") (names.map bareClaim) (some coldNonce) "" [] =
      .ok (payload, contract) := by
  have hrows : ∀ (names : List String) (ordinal : ℕ), ∃ rows,
      probeClaims (fun _ => "digest") coldNonce ordinal (names.map bareClaim) = .ok rows := by
    intro names
    induction names with
    | nil => exact fun _ => ⟨[], rfl⟩
    | cons name names ih =>
        intro ordinal
        obtain ⟨rows, hrows⟩ := ih (ordinal + 1)
        exact ⟨_, bind_eq_ok.mpr ⟨_, rfl, bind_eq_ok.mpr ⟨rows, hrows, rfl⟩⟩⟩
  obtain ⟨rows, hrows⟩ := hrows names 0
  have hutf8 : decodesStrictly (utf8 "1;;") = true := by decide
  obtain ⟨payload, contract, hbuild, -⟩ := buildClaimProbe_accepts [] hutf8 hnames
    (show validatedNonce (some coldNonce) "" = .ok coldNonce by decide) hrows
  exact ⟨payload, contract, hbuild⟩

/-- Two claims with slugs of their own keep their files. -/
theorem claim_files_lossless_iff_plain : ∃ payload contract artifacts files,
    buildClaimProbe (fun _ => "digest") (utf8 "1;;") [bareClaim "ADD_SYM", bareClaim "ADD_SYM_ALT"] (some coldNonce) "" [] =
      .ok (payload, contract) ∧
    coldClaims ⟨fun _ _ _ => [], fun _ => none⟩ [bareClaim "ADD_SYM", bareClaim "ADD_SYM_ALT"] [] contract "claims" =
      .ok (artifacts, files) ∧
    Lossless artifacts files := by
  obtain ⟨payload, contract, hbuild⟩ := bareProbe_ok ["ADD_SYM", "ADD_SYM_ALT"] (by decide)
  obtain ⟨artifacts, files, hcold, hlossless, -⟩ :=
    claim_files_lossless_iff hbuild ⟨fun _ _ _ => [], fun _ => none⟩ [] "claims"
  exact ⟨payload, contract, artifacts, files, hbuild, hcold, hlossless.mpr (by decide)⟩

/-- A claim and its primed sibling are accepted, and one of them loses its document,
whatever the transcript. -/
theorem primed_claim_overwritten : ∃ payload contract,
    buildClaimProbe (fun _ => "digest") (utf8 "1;;") [bareClaim "ADD_SYM", bareClaim "ADD_SYM'"] (some coldNonce) "" [] =
      .ok (payload, contract) ∧
    ∀ diagnostics transcript claimsDir artifacts files,
      coldClaims diagnostics [bareClaim "ADD_SYM", bareClaim "ADD_SYM'"] transcript contract claimsDir =
        .ok (artifacts, files) → ¬ Lossless artifacts files := by
  have hvalidated : validatedClaims [bareClaim "ADD_SYM", bareClaim "ADD_SYM'"] =
      .ok [bareClaim "ADD_SYM", bareClaim "ADD_SYM'"] := by
    decide
  obtain ⟨payload, contract, hbuild⟩ := bareProbe_ok ["ADD_SYM", "ADD_SYM'"] hvalidated
  refine ⟨payload, contract, hbuild, ?_⟩
  intro diagnostics transcript claimsDir artifacts files hcold hlossless
  obtain ⟨selected, natural, hselected, hnames, heq⟩ := coldClaims_eq hbuild diagnostics transcript claimsDir
  cases hcold.symm.trans heq
  have hdistinct := (lossless_iff hselected hnames claimsDir).mp hlossless
  exact absurd hdistinct (by decide)

end Hearth.Replay
