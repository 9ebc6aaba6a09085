import Hearth.Diagnostics.LineNumbers
import Hearth.Diagnostics.Records
import Hearth.Library.Pointwise
import Hearth.Replay.Verdict

/-!
# Natural output and the status of a claim

`diagnostic_claim_lines` finds what the toplevel prints of a claim by itself.  It decides between two statuses only,
`printed_unprobed` and `missing`: what a claim's own markers say stands whatever else is printed, and other lines can
be added to a transcript without changing it.
-/

namespace Hearth.Replay

open Hearth.Library
open Hearth.Diagnostics

/-! ## `diagnostic_claim_lines` -/

/-- The characters that `\w` matches. -/
structure WordTable where
  isWord : Char → Bool
  ascii : ∀ c, c.toNat < 128 → isWord c = (isAsciiLetter c || isAsciiDigit c || c = '_')

theorem asciiWord_self (c : Char) (_ : c.toNat < 128) :
    (isAsciiLetter c || isAsciiDigit c || c = '_' : Bool) = (isAsciiLetter c || isAsciiDigit c || c = '_' : Bool) :=
  rfl

/-- The table in which nothing but ASCII is a word character. -/
def WordTable.asciiOnly : WordTable where
  isWord := fun c => isAsciiLetter c || isAsciiDigit c || c = '_'
  ascii := asciiWord_self

/-- The first characters of `HOL_CLAIM_NAME`. -/
def isNameStart (c : Char) : Bool :=
  isAsciiLetter c || c = '_'

/-- The other characters of `HOL_CLAIM_NAME`. -/
def isNameChar (c : Char) : Bool :=
  isAsciiLetter c || isAsciiDigit c || c = '_' || c = '\''

section

variable (table : WordTable)

/-- `\b` between two characters. -/
def isBoundary (previous next : Option Char) : Bool :=
  previous.any table.isWord != next.any table.isWord

/-- The keyword at a boundary, blanks, and a name: the name and what follows it.  The name is taken whole, since
nothing that may follow it continues one. -/
def keywordName (keyword : List Char) (previous : Option Char) (text : List Char) : Option (List Char × List Char) :=
  if isBoundary table previous text.head? ∧ keyword.isPrefixOf text then
    let after := text.drop keyword.length
    let named := after.dropWhile Text.isSpace
    if named.length < after.length ∧ named.head?.any isNameStart then
      some (named.takeWhile isNameChar, named.dropWhile isNameChar)
    else none
  else none

/-- The first pattern: a proved name. -/
def provedPattern (previous : Option Char) (text : List Char) : Option (List Char × List Char) :=
  keywordName table "proved".toList previous text

/-- The second pattern: a value of type `thm`. -/
def valPattern (previous : Option Char) (text : List Char) : Option (List Char × List Char) :=
  (keywordName table "val".toList previous text).bind fun (name, after) =>
    match after.dropWhile Text.isSpace with
    | ':' :: typed =>
        let ended := (typed.dropWhile Text.isSpace).drop 3
        if "thm".toList.isPrefixOf (typed.dropWhile Text.isSpace) ∧ isBoundary table (some 'm') ended.head? then
          some (name, ended)
        else none
    | _ => none

/-- `pattern.finditer(line)`: the names of the matches; `skip` characters belong to the last match. -/
def findNames (pattern : Option Char → List Char → Option (List Char × List Char)) :
    ℕ → Option Char → List Char → List (List Char)
  | _, _, [] => []
  | skip + 1, _, char :: rest => findNames pattern skip (some char) rest
  | 0, previous, char :: rest =>
      match pattern previous (char :: rest) with
      | some (name, after) => name :: findNames pattern (rest.length - after.length) (some char) rest
      | none => findNames pattern 0 (some char) rest

/-- The names that a line shows, pattern by pattern. -/
def shownNames (line : List Char) : List (List Char) :=
  findNames (provedPattern table) 0 none line ++ findNames (valPattern table) 0 none line

/-- The numbers of the lines that show `name`, one for each match. -/
def linesShowing (lines : List (List Char)) (name : String) : List ℕ :=
  (lines.zipIdx 1).flatMap fun (line, index) => ((shownNames table line).filter (· = name.toList)).map fun _ => index

/-- `diagnostic_claim_lines`, for the requested names. -/
def diagnosticClaimLines (transcript : Bytes) (names : List String) (name : String) : List ℕ :=
  if name ∈ names then linesShowing table (textLines transcript) name else []

/-- The diagnostics of `account_claims`. -/
def naturalOutput (firstError : Bytes → Option (ℕ × String)) : Diagnostics where
  claimLines := diagnosticClaimLines table
  firstError := firstError

/-- The bytes print a line that shows the name. -/
def Shows (raw : Bytes) (name : String) : Prop :=
  ∃ line ∈ textLines raw, name.toList ∈ shownNames table line

end

/-! ## Markers -/

/-- The two kinds of markers of a claim. -/
inductive MarkerKind
  | ok | mismatch
  deriving DecidableEq, Repr

/-- The line that a claim prints. -/
def claimMarker (token : String) : MarkerKind × ℕ → Bytes
  | (.ok, ordinal) => utf8 (okMarker token ordinal)
  | (.mismatch, ordinal) => utf8 (mismatchMarker token ordinal)

/-- A line is one that the contract counts. -/
def Contract.isMarker (contract : Contract) (line : Bytes) : Bool :=
  line = utf8 contract.completionMarker || contract.claims.any fun row =>
    line = utf8 row.okMarker || line = utf8 row.mismatchMarker

theorem toByteArray_utf8 (text : String) : (⟨(utf8 text).toArray⟩ : ByteArray) = text.toByteArray := by
  have hencode : (⟨(utf8 text).toArray⟩ : ByteArray) = text.toList.utf8Encode := by
    apply ByteArray.ext
    exact List.data_toByteArray.symm
  rw [hencode, ← String.toByteArray_ofList, String.ofList_toList]

theorem utf8_injective {first second : String} (h : utf8 first = utf8 second) : first = second := by
  apply String.toByteArray_inj.mp
  rw [← toByteArray_utf8, h, toByteArray_utf8]

theorem zeroPadded_injective {width one other : ℕ} (h : zeroPadded width one = zeroPadded width other) : one = other := by
  have hvalue : ∀ value, Nat.ofDigitChars 10 (zeroPadded width value).toList 0 = value := by
    intro value
    unfold zeroPadded
    rw [String.toList_append, String.toList_ofList, Nat.ofDigitChars_append, Nat.ofDigitChars_replicate_zero,
      Nat.mul_zero]
    have hdigits : (toString value).toList = Nat.toDigits 10 value := Nat.toList_repr
    rw [hdigits, Nat.ofDigitChars_ten_toDigits]
  rw [← hvalue one, h, hvalue]

/-- Markers of different kinds begin differently. -/
theorem okMarker_ne_mismatchMarker (token : String) (one other : ℕ) : okMarker token one ≠ mismatchMarker token other := by
  intro h
  have hchars := congrArg String.toList h
  simp only [okMarker, mismatchMarker, String.toList_append, List.append_assoc] at hchars
  have hlength : probeOkPrefix.toList.length = probeMismatchPrefix.toList.length := by decide
  exact absurd (List.append_inj_left hchars hlength) (by decide)

/-- No two claims share a marker, and no claim has one marker for both outcomes. -/
theorem claimMarker_injective (token : String) : Function.Injective (claimMarker token) := by
  rintro ⟨kind, one⟩ ⟨kind', other⟩ h
  cases kind with
  | ok =>
      cases kind' with
      | ok => rw [zeroPadded_injective ((String.append_right_inj _).mp (utf8_injective h))]
      | mismatch => exact absurd (utf8_injective h) (okMarker_ne_mismatchMarker token one other)
  | mismatch =>
      cases kind' with
      | ok => exact absurd (utf8_injective h).symm (okMarker_ne_mismatchMarker token other one)
      | mismatch => rw [zeroPadded_injective ((String.append_right_inj _).mp (utf8_injective h))]

theorem probeClaim_markers {sha256 : Bytes → String} {token : String} {claim : Claim} {ordinal : ℕ}
    {row : String × ProbeRow} (h : probeClaim sha256 token claim ordinal = .ok row) :
    row.2.okMarker = okMarker token ordinal ∧ row.2.mismatchMarker = mismatchMarker token ordinal := by
  unfold probeClaim at h
  simp only at h
  split at h
  · split at h
    · nomatch h
    · split at h
      · nomatch h
      · rw [← Except.ok.inj h]
        exact ⟨rfl, rfl⟩
  · rw [← Except.ok.inj h]
    exact ⟨rfl, rfl⟩

/-- The rows print the markers of their positions. -/
theorem probeClaims_markers {sha256 : Bytes → String} {token : String} {claims : List Claim} {ordinal : ℕ}
    {rows : List (String × ProbeRow)} (h : probeClaims sha256 token ordinal claims = .ok rows) {index : ℕ} {row : ProbeRow}
    (hrow : (rows.map Prod.snd)[index]? = some row) :
    utf8 row.okMarker = claimMarker token (.ok, ordinal + index) ∧
      utf8 row.mismatchMarker = claimMarker token (.mismatch, ordinal + index) := by
  induction claims generalizing ordinal rows index with
  | nil =>
      rw [← Except.ok.inj h] at hrow
      cases hrow
  | cons claim rest ih =>
      simp only [probeClaims, bind_eq_ok, pure_eq_ok] at h
      obtain ⟨first, hfirst, others, hrest, rfl⟩ := h
      cases index with
      | zero =>
          obtain rfl : first.2 = row := Option.some.inj hrow
          obtain ⟨hok, hmismatch⟩ := probeClaim_markers hfirst
          rw [hok, hmismatch]
          exact ⟨rfl, rfl⟩
      | succ index =>
          rw [List.map_cons, List.getElem?_cons_succ] at hrow
          rw [← Nat.succ_add_eq_add_succ]
          exact ih hrest hrow

/-- The contract prints, for each claim, the two markers of its position. -/
theorem buildClaimProbe_markers {sha256 : Bytes → String} {sourceBytes prefixBytes payload : Bytes}
    {claims : List Claim} {nonce : Option String} {token : String} {contract : Contract}
    (h : buildClaimProbe sha256 sourceBytes claims nonce token prefixBytes = .ok (payload, contract)) {index : ℕ}
    {row : ProbeRow} (hrow : contract.claims[index]? = some row) :
    utf8 row.okMarker = claimMarker contract.nonce (.ok, index) ∧
      utf8 row.mismatchMarker = claimMarker contract.nonce (.mismatch, index) := by
  simp only [buildClaimProbe, guard_eq_ok, bind_eq_ok, pure_eq_ok, Prod.mk.injEq] at h
  obtain ⟨-, selected, hselected, token', -, rows, hrows, -, hcontract⟩ := h
  rw [← hcontract] at hrow ⊢
  have hmarkers := probeClaims_markers hrows hrow
  rw [Nat.zero_add] at hmarkers
  exact hmarkers

/-! ## The status of one claim -/

/-- What a status says of a claim with `ok` lines of its own and `mismatch` lines that say otherwise, and with or without
natural output. -/
structure StatusSpec (ok mismatch : ℕ) (shown : Prop) (status : ClaimStatus) : Prop where
  proved : status = .proved ↔ ok = 1 ∧ mismatch = 0
  failed : status = .failed ↔ 1 ≤ mismatch ∨ 1 < ok
  printed : status = .printedUnprobed ↔ (ok = 0 ∧ mismatch = 0) ∧ shown
  missing : status = .missing ↔ (ok = 0 ∧ mismatch = 0) ∧ ¬ shown

/-- The status that the lines of the transcript give to the claim of one row. -/
def RowStatus (table : WordTable) (transcript : Bytes) (row : ProbeRow) (status : ClaimStatus) : Prop :=
  StatusSpec ((splitLines transcript).count (utf8 row.okMarker)) ((splitLines transcript).count (utf8 row.mismatchMarker))
    (Shows table transcript row.name) status

/-- The status in terms of the numbers of lines. -/
theorem claimOutcome_status (okLines mismatchLines : List ℕ) (kind : VerificationKind) (printed : Bool) :
    (claimOutcome okLines mismatchLines kind printed).1 =
      if okLines.length = 1 ∧ mismatchLines.length = 0 then .proved
      else if 1 ≤ mismatchLines.length ∨ 1 < okLines.length then .failed
      else if printed then .printedUnprobed else .missing := by
  unfold claimOutcome
  simp only [← List.length_eq_zero_iff, ne_eq]
  by_cases hproved : okLines.length = 1 ∧ mismatchLines.length = 0
  · rw [if_pos hproved, if_pos hproved]
  · rw [if_neg hproved, if_neg hproved]
    by_cases hfailed : 1 ≤ mismatchLines.length ∨ 1 < okLines.length
    · rw [if_pos hfailed]
      split
      · rfl
      · rw [if_pos (by omega)]
    · rw [if_neg hfailed, if_neg (by omega), if_neg (by omega)]
      split <;> rfl

theorem diagnosticClaimLines_ne_nil {table : WordTable} {transcript : Bytes} {names : List String} {name : String}
    (h : name ∈ names) : diagnosticClaimLines table transcript names name ≠ [] ↔ Shows table transcript name := by
  unfold diagnosticClaimLines
  rw [if_pos h]
  unfold Shows linesShowing
  constructor
  · intro hne
    obtain ⟨number, hnumber⟩ := List.exists_mem_of_ne_nil _ hne
    obtain ⟨⟨line, index⟩, hline, hmatch⟩ := List.mem_flatMap.mp hnumber
    obtain ⟨shown, hshown, -⟩ := List.mem_map.mp hmatch
    obtain ⟨hmem, hname⟩ := List.mem_filter.mp hshown
    exact ⟨line, (List.mem_zipIdx hline).2.2 ▸ List.getElem_mem _, of_decide_eq_true hname ▸ hmem⟩
  · rintro ⟨line, hline, hshown⟩
    obtain ⟨index, hindex, rfl⟩ := List.getElem_of_mem hline
    refine List.ne_nil_of_mem (a := 1 + index) (List.mem_flatMap.mpr ⟨((textLines transcript)[index], 1 + index), ?_, ?_⟩)
    · exact List.mk_add_mem_zipIdx_iff_getElem?.mpr (List.getElem?_eq_getElem hindex)
    · exact List.mem_map.mpr ⟨name.toList, List.mem_filter.mpr ⟨hshown, decide_eq_true rfl⟩, rfl⟩

theorem statusSpec_ite {ok mismatch : ℕ} {shown : Prop} {printed : Bool} (h : printed = true ↔ shown) :
    StatusSpec ok mismatch shown (if ok = 1 ∧ mismatch = 0 then .proved else if 1 ≤ mismatch ∨ 1 < ok then .failed
      else if printed then .printedUnprobed else .missing) := by
  by_cases hproved : ok = 1 ∧ mismatch = 0
  · rw [if_pos hproved]
    obtain ⟨rfl, rfl⟩ := hproved
    constructor <;> simp
  · rw [if_neg hproved]
    by_cases hfailed : 1 ≤ mismatch ∨ 1 < ok
    · rw [if_pos hfailed]
      have hmarked : ¬ (ok = 0 ∧ mismatch = 0) := by omega
      constructor <;> simp only [reduceCtorEq, hproved, hfailed, hmarked, false_and]
    · rw [if_neg hfailed]
      have hunmarked : ok = 0 ∧ mismatch = 0 := by omega
      cases printed with
      | true =>
          obtain ⟨rfl, rfl⟩ := hunmarked
          constructor <;> simp [h.mp rfl]
      | false =>
          have hshown : ¬ shown := fun hshown => Bool.false_ne_true (h.mpr hshown)
          obtain ⟨rfl, rfl⟩ := hunmarked
          constructor <;> simp [hshown]

/-- One claim is accounted as its lines and its natural output say. -/
theorem accountClaim_status {table : WordTable} {transcript : Bytes} {names : List String} {claim : Claim}
    {row : ProbeRow} (hname : claim.nameText = row.name) (hmem : row.name ∈ names) :
    RowStatus table transcript row
      (accountClaim transcript (diagnosticClaimLines table transcript names) claim row).status := by
  have hstatus : (accountClaim transcript (diagnosticClaimLines table transcript names) claim row).status = _ :=
    claimOutcome_status _ _ row.verificationKind _
  rw [markerLines_length, markerLines_length, hname] at hstatus
  rw [hstatus]
  exact statusSpec_ite (decide_eq_true_iff.trans (diagnosticClaimLines_ne_nil hmem))

/-- The documents of an accounting, row by row. -/
theorem accountClaim_forall₂ {table : WordTable} {transcript : Bytes} {names : List String} {selected : List Claim}
    {rows : List ProbeRow} (hnames : selected.map Claim.nameText = rows.map ProbeRow.name)
    (hmem : ∀ row ∈ rows, row.name ∈ names) :
    List.Forall₂ (fun row doc => RowStatus table transcript row doc.status) rows
      (List.zipWith (accountClaim transcript (diagnosticClaimLines table transcript names)) selected rows) := by
  induction rows generalizing selected with
  | nil =>
      rw [List.zipWith_nil_right]
      exact .nil
  | cons row rows ih =>
      obtain ⟨claim, rest, rfl⟩ := List.exists_cons_of_length_pos (l := selected) (by
        have hlength := congrArg List.length hnames
        simp only [List.length_map, List.length_cons] at hlength
        omega)
      rw [List.map_cons, List.map_cons, List.cons.injEq] at hnames
      rw [List.zipWith_cons_cons]
      exact .cons (accountClaim_status hnames.1 (hmem row (.head _))) (ih hnames.2 fun other h => hmem other (.tail _ h))

/-! ## Inserted lines -/

theorem Shows.append {table : WordTable} {name : String} {first rest raw : Bytes}
    (h : textLines raw = textLines first ++ textLines rest) :
    Shows table raw name ↔ Shows table first name ∨ Shows table rest name := by
  unfold Shows
  rw [h]
  simp only [List.mem_append, or_and_right, exists_or]

theorem shownNames_nil (table : WordTable) : shownNames table [] = [] := rfl

/-- A line end that is appended ends the last line or is a line of its own. -/
theorem splitlines_append_ending {text ending : List Char} (htext : ∀ char ∈ text, char ≠ '\r')
    (hending : Text.splitlines ending = [[]]) : Text.splitlines (text ++ ending) = Text.splitlines text ∨
      Text.splitlines (text ++ ending) = Text.splitlines text ++ [[]] := by
  induction text with
  | nil => exact .inr hending
  | cons char text ih =>
      have hchar : char ≠ '\r' := htext char (.head _)
      rw [List.cons_append, Text.splitlines_cons fun h => hchar h.1, Text.splitlines_cons fun h => hchar h.1]
      have hrest := ih fun other hmem => htext other (.tail _ hmem)
      split
      · exact hrest.imp (congrArg ([] :: ·)) (congrArg ([] :: ·))
      · by_cases hnil : text = []
        · left
          rw [hnil, List.nil_append, hending]
          rfl
        · refine hrest.imp (congrArg (Text.pushFront char)) fun heq => ?_
          rw [heq, Text.pushFront_append _ (Text.splitlines_ne_nil hnil)]

/-- The end of a line shows nothing. -/
theorem shows_line {table : WordTable} {name : String} {content ending : Bytes} (hcontent : OneLine content)
    (hending : ending ∈ lineEnds) : Shows table (content ++ ending) name ↔ Shows table content name := by
  have hchars := decodeFrom_oneLine pendingSound_none hcontent
  have hdecoded := decodeFrom_line content hending []
  have hlines : Text.splitlines (ending.map fun byte => Char.ofNat byte.toNat) = [[]] := by
    simp only [lineEnds, List.mem_cons, List.not_mem_nil, or_false] at hending
    rcases hending with rfl | rfl | rfl <;> decide
  have hnone : decodeFrom none [] = [] := rfl
  rw [List.append_nil, hnone, List.append_nil] at hdecoded
  unfold Shows textLines
  rw [hdecoded]
  rcases splitlines_append_ending (fun char hchar => (hchars char hchar).2) hlines with heq | heq
  · rw [heq]
  · rw [heq]
    simp [shownNames_nil, or_and_right, exists_or]

theorem rdropWhile_ending {ending : Bytes} (h : ending ∈ lineEnds) (content : Bytes) :
    (content ++ ending).rdropWhile isLineEnd = content.rdropWhile isLineEnd := by
  simp only [lineEnds, List.mem_cons, List.not_mem_nil, or_false] at h
  rcases h with rfl | rfl | rfl
  · exact List.rdropWhile_concat_pos _ _ _ rfl
  · exact List.rdropWhile_concat_pos _ _ _ rfl
  · rw [List.append_cons, List.rdropWhile_concat_pos _ _ _ rfl, List.rdropWhile_concat_pos _ _ _ rfl]

theorem rdropWhile_content {content : Bytes} (h : OneLine content) : content.rdropWhile isLineEnd = content := by
  rw [← rdropWhile_ending (List.mem_cons_self ..) content]
  exact rdropWhile_oneLine h

theorem splitLines_line {content ending rest : Bytes} (hcontent : OneLine content) (hending : ending ∈ lineEnds)
    (hreturn : ending = [13] → rest.head? ≠ some 10) :
    splitLines (content ++ ending ++ rest) = content :: splitLines rest := by
  rw [splitLines_eq, lineRanges_line hcontent hending hreturn, List.map_cons, ← splitLines_eq,
    rdropWhile_ending hending, rdropWhile_content hcontent]

theorem splitLines_last {content : Bytes} (hcontent : OneLine content) (hne : content ≠ []) :
    splitLines content = [content] := by
  have hlines := (InLines.last hcontent hne).lineRanges_flatten
  rw [List.flatten_cons, List.flatten_nil, List.append_nil] at hlines
  rw [splitLines_eq, hlines, List.map_cons, List.map_nil, rdropWhile_content hcontent]

/-- A transcript shows what its lines show. -/
theorem shows_iff {table : WordTable} {name : String} (raw : Bytes) :
    Shows table raw name ↔ ∃ line ∈ splitLines raw, Shows table line name := by
  obtain ⟨hlines, hflatten⟩ := lineRanges_inLines raw
  generalize lineRanges raw = lines at hlines hflatten
  subst hflatten
  induction hlines with
  | nil => simp [Shows, textLines, splitLines, splitLinesFrom, decodeFrom, Text.splitlines]
  | last hcontent hne =>
      rw [List.flatten_cons, List.flatten_nil, List.append_nil, splitLines_last hcontent hne]
      simp
  | cons hcontent hending hreturn hrest ih =>
      rw [List.flatten_cons, splitLines_line hcontent hending hreturn,
        Shows.append (textLines_line hcontent hending hreturn), shows_line hcontent hending, ih]
      simp

/-- The second transcript is the first with further lines between, in front of and behind its own, none of which is a
marker of the contract. -/
def Inserts (contract : Contract) (transcript longer : Bytes) : Prop :=
  (splitLines transcript).Sublist (splitLines longer) ∧
    (splitLines longer).filter contract.isMarker = (splitLines transcript).filter contract.isMarker

theorem Inserts.count_eq {contract : Contract} {transcript longer : Bytes} (h : Inserts contract transcript longer)
    {marker : Bytes} (hmarker : contract.isMarker marker = true) :
    (splitLines longer).count marker = (splitLines transcript).count marker := by
  rw [← List.count_filter hmarker, h.2, List.count_filter hmarker]

theorem Inserts.shows {contract : Contract} {transcript longer : Bytes} (h : Inserts contract transcript longer)
    {table : WordTable} {name : String} (hshows : Shows table transcript name) : Shows table longer name := by
  obtain ⟨line, hline, hname⟩ := (shows_iff transcript).mp hshows
  exact (shows_iff longer).mpr ⟨line, h.1.subset hline, hname⟩

theorem isMarker_row {contract : Contract} {row : ProbeRow} (h : row ∈ contract.claims) :
    contract.isMarker (utf8 row.okMarker) = true ∧ contract.isMarker (utf8 row.mismatchMarker) = true := by
  unfold Contract.isMarker
  simp only [Bool.or_eq_true, List.any_eq_true, decide_eq_true_eq]
  exact ⟨.inr ⟨row, h, .inl rfl⟩, .inr ⟨row, h, .inr rfl⟩⟩

/-- What inserted lines can change: a claim without marker lines is printed. -/
def StatusAfter (table : WordTable) (longer : Bytes) (row : ProbeRow) (before after : ClaimStatus) : Prop :=
  after = before ∨ before = .missing ∧ after = .printedUnprobed ∧ Shows table longer row.name

/-- The same marker lines give the same status, up to natural output. -/
theorem StatusSpec.after {ok mismatch : ℕ} {shown shown' : Prop} {before after : ClaimStatus}
    (hbefore : StatusSpec ok mismatch shown before) (hafter : StatusSpec ok mismatch shown' after)
    (hshown : shown → shown') : after = before ∨ before = .missing ∧ after = .printedUnprobed ∧ shown' := by
  cases before with
  | proved => exact .inl (hafter.proved.mpr (hbefore.proved.mp rfl))
  | failed => exact .inl (hafter.failed.mpr (hbefore.failed.mp rfl))
  | printedUnprobed =>
      obtain ⟨hunmarked, hshows⟩ := hbefore.printed.mp rfl
      exact .inl (hafter.printed.mpr ⟨hunmarked, hshown hshows⟩)
  | missing =>
      obtain ⟨hunmarked, -⟩ := hbefore.missing.mp rfl
      by_cases hshows : shown'
      · exact .inr ⟨rfl, hafter.printed.mpr ⟨hunmarked, hshows⟩, hshows⟩
      · exact .inl (hafter.missing.mpr ⟨hunmarked, hshows⟩)

/-- Inserted lines that are no markers change the status of no claim, but that of one without markers that they print. -/
theorem Inserts.statusAfter {contract : Contract} {transcript longer : Bytes} (h : Inserts contract transcript longer)
    {table : WordTable} {row : ProbeRow} (hrow : row ∈ contract.claims) {before after : ClaimStatus}
    (hbefore : RowStatus table transcript row before) (hafter : RowStatus table longer row after) :
    StatusAfter table longer row before after := by
  obtain ⟨hok, hmismatch⟩ := isMarker_row hrow
  unfold RowStatus at hafter
  rw [h.count_eq hok, h.count_eq hmismatch] at hafter
  exact hbefore.after hafter h.shows

/-! ## Every interleaving -/

/-- The accounting of a transcript against the contract of its claims. -/
theorem accountClaims_natural {table : WordTable} {firstError : Bytes → Option (ℕ × String)}
    {claims selected : List Claim} (transcript : Bytes) {contract : Contract}
    (hselected : validatedClaims claims = .ok selected)
    (hnames : selected.map Claim.nameText = contract.claims.map ProbeRow.name) :
    ∃ docs accounting, accountClaims (naturalOutput table firstError) claims transcript contract = .ok (docs, accounting) ∧
      List.Forall₂ (fun row doc => RowStatus table transcript row doc.status) contract.claims docs := by
  unfold accountClaims
  simp only [hselected, hnames, bind, Except.bind, ne_eq, not_true_eq_false, if_false, pure, Except.pure, Except.ok.injEq,
    Prod.mk.injEq]
  exact ⟨_, _, ⟨rfl, rfl⟩, accountClaim_forall₂ hnames fun row hrow => List.mem_map_of_mem hrow⟩

/-- **The accounting of a claim probe.**  Markers differ in their ordinal or their kind; the status of each claim is what
its own marker lines say, and its natural output decides only between the two statuses of a claim without such lines;
lines that are inserted and no markers change nothing but that. -/
theorem claim_accounting {sha256 : Bytes → String} {sourceBytes prefixBytes payload : Bytes} {claims : List Claim}
    {nonce : Option String} {token : String} {contract : Contract}
    (hbuild : buildClaimProbe sha256 sourceBytes claims nonce token prefixBytes = .ok (payload, contract))
    (table : WordTable) (firstError : Bytes → Option (ℕ × String)) :
    Function.Injective (claimMarker contract.nonce) ∧
      (∀ index row, contract.claims[index]? = some row →
        utf8 row.okMarker = claimMarker contract.nonce (.ok, index) ∧
          utf8 row.mismatchMarker = claimMarker contract.nonce (.mismatch, index)) ∧
      ∀ transcript, ∃ docs accounting,
        accountClaims (naturalOutput table firstError) claims transcript contract = .ok (docs, accounting) ∧
          List.Forall₂ (fun row doc => RowStatus table transcript row doc.status) contract.claims docs ∧
          ∀ longer, Inserts contract transcript longer → ∃ docs' accounting',
            accountClaims (naturalOutput table firstError) claims longer contract = .ok (docs', accounting') ∧
              ∀ (index : ℕ) (row : ProbeRow) (doc doc' : ClaimDoc), contract.claims[index]? = some row →
                docs[index]? = some doc → docs'[index]? = some doc' →
                StatusAfter table longer row doc.status doc'.status := by
  refine ⟨claimMarker_injective contract.nonce, fun index row => buildClaimProbe_markers hbuild, fun transcript => ?_⟩
  obtain ⟨selected, hselected, hnames⟩ := buildClaimProbe_claims hbuild
  obtain ⟨docs, accounting, haccount, hdocs⟩ := accountClaims_natural transcript hselected hnames
  refine ⟨docs, accounting, haccount, hdocs, fun longer hinserts => ?_⟩
  obtain ⟨docs', accounting', haccount', hdocs'⟩ := accountClaims_natural longer hselected hnames
  refine ⟨docs', accounting', haccount', fun index row doc doc' hrow hdoc hdoc' => ?_⟩
  have hbefore : RowStatus table transcript row doc.status := rel_of_getElem? hdocs hrow hdoc
  have hafter : RowStatus table longer row doc'.status := rel_of_getElem? hdocs' hrow hdoc'
  exact hinserts.statusAfter (List.mem_of_getElem? hrow) hbefore hafter

/-- The row of the one claim of a sample probe. -/
def sampleRow : ProbeRow :=
  ⟨0, "TWO_TIMES_TWO", okMarker sampleNonce 0, mismatchMarker sampleNonce 0, .bindingAndThmTypeOnlyNonliteralStatement, none⟩

/-- The line that the toplevel prints of the claim. -/
def sampleNatural : Bytes :=
  utf8 "val TWO_TIMES_TWO : thm\n"

theorem sampleBuild_ok : ∃ payload contract,
    buildClaimProbe (fun _ => "digest") (utf8 "1;;") [sampleClaim] (some sampleNonce) "" [] = .ok (payload, contract) ∧
      contract.completionMarker = completionMarker sampleNonce ∧ contract.claims = [sampleRow] := by
  have hutf8 : decodesStrictly (utf8 "1;;") = true := by decide
  have hselected : validatedClaims [sampleClaim] = .ok [sampleClaim] := by decide
  have htoken : validatedNonce (some sampleNonce) "" = .ok sampleNonce := by decide
  obtain ⟨line, hrows⟩ : ∃ line, probeClaims (fun _ => "digest") sampleNonce 0 [sampleClaim] = .ok [(line, sampleRow)] :=
    ⟨_, rfl⟩
  obtain ⟨payload, contract, hbuild, -, hmarker, hclaims⟩ := buildClaimProbe_accepts [] hutf8 hselected htoken hrows
  exact ⟨payload, contract, hbuild, hmarker, hclaims⟩

theorem sample_doc {table : WordTable} {transcript : Bytes} {docs : List ClaimDoc}
    (h : List.Forall₂ (fun row doc => RowStatus table transcript row doc.status) [sampleRow] docs) :
    ∃ doc, docs = [doc] ∧ RowStatus table transcript sampleRow doc.status := by
  obtain ⟨doc, rest, hdoc, hrest, rfl⟩ := List.forall₂_cons_left_iff.mp h
  rw [List.forall₂_nil_left_iff.mp hrest]
  exact ⟨doc, rfl, hdoc⟩

/-- A claim that was missing is printed once another line shows it. -/
theorem natural_output_changes_status : ∃ payload contract,
    buildClaimProbe (fun _ => "digest") (utf8 "1;;") [sampleClaim] (some sampleNonce) "" [] = .ok (payload, contract) ∧
      Inserts contract [] sampleNatural ∧ ∃ docs docs' accounting accounting',
        accountClaims (naturalOutput .asciiOnly fun _ => none) [sampleClaim] [] contract = .ok (docs, accounting) ∧
          accountClaims (naturalOutput .asciiOnly fun _ => none) [sampleClaim] sampleNatural contract =
            .ok (docs', accounting') ∧
          docs.map ClaimDoc.status = [.missing] ∧ docs'.map ClaimDoc.status = [.printedUnprobed] := by
  obtain ⟨payload, contract, hbuild, hmarker, hclaims⟩ := sampleBuild_ok
  have hselected : validatedClaims [sampleClaim] = .ok [sampleClaim] := by decide
  have hnames : [sampleClaim].map Claim.nameText = contract.claims.map ProbeRow.name := by
    rw [hclaims]
    rfl
  refine ⟨payload, contract, hbuild, ⟨List.nil_sublist _, ?_⟩, ?_⟩
  · unfold Contract.isMarker
    rw [hmarker, hclaims]
    decide +kernel
  · obtain ⟨docs, accounting, haccount, hdocs⟩ := accountClaims_natural [] hselected hnames
    obtain ⟨docs', accounting', haccount', hdocs'⟩ := accountClaims_natural sampleNatural hselected hnames
    refine ⟨docs, docs', accounting, accounting', haccount, haccount', ?_, ?_⟩
    · obtain ⟨doc, rfl, hstatus⟩ := sample_doc (hclaims ▸ hdocs)
      rw [List.map_singleton, hstatus.missing.mpr ⟨by decide, by rintro ⟨line, hline, -⟩; nomatch hline⟩]
    · obtain ⟨doc, rfl, hstatus⟩ := sample_doc (hclaims ▸ hdocs')
      have hshown : Shows .asciiOnly sampleNatural sampleRow.name := by
        refine ⟨"val TWO_TIMES_TWO : thm".toList, ?_, ?_⟩ <;> decide +kernel
      rw [List.map_singleton, hstatus.printed.mpr ⟨by decide +kernel, hshown⟩]

/-- The accounting of the sample transcript. -/
theorem sample_claim_accounting : ∃ payload contract docs accounting,
    buildClaimProbe (fun _ => "digest") (utf8 "1;;") [sampleClaim] (some sampleNonce) "" [] = .ok (payload, contract) ∧
      accountClaims (naturalOutput .asciiOnly fun _ => none) [sampleClaim] sampleTranscript contract =
        .ok (docs, accounting) ∧ docs.map ClaimDoc.status = [.proved] := by
  obtain ⟨payload, contract, hbuild, hmarker, hclaims⟩ := sampleBuild_ok
  obtain ⟨-, -, haccounts⟩ := claim_accounting hbuild .asciiOnly fun _ => none
  obtain ⟨docs, accounting, haccount, hdocs, -⟩ := haccounts sampleTranscript
  refine ⟨payload, contract, docs, accounting, hbuild, haccount, ?_⟩
  obtain ⟨doc, rfl, hstatus⟩ := sample_doc (hclaims ▸ hdocs)
  rw [List.map_singleton, hstatus.proved.mpr (by decide +kernel)]

end Hearth.Replay
