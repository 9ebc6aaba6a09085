import Hearth.Library.Pointwise
import Hearth.Loader.Masking
import Hearth.Loader.Quotations
import Hearth.Loader.Shadows

/-!
# The claim inventory

`extract_hol_theorems_text`: the theorems that two patterns find in a masked source, at the starts of the phrases that
`scan_claim_binding_starts` reads with the strict lexer.  The two readings of the source are compared phrase by phrase.
-/

namespace Hearth.Loader

open Hearth.Library
open Hearth.Replay (isAsciiLetter)

/-! ## Standalone phrases -/

/-- The loop over the tokens behind the equals sign of a phrase. -/
def standaloneFrom (depth blocks : ℤ) : List Token → Bool
  | [] => true
  | token :: rest =>
      if token.kind.closer.isSome then standaloneFrom (depth + 1) blocks rest
      else if token.kind.isClose then standaloneFrom (depth - 1) blocks rest
      else if token.isIdent ["begin", "struct", "sig", "object"] then standaloneFrom depth (blocks + 1) rest
      else if token.isIdent ["end"] then standaloneFrom depth (blocks - 1) rest
      else if depth = 0 ∧ blocks = 0 ∧ token.isIdent ["let", "in", "and"] then false
      else standaloneFrom depth blocks rest

/-- A phrase that `scan_claim_binding_starts` keeps. -/
def isStandalone (phrase : List Token) : Bool :=
  match phrase with
  | opening :: named :: equals :: rest =>
      5 ≤ phrase.length && opening.isIdent ["let"] && named.kind = .ident && equals.value = "=" &&
        standaloneFrom 0 0 rest
  | _ => false

/-- `phrase[0].span.start`. -/
def phraseStart (phrase : List Token) : ℕ :=
  (phrase.head?.map fun opening => opening.span.start).getD 0

/-- `scan_claim_binding_starts`, or the message of its error. -/
def scanClaimBindingStarts (tables : UnicodeTables) (source : Bytes) : Except String (List ℕ) :=
  let checked := scanOcamlLoaders tables source
  if checked.status ≠ .ok then
    .error ("claim inventory lexical refusal: " ++ (checked.refusal.map LoaderScanRefusal.reason).getD "")
  else
    match (lexedTokens tables source).bind topLevelPhrases with
    | none => .error "claim inventory cannot delimit top-level source blocks"
    | some phrases => .ok ((phrases.filter isStandalone).map phraseStart)

/-! ## The inventory -/

/-- The pattern that found a claim. -/
inductive ClaimKind
  | prove
  | directRule
  deriving DecidableEq, Repr

/-- A row of the inventory, without the texts and digests derived from the statement. -/
structure ClaimRow where
  name : String
  statementQuote : Option (List Char)
  statementExtractable : Bool
  statementSource : String
  proofConstructor : String
  sourceLine : ℕ
  statementLine : Option ℕ
  statementEndLine : Option ℕ
  deriving DecidableEq, Repr

/-- A match with its kind and its start, and what the masks leave behind it. -/
structure FoundClaim where
  start : ℕ
  kind : ClaimKind
  found : TheoremMatch
  behind : List Char

/-- `text.count("\n", 0, place) + 1`. -/
def lineAt (text : List Char) (place : ℕ) : ℕ :=
  (text.take place).count '\n' + 1

section

variable (patterns : PatternTables) (text : List Char)

/-- What the masks leave from `qpos` on: behind the opening and the blanks; a direct rule opens with its quotation. -/
def FoundClaim.quoted (claim : FoundClaim) : List Char :=
  (match claim.kind with
    | .prove => claim.behind
    | .directRule => backquote :: claim.behind).dropWhile patterns.isSpace

def FoundClaim.qpos (claim : FoundClaim) : ℕ :=
  text.length - (claim.quoted patterns).length

/-- `read_hol_backquote` at the beginning of a text: the interior, and what follows. -/
def readHolBackquote (text : List Char) : Option (List Char × List Char) :=
  match text with
  | [] => none
  | char :: rest => if char ≠ backquote then none else splitAtChar backquote rest

/-- The row of a match; none if the quotation does not end. -/
def claimRow (claim : FoundClaim) : Option ClaimRow :=
  if (claim.quoted patterns).head? ≠ some backquote then
    some ⟨claim.found.name, none, false, "nonliteral_prove_argument", "prove", lineAt text claim.start, none, none⟩
  else
    (readHolBackquote (text.drop (claim.qpos patterns text))).map fun (statement, after) =>
      ⟨claim.found.name, some (quotation statement), true,
        match claim.kind with
        | .prove => "literal_backquote"
        | .directRule => "direct_rule_backquote",
        claim.found.proofConstructor, lineAt text claim.start, some (lineAt text (claim.qpos patterns text)),
        some (lineAt text (text.length - after.length))⟩

/-- The sort key of the matches. -/
def FoundClaim.startsBy (first second : FoundClaim) : Prop :=
  first.start ≤ second.start

instance : DecidableRel FoundClaim.startsBy :=
  fun first second => inferInstanceAs (Decidable (first.start ≤ second.start))

/-- The matches of both patterns, sorted by their start. -/
def sortedMatches : List FoundClaim :=
  let masked := searchMasked patterns text
  ((findIter (theoremPattern patterns) 0 none 0 masked).map (fun (start, found, behind) =>
      (⟨start, .prove, found, behind⟩ : FoundClaim)) ++
    (findIter (directTheoremPattern patterns) 0 none 0 masked).map fun (start, found, behind) =>
      (⟨start, .directRule, found, behind⟩ : FoundClaim)).insertionSort FoundClaim.startsBy

/-- The rows of the matches that start where a phrase does, each with its `byte_offset`. -/
def inventoryRows (starts : List ℕ) : List (ℕ × ClaimRow) :=
  (sortedMatches patterns text).filterMap fun claim =>
    if byteOffset text claim.start ∈ starts then
      (claimRow patterns text claim).map (byteOffset text claim.start, ·)
    else none

end

/-- `extract_hol_theorems_text`; the rows are returned with the bytes that they start at. -/
def extractHolTheoremsText (tables : UnicodeTables) (patterns : PatternTables) (text : List Char) :
    Except String (List (ℕ × ClaimRow)) :=
  (scanClaimBindingStarts tables (encode text)).map (inventoryRows patterns text)

/-! ## Heads -/

/-- How a theorem begins: its name, and the quotation right behind the parenthesis or the rule. -/
structure TheoremHead where
  name : String
  quoted : Option Token
  deriving DecidableEq, Repr

/-- The head that the tokens of a phrase begin with: `let NAME = [time] prove (`, or `let NAME = [time] RULE` with a
quotation. -/
def theoremHead (phrase : List Token) : Option TheoremHead :=
  match phrase with
  | opening :: named :: equals :: body =>
      if ¬ (opening.isIdent ["let"] ∧ named.kind = .ident ∧ equals.value = "=" ∧
          named.value.toList.head?.any isAsciiLetter) then none
      else
        match (if body.head?.any (·.isIdent ["time"]) then body.tail else body) with
        | constructor :: behind :: rest =>
            if constructor.isIdent ["prove"] ∧ behind.kind = .lparen then
              some ⟨named.value, rest.head?.filter fun token => token.kind = .hol⟩
            else if constructor.isIdent directTheoremRules ∧ behind.kind = .hol then some ⟨named.value, some behind⟩
            else none
        | _ => none
  | _ => none

/-- A standalone phrase that begins with the head of a theorem. -/
def isTheoremPhrase (phrase : List Token) : Bool :=
  isStandalone phrase && (theoremHead phrase).isSome

/-- The row has the name of the head, and its quotation if there is one. -/
structure RowOf (text : List Char) (head : TheoremHead) (row : ClaimRow) : Prop where
  name : row.name = head.name
  quoted : ∀ token ∈ head.quoted, row.statementQuote.map encode = some (token.span.bytesFrom (encode text))

/-- The row is that of the phrase. -/
structure ClaimOf (text : List Char) (row : ℕ × ClaimRow) (phrase : List Token) : Prop where
  start : row.1 = phraseStart phrase
  head : ∃ head, theoremHead phrase = some head ∧ RowOf text head row.2

/-- The rows of the inventory are those of the phrases that begin like a theorem, in their order. -/
def InventoryAgrees (tables : UnicodeTables) (patterns : PatternTables) (text : List Char)
    (phrases : List (List Token)) : Prop :=
  ∃ rows, extractHolTheoremsText tables patterns text = .ok rows ∧
    List.Forall₂ (ClaimOf text) rows (phrases.filter isTheoremPhrase)

/-- What the patterns read at one place of the masked text. -/
def maskedClaim (patterns : PatternTables) (text : List Char) (place : ℕ) : Option ClaimRow :=
  match (theoremPattern patterns).at none (searchMasked patterns text) place with
  | some (found, behind) => claimRow patterns text ⟨place, .prove, found, behind⟩
  | none =>
      ((directTheoremPattern patterns).at none (searchMasked patterns text) place).bind fun (found, behind) =>
        claimRow patterns text ⟨place, .directRule, found, behind⟩

/-- The constructors of a kind, and the opening behind them. -/
def ClaimKind.constructors : ClaimKind → List String
  | .prove => ["prove"]
  | .directRule => directTheoremRules

def ClaimKind.opening : ClaimKind → Char
  | .prove => '('
  | .directRule => backquote

/-- The masks leave a theorem at its start: its words with blanks between them, at a word boundary. -/
structure Shows (patterns : PatternTables) (text : List Char) (claim : FoundClaim) : Prop where
  boundary : ((searchMasked patterns text).take claim.start).getLast?.any patterns.isWord = false
  constructor : claim.found.proofConstructor ∈ claim.kind.constructors
  spells : Spells patterns claim.found.name.toList claim.found.proofConstructor claim.kind.opening
    ((searchMasked patterns text).drop claim.start) claim.behind

/-- The statement that a theorem is left with: none if no quotation stands behind the blanks, otherwise one that ends. -/
def HasStatement (patterns : PatternTables) (text : List Char) (claim : FoundClaim) : Option (List Char) → Prop
  | none => (claim.quoted patterns).head? ≠ some backquote
  | some statement => (claim.quoted patterns).head? = some backquote ∧ backquote ∉ statement ∧
      ∃ after, text.drop (claim.qpos patterns text) = quotation statement ++ after

/-- At the place where a phrase starts, the masks leave the theorem that its strict tokens begin with, or none. -/
def HeadsAgree (patterns : PatternTables) (text : List Char) (phrase : List Token) : Prop :=
  ∀ place < text.length, byteOffset text place = phraseStart phrase →
    match theoremHead phrase with
    | none => ∀ claim statement, claim.start = place → Shows patterns text claim → ¬ HasStatement patterns text claim statement
    | some head => ∃ claim statement, claim.start = place ∧ Shows patterns text claim ∧
        HasStatement patterns text claim statement ∧ claim.found.name = head.name ∧
          ∀ token ∈ head.quoted,
            statement.map (fun statement => encode (quotation statement)) = some (token.span.bytesFrom (encode text))

/-- The same of the rows that the patterns read. -/
def RowsAgree (patterns : PatternTables) (text : List Char) (phrase : List Token) : Prop :=
  ∀ place < text.length, byteOffset text place = phraseStart phrase →
    match theoremHead phrase with
    | none => maskedClaim patterns text place = none
    | some head => ∃ row, maskedClaim patterns text place = some row ∧ RowOf text head row

/-! ## The matches -/

section

variable {patterns : PatternTables} {text : List Char}

/-- The pattern of a kind. -/
def ClaimKind.pattern (patterns : PatternTables) : ClaimKind → Pattern Char TheoremMatch
  | .prove => theoremPattern patterns
  | .directRule => directTheoremPattern patterns

theorem mem_findIter_masked {pattern : Pattern Char TheoremMatch} (hapart : pattern.Apart)
    {item : ℕ × TheoremMatch × List Char} :
    item ∈ findIter pattern 0 none 0 (searchMasked patterns text) ↔
      pattern.at none (searchMasked patterns text) item.1 = some item.2 := by
  rw [mem_findIter_iff hapart fun place hlt => absurd hlt (Nat.not_lt_zero _)]
  simp

/-- The matches are those of either pattern, at every place. -/
theorem mem_sortedMatches {claim : FoundClaim} :
    claim ∈ sortedMatches patterns text ↔
      (claim.kind.pattern patterns).at none (searchMasked patterns text) claim.start =
        some (claim.found, claim.behind) := by
  obtain ⟨start, kind, found, behind⟩ := claim
  unfold sortedMatches
  rw [List.mem_insertionSort, List.mem_append, List.mem_map, List.mem_map]
  cases kind with
  | prove =>
      constructor
      · rintro (⟨item, hitem, heq⟩ | ⟨item, -, heq⟩)
        · obtain ⟨rfl, -, rfl, rfl⟩ := FoundClaim.mk.inj heq
          exact (mem_findIter_masked theoremPattern_apart).mp hitem
        · nomatch heq
      · exact fun h => .inl ⟨(start, found, behind), (mem_findIter_masked theoremPattern_apart).mpr h, rfl⟩
  | directRule =>
      constructor
      · rintro (⟨item, -, heq⟩ | ⟨item, hitem, heq⟩)
        · nomatch heq
        · obtain ⟨rfl, -, rfl, rfl⟩ := FoundClaim.mk.inj heq
          exact (mem_findIter_masked directTheoremPattern_apart).mp hitem
      · exact fun h => .inr ⟨(start, found, behind), (mem_findIter_masked directTheoremPattern_apart).mpr h, rfl⟩

theorem start_lt_of_mem {claim : FoundClaim} (h : claim ∈ sortedMatches patterns text) : claim.start < text.length := by
  have hmatch := mem_sortedMatches.mp h
  rw [Pattern.at] at hmatch
  split at hmatch
  · rename_i hlt
    rwa [length_searchMasked] at hlt
  · cases hmatch

/-- At one place there is at most one match. -/
theorem theoremPattern_at_ne {masked : List Char} {place : ℕ} {found found' : TheoremMatch × List Char}
    (h : (theoremPattern patterns).at none masked place = some found) :
    (directTheoremPattern patterns).at none masked place ≠ some found' := by
  intro h'
  rw [Pattern.at] at h h'
  split at h
  · rename_i hlt
    rw [if_pos hlt] at h'
    exact theoremPattern_ne_directTheoremPattern h h'
  · cases h

instance : Std.Total FoundClaim.startsBy := ⟨fun first second => Nat.le_total first.start second.start⟩

instance : IsTrans FoundClaim FoundClaim.startsBy := ⟨fun _ _ _ hfirst hsecond => Nat.le_trans hfirst hsecond⟩

/-- The matches start behind each other. -/
theorem sortedMatches_pairwise :
    (sortedMatches patterns text).Pairwise fun first second => first.start < second.start := by
  have hsorted : (sortedMatches patterns text).Pairwise FoundClaim.startsBy := List.pairwise_insertionSort _ _
  have hdistinct : (sortedMatches patterns text).Pairwise fun first second => first.start ≠ second.start := by
    unfold sortedMatches
    dsimp only
    rw [(List.perm_insertionSort _ _).pairwise_iff Ne.symm, List.pairwise_append, List.pairwise_map, List.pairwise_map]
    refine ⟨(findIter_pairwise _ _ _ _ _).imp Nat.ne_of_lt, (findIter_pairwise _ _ _ _ _).imp Nat.ne_of_lt, ?_⟩
    intro first hfirst second hsecond heq
    obtain ⟨item, hitem, rfl⟩ := List.mem_map.mp hfirst
    obtain ⟨item', hitem', rfl⟩ := List.mem_map.mp hsecond
    have hmatch := (mem_findIter_masked theoremPattern_apart).mp hitem
    have hmatch' := (mem_findIter_masked directTheoremPattern_apart).mp hitem'
    have hsame : item.1 = item'.1 := heq
    rw [← hsame] at hmatch'
    exact theoremPattern_at_ne hmatch hmatch'
  exact hsorted.imp₂ (fun first second hle hne => Nat.lt_of_le_of_ne hle hne) hdistinct

/-- What the patterns read at a place is the row of the match there. -/
theorem maskedClaim_eq_some_iff {place : ℕ} {row : ClaimRow} :
    maskedClaim patterns text place = some row ↔
      ∃ claim ∈ sortedMatches patterns text, claim.start = place ∧ claimRow patterns text claim = some row := by
  unfold maskedClaim
  constructor
  · intro h
    split at h
    · rename_i found behind hmatch
      exact ⟨⟨place, .prove, found, behind⟩, mem_sortedMatches.mpr hmatch, rfl, h⟩
    · obtain ⟨⟨found, behind⟩, hmatch, hrow⟩ := Option.bind_eq_some_iff.mp h
      exact ⟨⟨place, .directRule, found, behind⟩, mem_sortedMatches.mpr hmatch, rfl, hrow⟩
  · rintro ⟨⟨start, kind, found, behind⟩, hmem, rfl, hrow⟩
    have hmatch := mem_sortedMatches.mp hmem
    cases kind with
    | prove =>
        have hprove : (theoremPattern patterns).at none (searchMasked patterns text) start = some (found, behind) := hmatch
        rw [hprove]
        exact hrow
    | directRule =>
        have hrule : (directTheoremPattern patterns).at none (searchMasked patterns text) start = some (found, behind) :=
          hmatch
        split
        · rename_i hprove
          exact absurd hrule (theoremPattern_at_ne hprove)
        · rw [hrule, Option.bind_some]
          exact hrow

theorem Pattern.at_searchMasked {pattern : Pattern Char TheoremMatch} {place : ℕ} {found : TheoremMatch × List Char} :
    pattern.at none (searchMasked patterns text) place = some found ↔
      place < text.length ∧ pattern ((searchMasked patterns text).take place).getLast?
        ((searchMasked patterns text).drop place) = some found := by
  rw [Pattern.at, length_searchMasked, Option.or_none]
  split
  · rename_i hplace
    exact (and_iff_right hplace).symm
  · rename_i hplace
    exact ⟨fun h => absurd h (Option.some_ne_none found).symm, fun h => absurd h.1 hplace⟩

/-- The matches are the theorems that the masks leave. -/
theorem mem_sortedMatches_iff_shows {claim : FoundClaim} :
    claim ∈ sortedMatches patterns text ↔ claim.start < text.length ∧ Shows patterns text claim := by
  have hshows : Shows patterns text claim ↔
      ((searchMasked patterns text).take claim.start).getLast?.any patterns.isWord = false ∧
        claim.found.proofConstructor ∈ claim.kind.constructors ∧
          Spells patterns claim.found.name.toList claim.found.proofConstructor claim.kind.opening
            ((searchMasked patterns text).drop claim.start) claim.behind :=
    ⟨fun ⟨hboundary, hconstructor, hspells⟩ => ⟨hboundary, hconstructor, hspells⟩,
      fun ⟨hboundary, hconstructor, hspells⟩ => ⟨hboundary, hconstructor, hspells⟩⟩
  rw [mem_sortedMatches, Pattern.at_searchMasked, hshows]
  refine and_congr_right fun _ => ?_
  obtain ⟨start, kind, found, behind⟩ := claim
  cases kind with
  | prove => exact declarationPattern_eq_some_iff constructors_prove
  | directRule => exact declarationPattern_eq_some_iff constructors_directTheoremRules

/-! ## Statements -/

/-- A quotation is read where one stands. -/
theorem readHolBackquote_eq_some_iff {quoted statement : List Char} :
    (∃ after, readHolBackquote quoted = some (statement, after)) ↔
      backquote ∉ statement ∧ ∃ after, quoted = quotation statement ++ after := by
  constructor
  · rintro ⟨after, h⟩
    unfold readHolBackquote at h
    split at h
    · cases h
    · rename_i char rest
      split at h
      · cases h
      · rename_i hchar
        obtain ⟨rfl, hnotMem⟩ := splitAtChar_eq_some h
        rw [not_not.mp hchar]
        exact ⟨hnotMem, after, by simp [quotation]⟩
  · rintro ⟨hnotMem, after, rfl⟩
    have hquoted : quotation statement ++ after = backquote :: (statement ++ backquote :: after) := by
      simp [quotation]
    refine ⟨after, ?_⟩
    rw [hquoted, readHolBackquote, if_neg (not_not.mpr rfl), splitAtChar_append hnotMem]

/-- A claim has a row if it has a statement, with its name and the quotation of the statement. -/
theorem claimRow_of_statement {claim : FoundClaim} {statement : Option (List Char)}
    (h : HasStatement patterns text claim statement) :
    ∃ row, claimRow patterns text claim = some row ∧ row.name = claim.found.name ∧
      row.statementQuote = statement.map quotation := by
  unfold claimRow
  cases statement with
  | none =>
      have hopens : (claim.quoted patterns).head? ≠ some backquote := h
      rw [if_pos hopens]
      exact ⟨_, rfl, rfl, rfl⟩
  | some statement =>
      obtain ⟨hopens, hquoted⟩ := h
      obtain ⟨after, hread⟩ := readHolBackquote_eq_some_iff.mpr hquoted
      rw [if_neg (not_not.mpr hopens), hread]
      exact ⟨_, rfl, rfl, rfl⟩

theorem statement_of_claimRow {claim : FoundClaim} {row : ClaimRow} (h : claimRow patterns text claim = some row) :
    ∃ statement, HasStatement patterns text claim statement ∧ row.name = claim.found.name ∧
      row.statementQuote = statement.map quotation := by
  unfold claimRow at h
  split at h
  · rename_i hopens
    obtain rfl := Option.some.inj h
    exact ⟨none, hopens, rfl, rfl⟩
  · rename_i hopens
    obtain ⟨⟨statement, after⟩, hread, rfl⟩ := Option.map_eq_some_iff.mp h
    exact ⟨some statement, ⟨not_not.mp hopens, readHolBackquote_eq_some_iff.mp ⟨after, hread⟩⟩, rfl, rfl⟩

/-- The patterns read what the masks leave. -/
theorem headsAgree_iff_rowsAgree {phrase : List Token} :
    HeadsAgree patterns text phrase ↔ RowsAgree patterns text phrase := by
  refine forall_congr' fun place => forall_congr' fun hplace => forall_congr' fun _ => ?_
  cases theoremHead phrase with
  | none =>
      constructor
      · intro h
        by_contra hsome
        obtain ⟨row, hrow⟩ := Option.ne_none_iff_exists'.mp hsome
        obtain ⟨claim, hmem, hstart, hrow⟩ := maskedClaim_eq_some_iff.mp hrow
        obtain ⟨statement, hstatement, -⟩ := statement_of_claimRow hrow
        exact h claim statement hstart (mem_sortedMatches_iff_shows.mp hmem).2 hstatement
      · intro h claim statement hstart hshows hstatement
        obtain ⟨row, hrow, -⟩ := claimRow_of_statement hstatement
        have hmem := mem_sortedMatches_iff_shows.mpr ⟨hstart ▸ hplace, hshows⟩
        have hsome := maskedClaim_eq_some_iff.mpr ⟨claim, hmem, hstart, hrow⟩
        rw [show maskedClaim patterns text place = none from h] at hsome
        nomatch hsome
  | some head =>
      constructor
      · rintro ⟨claim, statement, hstart, hshows, hstatement, hname, hquoted⟩
        obtain ⟨row, hrow, hrowName, hrowQuote⟩ := claimRow_of_statement hstatement
        have hmem := mem_sortedMatches_iff_shows.mpr ⟨hstart ▸ hplace, hshows⟩
        refine ⟨row, maskedClaim_eq_some_iff.mpr ⟨claim, hmem, hstart, hrow⟩, hrowName.trans hname, ?_⟩
        intro token htoken
        rw [hrowQuote, Option.map_map]
        exact hquoted token htoken
      · rintro ⟨row, hrow, hname, hquoted⟩
        obtain ⟨claim, hmem, hstart, hrow⟩ := maskedClaim_eq_some_iff.mp hrow
        obtain ⟨statement, hstatement, hrowName, hrowQuote⟩ := statement_of_claimRow hrow
        refine ⟨claim, statement, hstart, (mem_sortedMatches_iff_shows.mp hmem).2, hstatement, hrowName.symm.trans hname, ?_⟩
        intro token htoken
        have hquote := hquoted token htoken
        rw [hrowQuote, Option.map_map] at hquote
        exact hquote

/-! ## The rows -/

/-- Places of a text are where their offsets are. -/
theorem byteOffset_inj {place place' : ℕ} (hplace : place < text.length) (hplace' : place' < text.length)
    (h : byteOffset text place = byteOffset text place') : place = place' := by
  rcases Nat.lt_trichotomy place place' with hlt | heq | hlt
  · exact absurd h (byteOffset_lt hlt hplace).ne
  · exact heq
  · exact absurd h (byteOffset_lt hlt hplace').ne'

/-- The rows stand behind each other. -/
theorem inventoryRows_pairwise (starts : List ℕ) :
    (inventoryRows patterns text starts).Pairwise fun first second => first.1 < second.1 := by
  unfold inventoryRows
  rw [List.pairwise_filterMap]
  refine (List.Pairwise.and_mem.mp sortedMatches_pairwise).imp ?_
  rintro first second ⟨hfirst, -, hlt⟩ row hrow row' hrow'
  have hoffset : ∀ {claim : FoundClaim} {row : ℕ × ClaimRow}, (if byteOffset text claim.start ∈ starts then
      (claimRow patterns text claim).map (byteOffset text claim.start, ·) else none) = some row →
        row.1 = byteOffset text claim.start := by
    intro claim row h
    split at h
    · obtain ⟨_, -, rfl⟩ := Option.map_eq_some_iff.mp h
      rfl
    · nomatch h
  rw [hoffset hrow, hoffset hrow']
  exact byteOffset_lt hlt (start_lt_of_mem hfirst)

/-- A row is what the patterns read at the place of a start. -/
theorem mem_inventoryRows {starts : List ℕ} {row : ℕ × ClaimRow} :
    row ∈ inventoryRows patterns text starts ↔
      row.1 ∈ starts ∧ ∃ place < text.length, byteOffset text place = row.1 ∧
        maskedClaim patterns text place = some row.2 := by
  unfold inventoryRows
  rw [List.mem_filterMap]
  constructor
  · rintro ⟨claim, hmem, hrow⟩
    split at hrow
    · rename_i hstart
      obtain ⟨content, hcontent, rfl⟩ := Option.map_eq_some_iff.mp hrow
      exact ⟨hstart, claim.start, start_lt_of_mem hmem, rfl,
        maskedClaim_eq_some_iff.mpr ⟨claim, hmem, rfl, hcontent⟩⟩
    · nomatch hrow
  · rintro ⟨hstart, place, hplace, hoffset, hread⟩
    obtain ⟨claim, hmem, rfl, hrow⟩ := maskedClaim_eq_some_iff.mp hread
    refine ⟨claim, hmem, ?_⟩
    rw [hoffset, if_pos hstart, hrow]
    rfl

/-! ## The phrases -/

theorem isStandalone_opening {phrase : List Token} (h : isStandalone phrase = true) :
    ∃ opening rest, phrase = opening :: rest := by
  match phrase, h with
  | opening :: rest, _ => exact ⟨opening, rest, rfl⟩

/-- The standalone phrases start behind each other. -/
theorem phraseStart_pairwise {tables : UnicodeTables} {tokens : List Token} {phrases : List (List Token)}
    (htokens : tokenize tables text = .ok tokens) (hphrases : topLevelPhrases tokens = some phrases) :
    (phrases.filter isStandalone).Pairwise fun first second => phraseStart first < phraseStart second := by
  refine (List.Pairwise.and_mem.mp ((topLevelPhrasesFrom_pairwise hphrases).filter isStandalone)).imp ?_
  rintro first second ⟨hfirst, hsecond, before, middle, after, hsplit⟩
  obtain ⟨opening, rest, rfl⟩ := isStandalone_opening (List.mem_filter.mp hfirst).2
  obtain ⟨opening', rest', rfl⟩ := isStandalone_opening (List.mem_filter.mp hsecond).2
  have hpairs := (tokenize_inOrder htokens).order
  have hstands := (reading_of_tokenize htokens).standsIn
  rw [List.nil_append] at hsplit
  rw [hsplit] at hpairs hstands
  have hcovers := (hstands opening (by simp)).covers
  have hbehind := (List.pairwise_append.mp (List.pairwise_append.mp hpairs).2.1).2.2 opening (.head _) opening' (by simp)
  exact Nat.lt_of_lt_of_le hcovers hbehind

/-- A phrase starts at some place of the text. -/
theorem exists_place_of_phrase {tables : UnicodeTables} {tokens phrase : List Token} {phrases : List (List Token)}
    (htokens : tokenize tables text = .ok tokens) (hphrases : topLevelPhrases tokens = some phrases)
    (hmem : phrase ∈ phrases) (hstandalone : isStandalone phrase = true) :
    ∃ place < text.length, byteOffset text place = phraseStart phrase := by
  obtain ⟨before, after, hsplit, -⟩ := topLevelPhrasesFrom_split hphrases hmem
  obtain ⟨opening, rest, rfl⟩ := isStandalone_opening hstandalone
  rw [List.nil_append] at hsplit
  obtain ⟨read, piece, behind, rfl, hpiece, hspan, -⟩ := (reading_of_tokenize htokens).standsIn opening (by simp [hsplit])
  have hpos := List.length_pos_iff.mpr hpiece
  refine ⟨read.length, by simp; omega, ?_⟩
  show _ = opening.span.start
  rw [hspan, byteOffset_append]

end

end Hearth.Loader
