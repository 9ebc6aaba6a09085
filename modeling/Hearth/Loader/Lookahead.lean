import Hearth.Library.Lookahead
import Hearth.Library.Outcome
import Hearth.Loader.Lexer

/-!
# What a method of the lexer looks at

Each method of the lexer reads a piece of the text, and what it makes of the piece does not depend
on where the piece stands.  Strings, quotations and comments are closed: they do not depend on what
follows the piece either.  The other methods look ahead, at most to the next quote inside a string
and to the next semicolon outside.
-/

namespace Hearth.Loader

open Hearth.Library
open Hearth.Replay (isAsciiLetter isAsciiDigit)

variable {tables : UnicodeTables} {size : ℕ}

/-! ## Searches -/

theorem splitAtChar_eq_some {char : Char} {text before after : List Char}
    (h : splitAtChar char text = some (before, after)) :
    text = before ++ char :: after ∧ char ∉ before := by
  induction text generalizing before with
  | nil => cases h
  | cons head text ih =>
      rw [splitAtChar] at h
      split at h
      · rename_i heq
        cases h
        exact ⟨by rw [heq]; rfl, by simp⟩
      · rename_i hne
        obtain ⟨⟨before, after⟩, hsplit, heq⟩ := Option.map_eq_some_iff.mp h
        cases heq
        obtain ⟨rfl, hnotMem⟩ := ih hsplit
        exact ⟨rfl, by simpa [Ne.symm hne] using hnotMem⟩

theorem splitAtChar_append {char : Char} {before : List Char} (hbefore : char ∉ before)
    (after : List Char) : splitAtChar char (before ++ char :: after) = some (before, after) := by
  induction before with
  | nil => simp [splitAtChar]
  | cons head before ih =>
      have hhead : head ≠ char := fun heq => hbefore (by simp [heq])
      have hrest : char ∉ before := fun hmem => hbefore (by simp [hmem])
      rw [List.cons_append, splitAtChar, if_neg hhead, ih hrest]
      rfl

theorem splitAtChar_eq_none {char : Char} {text : List Char} (h : char ∉ text) :
    splitAtChar char text = none := by
  cases hsplit : splitAtChar char text with
  | none => rfl
  | some parts =>
      obtain ⟨htext, -⟩ := splitAtChar_eq_some hsplit
      exact absurd (by rw [htext]; simp) h

/-- The first occurrence of a pattern is found again, whatever follows it. -/
theorem splitAtText_read {pattern text before after : List Char} (hpattern : pattern ≠ [])
    (h : splitAtText pattern text = some (before, after)) :
    text = before ++ pattern ++ after ∧
      ∀ tail, splitAtText pattern (before ++ pattern ++ tail) = some (before, tail) := by
  induction text generalizing before with
  | nil =>
      rw [splitAtText, if_neg hpattern] at h
      cases h
  | cons head text ih =>
      rw [splitAtText] at h
      split at h
      · rename_i hbegins
        cases h
        obtain ⟨after, hafter⟩ := List.isPrefixOf_iff_prefix.mp hbegins
        rw [← hafter, List.drop_left]
        refine ⟨rfl, fun tail => ?_⟩
        obtain ⟨first, rest, rfl⟩ := List.exists_cons_of_ne_nil hpattern
        rw [List.nil_append, List.cons_append, splitAtText, if_pos, ← List.cons_append, List.drop_left]
        exact List.isPrefixOf_iff_prefix.mpr ⟨tail, rfl⟩
      · rename_i hbegins
        obtain ⟨⟨before, after⟩, hsplit, heq⟩ := Option.map_eq_some_iff.mp h
        cases heq
        obtain ⟨rfl, hread⟩ := ih hsplit
        refine ⟨rfl, fun tail => ?_⟩
        rw [List.cons_append, List.cons_append, splitAtText, hread tail, if_neg]
        · rfl
        -- Within the piece the pattern does not depend on what follows.
        · intro hmatch
          apply hbegins
          have hlength : pattern.length ≤ (head :: (before ++ pattern)).length := by
            simp
            omega
          have hmatch' := List.isPrefixOf_iff_prefix.mp hmatch
          have hinside : pattern <+: head :: (before ++ pattern) :=
            List.prefix_of_prefix_length_le hmatch' ⟨tail, rfl⟩ hlength
          exact List.isPrefixOf_iff_prefix.mpr (hinside.trans ⟨after, rfl⟩)

/-! ## Escapes -/

/-- The ends of a literal that an escape stands in. -/
def isLiteralQuote (char : Char) : Bool :=
  char = '"' || char = '\''

theorem decimalEscape_read {slash : ℕ} {text after : List Char} {decoded : Bytes}
    (h : decimalEscape size slash text = .ok (decoded, after)) :
    ∃ piece, text = piece ++ after ∧ piece.head? = text.head? ∧ ∀ size' slash' tail,
      decimalEscape size' slash' (piece ++ tail) = .ok (decoded, tail) := by
  unfold decimalEscape at h
  dsimp only at h
  split at h
  · cases h
  rename_i hdigits
  split at h
  · cases h
  rename_i hbyte
  cases h
  have hlength : (text.take 3).length = 3 := by
    by_contra hne
    exact hdigits (.inl hne)
  refine ⟨text.take 3, (List.take_append_drop 3 text).symm, by cases text <;> rfl,
    fun size' slash' tail => ?_⟩
  have htake : (text.take 3 ++ tail).take 3 = text.take 3 := List.take_left' hlength
  have hdrop : (text.take 3 ++ tail).drop 3 = tail := List.drop_left' hlength
  unfold decimalEscape
  dsimp only
  rw [htake, hdrop, if_neg hdigits, if_neg hbyte]

theorem octalEscape_read {slash : ℕ} {text after : List Char} {decoded : Bytes}
    (h : octalEscape size slash text = .ok (decoded, after)) :
    ∃ piece, text = piece ++ after ∧ ∀ size' slash' tail,
      octalEscape size' slash' (piece ++ tail) = .ok (decoded, tail) := by
  unfold octalEscape at h
  dsimp only at h
  split at h
  · cases h
  rename_i hdigits
  cases h
  have hlength : (text.take 3).length = 3 := by
    by_contra hne
    exact hdigits (.inl hne)
  refine ⟨text.take 3, (List.take_append_drop 3 text).symm, fun size' slash' tail => ?_⟩
  have htake : (text.take 3 ++ tail).take 3 = text.take 3 := List.take_left' hlength
  have hdrop : (text.take 3 ++ tail).drop 3 = tail := List.drop_left' hlength
  unfold octalEscape
  dsimp only
  rw [htake, hdrop, if_neg hdigits]

theorem unicodeEscape_read {slash : ℕ} {text after : List Char} {decoded : Bytes}
    (h : unicodeEscape size slash text = .ok (decoded, after)) :
    ∃ piece, text = piece ++ after ∧ ∀ size' slash' tail,
      unicodeEscape size' slash' (piece ++ tail) = .ok (decoded, tail) := by
  unfold unicodeEscape at h
  split at h
  · cases h
  rename_i hbrace
  split at h
  · cases h
  rename_i digits rest hsplit
  dsimp only at h
  split at h
  · cases h
  rename_i hdigits
  split at h
  · cases h
  rename_i hscalar
  cases h
  obtain ⟨htail, hnotMem⟩ := splitAtChar_eq_some hsplit
  have htext : text = '{' :: text.tail := (List.cons_head?_tail (not_not.mp hbrace)).symm
  refine ⟨'{' :: (digits ++ ['}']), by rw [htext, htail]; simp, fun size' slash' tail => ?_⟩
  have hpiece : '{' :: (digits ++ ['}']) ++ tail = '{' :: (digits ++ '}' :: tail) := by simp
  rw [hpiece]
  unfold unicodeEscape
  rw [if_neg (by simp), List.tail_cons, splitAtChar_append hnotMem tail]
  dsimp only
  rw [if_neg hdigits, if_neg hscalar]

/-- What is left of a text after an `x` escape, and that it is found again. -/
theorem hexEscape_read {quote : Char} (hquote : isLiteralQuote quote = true) (text : List Char) :
    ∃ piece, text = piece ++ (hexEscape text).2 ∧ ∀ tail, AgreeTo quote (hexEscape text).2 tail →
      hexEscape (piece ++ tail) = ((hexEscape text).1, tail) := by
  have hnotHex : isHexDigit quote = false := by
    unfold isLiteralQuote at hquote
    rcases Bool.or_eq_true_iff.mp hquote with h | h <;> (rw [of_decide_eq_true h]; decide)
  by_cases hdigits : (text.take 2).length = 2 ∧ (text.take 2).all isHexDigit = true
  · have hread : hexEscape text = ([UInt8.ofNat (digitsValue 16 (text.take 2))], text.drop 2) := by
      unfold hexEscape
      dsimp only
      rw [if_pos hdigits]
    rw [hread]
    refine ⟨text.take 2, (List.take_append_drop 2 text).symm, fun tail _ => ?_⟩
    unfold hexEscape
    dsimp only
    rw [List.take_left' hdigits.1, List.drop_left' hdigits.1, if_pos hdigits]
  · have hread : hexEscape text = ([0x5C, 0x78], text) := by
      unfold hexEscape
      dsimp only
      rw [if_neg hdigits]
    rw [hread]
    refine ⟨[], rfl, fun tail hagree => ?_⟩
    unfold hexEscape
    dsimp only
    rw [List.nil_append, if_neg]
    rintro ⟨hlength, hall⟩
    have hnotMem : quote ∉ tail.take 2 := by
      intro hmem
      have hhex := List.all_eq_true.mp hall quote hmem
      rw [hnotHex] at hhex
      cases hhex
    have htake := hagree.symm.take_eq hnotMem
    exact hdigits ⟨htake ▸ hlength, htake ▸ hall⟩

/-- An escape looks at most to the quote that ends its literal. -/
theorem decodeEscape_read {quote : Char} (hquote : isLiteralQuote quote = true) {slash : ℕ}
    {text after : List Char} {decoded : Bytes} (h : decodeEscape size slash text = .ok (decoded, after)) :
    ∃ piece, text = piece ++ after ∧ piece ≠ [] ∧ ∀ size' slash' tail, AgreeTo quote after tail →
      decodeEscape size' slash' (piece ++ tail) = .ok (decoded, tail) := by
  have hquote' : quote = '"' ∨ quote = '\'' := by
    simpa [isLiteralQuote] using hquote
  have hblank : isSpaceOrTab quote = false := by
    rcases hquote' with rfl | rfl <;> decide
  have hreturn : decide (quote = '\r') = false := by
    rcases hquote' with rfl | rfl <;> decide
  cases text with
  | nil => cases h
  | cons char rest =>
      rw [decodeEscape] at h
      split at h
      · rename_i byte hnamed
        cases h
        refine ⟨[char], rfl, by simp, fun size' slash' tail _ => ?_⟩
        simp only [List.cons_append, List.nil_append, decodeEscape, hnamed]
      rename_i hnamed
      split at h
      · -- A backslash at the end of a line.
        rename_i hnewline
        cases h
        refine ⟨char :: rest.takeWhile isSpaceOrTab, ?_, by simp, fun size' slash' tail hagree => ?_⟩
        · rw [List.cons_append, List.takeWhile_append_dropWhile]
        · simp only [List.cons_append, decodeEscape, hnamed, if_pos hnewline,
            dropWhile_append_of_agree hagree hblank]
      rename_i hnewline
      split at h
      · rename_i hcr
        split at h
        · rename_i line hline
          cases h
          refine ⟨char :: (rest.takeWhile (· = '\r') ++ '\n' :: line.takeWhile isSpaceOrTab), ?_, by simp,
            fun size' slash' tail hagree => ?_⟩
          · calc
              char :: rest = char :: (rest.takeWhile (· = '\r') ++ rest.dropWhile (· = '\r')) := by
                rw [List.takeWhile_append_dropWhile]
              _ = char :: (rest.takeWhile (· = '\r') ++ '\n' ::
                  (line.takeWhile isSpaceOrTab ++ line.dropWhile isSpaceOrTab)) := by
                rw [hline, List.takeWhile_append_dropWhile]
              _ = _ := by simp
          · have hlines : AgreeTo '\n' (rest.dropWhile (· = '\r'))
                ('\n' :: (line.takeWhile isSpaceOrTab ++ tail)) := ⟨[], _, _, hline, rfl⟩
            have hdrop := dropWhile_append_of_agree hlines (by decide)
            simp only [List.cons_append, List.append_assoc, decodeEscape, hnamed, if_neg hnewline,
              if_pos hcr, hdrop, dropWhile_append_of_agree hagree hblank]
        · rename_i hline
          cases h
          refine ⟨[char], rfl, by simp, fun size' slash' tail hagree => ?_⟩
          simp only [List.cons_append, List.nil_append, decodeEscape, hnamed, if_neg hnewline, if_pos hcr]
          split
          · rename_i line hline'
            have hhead := (hagree.dropWhile (p := (· = '\r')) hreturn).head?_eq
            rw [hline', List.head?_cons] at hhead
            exact absurd (List.cons_head?_tail hhead).symm (hline _)
          · rfl
      rename_i hcr
      split at h
      · rename_i hdigit
        obtain ⟨piece, htext, hhead, hread⟩ := decimalEscape_read h
        obtain ⟨rest', rfl⟩ : ∃ rest', piece = char :: rest' := by
          exact ⟨piece.tail, (List.cons_head?_tail (hhead.trans rfl)).symm⟩
        refine ⟨_, htext, by simp, fun size' slash' tail _ => ?_⟩
        have hread := hread size' slash' tail
        rw [List.cons_append] at hread ⊢
        simp only [decodeEscape, hnamed, if_neg hnewline, if_neg hcr, if_pos hdigit, hread]
      rename_i hdigit
      split at h
      · rename_i hx
        obtain ⟨piece, htext, hread⟩ := hexEscape_read hquote rest
        have hafter : hexEscape rest = (decoded, after) := Except.ok.inj h
        rw [hafter] at htext hread
        refine ⟨char :: piece, by rw [htext]; rfl, by simp, fun size' slash' tail hagree => ?_⟩
        simp only [List.cons_append, decodeEscape, hnamed, if_neg hnewline, if_neg hcr, if_neg hdigit,
          if_pos hx, hread tail hagree]
      rename_i hx
      split at h
      · rename_i ho
        obtain ⟨piece, htext, hread⟩ := octalEscape_read h
        refine ⟨char :: piece, by rw [htext]; rfl, by simp, fun size' slash' tail _ => ?_⟩
        simp only [List.cons_append, decodeEscape, hnamed, if_neg hnewline, if_neg hcr, if_neg hdigit,
          if_neg hx, if_pos ho, hread size' slash' tail]
      rename_i ho
      split at h
      · rename_i hu
        obtain ⟨piece, htext, hread⟩ := unicodeEscape_read h
        refine ⟨char :: piece, by rw [htext]; rfl, by simp, fun size' slash' tail _ => ?_⟩
        simp only [List.cons_append, decodeEscape, hnamed, if_neg hnewline, if_neg hcr, if_neg hdigit,
          if_neg hx, if_neg ho, if_pos hu, hread size' slash' tail]
      · rename_i hu
        cases h
        refine ⟨[char], rfl, by simp, fun size' slash' tail _ => ?_⟩
        simp only [List.cons_append, List.nil_append, decodeEscape, hnamed, if_neg hnewline, if_neg hcr,
          if_neg hdigit, if_neg hx, if_neg ho, if_neg hu]

/-! ## Strings -/

/-- An ordinary string ends with its closing quote, and what follows does not matter. -/
theorem ordinaryStringFrom_read {start skip : ℕ} {value result : Bytes} {text after : List Char}
    (h : ordinaryStringFrom size start skip value text = .ok (result, after)) :
    ∃ body, text = body ++ '"' :: after ∧ skip ≤ body.length ∧ ∀ size' start' tail,
      ordinaryStringFrom size' start' skip value (body ++ '"' :: tail) = .ok (result, tail) := by
  induction text generalizing skip value with
  | nil => cases skip <;> cases h
  | cons char rest ih =>
      cases skip with
      | succ skip =>
          obtain ⟨body, hrest, hskip, hread⟩ := ih h
          exact ⟨char :: body, by rw [hrest]; rfl, by simpa using hskip, hread⟩
      | zero =>
          rw [ordinaryStringFrom] at h
          split at h
          · rename_i hquote
            cases h
            refine ⟨[], by rw [hquote]; rfl, le_rfl, fun size' start' tail => ?_⟩
            rw [List.nil_append, ordinaryStringFrom, if_pos rfl]
          rename_i hquote
          split at h
          · rename_i hslash
            split at h
            · cases h
            rename_i decoded escaped hdecode
            have hquotes : isLiteralQuote '"' = true := rfl
            obtain ⟨piece, hpiece, -, hescape⟩ := decodeEscape_read hquotes hdecode
            obtain ⟨body, hrest, hskip, hread⟩ := ih h
            have hlength : rest.length - escaped.length = piece.length := by
              rw [hpiece, List.length_append]
              omega
            rw [hlength] at hskip hread
            obtain ⟨middle, rfl, rfl⟩ := append_split (hpiece.symm.trans hrest) hskip
            refine ⟨char :: (piece ++ middle), by rw [hrest]; rfl, Nat.zero_le _, fun size' start' tail => ?_⟩
            have hagree : AgreeTo '"' (middle ++ '"' :: after) (middle ++ '"' :: tail) :=
              ⟨middle, after, tail, rfl, rfl⟩
            rw [List.cons_append, ordinaryStringFrom, if_neg hquote, if_pos hslash, List.append_assoc,
              hescape _ _ _ hagree]
            dsimp only
            rw [List.length_append, Nat.add_sub_cancel, ← List.append_assoc]
            exact hread size' start' tail
          rename_i hslash
          split at h
          · rename_i hreturn
            split at h
            · rename_i hnewline
              obtain ⟨body, rfl, hskip, hread⟩ := ih h
              refine ⟨char :: body, rfl, Nat.zero_le _, fun size' start' tail => ?_⟩
              have hagree : AgreeTo '"' (body ++ '"' :: after) (body ++ '"' :: tail) :=
                ⟨body, after, tail, rfl, rfl⟩
              rw [hagree.head?_eq] at hnewline
              rw [List.cons_append, ordinaryStringFrom, if_neg hquote, if_neg hslash, if_pos hreturn,
                if_pos hnewline]
              exact hread size' start' tail
            · rename_i hnewline
              obtain ⟨body, rfl, hskip, hread⟩ := ih h
              refine ⟨char :: body, rfl, Nat.zero_le _, fun size' start' tail => ?_⟩
              have hagree : AgreeTo '"' (body ++ '"' :: after) (body ++ '"' :: tail) :=
                ⟨body, after, tail, rfl, rfl⟩
              rw [hagree.head?_eq] at hnewline
              rw [List.cons_append, ordinaryStringFrom, if_neg hquote, if_neg hslash, if_pos hreturn,
                if_neg hnewline]
              exact hread size' start' tail
          · rename_i hreturn
            obtain ⟨body, rfl, hskip, hread⟩ := ih h
            refine ⟨char :: body, rfl, Nat.zero_le _, fun size' start' tail => ?_⟩
            rw [List.cons_append, ordinaryStringFrom, if_neg hquote, if_neg hslash, if_neg hreturn]
            exact hread size' start' tail

theorem quotedOpener_read {start : ℕ} {text delimiter content : List Char}
    (h : quotedOpener start text = .ok (some (delimiter, content))) :
    text = delimiter ++ '|' :: content ∧ ∀ start' tail,
      quotedOpener start' (delimiter ++ '|' :: tail) = .ok (some (delimiter, tail)) := by
  unfold quotedOpener at h
  dsimp only at h
  split at h
  · cases h
  rename_i hlimit
  split at h
  · rename_i rest hdrop
    cases h
    rw [drop_takeWhile_length] at hdrop
    refine ⟨by rw [← hdrop, List.takeWhile_append_dropWhile], fun start' tail => ?_⟩
    have hagree : AgreeTo '|' (text.dropWhile isDelimiterChar) ('|' :: tail) :=
      ⟨[], content, tail, hdrop, rfl⟩
    unfold quotedOpener
    dsimp only
    rw [takeWhile_append_of_agree hagree (by decide), if_neg hlimit, List.drop_left]
    rfl
  · cases h

/-- Where no quoted string opens, none opens if the text differs behind a stopper. -/
theorem quotedOpener_none {start : ℕ} {stop : Char} {text text' : List Char}
    (hstop : isDelimiterChar stop = false) (h : quotedOpener start text = .ok none)
    (hagree : SameUpTo stop text text') (start' : ℕ) : quotedOpener start' text' = .ok none := by
  unfold quotedOpener at h ⊢
  dsimp only at h ⊢
  rw [← hagree.takeWhile_eq hstop]
  split at h
  · cases h
  rename_i hlimit
  rw [if_neg hlimit]
  split at h
  · cases h
  rename_i hopen
  have hrest := hagree.dropWhile hstop
  have hlength : text.takeWhile isDelimiterChar = text'.takeWhile isDelimiterChar :=
    hagree.takeWhile_eq hstop
  rw [drop_takeWhile_length] at hopen
  rw [hlength, drop_takeWhile_length]
  split
  · rename_i content hdrop
    have hhead := hrest.head?_eq
    rw [hdrop, List.head?_cons] at hhead
    exact absurd (List.cons_head?_tail hhead).symm (hopen _)
  · rfl

theorem quotedString_read {start : ℕ} {delimiter content rest : List Char} {value : Bytes}
    (h : quotedString size start delimiter content = .ok (value, rest)) :
    ∃ piece, content = piece ++ rest ∧ ∀ size' start' tail,
      quotedString size' start' delimiter (piece ++ tail) = .ok (value, tail) := by
  unfold quotedString at h
  split at h
  · cases h
  rename_i before after hsplit
  cases h
  obtain ⟨hcontent, hread⟩ := splitAtText_read (by simp) hsplit
  refine ⟨before ++ (['|'] ++ delimiter ++ ['}']), hcontent, fun size' start' tail => ?_⟩
  unfold quotedString
  rw [hread tail]

/-! ## Quoted extensions -/

theorem extensionIdentifier_read {start : ℕ} {text rest : List Char}
    (h : extensionIdentifier tables size start text = .ok rest) (hrest : rest ≠ []) :
    ∃ piece, text = piece ++ rest ∧ ∀ size' start' tail, tail.head? = rest.head? →
      extensionIdentifier tables size' start' (piece ++ tail) = .ok tail := by
  induction text with
  | nil =>
      cases h
      exact absurd rfl hrest
  | cons char text ih =>
      rw [extensionIdentifier] at h
      split at h
      · rename_i hcontinue
        obtain ⟨piece, rfl, hread⟩ := ih h
        refine ⟨char :: piece, rfl, fun size' start' tail hhead => ?_⟩
        rw [List.cons_append, extensionIdentifier, if_pos hcontinue]
        exact hread size' start' tail hhead
      rename_i hcontinue
      split at h
      · rename_i hdot
        split at h
        · rename_i hnext
          obtain ⟨piece, rfl, hread⟩ := ih h
          refine ⟨char :: piece, rfl, fun size' start' tail hhead => ?_⟩
          have hnext' : (piece ++ tail).head?.any (identifierStart tables) = true := by
            rw [List.head?_append, hhead, ← List.head?_append]
            exact hnext
          rw [List.cons_append, extensionIdentifier, if_neg hcontinue, if_pos hdot, if_pos hnext']
          exact hread size' start' tail hhead
        · cases h
      · rename_i hdot
        cases h
        refine ⟨[], rfl, fun size' start' tail hhead => ?_⟩
        have htail : tail = char :: tail.tail := (List.cons_head?_tail hhead).symm
        rw [List.nil_append, htail, extensionIdentifier, if_neg hcontinue, if_neg hdot]

/-- How many characters open an extension. -/
def extensionOpener (text : List Char) : ℕ :=
  if "\x7b%%".toList.isPrefixOf text then 3 else 2

/-- The quotation of a quoted extension, behind its identifier. -/
def extensionQuotationEnd (size start : ℕ) (named : List Char) : Except LexicalFailure (List Char) :=
  let spaced := named.dropWhile isBlank
  let delimiter := spaced.takeWhile isDelimiterChar
  let rest := spaced.drop delimiter.length
  if maxQuotedDelimiterChars < delimiter.length then
    .error ⟨"quoted_delimiter_limit",
      "OCaml quoted-extension delimiter exceeds the lexical bound", start,
      size - spaced.length + maxQuotedDelimiterChars⟩
  else if rest.head? ≠ some '|' then
    .error ⟨"malformed_quoted_extension",
      "quoted OCaml extension requires a valid raw-string delimiter", start,
      min size (size - rest.length + 1)⟩
  else
    match splitAtText (['|'] ++ delimiter ++ ['}']) rest.tail with
    | none =>
        .error ⟨"unterminated_quoted_extension", "unterminated quoted OCaml extension", start,
          size⟩
    | some (_, after) => .ok after

theorem quotedExtensionEnd_eq (start : ℕ) (text : List Char) :
    quotedExtensionEnd tables size start text =
      if ¬ (text.drop (extensionOpener text)).head?.any (identifierStart tables) then
        .error ⟨"malformed_quoted_extension", "quoted OCaml extension requires an extension identifier",
          start, min size (size - (text.drop (extensionOpener text)).length + 1)⟩
      else
        match extensionIdentifier tables size start (text.drop (extensionOpener text)) with
        | .error failure => .error failure
        | .ok named => extensionQuotationEnd size start named := by
  have hopened : (if "\x7b%%".toList.isPrefixOf text then text.drop 3 else text.drop 2) =
      text.drop (extensionOpener text) := by
    unfold extensionOpener
    split <;> rfl
  unfold quotedExtensionEnd
  dsimp only
  rw [hopened]
  rfl

/-- The lookahead of a quotation stops at the bar that opens it. -/
theorem extensionQuotationEnd_read {start : ℕ} {named after : List Char}
    (h : extensionQuotationEnd size start named = .ok after) :
    ∃ piece, named = piece ++ after ∧ '|' ∈ piece ∧ ∀ size' start' tail,
      extensionQuotationEnd size' start' (piece ++ tail) = .ok tail := by
  unfold extensionQuotationEnd at h
  dsimp only at h
  obtain ⟨spaced, hspaced⟩ : ∃ spaced, named.dropWhile isBlank = spaced := ⟨_, rfl⟩
  rw [hspaced, drop_takeWhile_length] at h
  split at h
  · cases h
  rename_i hlimit
  split at h
  · cases h
  rename_i hbar
  split at h
  · cases h
  rename_i before after' hsplit
  cases h
  obtain ⟨hcontent, hread⟩ := splitAtText_read (by simp) hsplit
  have hquotation := (List.cons_head?_tail (not_not.mp hbar)).symm
  rw [hcontent] at hquotation
  have hagree : ∀ tail, AgreeTo '|' (spaced.dropWhile isDelimiterChar) ('|' :: tail) :=
    fun tail => ⟨[], _, tail, hquotation, rfl⟩
  have hagreeSpaced : ∀ tail, AgreeTo '|' (named.dropWhile isBlank)
      (spaced.takeWhile isDelimiterChar ++ '|' :: tail) := by
    intro tail
    have hprepend := (hagree tail).prepend (spaced.takeWhile isDelimiterChar)
    rw [List.takeWhile_append_dropWhile] at hprepend
    rwa [hspaced]
  refine ⟨named.takeWhile isBlank ++ (spaced.takeWhile isDelimiterChar ++
    '|' :: (before ++ (['|'] ++ spaced.takeWhile isDelimiterChar ++ ['}']))), ?_, by simp,
    fun size' start' tail => ?_⟩
  · calc
      named = named.takeWhile isBlank ++ spaced := by
        rw [← hspaced, List.takeWhile_append_dropWhile]
      _ = named.takeWhile isBlank ++
          (spaced.takeWhile isDelimiterChar ++ spaced.dropWhile isDelimiterChar) := by
        rw [List.takeWhile_append_dropWhile]
      _ = _ := by
        rw [hquotation]
        simp
  · unfold extensionQuotationEnd
    dsimp only
    rw [List.append_assoc, List.append_assoc, List.cons_append,
      dropWhile_append_of_agree (hagreeSpaced _) (by decide),
      takeWhile_append_of_agree (hagree _) (by decide), List.drop_left, if_neg hlimit,
      if_neg (by simp), List.tail_cons, hread tail]

theorem quotedExtensionEnd_read {start : ℕ} {text after : List Char}
    (h : quotedExtensionEnd tables size start text = .ok after) :
    ∃ piece, text = piece ++ after ∧ 2 ≤ piece.length ∧ ∀ size' start' tail,
      quotedExtensionEnd tables size' start' (piece ++ tail) = .ok tail := by
  rw [quotedExtensionEnd_eq] at h
  split at h
  · cases h
  rename_i hstart
  split at h
  · cases h
  rename_i named hnamed
  obtain ⟨quotation, rfl, hbar, hread⟩ := extensionQuotationEnd_read h
  obtain ⟨identifier, hidentifier, hreadIdentifier⟩ :=
    extensionIdentifier_read hnamed (List.append_ne_nil_of_left_ne_nil (List.ne_nil_of_mem hbar) _)
  obtain ⟨opening, htext, hlength⟩ : ∃ opening, text = opening ++ (identifier ++ (quotation ++ after)) ∧
      opening.length = extensionOpener text := by
    refine ⟨text.take (extensionOpener text), by rw [← hidentifier, List.take_append_drop], ?_⟩
    have hpos : 0 < (text.drop (extensionOpener text)).length := by
      rw [hidentifier, List.length_append, List.length_append]
      have := List.length_pos_of_mem hbar
      omega
    rw [List.length_drop] at hpos
    rw [List.length_take]
    omega
  have htwo : 2 ≤ extensionOpener text := by
    unfold extensionOpener
    split <;> omega
  refine ⟨opening ++ (identifier ++ quotation), by simp [htext], by rw [List.length_append]; omega,
    fun size' start' tail => ?_⟩
  have hnamed' : AgreeTo '|' (quotation ++ after) (quotation ++ tail) := agreeTo_of_mem hbar after tail
  have hopened : AgreeTo '|' (identifier ++ (quotation ++ after)) (identifier ++ (quotation ++ tail)) :=
    hnamed'.prepend identifier
  have hsame : extensionOpener (opening ++ (identifier ++ (quotation ++ tail))) = opening.length := by
    have hagree := hopened.prepend opening
    rw [← htext] at hagree
    rw [hlength]
    unfold extensionOpener
    rw [hagree.isPrefixOf_eq (by decide)]
  have hstart' : ¬ ¬ (identifier ++ (quotation ++ tail)).head?.any (identifierStart tables) := by
    rw [← hopened.head?_eq, ← hidentifier]
    exact hstart
  have hfound : extensionIdentifier tables size' start' (identifier ++ (quotation ++ tail)) =
      .ok (quotation ++ tail) := hreadIdentifier size' start' _ hnamed'.head?_eq.symm
  have hassoc : opening ++ (identifier ++ quotation) ++ tail =
      opening ++ (identifier ++ (quotation ++ tail)) := by simp
  rw [hassoc, quotedExtensionEnd_eq, hsame, List.drop_left, if_neg hstart', hfound]
  exact hread size' start' tail

/-! ## Comments -/

theorem commentStringEnd_read {start : ℕ} {text after : List Char}
    (h : commentStringEnd size start text = .ok after) :
    ∃ piece, text = piece ++ after ∧ ∀ size' start' tail,
      commentStringEnd size' start' (piece ++ tail) = .ok tail := by
  induction text using commentStringEnd.induct with
  | case1 escaped rest ih =>
      rw [commentStringEnd] at h
      obtain ⟨piece, rfl, hread⟩ := ih h
      exact ⟨'\\' :: escaped :: piece, rfl, fun size' start' tail => hread size' start' tail⟩
  | case2 rest =>
      cases h
      exact ⟨['"'], rfl, fun size' start' tail => rfl⟩
  | case3 char rest hescape hquote ih =>
      rw [commentStringEnd] at h
      · obtain ⟨piece, rfl, hread⟩ := ih h
        refine ⟨char :: piece, rfl, fun size' start' tail => ?_⟩
        rw [List.cons_append, commentStringEnd]
        · exact hread size' start' tail
        -- A backslash at the end of the text would have left the string open.
        · intro escaped rest hslash _
          cases hrest : piece ++ after with
          | nil =>
              rw [hrest] at h
              cases h
          | cons escaped rest => exact hescape escaped rest hslash hrest
        · exact hquote
      · exact hescape
      · exact hquote
  | case4 => cases h

theorem commentEmbedded_extension {rest : List Char} (h : rest.head? = some '%') :
    commentEmbedded tables size ('\x7b' :: rest) =
      (quotedExtensionEnd tables size (size - (rest.length + 1)) ('\x7b' :: rest)).map some := by
  rw [← List.cons_head?_tail h]
  rfl

theorem commentEmbedded_brace {rest : List Char} (h : rest.head? ≠ some '%') :
    commentEmbedded tables size ('\x7b' :: rest) =
      match quotedOpener (size - (rest.length + 1)) rest with
      | .error failure => .error failure
      | .ok none => .ok none
      | .ok (some (delimiter, content)) =>
          (quotedString size (size - (rest.length + 1)) delimiter content).map
            fun (_, after) => some after := by
  unfold commentEmbedded
  dsimp only
  split
  · rename_i heq
    cases heq
  · rename_i heq
    cases heq
    exact absurd rfl h
  · rename_i heq
    cases heq
    rfl
  · rename_i hbrace
    exact absurd rfl (hbrace _)

theorem commentEmbedded_other {char : Char} (hquote : char ≠ '"') (hbrace : char ≠ '\x7b')
    (rest : List Char) : commentEmbedded tables size (char :: rest) = .ok none := by
  unfold commentEmbedded
  dsimp only
  split
  · rename_i heq
    cases heq
    exact absurd rfl hquote
  · rename_i heq
    cases heq
    exact absurd rfl hbrace
  · rename_i heq
    cases heq
    exact absurd rfl hbrace
  · rfl

/-- What a comment embeds is closed. -/
theorem commentEmbedded_read {char : Char} {rest after : List Char}
    (h : commentEmbedded tables size (char :: rest) = .ok (some after)) :
    ∃ piece, rest = piece ++ after ∧ ∀ size' tail,
      commentEmbedded tables size' (char :: (piece ++ tail)) = .ok (some tail) := by
  by_cases hquote : char = '"'
  · subst hquote
    obtain ⟨after', hstring, heq⟩ := map_eq_ok.mp h
    cases heq
    obtain ⟨piece, rfl, hread⟩ := commentStringEnd_read hstring
    refine ⟨piece, rfl, fun size' tail => ?_⟩
    simp only [commentEmbedded, hread]
    rfl
  by_cases hbrace : char = '\x7b'
  · subst hbrace
    by_cases hpercent : rest.head? = some '%'
    · rw [commentEmbedded_extension hpercent] at h
      obtain ⟨after', hextension, heq⟩ := map_eq_ok.mp h
      cases heq
      obtain ⟨piece, htext, hlength, hread⟩ := quotedExtensionEnd_read hextension
      obtain ⟨first, second, piece, rfl⟩ : ∃ first second rest, piece = first :: second :: rest := by
        match piece, hlength with
        | first :: second :: rest, _ => exact ⟨first, second, rest, rfl⟩
      cases htext
      refine ⟨second :: piece, rfl, fun size' tail => ?_⟩
      rw [commentEmbedded_extension (by simpa using hpercent)]
      exact congrArg (Except.map some) (hread size' _ tail)
    · rw [commentEmbedded_brace hpercent] at h
      split at h
      · cases h
      · cases h
      · rename_i delimiter content hopener
        obtain ⟨⟨value, after'⟩, hquoted, heq⟩ := map_eq_ok.mp h
        cases heq
        obtain ⟨rfl, hopens⟩ := quotedOpener_read hopener
        obtain ⟨piece, rfl, hread⟩ := quotedString_read hquoted
        refine ⟨delimiter ++ '|' :: piece, by simp, fun size' tail => ?_⟩
        have hassoc : delimiter ++ '|' :: piece ++ tail = delimiter ++ '|' :: (piece ++ tail) := by simp
        have hagree : AgreeTo '|' (delimiter ++ '|' :: (piece ++ after))
            (delimiter ++ '|' :: (piece ++ tail)) := ⟨delimiter, _, _, rfl, rfl⟩
        rw [hagree.head?_eq] at hpercent
        rw [hassoc, commentEmbedded_brace hpercent, hopens]
        dsimp only
        rw [hread]
        rfl
  · rw [commentEmbedded_other hquote hbrace] at h
    cases h

/-- Where a comment embeds nothing, it embeds nothing if the text differs behind a star. -/
theorem commentEmbedded_none {char : Char} {rest rest' : List Char}
    (h : commentEmbedded tables size (char :: rest) = .ok none) (hagree : AgreeTo '*' rest rest')
    (size' : ℕ) : commentEmbedded tables size' (char :: rest') = .ok none := by
  by_cases hquote : char = '"'
  · subst hquote
    obtain ⟨after, -, heq⟩ := map_eq_ok.mp h
    cases heq
  by_cases hbrace : char = '\x7b'
  · subst hbrace
    by_cases hpercent : rest.head? = some '%'
    · rw [commentEmbedded_extension hpercent] at h
      obtain ⟨after, -, heq⟩ := map_eq_ok.mp h
      cases heq
    · rw [commentEmbedded_brace hpercent] at h
      rw [hagree.head?_eq] at hpercent
      rw [commentEmbedded_brace hpercent]
      split at h
      · cases h
      · rename_i hopener
        rw [quotedOpener_none (by decide) hopener (.inr hagree)]
      · obtain ⟨_, -, heq⟩ := map_eq_ok.mp h
        cases heq
  · exact commentEmbedded_other hquote hbrace rest'

/-- A comment ends with its closing marker, and what follows does not matter. -/
theorem commentFrom_read {start skip depth : ℕ} {text after : List Char}
    (h : commentFrom tables size start skip depth text = .ok after) :
    ∃ body, text = body ++ '*' :: ')' :: after ∧ skip ≤ body.length ∧ ∀ size' start' tail,
      commentFrom tables size' start' skip depth (body ++ '*' :: ')' :: tail) = .ok tail := by
  have hagree : ∀ body after tail : List Char,
      AgreeTo '*' (body ++ '*' :: ')' :: after) (body ++ '*' :: ')' :: tail) :=
    fun body after tail => ⟨body, _, _, rfl, rfl⟩
  induction text generalizing skip depth with
  | nil => cases skip <;> cases h
  | cons char rest ih =>
      cases skip with
      | succ skip =>
          obtain ⟨body, hrest, hskip, hread⟩ := ih h
          exact ⟨char :: body, by rw [hrest]; rfl, by simpa using hskip, hread⟩
      | zero =>
          rw [commentFrom] at h
          split at h
          · rename_i hquote
            obtain ⟨body, hrest, hskip, hread⟩ := ih h
            refine ⟨char :: body, by rw [hrest]; rfl, Nat.zero_le _, fun size' start' tail => ?_⟩
            rw [List.cons_append, commentFrom, if_pos hquote]
            -- The apostrophe looks two characters ahead, and the closing marker has two.
            have hsame : "*)".toList.isPrefixOf (body ++ '*' :: ')' :: tail) =
                "*)".toList.isPrefixOf rest := by
              have hlength : "*)".toList.length ≤ (body ++ ['*', ')']).length := by simp
              have heq := isPrefixOf_append_eq hlength tail after
              rw [hrest]
              simpa using heq
            rw [hsame]
            exact hread size' start' tail
          rename_i hquote
          split at h
          · rename_i hopen
            split at h
            · cases h
            rename_i hnesting
            obtain ⟨body, rfl, hskip, hread⟩ := ih h
            refine ⟨char :: body, rfl, Nat.zero_le _, fun size' start' tail => ?_⟩
            rw [(hagree body after tail).head?_eq] at hopen
            rw [List.cons_append, commentFrom, if_neg hquote, if_pos hopen, if_neg hnesting]
            exact hread size' start' tail
          rename_i hopen
          split at h
          · rename_i hclose
            split at h
            · rename_i hdepth
              cases h
              refine ⟨[], ?_, le_rfl, fun size' start' tail => ?_⟩
              · rw [hclose.1, List.nil_append, List.cons_head?_tail hclose.2]
              · rw [List.nil_append, commentFrom, if_neg (by decide), if_neg (by simp), if_pos ⟨rfl, rfl⟩,
                  if_pos hdepth, List.tail_cons]
            · rename_i hdepth
              obtain ⟨body, rfl, hskip, hread⟩ := ih h
              refine ⟨char :: body, rfl, Nat.zero_le _, fun size' start' tail => ?_⟩
              rw [(hagree body after tail).head?_eq] at hopen hclose
              rw [List.cons_append, commentFrom, if_neg hquote, if_neg hopen, if_pos hclose, if_neg hdepth]
              exact hread size' start' tail
          rename_i hclose
          split at h
          · cases h
          · rename_i hnone
            obtain ⟨body, rfl, hskip, hread⟩ := ih h
            refine ⟨char :: body, rfl, Nat.zero_le _, fun size' start' tail => ?_⟩
            have hnone' := commentEmbedded_none hnone (hagree body after tail) size'
            rw [(hagree body after tail).head?_eq] at hopen hclose
            rw [List.cons_append, commentFrom, if_neg hquote, if_neg hopen, if_neg hclose, hnone']
            exact hread size' start' tail
          · rename_i embedded hembedded
            obtain ⟨piece, hpiece, hskips⟩ := commentEmbedded_read hembedded
            obtain ⟨body, hrest, hskip, hread⟩ := ih h
            have hlength : rest.length - embedded.length = piece.length := by
              rw [hpiece, List.length_append]
              omega
            rw [hlength] at hskip hread
            obtain ⟨middle, rfl, rfl⟩ := append_split (hpiece.symm.trans hrest) hskip
            refine ⟨char :: (piece ++ middle), by rw [hrest]; rfl, Nat.zero_le _, fun size' start' tail => ?_⟩
            rw [hrest, (hagree (piece ++ middle) after tail).head?_eq] at hopen hclose
            rw [List.cons_append, commentFrom, if_neg hquote, if_neg hopen, if_neg hclose, List.append_assoc,
              hskips]
            dsimp only
            rw [List.length_append, Nat.add_sub_cancel, ← List.append_assoc]
            exact hread size' start' tail

end Hearth.Loader
