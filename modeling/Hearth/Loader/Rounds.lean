import Hearth.Loader.Lookahead
import Hearth.Loader.TokenOrder

/-!
# Rounds of the main loop

A round of the main loop of `tokenize` consumes a piece of the text.  The same piece is read the same
way in another text, if what follows there agrees up to a semicolon or a backquote; behind a blank, a
comment, a line directive or a double semicolon nothing needs to agree.
-/

namespace Hearth.Loader

open Hearth.Library
open Hearth.Replay (isAsciiLetter isAsciiDigit)

variable {tables : UnicodeTables} {size : ℕ} {stop : Char}

/-! ## Where the lookahead stops -/

/-- No lookahead outside of a token goes past a semicolon or a backquote. -/
def isStopper (char : Char) : Bool :=
  char = ';' || char = backquote

theorem isStopper_cases {stop : Char} (hstop : isStopper stop = true) : stop = ';' ∨ stop = backquote := by
  simpa [isStopper] using hstop

/-- A class without the stoppers. -/
theorem stopper_notIn {stop : Char} (hstop : isStopper stop = true) {p : Char → Bool} (hsemicolon : p ';' = false)
    (hbackquote : p backquote = false) : p stop = false := by
  rcases isStopper_cases hstop with rfl | rfl
  · exact hsemicolon
  · exact hbackquote

theorem identifierContinue_stopper {stop : Char} (hstop : isStopper stop = true) :
    identifierContinue tables stop = false := by
  rcases isStopper_cases hstop with rfl | rfl
  all_goals
    unfold identifierContinue
    rw [tables.digit_ascii _ (by decide), tables.letter_ascii _ (by decide), tables.mark_ascii _ (by decide)]
    decide

/-! ## Characters, quotations and braces -/

theorem charOrTypevar_read {start : ℕ} {kind : TokenKind} {value : String} {text after : List Char}
    (hstop : isStopper stop = true) (h : charOrTypevar tables size start text = .ok (kind, value, after)) :
    ∃ piece, text = piece ++ after ∧ ∀ size' start' tail, SameUpTo stop after tail →
      charOrTypevar tables size' start' (piece ++ tail) = .ok (kind, value, tail) := by
  cases text with
  | nil => cases h
  | cons next rest =>
      rw [charOrTypevar] at h
      split at h
      · rename_i hslash
        split at h
        · cases h
        rename_i hunicode
        split at h
        · cases h
        rename_i decoded escaped hdecode
        split at h
        · cases h
        rename_i hclosed
        cases h
        obtain ⟨hquote, hbyte⟩ := not_or.mp hclosed
        have hescaped : escaped = '\'' :: escaped.tail := (List.cons_head?_tail (not_not.mp hquote)).symm
        have hquotes : isLiteralQuote '\'' = true := rfl
        obtain ⟨piece, rfl, hne, hread⟩ := decodeEscape_read hquotes hdecode
        refine ⟨next :: (piece ++ ['\'']), ?_, fun size' start' tail _ => ?_⟩
        · conv_lhs => rw [hescaped]
          simp
        · have hagree : AgreeTo '\'' escaped ('\'' :: tail) := ⟨[], _, tail, hescaped, rfl⟩
          have hassoc : next :: (piece ++ ['\'']) ++ tail = next :: (piece ++ '\'' :: tail) := by simp
          have hhead : (piece ++ '\'' :: tail).head? = (piece ++ escaped).head? := by
            rw [List.head?_append_of_ne_nil _ hne, List.head?_append_of_ne_nil _ hne]
          rw [← hhead] at hunicode
          rw [hassoc, charOrTypevar, if_pos hslash, if_neg hunicode, hread size' _ _ hagree]
          dsimp only
          rw [if_neg (by simpa using hbyte), List.tail_cons]
      rename_i hslash
      split at h
      · rename_i hchar
        split at h
        · cases h
        rename_i hsize
        cases h
        refine ⟨[next, '\''], ?_, fun size' start' tail _ => ?_⟩
        · rw [List.cons_append, List.cons_append, List.nil_append, List.cons_head?_tail hchar.2]
        · rw [List.cons_append, List.cons_append, List.nil_append, charOrTypevar, if_neg hslash,
            if_pos ⟨hchar.1, rfl⟩, if_neg hsize, List.tail_cons]
      rename_i hchar
      split at h
      · rename_i hstart
        cases h
        rw [drop_takeWhile_length]
        refine ⟨next :: rest.takeWhile (identifierContinue tables), ?_, fun size' start' tail hagree => ?_⟩
        · rw [List.cons_append, List.takeWhile_append_dropWhile]
        · have hwhole := hagree.prepend (rest.takeWhile (identifierContinue tables))
          rw [List.takeWhile_append_dropWhile] at hwhole
          rw [hwhole.head?_eq] at hchar
          rw [List.cons_append, charOrTypevar, if_neg hslash, if_neg hchar, if_pos hstart]
          dsimp only
          rw [hagree.takeWhile_append (identifierContinue_stopper hstop), List.drop_left]
      · cases h

theorem holBackquote_read {start : ℕ} {text after : List Char}
    (h : holBackquote size start text = .ok after) :
    ∃ piece, text = piece ++ backquote :: after ∧ backquote ∉ piece ∧ ∀ size' start' tail,
      holBackquote size' start' (piece ++ backquote :: tail) = .ok tail := by
  unfold holBackquote at h
  split at h
  · cases h
  rename_i before after' hsplit
  cases h
  obtain ⟨htext, hnotMem⟩ := splitAtChar_eq_some hsplit
  refine ⟨before, htext, hnotMem, fun size' start' tail => ?_⟩
  unfold holBackquote
  rw [splitAtChar_append hnotMem]

/-- What looks like a malformed quoted string does so in front of the next semicolon or backquote. -/
theorem looksLikeInvalidQuotedOpener_stopper (hstop : isStopper stop = true) (shared tail : List Char) :
    looksLikeInvalidQuotedOpener tables (shared ++ stop :: tail) =
      looksLikeInvalidQuotedOpener tables shared := by
  obtain ⟨count, hcount⟩ : ∃ count, count = maxQuotedDelimiterChars + 1 := ⟨_, rfl⟩
  unfold looksLikeInvalidQuotedOpener
  rw [← hcount, List.take_append]
  by_cases hbar : '|' ∈ shared.take count
  · obtain ⟨before, after, hshared, hbefore⟩ := List.eq_append_cons_of_mem hbar
    rw [hshared, List.append_assoc, List.cons_append, splitAtChar_append hbefore,
      splitAtChar_append hbefore]
  · rw [splitAtChar_eq_none hbar]
    split
    · rfl
    rename_i candidate rest hsplit
    obtain ⟨htext, hnotMem⟩ := splitAtChar_eq_some hsplit
    -- The bar lies behind the stopper, so the candidate has it.
    have hbarStop : '|' ≠ stop := by rcases isStopper_cases hstop with rfl | rfl <;> decide
    have hcandidate : stop ∈ candidate := by
      have hsecond : '|' ∉ shared.take count ∧ ∀ first after,
          (stop :: tail).take (count - shared.length) = first :: after → first = stop := by
        refine ⟨hbar, fun first after heq => ?_⟩
        cases hremaining : count - shared.length with
        | zero => simp [hremaining] at heq
        | succ remaining =>
            rw [hremaining, List.take_succ_cons] at heq
            cases heq
            rfl
      rcases List.append_eq_append_iff.mp htext with ⟨middle, rfl, hmiddle⟩ | ⟨middle, hshared, hrest⟩
      · cases middle with
        | nil => exact absurd (hsecond.2 _ _ hmiddle) hbarStop
        | cons first middle =>
            rw [hsecond.2 _ _ hmiddle]
            simp
      · cases middle with
        | nil => exact absurd (hsecond.2 _ _ hrest.symm) hbarStop
        | cons first middle =>
            cases hrest
            exact absurd (by rw [hshared]; simp) hbar
    cases candidate with
    | nil => rfl
    | cons first candidate =>
        dsimp only
        rw [Bool.and_eq_false_iff, Bool.not_eq_false', List.any_eq_true]
        refine .inl ⟨stop, hcandidate, ?_⟩
        rcases isStopper_cases hstop with rfl | rfl <;> decide

theorem lexBrace_none {index : ℕ} {rest rest' : List Char}
    (hstop : isStopper stop = true) (h : lexBrace tables size index rest = .ok none) (hagree : SameUpTo stop rest rest') (size' index' : ℕ) :
    lexBrace tables size' index' rest' = .ok none := by
  unfold lexBrace at h ⊢
  split at h
  · obtain ⟨after, -, heq⟩ := map_eq_ok.mp h
    cases heq
  rename_i hpercent
  rw [hagree.head?_eq] at hpercent
  rw [if_neg hpercent]
  split at h
  · cases h
  · obtain ⟨_, -, heq⟩ := map_eq_ok.mp h
    cases heq
  rename_i hopener
  rw [quotedOpener_none (stopper_notIn hstop rfl rfl) hopener hagree]
  dsimp only
  split at h
  · cases h
  rename_i hlooks
  rcases hagree with rfl | ⟨shared, tail, tail', rfl, rfl⟩
  · rw [if_neg hlooks]
  · rw [looksLikeInvalidQuotedOpener_stopper hstop] at hlooks ⊢
    rw [if_neg hlooks]

theorem lexBrace_read {index : ℕ} {kind : TokenKind} {literal : Option (Bytes × Bool)}
    {rest after : List Char} (h : lexBrace tables size index rest = .ok (some (kind, literal, after))) :
    ∃ piece, rest = piece ++ after ∧ ∀ size' index' tail,
      lexBrace tables size' index' (piece ++ tail) = .ok (some (kind, literal, tail)) := by
  unfold lexBrace at h
  split at h
  · rename_i hpercent
    obtain ⟨after', hextension, heq⟩ := map_eq_ok.mp h
    cases heq
    obtain ⟨piece, htext, hlength, hread⟩ := quotedExtensionEnd_read hextension
    obtain ⟨first, second, piece, rfl⟩ : ∃ first second rest, piece = first :: second :: rest := by
      match piece, hlength with
      | first :: second :: rest, _ => exact ⟨first, second, rest, rfl⟩
    cases htext
    refine ⟨second :: piece, rfl, fun size' index' tail => ?_⟩
    have hread := hread size' index' tail
    unfold lexBrace
    rw [if_pos (by simpa using hpercent)]
    rw [List.cons_append] at hread
    rw [hread]
    rfl
  rename_i hpercent
  split at h
  · cases h
  · rename_i delimiter content hopener
    obtain ⟨⟨value, after'⟩, hquoted, heq⟩ := map_eq_ok.mp h
    cases heq
    obtain ⟨rfl, hopens⟩ := quotedOpener_read hopener
    obtain ⟨piece, rfl, hread⟩ := quotedString_read hquoted
    refine ⟨delimiter ++ '|' :: piece, by simp, fun size' index' tail => ?_⟩
    have hassoc : delimiter ++ '|' :: piece ++ tail = delimiter ++ '|' :: (piece ++ tail) := by simp
    have hagree : AgreeTo '|' (delimiter ++ '|' :: (piece ++ after))
        (delimiter ++ '|' :: (piece ++ tail)) := ⟨delimiter, _, _, rfl, rfl⟩
    rw [hagree.head?_eq] at hpercent
    unfold lexBrace
    rw [hassoc, if_neg hpercent, hopens]
    dsimp only
    rw [hread]
    rfl
  · split at h <;> cases h

/-! ## Line directives -/

/-- A line directive starts a line. -/
def startsLine (previous : Option Char) : Bool :=
  !previous.any fun char => !isLineEnd char

theorem lineDirectiveEnd_none {start : ℕ} {previous : Option Char} {text text' : List Char}
    (hstop : isStopper stop = true) (h : lineDirectiveEnd size start previous text = .ok none) (hagree : SameUpTo stop text text')
    {previous' : Option Char} (hprevious : startsLine previous' = startsLine previous)
    (size' start' : ℕ) : lineDirectiveEnd size' start' previous' text' = .ok none := by
  have hsame : previous'.any (fun char => !isLineEnd char) = previous.any fun char => !isLineEnd char :=
    Bool.not_inj hprevious
  unfold lineDirectiveEnd at h ⊢
  rw [hsame]
  split at h
  · rename_i hinside
    rw [if_pos hinside]
  rename_i hinside
  rw [if_neg hinside]
  dsimp only at h ⊢
  have hnumbered : SameUpTo stop (text.dropWhile isSpaceOrTab) (text'.dropWhile isSpaceOrTab) :=
    hagree.dropWhile (stopper_notIn hstop rfl rfl)
  rw [← hnumbered.head?_eq]
  split at h
  · rename_i hdigit
    rw [if_pos hdigit]
  · split at h
    · cases h
    split at h
    · cases h
    split at h <;> cases h

/-- The lines behind the one that `text` stands in. -/
def nextLines (text : List Char) : List Char :=
  match text.dropWhile fun char => !isLineEnd char with
  | [] => []
  | '\r' :: '\n' :: rest => rest
  | _ :: rest => rest

/-- If a line ends with a carriage return, a line feed behind it belongs to its end. -/
theorem nextLines_read {text : List Char} (h : nextLines text ≠ []) :
    ∃ piece, text = piece ++ nextLines text ∧ ∀ tail, nextLines (piece ++ tail) = tail ∨
      ∃ line, tail = '\n' :: line ∧ (nextLines text).head? ≠ some '\n' ∧
        nextLines (piece ++ tail) = line := by
  obtain ⟨line, hline⟩ : ∃ line, (text.takeWhile fun char => !isLineEnd char) = line := ⟨_, rfl⟩
  have htext : text = line ++ text.dropWhile fun char => !isLineEnd char := by
    rw [← hline, List.takeWhile_append_dropWhile]
  -- Behind the same line, what `dropWhile` leaves begins with the same line end.
  have hdrop : ∀ {ending rest} tail, (text.dropWhile fun char => !isLineEnd char) = ending :: rest →
      isLineEnd ending = true →
      ((line ++ ending :: tail).dropWhile fun char => !isLineEnd char) = ending :: tail := by
    intro ending rest tail hrest hending
    have hagree : AgreeTo ending (text.dropWhile fun char => !isLineEnd char) (ending :: tail) :=
      ⟨[], rest, tail, hrest, rfl⟩
    rw [← hline]
    exact dropWhile_append_of_agree hagree (by rw [hending]; rfl)
  unfold nextLines at h ⊢
  split at h
  · exact absurd rfl h
  · rename_i rest hrest
    rw [hrest] at htext
    refine ⟨line ++ ['\r', '\n'], by simpa using htext, fun tail => .inl ?_⟩
    have hassoc : line ++ ['\r', '\n'] ++ tail = line ++ '\r' :: ('\n' :: tail) := by simp
    rw [hassoc, hdrop _ hrest rfl]
    rfl
  · rename_i ending rest hcrlf hrest
    have hending : isLineEnd ending = true := by
      have hhead := List.head?_dropWhile_not (fun char => !isLineEnd char) text
      rw [hrest] at hhead
      simpa using hhead
    rw [hrest] at htext
    refine ⟨line ++ [ending], by simpa using htext, fun tail => ?_⟩
    have hassoc : line ++ [ending] ++ tail = line ++ ending :: tail := by simp
    rw [hassoc, hdrop tail hrest hending]
    by_cases hreturn : ending = '\r' ∧ tail.head? = some '\n'
    · right
      have htail : '\n' :: tail.tail = tail := List.cons_head?_tail hreturn.2
      refine ⟨tail.tail, htail.symm, fun hhead => ?_, ?_⟩
      · exact hcrlf rest.tail hreturn.1 (List.cons_head?_tail hhead).symm
      · rw [hreturn.1, ← htail]
        rfl
    · left
      split
      · rename_i heq
        cases heq
      · rename_i heq
        cases heq
        exact absurd ⟨rfl, rfl⟩ hreturn
      · rename_i heq
        cases heq
        rfl

/-- A line directive whose number and file name are there reads the rest of its line. -/
theorem lineDirectiveEnd_closed {start : ℕ} {previous : Option Char} {text numbered quoted closed : List Char}
    (hinside : ¬ previous.any (fun char => !isLineEnd char) = true)
    (hnumbered : text.dropWhile isSpaceOrTab = numbered) (hdigit : ¬ ¬ numbered.head?.any isAsciiDigit = true)
    (hquoted : (numbered.dropWhile isAsciiDigit).dropWhile isSpaceOrTab = quoted)
    (hopen : ¬ quoted.head? ≠ some '"')
    (hclosed : (quoted.tail.dropWhile fun char => char ≠ '"' && !isLineEnd char) = closed)
    (hclose : ¬ closed.head? ≠ some '"') :
    lineDirectiveEnd size start previous text = .ok (some (nextLines closed.tail)) := by
  unfold lineDirectiveEnd nextLines
  rw [if_neg hinside]
  dsimp only
  rw [hnumbered, if_neg hdigit, hquoted, if_neg hopen, hclosed, if_neg hclose]
  obtain ⟨ending, hending⟩ : ∃ ending, (closed.tail.dropWhile fun char => !isLineEnd char) = ending := ⟨_, rfl⟩
  rw [hending]
  match ending with
  | [] => rfl
  | [_] => split <;> simp_all
  | _ :: _ :: _ => split <;> simp_all

/-- A line directive reads its number and its file name, and then the rest of its line. -/
theorem lineDirectiveEnd_opening {start : ℕ} {previous : Option Char} {text after : List Char}
    (h : lineDirectiveEnd size start previous text = .ok (some after)) :
    ∃ opening line, text = opening ++ line ∧ nextLines line = after ∧
      ∀ size' start' previous' line', startsLine previous' = startsLine previous →
        lineDirectiveEnd size' start' previous' (opening ++ line') = .ok (some (nextLines line')) := by
  have hends := h
  unfold lineDirectiveEnd at h
  split at h
  · cases h
  rename_i hinside
  dsimp only at h
  split at h
  · cases h
  rename_i hdigit
  obtain ⟨numbered, hnumbered⟩ : ∃ numbered, text.dropWhile isSpaceOrTab = numbered := ⟨_, rfl⟩
  obtain ⟨spaced, hspaced⟩ : ∃ spaced, numbered.dropWhile isAsciiDigit = spaced := ⟨_, rfl⟩
  obtain ⟨quoted, hquoted⟩ : ∃ quoted, spaced.dropWhile isSpaceOrTab = quoted := ⟨_, rfl⟩
  rw [hnumbered] at h hdigit
  rw [hspaced, hquoted] at h
  split at h
  · cases h
  rename_i hopen
  obtain ⟨closed, hclosed⟩ : ∃ closed,
      (quoted.tail.dropWhile fun char => char ≠ '"' && !isLineEnd char) = closed := ⟨_, rfl⟩
  obtain ⟨name, hname⟩ : ∃ name,
      (quoted.tail.takeWhile fun char => char ≠ '"' && !isLineEnd char) = name := ⟨_, rfl⟩
  rw [hclosed] at h
  split at h
  · cases h
  rename_i hclose
  rw [lineDirectiveEnd_closed hinside hnumbered hdigit (hspaced ▸ hquoted) hopen hclosed hclose] at hends
  cases hends
  have hopen' : quoted = '"' :: quoted.tail := (List.cons_head?_tail (not_not.mp hopen)).symm
  have hclose' : closed = '"' :: closed.tail := (List.cons_head?_tail (not_not.mp hclose)).symm
  -- Each run of the directive ends in front of a quote, or of what leads to one.
  have hagreeClosed : ∀ line', AgreeTo '"' (quoted.tail.dropWhile fun char => char ≠ '"' && !isLineEnd char)
      ('"' :: line') := fun line' => ⟨[], _, line', hclosed.trans hclose', rfl⟩
  have hagreeQuoted : ∀ line', AgreeTo '"' (spaced.dropWhile isSpaceOrTab) ('"' :: (name ++ '"' :: line')) :=
    fun line' => ⟨[], _, _, hquoted.trans hopen', rfl⟩
  have hagreeSpaced : ∀ line', AgreeTo '"' (numbered.dropWhile isAsciiDigit)
      (spaced.takeWhile isSpaceOrTab ++ '"' :: (name ++ '"' :: line')) := by
    intro line'
    have hprepend := (hagreeQuoted line').prepend (spaced.takeWhile isSpaceOrTab)
    rw [List.takeWhile_append_dropWhile] at hprepend
    rwa [hspaced]
  have hagreeNumbered : ∀ line', AgreeTo '"' (text.dropWhile isSpaceOrTab) (numbered.takeWhile isAsciiDigit ++
      (spaced.takeWhile isSpaceOrTab ++ '"' :: (name ++ '"' :: line'))) := by
    intro line'
    have hprepend := (hagreeSpaced line').prepend (numbered.takeWhile isAsciiDigit)
    rw [List.takeWhile_append_dropWhile] at hprepend
    rwa [hnumbered]
  refine ⟨text.takeWhile isSpaceOrTab ++ (numbered.takeWhile isAsciiDigit ++
    (spaced.takeWhile isSpaceOrTab ++ '"' :: (name ++ ['"']))), closed.tail, ?_, rfl,
    fun size' start' previous' line' hprevious => ?_⟩
  · calc
      text = text.takeWhile isSpaceOrTab ++ (numbered.takeWhile isAsciiDigit ++
          (spaced.takeWhile isSpaceOrTab ++ quoted)) := by
        rw [← hquoted, List.takeWhile_append_dropWhile, ← hspaced, List.takeWhile_append_dropWhile,
          ← hnumbered, List.takeWhile_append_dropWhile]
      _ = text.takeWhile isSpaceOrTab ++ (numbered.takeWhile isAsciiDigit ++
          (spaced.takeWhile isSpaceOrTab ++ '"' :: (name ++ closed))) := by
        rw [← hname, ← hclosed, List.takeWhile_append_dropWhile, ← hopen']
      _ = _ := by
        rw [hclose']
        simp
  · have hsame : previous'.any (fun char => !isLineEnd char) = previous.any fun char => !isLineEnd char :=
      Bool.not_inj hprevious
    have hassoc : text.takeWhile isSpaceOrTab ++ (numbered.takeWhile isAsciiDigit ++
        (spaced.takeWhile isSpaceOrTab ++ '"' :: (name ++ ['"']))) ++ line' =
        text.takeWhile isSpaceOrTab ++ (numbered.takeWhile isAsciiDigit ++
          (spaced.takeWhile isSpaceOrTab ++ '"' :: (name ++ '"' :: line'))) := by simp
    have hdigit' := hdigit
    rw [← hnumbered, (hagreeNumbered line').head?_eq] at hdigit'
    have hinside' := hinside
    rw [← hsame] at hinside'
    have hclosed' : (('"' :: (name ++ '"' :: line')).tail.dropWhile fun char => char ≠ '"' && !isLineEnd char) =
        '"' :: line' := by
      rw [List.tail_cons, ← hname, dropWhile_append_of_agree (hagreeClosed line') (by decide)]
    have hquoted' : ((numbered.takeWhile isAsciiDigit ++
        (spaced.takeWhile isSpaceOrTab ++ '"' :: (name ++ '"' :: line'))).dropWhile isAsciiDigit).dropWhile
          isSpaceOrTab = '"' :: (name ++ '"' :: line') := by
      rw [dropWhile_append_of_agree (hagreeSpaced line') (by decide),
        dropWhile_append_of_agree (hagreeQuoted line') (by decide)]
    rw [hassoc]
    exact lineDirectiveEnd_closed hinside' (dropWhile_append_of_agree (hagreeNumbered line') (by decide)) hdigit'
      hquoted' (by simp) hclosed' (by simp)

/-- A line directive in front of more text, or at the end of the text. -/
theorem lineDirectiveEnd_read {start : ℕ} {previous : Option Char} {text after : List Char}
    (h : lineDirectiveEnd size start previous text = .ok (some after)) :
    ∃ piece, text = piece ++ after ∧ ∀ size' start' previous' tail, startsLine previous' = startsLine previous →
      (after = [] → tail = []) →
      lineDirectiveEnd size' start' previous' (piece ++ tail) = .ok (some tail) ∨
        ∃ line, tail = '\n' :: line ∧ after.head? ≠ some '\n' ∧
          lineDirectiveEnd size' start' previous' (piece ++ tail) = .ok (some line) := by
  obtain ⟨opening, line, htext, rfl, hread⟩ := lineDirectiveEnd_opening h
  by_cases hafter : nextLines line = []
  · refine ⟨text, by rw [hafter, List.append_nil], fun size' start' previous' tail hprevious hend => .inl ?_⟩
    rw [hend hafter, List.append_nil, htext, hread size' start' previous' line hprevious, hafter]
  · obtain ⟨piece, hpiece, hnext⟩ := nextLines_read hafter
    refine ⟨opening ++ piece, by rw [List.append_assoc, ← hpiece, htext],
      fun size' start' previous' tail hprevious _ => ?_⟩
    rw [List.append_assoc, hread size' start' previous' (piece ++ tail) hprevious]
    rcases hnext tail with heq | ⟨line', htail, hhead, heq⟩
    · exact .inl (by rw [heq])
    · exact .inr ⟨line', htail, hhead, by rw [heq]⟩

/-! ## Words and symbols -/

theorem lexRawIdentifier_read {index : ℕ} {kind : TokenKind} {value : String} {rest after : List Char}
    (hstop : isStopper stop = true) (h : lexRawIdentifier tables size index rest = .ok (kind, value, after)) :
    ∃ piece, rest = piece ++ after ∧ ∀ size' index' tail, SameUpTo stop after tail →
      lexRawIdentifier tables size' index' (piece ++ tail) = .ok (kind, value, tail) := by
  unfold lexRawIdentifier at h
  split at h
  · cases h
  rename_i hhash
  split at h
  · cases h
  rename_i hstart
  cases h
  obtain ⟨first, name, rfl⟩ : ∃ first name, rest = '#' :: first :: name := by
    match rest, not_not.mp hhash, hstart with
    | _ :: first :: name, hhead, _ => exact ⟨first, name, by rw [Option.some.inj hhead]⟩
    | [_], _, hstart => exact absurd nofun hstart
  have hafter : (first :: name).drop
      ((first :: name).head?.toList ++ (first :: name).tail.takeWhile (identifierContinue tables)).length =
        name.dropWhile (identifierContinue tables) :=
    drop_takeWhile_length _ name
  simp only [List.tail_cons] at *
  rw [hafter]
  refine ⟨'#' :: first :: name.takeWhile (identifierContinue tables), ?_, fun size' index' tail hagree => ?_⟩
  · simp
  · have hname := hagree.takeWhile_append (identifierContinue_stopper hstop)
    have hstart' : ¬ ¬ (some first).any (identifierStart tables) := hstart
    unfold lexRawIdentifier
    rw [List.cons_append, List.cons_append, if_neg (by simp)]
    simp only [List.tail_cons, List.head?_cons, Option.toList_some, hname]
    rw [if_neg hstart']
    congr 3
    exact List.drop_left

theorem lexSymbol_read {index : ℕ} {char : Char} {kind : TokenKind} {value : String}
    {rest after : List Char} (hstop : isStopper stop = true) (h : lexSymbol tables index char rest = .ok (kind, value, after)) :
    ∃ piece, rest = piece ++ after ∧ ∀ index' tail, SameUpTo stop after tail →
      lexSymbol tables index' char (piece ++ tail) = .ok (kind, value, tail) := by
  unfold lexSymbol at h
  split at h
  · rename_i hunicode
    cases h
    refine ⟨[], rfl, fun index' tail _ => ?_⟩
    simp only [lexSymbol, hunicode, List.nil_append]
  rename_i hunicode
  split at h
  · rename_i hoperator
    cases h
    rw [drop_takeWhile_length]
    refine ⟨rest.takeWhile isOperatorChar, by rw [List.takeWhile_append_dropWhile],
      fun index' tail hagree => ?_⟩
    simp only [lexSymbol, hunicode, if_pos hoperator]
    rw [hagree.takeWhile_append (stopper_notIn hstop rfl rfl), List.drop_left]
  rename_i hoperator
  split at h
  · rename_i hdigit
    cases h
    rw [drop_takeWhile_length]
    refine ⟨rest.takeWhile fun char => isAsciiDigit char || isAsciiLetter char,
      by rw [List.takeWhile_append_dropWhile], fun index' tail hagree => ?_⟩
    simp only [lexSymbol, hunicode, if_neg hoperator, if_pos hdigit]
    rw [hagree.takeWhile_append (stopper_notIn (p := fun char => isAsciiDigit char || isAsciiLetter char) hstop rfl rfl), List.drop_left]
  split at h <;> cases h

/-! ## A round -/

/-- The same token in another text, with `tail` left behind it. -/
structure SameRound (lexed lexed' : Lexed) (tail : List Char) : Prop where
  token : lexed'.token = lexed.token
  delimiters : lexed'.delimiters.map Prod.fst = lexed.delimiters.map Prod.fst
  rest : lexed'.rest = tail

theorem stepDelimiter_read {index : ℕ} {char : Char} {kind : TokenKind}
    {delimiters delimiters' next : List (TokenKind × ℕ)}
    (h : stepDelimiter index char kind delimiters = .ok next)
    (hsame : delimiters'.map Prod.fst = delimiters.map Prod.fst) (index' : ℕ) :
    ∃ next', stepDelimiter index' char kind delimiters' = .ok next' ∧
      next'.map Prod.fst = next.map Prod.fst := by
  have hlength : delimiters'.length = delimiters.length := by
    simpa using congrArg List.length hsame
  unfold stepDelimiter at h ⊢
  split at h
  · rename_i closer hcloser
    split at h
    · cases h
    rename_i hnesting
    cases h
    rw [hlength, if_neg hnesting]
    exact ⟨_, rfl, by simp [hsame]⟩
  · split at h
    · rename_i expected start rest
      split at h
      · rename_i hexpected
        cases h
        match delimiters', hsame with
        | (expected', start') :: rest', hsame =>
            obtain ⟨rfl, hrest⟩ := List.cons.inj hsame
            exact ⟨rest', if_pos hexpected, hrest⟩
      · cases h
    · cases h

/-- What makes a `#use`. -/
theorem use_iff_of_agree {rest rest' : List Char} (hstop : isStopper stop = true) (hagree : SameUpTo stop rest rest') :
    "use".toList.isPrefixOf rest ∧ ¬ (rest.drop 3).head?.any (identifierContinue tables) ↔
      "use".toList.isPrefixOf rest' ∧ ¬ (rest'.drop 3).head?.any (identifierContinue tables) := by
  have hpattern : stop ∉ "use".toList := by rcases isStopper_cases hstop with rfl | rfl <;> decide
  have hbegins := hagree.isPrefixOf_eq hpattern
  rw [hbegins]
  refine and_congr_right fun huse => ?_
  have htake : rest.take 3 = "use".toList := by
    rw [← hbegins] at huse
    exact (List.prefix_iff_eq_take.mp (List.isPrefixOf_iff_prefix.mp huse)).symm
  have hbefore : stop ∉ rest.take 3 := by
    rw [htake]
    exact hpattern
  rw [(hagree.drop hbefore).head?_eq]

/-- One branch of the main loop, on text without blanks, comments, strings, characters or quotations. -/
theorem lexPlain_read {index : ℕ} {delimiters : List (TokenKind × ℕ)} {char : Char} {rest : List Char}
    {lexed : Lexed} (hstop : isStopper stop = true) (h : lexPlain tables size index delimiters char rest = .ok lexed) :
    ∃ piece, rest = piece ++ lexed.rest ∧ ∀ size' index' delimiters' tail,
      delimiters'.map Prod.fst = delimiters.map Prod.fst →
      (char = ';' ∧ rest.head? = some ';') ∨ SameUpTo stop lexed.rest tail →
      ∃ lexed', lexPlain tables size' index' delimiters' char (piece ++ tail) = .ok lexed' ∧
        SameRound lexed lexed' tail := by
  unfold lexPlain at h
  dsimp only at h
  split at h
  · rename_i hsemisemi
    split at h
    · cases h
    rename_i hopen
    cases h
    refine ⟨[';'], (List.cons_head?_tail hsemisemi.2).symm, fun size' index' delimiters' tail hsame _ => ?_⟩
    have hnil : delimiters = [] := not_not.mp hopen
    have hnil' : delimiters' = [] := by
      rw [hnil] at hsame
      exact List.map_eq_nil_iff.mp hsame
    unfold lexPlain
    rw [List.cons_append, List.nil_append, if_pos ⟨hsemisemi.1, rfl⟩, if_neg (by simpa using hnil')]
    exact ⟨_, rfl, rfl, by rw [hnil, hnil'], rfl⟩
  rename_i hsemisemi
  split at h
  · rename_i hsemi
    cases h
    refine ⟨[], rfl, fun size' index' delimiters' tail hsame hahead => ?_⟩
    have hagree := hahead.resolve_left hsemisemi
    rw [hagree.head?_eq] at hsemisemi
    unfold lexPlain
    rw [List.nil_append, if_neg hsemisemi, if_pos hsemi]
    exact ⟨_, rfl, rfl, hsame, rfl⟩
  rename_i hsemi
  have hplain : ∀ rest : List Char, ¬ (char = ';' ∧ rest.head? = some ';') :=
    fun rest hboth => hsemi hboth.1
  split at h
  · rename_i hcomma
    cases h
    refine ⟨[], rfl, fun size' index' delimiters' tail hsame _ => ?_⟩
    unfold lexPlain
    rw [List.nil_append, if_neg (hplain _), if_neg hsemi, if_pos hcomma]
    exact ⟨_, rfl, rfl, hsame, rfl⟩
  rename_i hcomma
  split at h
  · rename_i kind hkind
    obtain ⟨next, hstep, rfl⟩ := map_eq_ok.mp h
    refine ⟨[], rfl, fun size' index' delimiters' tail hsame _ => ?_⟩
    obtain ⟨next', hstep', hsame'⟩ := stepDelimiter_read hstep hsame index'
    unfold lexPlain
    rw [List.nil_append, if_neg (hplain _), if_neg hsemi, if_neg hcomma, hkind]
    dsimp only
    rw [hstep']
    exact ⟨_, rfl, rfl, hsame', rfl⟩
  rename_i hkind
  split at h
  · rename_i huse
    cases h
    have htake : rest.take 3 = "use".toList :=
      (List.prefix_iff_eq_take.mp (List.isPrefixOf_iff_prefix.mp huse.2.1)).symm
    refine ⟨rest.take 3, (List.take_append_drop 3 rest).symm,
      fun size' index' delimiters' tail hsame hahead => ?_⟩
    have hagree : SameUpTo stop (rest.drop 3) tail := hahead.resolve_left hsemisemi
    have hwhole := hagree.prepend (rest.take 3)
    rw [List.take_append_drop] at hwhole
    unfold lexPlain
    rw [if_neg (hplain _), if_neg hsemi, if_neg hcomma, hkind]
    dsimp only
    rw [if_pos ⟨huse.1, (use_iff_of_agree hstop hwhole).mp huse.2⟩]
    exact ⟨_, rfl, rfl, hsame, List.drop_left' (by rw [htake]; rfl)⟩
  rename_i huse
  have huse' : ∀ rest', SameUpTo stop rest rest' → ¬ (char = '#' ∧ "use".toList.isPrefixOf rest' ∧
      ¬ (rest'.drop 3).head?.any (identifierContinue tables)) :=
    fun rest' hagree huse' => huse ⟨huse'.1, (use_iff_of_agree hstop hagree).mpr huse'.2⟩
  split at h
  · rename_i hslash
    obtain ⟨⟨kind, value, after⟩, hraw, rfl⟩ := map_eq_ok.mp h
    obtain ⟨piece, rfl, hread⟩ := lexRawIdentifier_read hstop hraw
    refine ⟨piece, rfl, fun size' index' delimiters' tail hsame hahead => ?_⟩
    have hagree := hahead.resolve_left hsemisemi
    unfold lexPlain
    rw [if_neg (hplain _), if_neg hsemi, if_neg hcomma, hkind]
    dsimp only
    rw [if_neg (huse' _ (hagree.prepend piece)), if_pos hslash, hread size' index' tail hagree]
    exact ⟨_, rfl, rfl, hsame, rfl⟩
  rename_i hslash
  split at h
  · rename_i hstart
    cases h
    refine ⟨rest.takeWhile (identifierContinue tables), ?_,
      fun size' index' delimiters' tail hsame hahead => ?_⟩
    · rw [drop_takeWhile_length, List.takeWhile_append_dropWhile]
    have hagree := hahead.resolve_left hsemisemi
    dsimp only at hagree
    rw [drop_takeWhile_length] at hagree
    have hwhole := hagree.prepend (rest.takeWhile (identifierContinue tables))
    rw [List.takeWhile_append_dropWhile] at hwhole
    unfold lexPlain
    rw [if_neg (hplain _), if_neg hsemi, if_neg hcomma, hkind]
    dsimp only
    rw [if_neg (huse' _ hwhole), if_neg hslash, if_pos hstart,
      hagree.takeWhile_append (identifierContinue_stopper hstop), List.drop_left]
    exact ⟨_, rfl, rfl, hsame, rfl⟩
  · rename_i hstart
    obtain ⟨⟨kind, value, after⟩, hsymbol, rfl⟩ := map_eq_ok.mp h
    obtain ⟨piece, rfl, hread⟩ := lexSymbol_read hstop hsymbol
    refine ⟨piece, rfl, fun size' index' delimiters' tail hsame hahead => ?_⟩
    have hagree := hahead.resolve_left hsemisemi
    unfold lexPlain
    rw [if_neg (hplain _), if_neg hsemi, if_neg hcomma, hkind]
    dsimp only
    rw [if_neg (huse' _ (hagree.prepend piece)), if_neg hslash, if_neg hstart, hread index' tail hagree]
    exact ⟨_, rfl, rfl, hsame, rfl⟩

/-! ## The kinds of the tokens -/

theorem charOrTypevar_kind {start : ℕ} {kind : TokenKind} {value : String} {text after : List Char}
    (h : charOrTypevar tables size start text = .ok (kind, value, after)) :
    kind = .char ∨ kind = .typevar := by
  unfold charOrTypevar at h
  split at h
  · cases h
  split at h
  · split at h
    · cases h
    split at h
    · cases h
    split at h <;> cases h
    exact .inl rfl
  split at h
  · split at h <;> cases h
    exact .inl rfl
  split at h <;> cases h
  exact .inr rfl

theorem lexBrace_kind {index : ℕ} {kind : TokenKind} {literal : Option (Bytes × Bool)}
    {rest after : List Char} (h : lexBrace tables size index rest = .ok (some (kind, literal, after))) :
    kind = .opaqueExtension ∨ kind = .string := by
  unfold lexBrace at h
  split at h
  · obtain ⟨_, -, heq⟩ := map_eq_ok.mp h
    cases heq
    exact .inl rfl
  split at h
  · cases h
  · obtain ⟨_, -, heq⟩ := map_eq_ok.mp h
    cases heq
    exact .inr rfl
  · split at h <;> cases h

theorem wordKind_eq (kind : TokenKind) (value : String) :
    wordKind kind value = .loader ∨ wordKind kind value = kind := by
  unfold wordKind
  split
  · exact .inl rfl
  · exact .inr rfl

theorem lexRawIdentifier_kind {index : ℕ} {kind : TokenKind} {value : String} {rest after : List Char}
    (h : lexRawIdentifier tables size index rest = .ok (kind, value, after)) :
    kind = .loader ∨ kind = .rawIdent := by
  unfold lexRawIdentifier at h
  split at h
  · cases h
  split at h
  · cases h
  · cases h
    exact wordKind_eq _ _

theorem lexSymbol_kind {index : ℕ} {char : Char} {kind : TokenKind} {value : String}
    {rest after : List Char} (h : lexSymbol tables index char rest = .ok (kind, value, after)) :
    kind = .op ∨ kind = .atom := by
  unfold lexSymbol at h
  split at h
  · cases h
    exact .inl rfl
  split at h
  · cases h
    exact .inl rfl
  split at h
  · cases h
    exact .inr rfl
  split at h <;> cases h

/-- The last branch appends a token, a double semicolon only where no delimiter is open, and never a
quotation. -/
theorem lexPlain_token {index : ℕ} {delimiters : List (TokenKind × ℕ)} {char : Char} {rest : List Char}
    {lexed : Lexed} (h : lexPlain tables size index delimiters char rest = .ok lexed) :
    ∃ kind value literal, lexed.token = some (kind, value, literal) ∧ kind ≠ .hol ∧ (kind = .semisemi →
      char = ';' ∧ rest.head? = some ';' ∧ delimiters = [] ∧ lexed.delimiters = []) := by
  unfold lexPlain at h
  dsimp only at h
  split at h
  · rename_i hsemisemi
    split at h
    · cases h
    rename_i hopen
    cases h
    exact ⟨_, _, _, rfl, nofun, fun _ => ⟨hsemisemi.1, hsemisemi.2, not_not.mp hopen, not_not.mp hopen⟩⟩
  split at h
  · cases h
    exact ⟨_, _, _, rfl, nofun, nofun⟩
  split at h
  · cases h
    exact ⟨_, _, _, rfl, nofun, nofun⟩
  split at h
  · rename_i kind hkind
    obtain ⟨next, -, rfl⟩ := map_eq_ok.mp h
    refine ⟨_, _, _, rfl, ?_⟩
    unfold delimiterKind at hkind
    split at hkind <;> cases hkind <;> exact ⟨nofun, nofun⟩
  split at h
  · cases h
    exact ⟨_, _, _, rfl, nofun, nofun⟩
  split at h
  · obtain ⟨⟨kind, value, after⟩, hraw, rfl⟩ := map_eq_ok.mp h
    refine ⟨_, _, _, rfl, ?_⟩
    rcases lexRawIdentifier_kind hraw with rfl | rfl <;> exact ⟨nofun, nofun⟩
  split at h
  · cases h
    refine ⟨_, _, _, rfl, ?_⟩
    rcases wordKind_eq .ident (String.ofList (char :: rest.takeWhile (identifierContinue tables))) with
      heq | heq <;> rw [heq] <;> exact ⟨nofun, nofun⟩
  · obtain ⟨⟨kind, value, after⟩, hsymbol, rfl⟩ := map_eq_ok.mp h
    refine ⟨_, _, _, rfl, ?_⟩
    rcases lexSymbol_kind hsymbol with rfl | rfl <;> exact ⟨nofun, nofun⟩

/-- One round: what it reads ends in front of `lexed.rest`, and it is read again in front of a `tail` that
need not agree at all behind what is no token or ends a phrase, and is empty only behind the whole text. -/
theorem lexToken_read {previous : Option Char} {delimiters : List (TokenKind × ℕ)} {char : Char}
    {rest : List Char} {lexed : Lexed} (hstop : isStopper stop = true)
    (h : lexToken tables size previous delimiters char rest = .ok lexed) :
    ∃ piece, rest = piece ++ lexed.rest ∧ ∀ size' previous' delimiters' tail,
      startsLine previous' = startsLine previous → delimiters'.map Prod.fst = delimiters.map Prod.fst →
      (lexed.rest = [] → tail = []) →
      lexed.token = none ∨ (char = ';' ∧ rest.head? = some ';') ∨ SameUpTo stop lexed.rest tail →
      ∃ lexed', lexToken tables size' previous' delimiters' char (piece ++ tail) = .ok lexed' ∧
        (SameRound lexed lexed' tail ∨ ∃ line, tail = '\n' :: line ∧ lexed.rest.head? ≠ some '\n' ∧
          lexed.token = none ∧ SameRound lexed lexed' line) := by
  unfold lexToken at h
  dsimp only at h
  split at h
  · rename_i hblank
    cases h
    refine ⟨[], rfl, fun size' previous' delimiters' tail _ hsame _ _ => ?_⟩
    unfold lexToken
    rw [List.nil_append, if_pos hblank]
    exact ⟨_, rfl, .inl ⟨rfl, hsame, rfl⟩⟩
  rename_i hblank
  by_cases hhash : char = '#'
  · rw [if_pos hhash] at h
    split at h
    · cases h
    · rename_i after hdirective
      cases h
      obtain ⟨piece, rfl, hread⟩ := lineDirectiveEnd_read hdirective
      refine ⟨piece, rfl, fun size' previous' delimiters' tail hprevious hsame hend _ => ?_⟩
      unfold lexToken
      dsimp only
      rw [if_neg hblank, if_pos hhash]
      rcases hread size' (size' - ((piece ++ tail).length + 1)) previous' tail hprevious hend with
        heq | ⟨line, htail, hhead, heq⟩
      · rw [heq]
        exact ⟨_, rfl, .inl ⟨rfl, hsame, rfl⟩⟩
      · rw [heq]
        exact ⟨_, rfl, .inr ⟨line, htail, hhead, rfl, rfl, hsame, rfl⟩⟩
    · rename_i hdirective
      subst hhash
      rw [if_neg (by simp), if_neg (by decide), if_neg (by decide)] at h
      dsimp only at h
      rw [if_neg (by decide), if_neg (by decide)] at h
      obtain ⟨kind, value, literal, htoken, -, -⟩ := lexPlain_token h
      obtain ⟨piece, rfl, hread⟩ := lexPlain_read hstop h
      refine ⟨piece, rfl, fun size' previous' delimiters' tail hprevious hsame _ hahead => ?_⟩
      have hahead := hahead.resolve_left (by rw [htoken]; nofun)
      have hagree : SameUpTo stop lexed.rest tail := hahead.resolve_left (by simp)
      have hnone := lineDirectiveEnd_none hstop hdirective (hagree.prepend piece) hprevious size'
        (size' - ((piece ++ tail).length + 1))
      obtain ⟨lexed', hlexed', hround⟩ :=
        hread size' (size' - ((piece ++ tail).length + 1)) delimiters' tail hsame (.inr hagree)
      refine ⟨lexed', ?_, .inl hround⟩
      unfold lexToken
      dsimp only
      rw [if_neg hblank, if_pos rfl, hnone]
      dsimp only
      rw [if_neg (by simp), if_neg (by decide), if_neg (by decide)]
      dsimp only
      rw [if_neg (by decide), if_neg (by decide), hlexed']
  · rw [if_neg hhash] at h
    dsimp only at h
    split at h
    · rename_i hcomment
      obtain ⟨after, hread, rfl⟩ := map_eq_ok.mp h
      obtain ⟨body, hbody, -, hread⟩ := commentFrom_read hread
      refine ⟨'*' :: (body ++ ['*', ')']), ?_, fun size' previous' delimiters' tail _ hsame _ _ => ?_⟩
      · rw [← List.cons_head?_tail hcomment.2, hbody]
        simp
      · have hassoc : '*' :: (body ++ ['*', ')']) ++ tail = '*' :: (body ++ '*' :: ')' :: tail) := by simp
        unfold lexToken
        dsimp only
        rw [hassoc, if_neg hblank, if_neg hhash]
        dsimp only
        rw [if_pos ⟨hcomment.1, rfl⟩, List.tail_cons, hread]
        exact ⟨_, rfl, .inl ⟨rfl, hsame, rfl⟩⟩
    rename_i hcomment
    split at h
    · rename_i hquote
      obtain ⟨⟨value, after⟩, hstring, rfl⟩ := map_eq_ok.mp h
      obtain ⟨body, hbody, -, hread⟩ := ordinaryStringFrom_read hstring
      refine ⟨body ++ ['"'], by rw [hbody]; simp, fun size' previous' delimiters' tail _ hsame _ _ => ?_⟩
      have hassoc : body ++ ['"'] ++ tail = body ++ '"' :: tail := by simp
      unfold lexToken
      dsimp only
      rw [hassoc, if_neg hblank, if_neg hhash]
      dsimp only
      rw [if_neg (by simp [hquote]), if_pos hquote, hread]
      exact ⟨_, rfl, .inl ⟨rfl, hsame, rfl⟩⟩
    rename_i hquote
    split at h
    · cases h
    · rename_i kind literal after hbrace
      cases h
      split at hbrace
      · rename_i hopen
        obtain ⟨piece, rfl, hread⟩ := lexBrace_read hbrace
        refine ⟨piece, rfl, fun size' previous' delimiters' tail _ hsame _ _ => ?_⟩
        unfold lexToken
        dsimp only
        rw [if_neg hblank, if_neg hhash]
        dsimp only
        rw [if_neg (by simp [hopen]), if_neg hquote, if_pos hopen, hread]
        exact ⟨_, rfl, .inl ⟨rfl, hsame, rfl⟩⟩
      · cases hbrace
    rename_i hbrace
    split at h
    · rename_i hapostrophe
      obtain ⟨⟨kind, value, after⟩, hchar, rfl⟩ := map_eq_ok.mp h
      obtain ⟨piece, rfl, hread⟩ := charOrTypevar_read hstop hchar
      refine ⟨piece, rfl, fun size' previous' delimiters' tail _ hsame _ hahead => ?_⟩
      have hagree : SameUpTo stop after tail :=
        (hahead.resolve_left nofun).resolve_left (by simp [hapostrophe])
      unfold lexToken
      dsimp only
      rw [if_neg hblank, if_neg hhash]
      dsimp only
      rw [if_neg (by simp [hapostrophe]), if_neg hquote, if_neg (by simp [hapostrophe])]
      dsimp only
      rw [if_pos hapostrophe, hread _ _ tail hagree]
      exact ⟨_, rfl, .inl ⟨rfl, hsame, rfl⟩⟩
    rename_i hapostrophe
    split at h
    · rename_i hbackquote
      obtain ⟨after, hhol, rfl⟩ := map_eq_ok.mp h
      obtain ⟨body, rfl, -, hread⟩ := holBackquote_read hhol
      refine ⟨body ++ [backquote], by simp, fun size' previous' delimiters' tail _ hsame _ _ => ?_⟩
      have hassoc : body ++ [backquote] ++ tail = body ++ backquote :: tail := by simp
      unfold lexToken
      dsimp only
      rw [hassoc, if_neg hblank, if_neg hhash]
      dsimp only
      rw [if_neg (by simp [hbackquote, backquote]), if_neg hquote, if_neg (by simp [hbackquote, backquote])]
      dsimp only
      rw [if_neg hapostrophe, if_pos hbackquote, hread]
      exact ⟨_, rfl, .inl ⟨rfl, hsame, rfl⟩⟩
    · rename_i hbackquote
      obtain ⟨kind, value, literal, htoken, -, -⟩ := lexPlain_token h
      obtain ⟨piece, rfl, hread⟩ := lexPlain_read hstop h
      refine ⟨piece, rfl, fun size' previous' delimiters' tail hprevious hsame _ hahead => ?_⟩
      have hahead := hahead.resolve_left (by rw [htoken]; nofun)
      have hcomment' : ¬ (char = '(' ∧ (piece ++ tail).head? = some '*') := by
        rintro ⟨hparen, hstar⟩
        have hagree : SameUpTo stop lexed.rest tail := hahead.resolve_left (by simp [hparen])
        rw [← (hagree.prepend piece).head?_eq] at hstar
        exact hcomment ⟨hparen, hstar⟩
      have hbrace' : (if char = '\x7b' then
          lexBrace tables size' (size' - ((piece ++ tail).length + 1)) (piece ++ tail) else .ok none) =
            .ok none := by
        split at hbrace
        · rename_i hopen
          have hagree : SameUpTo stop lexed.rest tail := hahead.resolve_left (by simp [hopen])
          rw [if_pos hopen, lexBrace_none hstop hbrace (hagree.prepend piece)]
        · rename_i hopen
          rw [if_neg hopen]
      obtain ⟨lexed', hlexed', hround⟩ :=
        hread size' (size' - ((piece ++ tail).length + 1)) delimiters' tail hsame hahead
      refine ⟨lexed', ?_, .inl hround⟩
      unfold lexToken
      dsimp only
      rw [if_neg hblank, if_neg hhash]
      dsimp only
      rw [if_neg hcomment', if_neg hquote, hbrace']
      dsimp only
      rw [if_neg hapostrophe, if_neg hbackquote, hlexed']

/-- What a round says of its token: without one the open delimiters stay, a double semicolon is read only
where no delimiter is open, and a quotation goes to the next backquote. -/
structure TokenOfRound (delimiters : List (TokenKind × ℕ)) (char : Char) (rest : List Char)
    (lexed : Lexed) : Prop where
  none : lexed.token = none → lexed.delimiters = delimiters
  semisemi : ∀ value literal, lexed.token = some (.semisemi, value, literal) →
    char = ';' ∧ rest.head? = some ';' ∧ delimiters = [] ∧ lexed.delimiters = []
  hol : ∀ value literal, lexed.token = some (.hol, value, literal) →
    char = backquote ∧ ∃ body, rest = body ++ backquote :: lexed.rest ∧ backquote ∉ body

theorem tokenOfRound_of_none {delimiters : List (TokenKind × ℕ)} {char : Char} {rest : List Char}
    {lexed : Lexed} (htoken : lexed.token = none) (hsame : lexed.delimiters = delimiters) :
    TokenOfRound delimiters char rest lexed := by
  refine ⟨fun _ => hsame, fun value literal h => ?_, fun value literal h => ?_⟩ <;>
    (rw [htoken] at h; cases h)

theorem tokenOfRound_of_kind {delimiters : List (TokenKind × ℕ)} {char : Char} {rest : List Char}
    {lexed : Lexed} {kind : TokenKind} {value : String} {literal : Option (Bytes × Bool)}
    (htoken : lexed.token = some (kind, value, literal)) (hsemisemi : kind ≠ .semisemi) (hhol : kind ≠ .hol) :
    TokenOfRound delimiters char rest lexed := by
  refine ⟨fun h => ?_, fun value literal h => ?_, fun value literal h => ?_⟩
  · rw [htoken] at h
    cases h
  · rw [htoken] at h
    cases h
    exact absurd rfl hsemisemi
  · rw [htoken] at h
    cases h
    exact absurd rfl hhol

theorem lexToken_token {previous : Option Char} {delimiters : List (TokenKind × ℕ)} {char : Char}
    {rest : List Char} {lexed : Lexed} (h : lexToken tables size previous delimiters char rest = .ok lexed) :
    TokenOfRound delimiters char rest lexed := by
  unfold lexToken at h
  dsimp only at h
  split at h
  · cases h
    exact tokenOfRound_of_none rfl rfl
  split at h
  · cases h
  · cases h
    exact tokenOfRound_of_none rfl rfl
  split at h
  · obtain ⟨after, -, rfl⟩ := map_eq_ok.mp h
    exact tokenOfRound_of_none rfl rfl
  split at h
  · obtain ⟨⟨value, after⟩, -, rfl⟩ := map_eq_ok.mp h
    exact tokenOfRound_of_kind rfl nofun nofun
  split at h
  · cases h
  · rename_i kind literal after hbrace
    cases h
    split at hbrace
    · rcases lexBrace_kind hbrace with rfl | rfl <;> exact tokenOfRound_of_kind rfl nofun nofun
    · cases hbrace
  split at h
  · obtain ⟨⟨kind, value, after⟩, hchar, rfl⟩ := map_eq_ok.mp h
    rcases charOrTypevar_kind hchar with rfl | rfl <;> exact tokenOfRound_of_kind rfl nofun nofun
  split at h
  · rename_i hbackquote
    obtain ⟨after, hhol, rfl⟩ := map_eq_ok.mp h
    obtain ⟨body, hrest, hnotMem, -⟩ := holBackquote_read hhol
    exact ⟨nofun, nofun, fun _ _ _ => ⟨hbackquote, body, hrest, hnotMem⟩⟩
  · obtain ⟨kind, value, literal, htoken, hhol, hsemisemi⟩ := lexPlain_token h
    refine ⟨fun hnone => ?_, fun value' literal' hsome => ?_, fun value' literal' hsome => ?_⟩
    · rw [htoken] at hnone
      cases hnone
    · rw [htoken] at hsome
      cases hsome
      exact hsemisemi rfl
    · rw [htoken] at hsome
      cases hsome
      exact absurd rfl hhol

/-- A round leaves what is behind it. -/
theorem lexToken_suffix {previous : Option Char} {delimiters : List (TokenKind × ℕ)} {char : Char}
    {rest : List Char} {lexed : Lexed} (h : lexToken tables size previous delimiters char rest = .ok lexed) :
    ∃ piece, rest = piece ++ lexed.rest := by
  have hstop : isStopper ';' = true := rfl
  obtain ⟨piece, hpiece, -⟩ := lexToken_read hstop h
  exact ⟨piece, hpiece⟩

end Hearth.Loader
