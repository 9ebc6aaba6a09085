import Hearth.Library.Matches
import Hearth.Loader.Lexer
import Mathlib.Data.Bool.AllAny
import Mathlib.Data.List.TakeWhile

/-!
# The masks of the theorem scan

`mask_ocaml_comments_and_strings` and `mask_hol_backquote_interiors` of `proofs/source.py`, and the two patterns that the
theorem scan looks for in what they leave.  A mask blanks characters in their places, but for line feeds; its loops recurse
on the characters left, with the number of those that belong to what was read last.

What Python's `isspace`, `isdigit` and `\b` say about a character beyond ASCII is a parameter.
-/

namespace Hearth.Loader

open Hearth.Library
open Hearth.Replay (isAsciiLetter isAsciiDigit)

/-- What the patterns ask of the Unicode database. -/
structure PatternTables where
  isSpace : Char → Bool
  isWord : Char → Bool
  isDigit : Char → Bool
  space_ascii : ∀ char, char.toNat < 128 → isSpace char = (char ∈ " \t\n\x0b\x0c\r\x1c\x1d\x1e\x1f".toList : Bool)
  word_ascii : ∀ char, char.toNat < 128 → isWord char = (isAsciiLetter char || isAsciiDigit char || char = '_' : Bool)
  digit_ascii : ∀ char, char.toNat < 128 → isDigit char = isAsciiDigit char

theorem asciiDigit_self (char : Char) (_ : char.toNat < 128) : isAsciiDigit char = isAsciiDigit char :=
  rfl

/-- Tables in which nothing beyond ASCII counts. -/
def PatternTables.ascii : PatternTables where
  isSpace := fun char => char ∈ " \t\n\x0b\x0c\r\x1c\x1d\x1e\x1f".toList
  isWord := fun char => isAsciiLetter char || isAsciiDigit char || char = '_'
  isDigit := isAsciiDigit
  space_ascii := fun _ _ => rfl
  word_ascii := fun _ _ => rfl
  digit_ascii := asciiDigit_self

/-- A masked character. -/
def blankOf (char : Char) : Char :=
  if char = '\n' then '\n' else ' '

section

variable (tables : PatternTables)

/-! ## Literals -/

/-- `_ocaml_char_literal_end`, behind the apostrophe: what follows the literal. -/
def ocamlCharLiteralEnd : List Char → Option (List Char)
  | char :: next :: more =>
      if char = '\n' ∨ char = '\r' ∨ char = '\'' then none
      else
        let closing :=
          if char ≠ '\\' then some (next :: more)
          else if tables.isDigit next then some (more.drop ((more.take 2).takeWhile tables.isDigit).length)
          else if next = 'x' ∨ next = 'o' then
            let digits := (more.take 3).takeWhile isHexDigit
            if digits = [] then none else some (more.drop digits.length)
          else if next = 'u' ∧ more.head? = some '{' then (splitAtChar '}' more.tail).map Prod.snd
          else some more
        match closing with
        | some ('\'' :: after) => some after
        | _ => none
  | _ => none

/-- A delimiter of `_ocaml_quoted_string_end`. -/
def isMaskDelimiter : List Char → Bool
  | [] => true
  | first :: rest =>
      isDelimiterChar first && rest.all fun char => isAsciiLetter char || isAsciiDigit char || char = '_' || char = '\''

/-- `_ocaml_quoted_string_end`, behind the brace. -/
def ocamlQuotedStringEnd (text : List Char) : Option (List Char) :=
  match splitAtChar '|' text with
  | none => none
  | some (delimiter, content) =>
      if isMaskDelimiter delimiter then (splitAtText ('|' :: (delimiter ++ ['}'])) content).map Prod.snd else none

/-! ## Masks -/

/-- Where the loop of `mask_ocaml_comments_and_strings` is. -/
inductive MaskMode
  | code
  | comment (depth : ℕ)
  | string
  deriving DecidableEq, Repr

/-- The loop of `mask_ocaml_comments_and_strings`; the next `skip` characters belong to what was read last, which is
masked if `hidden`. -/
def maskFrom (hidden : Bool) : ℕ → MaskMode → List Char → List Char
  | _, _, [] => []
  | skip + 1, mode, char :: rest => (if hidden then blankOf char else char) :: maskFrom hidden skip mode rest
  | 0, .comment depth, char :: rest =>
      if char = '(' ∧ rest.head? = some '*' then ' ' :: maskFrom true 1 (.comment (depth + 1)) rest
      else if char = '*' ∧ rest.head? = some ')' then
        ' ' :: maskFrom true 1 (if depth = 1 then .code else .comment (depth - 1)) rest
      else blankOf char :: maskFrom true 0 (.comment depth) rest
  | 0, .string, char :: rest =>
      if char = '\\' ∧ rest ≠ [] then ' ' :: maskFrom true 1 .string rest
      else blankOf char :: maskFrom true 0 (if char = '"' then .code else .string) rest
  | 0, .code, char :: rest =>
      if char = '(' ∧ rest.head? = some '*' then ' ' :: maskFrom true 1 (.comment 1) rest
      else
        match (if char = '\'' then ocamlCharLiteralEnd tables rest
          else if char = '{' then ocamlQuotedStringEnd rest else none) with
        | some after => blankOf char :: maskFrom true (rest.length - after.length) .code rest
        | none =>
            if char = '"' then ' ' :: maskFrom true 0 .string rest
            else
              match (if char = backquote then splitAtChar backquote rest else none) with
              | some (term, _) => char :: maskFrom false (term.length + 1) .code rest
              | none => char :: maskFrom true 0 .code rest

/-- `mask_ocaml_comments_and_strings`. -/
def maskOcamlCommentsAndStrings (text : List Char) : List Char :=
  maskFrom tables true 0 .code text

/-- The loop of `mask_hol_backquote_interiors`; of the next `skip` characters the last is a closing backquote. -/
def maskInteriorsFrom : ℕ → List Char → List Char
  | _, [] => []
  | skip + 1, char :: rest => (if skip = 0 then char else blankOf char) :: maskInteriorsFrom skip rest
  | 0, char :: rest =>
      match (if char = backquote then splitAtChar backquote rest else none) with
      | some (term, _) => char :: maskInteriorsFrom (term.length + 1) rest
      | none => char :: maskInteriorsFrom 0 rest

/-- `mask_hol_backquote_interiors`. -/
def maskHolBackquoteInteriors (text : List Char) : List Char :=
  maskInteriorsFrom 0 text

/-- `search_masked`. -/
def searchMasked (text : List Char) : List Char :=
  maskHolBackquoteInteriors (maskOcamlCommentsAndStrings tables text)

/-! ## Patterns -/

/-- The characters of a name. -/
def isNameChar (char : Char) : Bool :=
  isAsciiLetter char || isAsciiDigit char || char = '_' || char = '\''

/-- `let NAME = [time]` and the blanks behind it: the name, and what follows. -/
def declarationHead (text : List Char) : Option (List Char × List Char) :=
  if ¬ "let".toList.isPrefixOf text ∨ ¬ (text.drop 3).head?.any tables.isSpace then none
  else
    let named := (text.drop 3).dropWhile tables.isSpace
    if ¬ named.head?.any isAsciiLetter then none
    else
      match (named.dropWhile isNameChar).dropWhile tables.isSpace with
      | '=' :: behind =>
          let body := behind.dropWhile tables.isSpace
          -- Without a blank behind it, `time` is the beginning of another word, which no pattern goes on with.
          some (named.takeWhile isNameChar,
            if "time".toList.isPrefixOf body ∧ (body.drop 4).head?.any tables.isSpace then
              (body.drop 4).dropWhile tables.isSpace
            else body)
      | _ => none

/-- `DIRECT_THEOREM_RULES`. -/
def directTheoremRules : List String :=
  ["ARITH_RULE", "INT_ARITH", "TAUT", "REAL_ARITH", "REAL_RING", "RING_RULE"]

/-- A word and an opening behind it. -/
def constructorHead (constructor : String) (opening : Char) (body : List Char) : Option (List Char) :=
  if constructor.toList.isPrefixOf body then
    match (body.drop constructor.length).dropWhile tables.isSpace with
    | char :: behind => if char = opening then some behind else none
    | [] => none
  else none

/-- A match of one of the patterns. -/
structure TheoremMatch where
  name : String
  proofConstructor : String
  deriving DecidableEq, Repr

/-- The patterns: a declaration at a word boundary with one of the constructors. -/
def declarationPattern (constructors : List String) (opening : Char) : Pattern Char TheoremMatch :=
  fun previous text =>
    if previous.any tables.isWord then none
    else
      (declarationHead tables text).bind fun (name, body) =>
        constructors.findSome? fun constructor =>
          (constructorHead tables constructor opening body).map fun behind =>
            (⟨String.ofList name, constructor⟩, behind)

/-- `THEOREM_RE`. -/
def theoremPattern : Pattern Char TheoremMatch :=
  declarationPattern tables ["prove"] '('

/-- `DIRECT_THEOREM_RE`. -/
def directTheoremPattern : Pattern Char TheoremMatch :=
  declarationPattern tables directTheoremRules backquote

/-! ## What the patterns spell -/

/-- Blanks only. -/
def Blanks (run : List Char) : Prop :=
  ∀ char ∈ run, tables.isSpace char = true

/-- Blanks, possibly with a `time` between them and more blanks. -/
def TimedBlanks (run : List Char) : Prop :=
  Blanks tables run ∨
    ∃ blanks blanks', run = blanks ++ ("time".toList ++ blanks') ∧ Blanks tables blanks ∧ Blanks tables blanks' ∧ blanks' ≠ []

/-- The text is `let NAME =`, behind it blanks and possibly `time`, and then the body. -/
structure SpellsHead (name text body : List Char) : Prop where
  letter : name.head?.any isAsciiLetter = true
  chars : ∀ char ∈ name, isNameChar char = true
  split : ∃ blanks blanks' between, text = "let".toList ++ (blanks ++ (name ++ (blanks' ++ '=' :: (between ++ body)))) ∧
    blanks ≠ [] ∧ Blanks tables blanks ∧ Blanks tables blanks' ∧ TimedBlanks tables between

/-- The text is a declaration of the name with the constructor and the opening, and the rest is behind it. -/
def Spells (name : List Char) (constructor : String) (opening : Char) (text behind : List Char) : Prop :=
  ∃ blanks, Blanks tables blanks ∧ SpellsHead tables name text (constructor.toList ++ (blanks ++ opening :: behind))

variable {tables}

/-! ## Masks keep the places -/

theorem length_maskFrom (hidden : Bool) (skip : ℕ) (mode : MaskMode) (text : List Char) :
    (maskFrom tables hidden skip mode text).length = text.length := by
  induction text generalizing hidden skip mode with
  | nil => cases skip <;> cases mode <;> rfl
  | cons char rest ih =>
      cases skip with
      | succ skip => exact congrArg Nat.succ (ih _ _ _)
      | zero =>
          cases mode with
          | comment depth =>
              rw [maskFrom]
              split
              · exact congrArg Nat.succ (ih _ _ _)
              split <;> exact congrArg Nat.succ (ih _ _ _)
          | string =>
              rw [maskFrom]
              split <;> exact congrArg Nat.succ (ih _ _ _)
          | code =>
              rw [maskFrom]
              split
              · exact congrArg Nat.succ (ih _ _ _)
              split
              · exact congrArg Nat.succ (ih _ _ _)
              split
              · exact congrArg Nat.succ (ih _ _ _)
              split <;> exact congrArg Nat.succ (ih _ _ _)

theorem length_maskInteriorsFrom (skip : ℕ) (text : List Char) : (maskInteriorsFrom skip text).length = text.length := by
  induction text generalizing skip with
  | nil => cases skip <;> rfl
  | cons char rest ih =>
      cases skip with
      | succ skip => exact congrArg Nat.succ (ih _)
      | zero =>
          rw [maskInteriorsFrom]
          split <;> exact congrArg Nat.succ (ih _)

theorem length_searchMasked (text : List Char) : (searchMasked tables text).length = text.length := by
  unfold searchMasked maskHolBackquoteInteriors maskOcamlCommentsAndStrings
  rw [length_maskInteriorsFrom, length_maskFrom]

/-! ## Blanks and names -/

theorem isNameChar_range {char : Char} (h : isNameChar char = true) : 39 ≤ char.toNat ∧ char.toNat ≤ 122 := by
  simp only [isNameChar, isAsciiLetter, isAsciiDigit, Bool.or_eq_true, Bool.and_eq_true, decide_eq_true_eq] at h
  rcases h with (((⟨hlow, hhigh⟩ | ⟨hlow, hhigh⟩) | ⟨hlow, hhigh⟩) | rfl) | rfl
  · exact ⟨Nat.le_trans (by decide) hlow, Nat.le_trans hhigh (by decide)⟩
  · exact ⟨Nat.le_trans (by decide) hlow, Nat.le_trans hhigh (by decide)⟩
  · exact ⟨Nat.le_trans (by decide) hlow, Nat.le_trans hhigh (by decide)⟩
  · decide
  · decide

/-- A name has no blanks. -/
theorem isSpace_of_isNameChar {char : Char} (h : isNameChar char = true) : tables.isSpace char = false := by
  obtain ⟨hlow, hhigh⟩ := isNameChar_range h
  have hblanks : ∀ blank ∈ " \t\n\x0b\x0c\r\x1c\x1d\x1e\x1f".toList, blank.toNat ≤ 32 :=
    List.all_iff_forall_prop.mp (by decide)
  rw [tables.space_ascii char (by omega), decide_eq_false_iff_not]
  intro hmem
  have hle := hblanks char hmem
  omega

theorem isSpace_equals : tables.isSpace '=' = false :=
  (tables.space_ascii '=' (by decide)).trans (by decide)

theorem isNameChar_of_isAsciiLetter {char : Char} (h : isAsciiLetter char = true) : isNameChar char = true := by
  simp only [isNameChar, h, Bool.true_or]

theorem Blanks.not_mem {run : List Char} (h : Blanks tables run) {char : Char} (hname : isNameChar char = true) :
    char ∉ run := by
  intro hmem
  have hspace := h char hmem
  rw [isSpace_of_isNameChar hname] at hspace
  nomatch hspace

theorem TimedBlanks.not_mem {run : List Char} (h : TimedBlanks tables run) : 'l' ∉ run := by
  rcases h with hblanks | ⟨blanks, blanks', rfl, hblanks, hblanks', -⟩
  · exact hblanks.not_mem rfl
  · simp only [List.mem_append, not_or]
    exact ⟨hblanks.not_mem rfl, by decide, hblanks'.not_mem rfl⟩

theorem blanks_takeWhile (text : List Char) : Blanks tables (text.takeWhile tables.isSpace) :=
  fun _ hmem => List.mem_takeWhile_imp hmem

/-- A run of some class ends in front of what does not begin with it. -/
theorem takeWhile_append_of_ends {p : Char → Bool} {run behind : List Char} (hrun : ∀ char ∈ run, p char = true)
    (hends : behind.head?.any p = false) :
    (run ++ behind).takeWhile p = run ∧ (run ++ behind).dropWhile p = behind := by
  have htake : behind.takeWhile p = [] ∧ behind.dropWhile p = behind := by
    cases behind with
    | nil => exact ⟨rfl, rfl⟩
    | cons head behind =>
        have hhead : ¬ p head = true := Bool.eq_false_iff.mp hends
        exact ⟨List.takeWhile_cons_of_neg hhead, List.dropWhile_cons_of_neg hhead⟩
  rw [List.takeWhile_append_of_pos hrun, List.dropWhile_append_of_pos hrun, htake.1, htake.2, List.append_nil]
  exact ⟨rfl, rfl⟩

theorem takeWhile_ne_nil {p : Char → Bool} {text : List Char} (h : text.head?.any p = true) : text.takeWhile p ≠ [] := by
  cases text with
  | nil => nomatch h
  | cons first text =>
      have hfirst : p first = true := h
      rw [List.takeWhile_cons_of_pos hfirst]
      exact List.cons_ne_nil _ _

/-- Blanks are no name. -/
theorem Blanks.head_append {blanks rest : List Char} (hblanks : Blanks tables blanks)
    (hrest : blanks = [] → rest.head?.any isNameChar = false) : (blanks ++ rest).head?.any isNameChar = false := by
  cases blanks with
  | nil => exact hrest rfl
  | cons first blanks =>
      rw [Bool.eq_false_iff]
      intro hname
      exact hblanks.not_mem hname (.head _)

/-- A name is no blank. -/
theorem head_isSpace_of_name {text : List Char} (h : text.head?.any isNameChar = true) :
    text.head?.any tables.isSpace = false := by
  cases text with
  | nil => rfl
  | cons first text => exact isSpace_of_isNameChar h

/-! ## What the patterns match -/

theorem SpellsHead.name_head {name text body : List Char} (h : SpellsHead tables name text body) (rest : List Char) :
    (name ++ rest).head?.any isNameChar = true := by
  have hletter := h.letter
  cases name with
  | nil => nomatch hletter
  | cons first name => exact isNameChar_of_isAsciiLetter hletter

/-- What is read as a head is one. -/
theorem declarationHead_spells {text name body : List Char} (h : declarationHead tables text = some (name, body)) :
    SpellsHead tables name text body := by
  unfold declarationHead at h
  split at h
  · nomatch h
  rename_i hlet
  obtain ⟨hbegins, hblank⟩ := not_or.mp hlet
  rw [not_not] at hbegins hblank
  obtain ⟨rest, rfl⟩ := List.isPrefixOf_iff_prefix.mp hbegins
  have hdrop : ("let".toList ++ rest).drop 3 = rest := rfl
  rw [hdrop] at h hblank
  dsimp only at h
  split at h
  · nomatch h
  rename_i hletter
  rw [not_not] at hletter
  split at h
  · rename_i behind hequals
    obtain ⟨rfl, hbody⟩ := Prod.mk.inj (Option.some.inj h)
    obtain ⟨named, hnamed⟩ : ∃ named, rest.dropWhile tables.isSpace = named := ⟨_, rfl⟩
    rw [hnamed] at hletter hequals ⊢
    -- Behind the equals sign there are blanks, and possibly a `time` with its own.
    obtain ⟨between, hbetween, htimed⟩ : ∃ between, behind = between ++ body ∧ TimedBlanks tables between := by
      split at hbody
      · rename_i htime
        obtain ⟨after, hafter⟩ := List.isPrefixOf_iff_prefix.mp htime.1
        have hblanks := htime.2
        rw [← hafter] at hbody hblanks
        have hdrop' : ("time".toList ++ after).drop 4 = after := rfl
        rw [hdrop'] at hbody hblanks
        refine ⟨behind.takeWhile tables.isSpace ++ ("time".toList ++ after.takeWhile tables.isSpace), ?_, .inr
          ⟨_, _, rfl, blanks_takeWhile behind, blanks_takeWhile after, ?_⟩⟩
        · rw [← hbody, List.append_assoc, List.append_assoc, List.takeWhile_append_dropWhile, hafter,
            List.takeWhile_append_dropWhile]
        · exact takeWhile_ne_nil hblanks
      · exact ⟨behind.takeWhile tables.isSpace, by rw [← hbody, List.takeWhile_append_dropWhile],
          .inl (blanks_takeWhile behind)⟩
    refine ⟨?_, fun char hmem => List.mem_takeWhile_imp hmem, rest.takeWhile tables.isSpace,
      (named.dropWhile isNameChar).takeWhile tables.isSpace, between, ?_, ?_, blanks_takeWhile _, blanks_takeWhile _, htimed⟩
    · cases named with
      | nil => nomatch hletter
      | cons first named =>
          rw [List.takeWhile_cons_of_pos (isNameChar_of_isAsciiLetter hletter)]
          exact hletter
    · rw [← hbetween, ← hequals, List.takeWhile_append_dropWhile, List.takeWhile_append_dropWhile, ← hnamed,
        List.takeWhile_append_dropWhile]
    · exact takeWhile_ne_nil hblank
  · nomatch h

/-- A head is read as one, if its body does not begin like `time`. -/
theorem SpellsHead.declarationHead_eq {name text body : List Char} (h : SpellsHead tables name text body)
    (hbody : body.head?.any isNameChar = true) (htime : body.head? ≠ some 't') :
    declarationHead tables text = some (name, body) := by
  have hname := h.name_head
  obtain ⟨hletter, hchars, blanks, blanks', between, rfl, hne, hblanks, hblanks', hbetween⟩ := h
  have hspaced := takeWhile_append_of_ends hblanks
    (@head_isSpace_of_name tables _ (hname (blanks' ++ '=' :: (between ++ body))))
  have hnamed := takeWhile_append_of_ends hchars
    (@Blanks.head_append tables _ ('=' :: (between ++ body)) hblanks' fun _ => rfl)
  have hequals := @takeWhile_append_of_ends _ _ ('=' :: (between ++ body)) hblanks' isSpace_equals
  have hbodySpace := @head_isSpace_of_name tables _ hbody
  -- Behind the equals sign the body is reached with or without `time`.
  have hreached : (if "time".toList.isPrefixOf ((between ++ body).dropWhile tables.isSpace) ∧
        (((between ++ body).dropWhile tables.isSpace).drop 4).head?.any tables.isSpace then
      (((between ++ body).dropWhile tables.isSpace).drop 4).dropWhile tables.isSpace
      else (between ++ body).dropWhile tables.isSpace) = body := by
    rcases hbetween with hblank | ⟨front, inner, rfl, hfront, hinner, hinnerNe⟩
    · rw [(takeWhile_append_of_ends hblank hbodySpace).2, if_neg]
      rintro ⟨hbegins, -⟩
      obtain ⟨after, rfl⟩ := List.isPrefixOf_iff_prefix.mp hbegins
      exact htime rfl
    · have hdrop : ("time".toList ++ (inner ++ body)).drop 4 = inner ++ body := rfl
      have htimeSpace : ("time".toList ++ (inner ++ body)).head?.any tables.isSpace = false :=
        @isSpace_of_isNameChar tables 't' rfl
      rw [List.append_assoc, List.append_assoc, (takeWhile_append_of_ends hfront htimeSpace).2, hdrop, if_pos,
        (takeWhile_append_of_ends hinner hbodySpace).2]
      refine ⟨List.isPrefixOf_iff_prefix.mpr (List.prefix_append _ _), ?_⟩
      obtain ⟨first, inner, rfl⟩ := List.exists_cons_of_ne_nil hinnerNe
      exact hinner first (.head _)
  have hletterHead : (name ++ (blanks' ++ '=' :: (between ++ body))).head?.any isAsciiLetter = true := by
    cases name with
    | nil => nomatch hletter
    | cons first name => exact hletter
  have hblankHead : (blanks ++ (name ++ (blanks' ++ '=' :: (between ++ body)))).head?.any tables.isSpace = true := by
    obtain ⟨first, blanks, rfl⟩ := List.exists_cons_of_ne_nil hne
    exact hblanks first (.head _)
  have hdrop : ("let".toList ++ (blanks ++ (name ++ (blanks' ++ '=' :: (between ++ body))))).drop 3 =
      blanks ++ (name ++ (blanks' ++ '=' :: (between ++ body))) := rfl
  have hlet : "let".toList.isPrefixOf ("let".toList ++ (blanks ++ (name ++ (blanks' ++ '=' :: (between ++ body))))) = true :=
    List.isPrefixOf_iff_prefix.mpr (List.prefix_append _ _)
  unfold declarationHead
  rw [hdrop, if_neg (by rw [hlet, hblankHead]; simp), hspaced.2, if_neg (not_not.mpr hletterHead), hnamed.2, hequals.2,
    hnamed.1]
  exact congrArg (fun reached => some (name, reached)) hreached

/-- A constructor is read with an opening behind it and blanks between them. -/
theorem constructorHead_eq_some_iff {constructor : String} {opening : Char} (hopening : tables.isSpace opening = false)
    {body behind : List Char} :
    constructorHead tables constructor opening body = some behind ↔
      ∃ blanks, Blanks tables blanks ∧ body = constructor.toList ++ (blanks ++ opening :: behind) := by
  have hdrop : ∀ rest : List Char, (constructor.toList ++ rest).drop constructor.length = rest := by
    intro rest
    rw [← String.length_toList, List.drop_left]
  unfold constructorHead
  constructor
  · intro h
    split at h
    · rename_i hbegins
      obtain ⟨rest, rfl⟩ := List.isPrefixOf_iff_prefix.mp hbegins
      rw [hdrop] at h
      split at h
      · rename_i char after hafter
        split at h
        · rename_i heq
          rw [Option.some.inj h, heq] at hafter
          exact ⟨rest.takeWhile tables.isSpace, blanks_takeWhile rest, by rw [← hafter, List.takeWhile_append_dropWhile]⟩
        · nomatch h
      · nomatch h
    · nomatch h
  · rintro ⟨blanks, hblanks, rfl⟩
    have hends := (@takeWhile_append_of_ends _ _ (opening :: behind) hblanks hopening).2
    rw [if_pos (List.isPrefixOf_iff_prefix.mpr (List.prefix_append _ _)), hdrop, hends]
    exact if_pos rfl

/-- The constructors and the opening of a pattern. -/
structure Constructors (constructors : List String) (opening : Char) : Prop where
  chars : ∀ constructor ∈ constructors, constructor.toList.all isNameChar = true
  head : ∀ constructor ∈ constructors, constructor.toList ≠ [] ∧ constructor.toList.head? ≠ some 't'
  noLet : ∀ constructor ∈ constructors, 'l' ∉ constructor.toList
  opening : isNameChar opening = false ∧ ∀ tables : PatternTables, tables.isSpace opening = false

theorem constructors_prove : Constructors ["prove"] '(' where
  chars := List.all_iff_forall_prop.mp (by decide)
  head := List.all_iff_forall_prop.mp (by decide)
  noLet := List.all_iff_forall_prop.mp (by decide)
  opening := ⟨by decide, fun tables => (tables.space_ascii '(' (by decide)).trans (by decide)⟩

theorem constructors_directTheoremRules : Constructors directTheoremRules backquote where
  chars := List.all_iff_forall_prop.mp (by decide)
  head := List.all_iff_forall_prop.mp (by decide)
  noLet := List.all_iff_forall_prop.mp (by decide)
  opening := ⟨by decide, fun tables => (tables.space_ascii backquote (by decide)).trans (by decide)⟩

/-- A pattern matches the declarations with one of its constructors, at a word boundary. -/
theorem declarationPattern_eq_some_iff {constructors : List String} {opening : Char}
    (hconstructors : Constructors constructors opening) {previous : Option Char} {text behind : List Char}
    {found : TheoremMatch} :
    declarationPattern tables constructors opening previous text = some (found, behind) ↔
      previous.any tables.isWord = false ∧ found.proofConstructor ∈ constructors ∧
        Spells tables found.name.toList found.proofConstructor opening text behind := by
  have hopening := hconstructors.opening.2 tables
  unfold declarationPattern
  constructor
  · intro h
    split at h
    · nomatch h
    rename_i hprevious
    obtain ⟨⟨name, body⟩, hhead, hfound⟩ := Option.bind_eq_some_iff.mp h
    obtain ⟨constructor, hmem, hconstructor⟩ := List.exists_of_findSome?_eq_some hfound
    obtain ⟨after, hafter, heq⟩ := Option.map_eq_some_iff.mp hconstructor
    obtain ⟨rfl, rfl⟩ := Prod.mk.inj heq
    obtain ⟨blanks, hblanks, rfl⟩ := (constructorHead_eq_some_iff hopening).mp hafter
    refine ⟨Bool.eq_false_iff.mpr hprevious, hmem, blanks, hblanks, ?_⟩
    rw [String.toList_ofList]
    exact declarationHead_spells hhead
  · rintro ⟨hprevious, hmem, blanks, hblanks, hspells⟩
    obtain ⟨hne, htime⟩ := hconstructors.head _ hmem
    have hends : (blanks ++ opening :: behind).head?.any isNameChar = false :=
      hblanks.head_append fun _ => hconstructors.opening.1
    have hrun := takeWhile_append_of_ends (List.all_eq_true.mp (hconstructors.chars _ hmem)) hends
    have hhead : declarationHead tables text =
        some (found.name.toList, found.proofConstructor.toList ++ (blanks ++ opening :: behind)) := by
      refine hspells.declarationHead_eq ?_ ?_
      · rw [List.head?_append_of_ne_nil _ hne]
        obtain ⟨first, rest, hfirst⟩ := List.exists_cons_of_ne_nil hne
        rw [hfirst]
        exact List.all_eq_true.mp (hconstructors.chars _ hmem) first (by rw [hfirst]; exact .head _)
      · rwa [List.head?_append_of_ne_nil _ hne]
    rw [if_neg (Bool.eq_false_iff.mp hprevious), hhead, Option.bind_some]
    dsimp only
    -- No other constructor is read: each is the run of name characters that the body begins with.
    have hread : (constructorHead tables found.proofConstructor opening
        (found.proofConstructor.toList ++ (blanks ++ opening :: behind))).map
          (fun after => ((⟨String.ofList found.name.toList, found.proofConstructor⟩ : TheoremMatch), after)) =
            some (found, behind) := by
      rw [(constructorHead_eq_some_iff hopening).mpr ⟨blanks, hblanks, rfl⟩, String.ofList_toList]
      rfl
    have honly : ∀ constructor ∈ constructors, ∀ match' : TheoremMatch × List Char, (constructorHead tables constructor opening
        (found.proofConstructor.toList ++ (blanks ++ opening :: behind))).map
          (fun after => ((⟨String.ofList found.name.toList, constructor⟩ : TheoremMatch), after)) = some match' →
            constructor = found.proofConstructor := by
      intro constructor hmem' match' hmatch
      obtain ⟨after, hafter, -⟩ := Option.map_eq_some_iff.mp hmatch
      obtain ⟨blanks', hblanks', heq⟩ := (constructorHead_eq_some_iff hopening).mp hafter
      have hends' : (blanks' ++ opening :: after).head?.any isNameChar = false :=
        hblanks'.head_append fun _ => hconstructors.opening.1
      have hrun' := takeWhile_append_of_ends (List.all_eq_true.mp (hconstructors.chars _ hmem')) hends'
      rw [heq, hrun'.1] at hrun
      exact String.toList_inj.mp hrun.1
    cases hfirst : constructors.findSome? fun constructor => (constructorHead tables constructor opening
        (found.proofConstructor.toList ++ (blanks ++ opening :: behind))).map
          (fun after => ((⟨String.ofList found.name.toList, constructor⟩ : TheoremMatch), after)) with
    | none =>
        have hnone := List.findSome?_eq_none_iff.mp hfirst _ hmem
        rw [hread] at hnone
        nomatch hnone
    | some match' =>
        obtain ⟨constructor, hmem', hmatch⟩ := List.exists_of_findSome?_eq_some hfirst
        have hsame := honly constructor hmem' match' hmatch
        rw [hsame, hread] at hmatch
        exact hmatch.symm

/-! ## No match begins inside another -/

/-- An element that a list does not have stands behind it. -/
theorem append_of_not_mem {first second front rest : List Char} {char : Char} (hnotMem : char ∉ first)
    (h : first ++ second = front ++ char :: rest) : ∃ front', front = first ++ front' ∧ second = front' ++ char :: rest := by
  rcases List.append_eq_append_iff.mp h with ⟨front', hfront, hsecond⟩ | ⟨middle, hfirst, hrest⟩
  · exact ⟨front', hfront, hsecond⟩
  · cases middle with
    | nil => exact ⟨[], by simpa using hfirst.symm, by simpa using hrest.symm⟩
    | cons head middle =>
        obtain ⟨rfl, -⟩ := List.cons.inj hrest
        exact absurd (by rw [hfirst]; simp) hnotMem

/-- In front of an equals sign blanks are followed by no name. -/
theorem blanks_ne {blanks blanks' name tail tail' : List Char} (hblanks : Blanks tables blanks)
    (hblanks' : Blanks tables blanks') (hname : name.head?.any isAsciiLetter = true) :
    blanks ++ (name ++ tail) ≠ blanks' ++ '=' :: tail' := by
  intro heq
  cases name with
  | nil => nomatch hname
  | cons first name =>
      have hends := (@takeWhile_append_of_ends _ _ (first :: name ++ tail) hblanks
        (isSpace_of_isNameChar (isNameChar_of_isAsciiLetter hname))).2
      have hends' := (@takeWhile_append_of_ends _ _ ('=' :: tail') hblanks' (@isSpace_equals tables)).2
      rw [heq, hends'] at hends
      obtain rfl := (List.cons.inj hends).1
      nomatch hname

theorem declarationPattern_apart {constructors : List String} {opening : Char}
    (hconstructors : Constructors constructors opening) : (declarationPattern tables constructors opening).Apart := by
  intro previous previous' front rest found after hfront hmatch hinside
  obtain ⟨-, hmem, spaces, hspaces, hspells⟩ := (declarationPattern_eq_some_iff hconstructors).mp hmatch
  obtain ⟨-, hname, blanks, blanks', between, htext, -, hblanks, hblanks', hbetween⟩ := hspells
  generalize found.name.toList = name at htext hname
  generalize found.proofConstructor = constructor at htext hmem
  have hopening : 'l' ≠ opening := by
    rintro rfl
    nomatch hconstructors.opening.1
  by_contra hfound
  obtain ⟨⟨found', after'⟩, hmatch'⟩ := Option.ne_none_iff_exists'.mp hfound
  obtain ⟨-, -, spaces', -, hspells'⟩ := (declarationPattern_eq_some_iff hconstructors).mp hmatch'
  obtain ⟨hletter, -, inner, inner', between', rfl, hinner, hinnerBlanks, -, -⟩ := hspells'
  generalize found'.name.toList = name' at htext hinside hletter
  generalize found'.proofConstructor.toList ++ (spaces' ++ opening :: after') = body' at htext hinside
  have hlet : "let".toList = ['l', 'e', 't'] := rfl
  rw [hlet] at htext hinside
  -- The second `let` begins in the name of the first match.
  obtain ⟨first, front, rfl⟩ := List.exists_cons_of_ne_nil hfront
  have hword : ['e', 't'] ++ (blanks ++ (name ++ (blanks' ++ '=' :: (between ++ (constructor.toList ++
      (spaces ++ opening :: after)))))) =
        front ++ 'l' :: ('e' :: 't' :: (inner ++ (name' ++ (inner' ++ '=' :: (between' ++ body'))))) :=
    (List.cons.inj htext).2.symm
  obtain ⟨front, rfl, hspaced⟩ := append_of_not_mem (by decide) hword
  obtain ⟨front, rfl, hnamed⟩ := append_of_not_mem (hblanks.not_mem rfl) hspaced
  -- Behind the name there is no `l` in the first match.
  have hbehind : ∀ {front rest : List Char},
      blanks' ++ '=' :: (between ++ (constructor.toList ++ (spaces ++ opening :: after))) = front ++ 'l' :: rest →
        rest.length < after.length := by
    intro front rest heq
    have hassoc : blanks' ++ '=' :: (between ++ (constructor.toList ++ (spaces ++ opening :: after))) =
        (blanks' ++ '=' :: (between ++ (constructor.toList ++ (spaces ++ [opening])))) ++ after := by simp
    have hnotMem : 'l' ∉ blanks' ++ '=' :: (between ++ (constructor.toList ++ (spaces ++ [opening]))) := by
      have hblank := @Blanks.not_mem tables _ hblanks' 'l' rfl
      have hspace := @Blanks.not_mem tables _ hspaces 'l' rfl
      have htimed := hbetween.not_mem
      have hconstructor := hconstructors.noLet constructor hmem
      simp only [List.mem_append, List.mem_cons, List.not_mem_nil, or_false, not_or]
      exact ⟨hblank, by decide, htimed, hconstructor, hspace, hopening⟩
    obtain ⟨front, -, hafter⟩ := append_of_not_mem hnotMem (hassoc.symm.trans heq)
    rw [hafter, List.length_append, List.length_cons]
    omega
  rcases List.append_eq_append_iff.mp hnamed with ⟨front, -, hrest⟩ | ⟨middle, hmiddle, hrest⟩
  · have hlength := hbehind hrest
    simp only [List.length_append, List.length_cons, List.length_nil] at hinside hlength
    omega
  · cases middle with
    | nil =>
        have hlength := @hbehind [] _ hrest.symm
        simp only [List.length_append, List.length_cons, List.length_nil] at hinside hlength
        omega
    | cons head middle =>
        obtain ⟨rfl, hbody⟩ := List.cons.inj hrest
        have hnames : ∀ char ∈ middle, isNameChar char = true := fun char hmem =>
          hname char (by rw [hmiddle]; simp [hmem])
        -- What follows the second `let` in the name is two characters, and then blanks on both sides.
        have htwo : ∀ char ∈ ['e', 't'], isNameChar char = true := List.all_eq_true.mp (by decide)
        have hends : (inner ++ (name' ++ (inner' ++ '=' :: (between' ++ body')))).head?.any isNameChar = false :=
          hinnerBlanks.head_append fun hnil => absurd hnil hinner
        have hends' : (blanks' ++ '=' :: (between ++ (constructor.toList ++ (spaces ++ opening :: after)))).head?.any
            isNameChar = false := hblanks'.head_append fun _ => rfl
        have hsecond := (takeWhile_append_of_ends htwo hends).2
        have hfirst := (takeWhile_append_of_ends hnames hends').2
        have hbody' : ['e', 't'] ++ (inner ++ (name' ++ (inner' ++ '=' :: (between' ++ body')))) =
            middle ++ (blanks' ++ '=' :: (between ++ (constructor.toList ++ (spaces ++ opening :: after)))) := hbody
        rw [hbody', hfirst] at hsecond
        exact blanks_ne hinnerBlanks hblanks' hletter hsecond.symm

theorem theoremPattern_apart : (theoremPattern tables).Apart :=
  declarationPattern_apart constructors_prove

theorem directTheoremPattern_apart : (directTheoremPattern tables).Apart :=
  declarationPattern_apart constructors_directTheoremRules

/-- At one place at most one of the two patterns matches. -/
theorem theoremPattern_ne_directTheoremPattern {previous : Option Char} {text after after' : List Char}
    {found found' : TheoremMatch} (h : theoremPattern tables previous text = some (found, after))
    (h' : directTheoremPattern tables previous text = some (found', after')) : False := by
  obtain ⟨-, hmem, blanks, -, hspells⟩ := (declarationPattern_eq_some_iff constructors_prove).mp h
  obtain ⟨-, hmem', blanks', -, hspells'⟩ := (declarationPattern_eq_some_iff constructors_directTheoremRules).mp h'
  obtain ⟨hne, htime⟩ := constructors_prove.head _ hmem
  obtain ⟨hne', htime'⟩ := constructors_directTheoremRules.head _ hmem'
  have hread : ∀ {constructors : List String} {opening : Char}, Constructors constructors opening →
      ∀ {constructor : String} {rest : List Char}, constructor ∈ constructors →
        (constructor.toList ++ rest).head?.any isNameChar = true ∧ (constructor.toList ++ rest).head? ≠ some 't' := by
    intro constructors opening hconstructors constructor rest hmem
    obtain ⟨hne, htime⟩ := hconstructors.head _ hmem
    obtain ⟨first, tail, hfirst⟩ := List.exists_cons_of_ne_nil hne
    have hname := List.all_eq_true.mp (hconstructors.chars _ hmem) first (by rw [hfirst]; exact .head _)
    rw [hfirst] at htime ⊢
    exact ⟨hname, htime⟩
  obtain ⟨hname, hnotTime⟩ := @hread _ _ constructors_prove _ (blanks ++ '(' :: after) hmem
  obtain ⟨hname', hnotTime'⟩ := @hread _ _ constructors_directTheoremRules _ (blanks' ++ backquote :: after') hmem'
  have hhead := hspells.declarationHead_eq hname hnotTime
  have hhead' := hspells'.declarationHead_eq hname' hnotTime'
  obtain ⟨-, hbody⟩ := Prod.mk.inj (Option.some.inj (hhead.symm.trans hhead'))
  -- One constructor begins in lower case, the others do not.
  have hsame := congrArg List.head? hbody
  rw [List.head?_append_of_ne_nil _ hne, List.head?_append_of_ne_nil _ hne'] at hsame
  have hupper : ∀ constructor ∈ directTheoremRules, constructor.toList.head? ≠ some 'p' := by decide
  rw [List.mem_singleton.mp hmem] at hsame
  exact hupper _ hmem' hsame.symm

end

end Hearth.Loader
