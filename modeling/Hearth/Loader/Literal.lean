import Hearth.Library.Ascii
import Hearth.Loader.ProveBindings
import Mathlib.Data.Bool.AllAny

/-!
# String literals in a source

What `ocaml_string_literal` writes is read back by the lexer as the bytes of the text, whatever follows it.  The
rounds that read a literal and the words and terminators around it are stated for every place of a source.
-/

namespace Hearth.Loader

open Hearth.Library

variable {tables : UnicodeTables}

/-! ## Rounds -/

variable (tables) in
/-- With no delimiter open, the round at `char` reads `token`, and `rest` is left of what follows. -/
def ReadsRound (char : Char) (following : List Char) (token : Option (TokenKind × String × Option (Bytes × Bool)))
    (rest : List Char) : Prop :=
  ∀ size previous, ∃ lexed, lexToken tables size previous [] char following = .ok lexed ∧
    lexed.token = token ∧ lexed.delimiters = [] ∧ lexed.rest = rest

variable (tables) in
/-- With these closers expected, the round at `char` reads `token`, `rest` is left of what follows, and the closers
are `next`. -/
def RoundTo (closers : List TokenKind) (char : Char) (following : List Char)
    (token : Option (TokenKind × String × Option (Bytes × Bool))) (next : List TokenKind) (rest : List Char) : Prop :=
  ∀ size previous delimiters, delimiters.map Prod.fst = closers →
    ∃ lexed, lexToken tables size previous delimiters char following = .ok lexed ∧ lexed.token = token ∧
      lexed.delimiters.map Prod.fst = next ∧ lexed.rest = rest

theorem RoundTo.readsRound {char : Char} {following rest : List Char}
    {token : Option (TokenKind × String × Option (Bytes × Bool))}
    (h : RoundTo tables [] char following token [] rest) : ReadsRound tables char following token rest := by
  intro size previous
  obtain ⟨lexed, hlexed, htoken, hclosers, hrest⟩ := h size previous [] rfl
  exact ⟨lexed, hlexed, htoken, List.map_eq_nil_iff.mp hclosers, hrest⟩

/-- At a character that starts no blank, directive, comment, literal or quotation. -/
theorem lexToken_eq_lexPlain {size : ℕ} {previous : Option Char} {delimiters : List (TokenKind × ℕ)} {char : Char}
    {rest : List Char} (hblank : ¬ isBlank char = true) (hcomment : ¬ (char = '(' ∧ rest.head? = some '*'))
    (hne : ∀ other ∈ ['#', '"', '\x7b', '\'', backquote], char ≠ other) :
    lexToken tables size previous delimiters char rest =
      lexPlain tables size (size - (rest.length + 1)) delimiters char rest := by
  unfold lexToken
  dsimp only
  rw [if_neg hblank, if_neg (hne '#' (by simp))]
  dsimp only
  rw [if_neg hcomment, if_neg (hne '"' (by simp)), if_neg (hne '\x7b' (by simp))]
  dsimp only
  rw [if_neg (hne '\'' (by simp)), if_neg (hne backquote (by simp))]

/-! ## Literals -/

/-- The characters are one byte in an ordinary string: a character for itself, a named escape, or three
digits. -/
def escapesByte (chars : List Char) (byte : UInt8) : Bool :=
  match chars with
  | [char] => char ≠ '"' && char ≠ '\\' && char ≠ '\r' && encode [char] = [byte]
  | [slash, char] => slash = '\\' && namedEscape char = some byte
  | slash :: digits =>
      slash = '\\' && digits.length = 3 && digits.all Replay.isAsciiDigit && digitsValue 10 digits = byte.toNat
  | [] => false

theorem toList_ocamlEscape (byte : UInt8) :
    (ocamlEscape byte).toList =
      if byte = 0x22 then ['\\', '"']
      else if byte = 0x5C then ['\\', '\\']
      else if 0x20 ≤ byte ∧ byte ≤ 0x7E then [Char.ofUInt8 byte]
      else '\\' :: (List.replicate (3 - (Nat.toDigits 10 byte.toNat).length) '0' ++ Nat.toDigits 10 byte.toNat) := by
  have hdigits : (toString byte.toNat).toList = Nat.toDigits 10 byte.toNat := Nat.toList_repr
  unfold ocamlEscape
  split
  · rfl
  split
  · rfl
  split
  · simp
  · rw [zeroPadded, String.toList_append, String.toList_append, ← String.length_toList, hdigits]
    simp

theorem digitsValue_eq_ofDigitChars {digits : List Char} (h : ∀ char ∈ digits, Replay.isAsciiDigit char = true) :
    digitsValue 10 digits = Nat.ofDigitChars 10 digits 0 := by
  have hfold : ∀ digits, (∀ char ∈ digits, Replay.isAsciiDigit char = true) → ∀ value,
      digits.foldl (fun value digit => value * 10 + digitValue digit) value = Nat.ofDigitChars 10 digits value := by
    intro digits
    induction digits with
    | nil => intro _ value; rfl
    | cons char digits ih =>
        intro hall value
        rw [List.foldl_cons, ih fun other hother => hall other (.tail _ hother), Nat.ofDigitChars_cons, digitValue,
          if_pos (hall char (.head _)), Nat.mul_comm]
  exact hfold digits h 0

/-- A character between the space and the tilde is its byte, unless the literal has to escape it. -/
theorem escapesByte_singleton {char : Char} (hlow : 0x20 ≤ char.toNat) (hhigh : char.toNat ≤ 0x7E)
    (hquote : char ≠ '"') (hslash : char ≠ '\\') : escapesByte [char] (UInt8.ofNat char.toNat) = true := by
  have hreturn : char ≠ '\r' := by
    rintro rfl
    exact absurd hlow (by decide)
  have hencode : encode [char] = [UInt8.ofNat char.toNat] := by
    rw [encode, List.flatMap_singleton, utf8EncodeChar_ascii (by omega)]
  simp [escapesByte, hquote, hslash, hreturn, hencode]

/-- A slash and three digits. -/
theorem escapesByte_digits {digits : List Char} {byte : UInt8} (hlength : digits.length = 3)
    (hdigits : ∀ char ∈ digits, Replay.isAsciiDigit char = true)
    (hvalue : Nat.ofDigitChars 10 digits 0 = byte.toNat) : escapesByte ('\\' :: digits) byte = true := by
  have heq := digitsValue_eq_ofDigitChars hdigits
  match digits, hlength with
  | [one, two, three], _ => simp [escapesByte, heq, hvalue, hdigits]

theorem escapesByte_ocamlEscape (byte : UInt8) : escapesByte (ocamlEscape byte).toList byte = true := by
  rw [toList_ocamlEscape]
  split
  case isTrue h =>
    subst h
    decide
  case isFalse hquote =>
    split
    case isTrue h =>
      subst h
      decide
    case isFalse hslash =>
      split
      case isTrue h =>
        have hlow : 0x20 ≤ byte.toNat := UInt8.le_iff_toNat_le.mp h.1
        have hhigh : byte.toNat ≤ 0x7E := UInt8.le_iff_toNat_le.mp h.2
        have hbyte : UInt8.ofNat (Char.ofUInt8 byte).toNat = byte := UInt8.ofNat_toNat
        have hne : ∀ other : Char, UInt8.ofNat other.toNat ≠ byte → Char.ofUInt8 byte ≠ other := by
          rintro _ hother rfl
          exact hother hbyte
        have hescapes := @escapesByte_singleton (Char.ofUInt8 byte) hlow hhigh (hne _ (Ne.symm hquote))
          (hne _ (Ne.symm hslash))
        rwa [hbyte] at hescapes
      case isFalse =>
        have hlength : (Nat.toDigits 10 byte.toNat).length ≤ 3 := by
          rw [Nat.length_toDigits_le_iff (by decide) (by decide)]
          exact Nat.lt_of_lt_of_le byte.toNat_lt (by decide)
        refine escapesByte_digits ?_ ?_ ?_
        · rw [List.length_append, List.length_replicate]
          omega
        · intro char hmem
          rcases List.mem_append.mp hmem with hmem | hmem
          · rw [List.eq_of_mem_replicate hmem]
            decide
          · exact Nat.isDigit_of_mem_toDigits (by decide) (by decide) hmem
        · rw [Nat.ofDigitChars_append, Nat.ofDigitChars_replicate_zero, Nat.mul_zero, Nat.ofDigitChars_ten_toDigits]

theorem ordinaryStringFrom_skip {size start : ℕ} {value : Bytes} (piece rest : List Char) :
    ordinaryStringFrom size start piece.length value (piece ++ rest) =
      ordinaryStringFrom size start 0 value rest := by
  induction piece with
  | nil => rfl
  | cons char piece ih => exact ih

/-- An escape whose decoding is known. -/
theorem ordinaryStringFrom_escape {size start : ℕ} {value decoded : Bytes} {piece rest : List Char}
    (h : ∀ slash, decodeEscape size slash (piece ++ rest) = .ok (decoded, rest)) :
    ordinaryStringFrom size start 0 value ('\\' :: (piece ++ rest)) =
      ordinaryStringFrom size start 0 (value ++ decoded) rest := by
  rw [ordinaryStringFrom, if_neg (by decide), if_pos rfl, h]
  dsimp only
  rw [List.length_append, Nat.add_sub_cancel, ordinaryStringFrom_skip]

theorem namedEscape_digit {char : Char} (h : Replay.isAsciiDigit char = true) : namedEscape char = none := by
  unfold namedEscape
  split <;> first | rfl | exact absurd h (by decide)

/-- An escaped byte is read as the byte. -/
theorem ordinaryStringFrom_byte {size start : ℕ} {value : Bytes} {chars : List Char} {byte : UInt8}
    (h : escapesByte chars byte = true) (rest : List Char) :
    ordinaryStringFrom size start 0 value (chars ++ rest) =
      ordinaryStringFrom size start 0 (value ++ [byte]) rest := by
  match chars, h with
  | [char], h =>
      simp only [escapesByte, Bool.and_eq_true, decide_eq_true_eq] at h
      obtain ⟨⟨⟨hquote, hslash⟩, hreturn⟩, hbyte⟩ := h
      rw [List.singleton_append, ordinaryStringFrom, if_neg hquote, if_neg hslash, if_neg hreturn, hbyte]
  | [slash, char], h =>
      simp only [escapesByte, Bool.and_eq_true, decide_eq_true_eq] at h
      obtain ⟨rfl, hnamed⟩ := h
      have hdecode : ∀ index, decodeEscape size index ([char] ++ rest) = .ok ([byte], rest) := by
        intro index
        simp only [List.singleton_append, decodeEscape, hnamed]
      exact ordinaryStringFrom_escape hdecode
  | slash :: first :: second :: digits, h =>
      simp only [escapesByte, Bool.and_eq_true, decide_eq_true_eq] at h
      obtain ⟨⟨⟨rfl, hlength⟩, hdigits⟩, hvalue⟩ := h
      have hfirst : Replay.isAsciiDigit first = true := by
        simp only [List.all_cons, Bool.and_eq_true] at hdigits
        exact hdigits.1
      have htake : (first :: second :: digits ++ rest).take 3 = first :: second :: digits :=
        List.take_left' hlength
      have hdrop : (first :: second :: digits ++ rest).drop 3 = rest := List.drop_left' hlength
      have hbyte : ¬ 255 < byte.toNat := by
        have := byte.toNat_lt
        omega
      have hnewline : first ≠ '\n' := by
        rintro rfl
        exact absurd hfirst (by decide)
      have hreturn : first ≠ '\r' := by
        rintro rfl
        exact absurd hfirst (by decide)
      have hdecode : ∀ index, decodeEscape size index (first :: second :: digits ++ rest) =
          .ok ([byte], rest) := by
        intro index
        have hdecimal : decimalEscape size index (first :: second :: digits ++ rest) = .ok ([byte], rest) := by
          unfold decimalEscape
          dsimp only
          rw [htake, hdrop, if_neg (by simp [hlength, hdigits]), hvalue, if_neg hbyte, UInt8.ofNat_toNat]
        rw [List.cons_append] at hdecimal ⊢
        simp only [decodeEscape, namedEscape_digit hfirst, if_neg hnewline, if_neg hreturn, if_pos hfirst,
          hdecimal]
      exact ordinaryStringFrom_escape hdecode

/-- The literal of a text is read as its bytes. -/
theorem ordinaryStringFrom_literal {size start : ℕ} (bytes : Bytes) (value : Bytes) (tail : List Char) :
    ordinaryStringFrom size start 0 value
        ((String.join (bytes.map ocamlEscape)).toList ++ '"' :: tail) = .ok (value ++ bytes, tail) := by
  rw [String.toList_join]
  induction bytes generalizing value with
  | nil =>
      rw [List.map_nil, List.flatMap_nil, List.nil_append, ordinaryStringFrom, if_pos rfl, List.append_nil]
  | cons byte bytes ih =>
      rw [List.map_cons, List.flatMap_cons, List.append_assoc,
        ordinaryStringFrom_byte (escapesByte_ocamlEscape byte), ih, List.append_assoc, List.singleton_append]

/-! ## The other rounds -/

theorem readsRound_newline (rest : List Char) : ReadsRound tables '\n' ([] ++ rest) none rest :=
  fun _ _ => ⟨_, rfl, rfl, rfl, rfl⟩

theorem readsRound_space (rest : List Char) : ReadsRound tables ' ' ([] ++ rest) none rest :=
  fun _ _ => ⟨_, rfl, rfl, rfl, rfl⟩

theorem readsRound_semisemi (rest : List Char) :
    ReadsRound tables ';' ([';'] ++ rest) (some (.semisemi, ";;", none)) rest :=
  fun _ _ => ⟨_, rfl, rfl, rfl, rfl⟩

theorem readsRound_quotation {body : List Char} (hbody : backquote ∉ body) (rest : List Char) :
    ReadsRound tables backquote ((body ++ [backquote]) ++ rest) (some (.hol, "", none)) rest := by
  intro size previous
  have hread : ∀ index, holBackquote size index (body ++ backquote :: rest) = .ok rest := by
    intro index
    unfold holBackquote
    rw [splitAtChar_append hbody]
  have hassoc : (body ++ [backquote]) ++ rest = body ++ backquote :: rest := by simp
  unfold lexToken
  dsimp only
  rw [hassoc, if_neg (by decide), if_neg (by decide)]
  dsimp only
  rw [if_neg (by simp [backquote]), if_neg (by decide), if_neg (by decide)]
  dsimp only
  rw [if_neg (by decide), if_pos rfl, hread]
  exact ⟨_, rfl, rfl, rfl, rfl⟩

theorem readsRound_literal (value : String) (rest : List Char) :
    ReadsRound tables '"' (((String.join ((utf8 value).map ocamlEscape)).toList ++ ['"']) ++ rest)
      (some (.string, "", some (utf8 value, false))) rest := by
  intro size previous
  have hassoc : ((String.join ((utf8 value).map ocamlEscape)).toList ++ ['"']) ++ rest =
      (String.join ((utf8 value).map ocamlEscape)).toList ++ '"' :: rest := by simp
  unfold lexToken
  dsimp only
  rw [hassoc, if_neg (by decide), if_neg (by decide)]
  dsimp only
  rw [if_neg (by simp), if_pos rfl, ordinaryStringFrom_literal]
  exact ⟨_, rfl, rfl, rfl, rfl⟩

theorem toNat_of_isAsciiLetter {char : Char} (h : Replay.isAsciiLetter char = true) : char.toNat < 128 := by
  simp only [Replay.isAsciiLetter, Bool.or_eq_true, Bool.and_eq_true, decide_eq_true_eq] at h
  rcases h with ⟨-, h⟩ | ⟨-, h⟩
  · have hle : char.toNat ≤ 'Z'.toNat := h
    have hz : 'Z'.toNat = 90 := rfl
    omega
  · have hle : char.toNat ≤ 'z'.toNat := h
    have hz : 'z'.toNat = 122 := rfl
    omega

theorem identifierContinue_letter {char : Char} (h : Replay.isAsciiLetter char = true) :
    identifierContinue tables char = true := by
  unfold identifierContinue
  rw [tables.letter_ascii char (toNat_of_isAsciiLetter h), h]
  simp

/-- The ASCII characters of a word behind its first letter. -/
def isWordChar (char : Char) : Bool :=
  Replay.isAsciiLetter char || Replay.isAsciiDigit char || char = '_'

theorem identifierContinue_wordChar {char : Char} (h : isWordChar char = true) :
    identifierContinue tables char = true := by
  unfold isWordChar at h
  rcases Bool.or_eq_true_iff.mp h with h | h
  · rcases Bool.or_eq_true_iff.mp h with h | h
    · exact identifierContinue_letter h
    · have hascii : char.toNat < 128 := by
        simp only [Replay.isAsciiDigit, Bool.and_eq_true, decide_eq_true_eq] at h
        have hle : char.toNat ≤ '9'.toNat := h.2
        exact lt_of_le_of_lt hle (by decide)
      unfold identifierContinue
      rw [tables.digit_ascii char hascii, h]
      simp
  · unfold identifierContinue
    rw [h]
    rfl

/-- The ASCII characters that end a word. -/
def endsWord (char : Char) : Bool :=
  char.toNat < 128 && !isWordChar char && char ≠ '\''

theorem identifierContinue_endsWord {char : Char} (h : endsWord char = true) :
    identifierContinue tables char = false := by
  simp only [endsWord, isWordChar, Bool.and_eq_true, Bool.not_eq_true', Bool.or_eq_false_iff, decide_eq_true_eq,
    decide_eq_false_iff_not] at h
  obtain ⟨⟨hascii, ⟨hletter, hdigit⟩, hunderscore⟩, hquote⟩ := h
  unfold identifierContinue
  rw [tables.digit_ascii char hascii, tables.letter_ascii char hascii, tables.mark_ascii char hascii, hletter, hdigit,
    decide_eq_false hunderscore, decide_eq_false hquote]
  rfl

/-- A word in front of a character that ends it. -/
theorem roundTo_word {closers : List TokenKind} {first stop : Char} {name : List Char}
    (hfirst : Replay.isAsciiLetter first = true) (hname : name.all isWordChar = true) (hstop : endsWord stop = true)
    (rest : List Char) :
    RoundTo tables closers first (name ++ stop :: rest) (some (wordKind .ident (String.ofList (first :: name)),
      String.ofList (first :: name), none)) closers (stop :: rest) := by
  intro size previous delimiters hclosers
  have hne : ∀ char, Replay.isAsciiLetter char = false → first ≠ char := by
    rintro char hchar rfl
    rw [hfirst] at hchar
    cases hchar
  have hblank : ¬ isBlank first = true := by
    simp [isBlank, hne ' ' (by decide), hne '\t' (by decide), hne '\r' (by decide), hne '\n' (by decide),
      hne '\x0c' (by decide)]
  have hspecial : ∀ other ∈ ['#', '"', '\x7b', '\'', backquote], first ≠ other := by
    have hletters : ∀ other ∈ ['#', '"', '\x7b', '\'', backquote], Replay.isAsciiLetter other = false :=
      List.all_iff_forall_prop.mp (by decide)
    exact fun other hother => hne other (hletters other hother)
  have hdelimiter : delimiterKind first = none := by
    unfold delimiterKind
    split <;> first | rfl | exact absurd hfirst (by decide)
  have hstart : identifierStart tables first = true := by
    unfold identifierStart
    rw [tables.letter_ascii first (toNat_of_isAsciiLetter hfirst), hfirst]
    simp
  have htake : (name ++ stop :: rest).takeWhile (identifierContinue tables) = name := by
    have hchars := List.all_eq_true.mp hname
    rw [List.takeWhile_append_of_pos fun char hchar => identifierContinue_wordChar (hchars char hchar),
      List.takeWhile_cons, if_neg (by simp [identifierContinue_endsWord hstop]), List.append_nil]
  have hhash := hne '#' (by decide)
  have hsemicolon := hne ';' (by decide)
  rw [lexToken_eq_lexPlain hblank (fun h => hne '(' (by decide) h.1) hspecial]
  unfold lexPlain
  dsimp only
  rw [if_neg fun h => hsemicolon h.1, if_neg hsemicolon, if_neg (hne ',' (by decide)), hdelimiter]
  dsimp only
  rw [if_neg fun h => hhash h.1, if_neg (hne '\\' (by decide)), if_pos hstart, htake, List.drop_left]
  exact ⟨_, rfl, rfl, hclosers, rfl⟩

/-- A word of ASCII letters in front of a space. -/
theorem readsRound_word {first : Char} {name : List Char} (hfirst : Replay.isAsciiLetter first = true)
    (hname : ∀ char ∈ name, Replay.isAsciiLetter char = true) (rest : List Char) :
    ReadsRound tables first (name ++ ' ' :: rest) (some (wordKind .ident (String.ofList (first :: name)),
      String.ofList (first :: name), none)) (' ' :: rest) := by
  have hword : name.all isWordChar = true := by
    refine List.all_eq_true.mpr fun char hchar => ?_
    unfold isWordChar
    rw [hname char hchar]
    rfl
  exact (roundTo_word hfirst hword rfl rest).readsRound

theorem roundTo_space {closers : List TokenKind} (rest : List Char) :
    RoundTo tables closers ' ' ([] ++ rest) none closers rest :=
  fun _ _ _ hclosers => ⟨_, rfl, rfl, hclosers, rfl⟩

theorem roundTo_comma {closers : List TokenKind} (rest : List Char) :
    RoundTo tables closers ',' ([] ++ rest) (some (.comma, ",", none)) closers rest :=
  fun _ _ _ hclosers => ⟨_, rfl, rfl, hclosers, rfl⟩

/-- A semicolon in front of a space. -/
theorem roundTo_semi {closers : List TokenKind} (rest : List Char) :
    RoundTo tables closers ';' ([] ++ ' ' :: rest) (some (.semi, ";", none)) closers (' ' :: rest) :=
  fun _ _ _ hclosers => ⟨_, rfl, rfl, hclosers, rfl⟩

theorem roundTo_semisemi (rest : List Char) :
    RoundTo tables [] ';' ([';'] ++ rest) (some (.semisemi, ";;", none)) [] rest := by
  intro size previous delimiters hclosers
  rw [List.map_eq_nil_iff.mp hclosers]
  exact ⟨_, rfl, rfl, rfl, rfl⟩

/-- A parenthesis that opens no comment. -/
theorem roundTo_open {closers : List TokenKind} (hlimit : closers.length < maxNesting) {next : Char}
    (hnext : next ≠ '*') (rest : List Char) :
    RoundTo tables closers '(' ([] ++ next :: rest) (some (.lparen, "(", none)) (.rparen :: closers)
      (next :: rest) := by
  intro size previous delimiters hclosers
  have hcomment : ¬ ('(' = '(' ∧ (next :: rest).head? = some '*') := by simp [hnext]
  have hlength : ¬ maxNesting < delimiters.length + 1 := by
    rw [← hclosers, List.length_map] at hlimit
    omega
  have hstep : ∀ index, stepDelimiter index '(' .lparen delimiters = .ok ((.rparen, index) :: delimiters) :=
    fun _ => if_neg hlength
  have hkind : delimiterKind '(' = some .lparen := rfl
  rw [List.nil_append, lexToken_eq_lexPlain (by decide) hcomment (List.all_iff_forall_prop.mp (by decide))]
  unfold lexPlain
  dsimp only
  rw [if_neg (by simp), if_neg (by decide), if_neg (by decide), hkind]
  dsimp only
  rw [hstep]
  exact ⟨_, rfl, rfl, congrArg (_ :: ·) hclosers, rfl⟩

theorem roundTo_close {closers : List TokenKind} (rest : List Char) :
    RoundTo tables (.rparen :: closers) ')' ([] ++ rest) (some (.rparen, ")", none)) closers rest := by
  intro size previous delimiters hclosers
  obtain ⟨⟨kind, index⟩, delimiters, rfl, rfl, rfl⟩ := List.map_eq_cons_iff.mp hclosers
  exact ⟨_, rfl, rfl, rfl, rfl⟩

/-- The characters that start something else than a symbol. -/
def nonSymbols : List Char :=
  [' ', '\t', '\r', '\n', '\x0c', '#', '"', '\x7b', '\'', backquote, '(', ')', '[', ']', '\x7d', ';', ',', '\\', '_']

theorem lexToken_symbol {size : ℕ} {previous : Option Char} {delimiters : List (TokenKind × ℕ)} {char : Char}
    {rest : List Char} (hascii : char.toNat < 128) (hletter : Replay.isAsciiLetter char = false)
    (hnotMem : char ∉ nonSymbols) :
    lexToken tables size previous delimiters char rest =
      (lexSymbol tables (size - (rest.length + 1)) char rest).map fun (kind, value, after) =>
        ⟨some (kind, value, none), size - (rest.length + 1), size - (rest.length + 1), delimiters, after⟩ := by
  have hne : ∀ other ∈ nonSymbols, char ≠ other := fun other hmem heq => hnotMem (heq ▸ hmem)
  have hblank : ¬ isBlank char = true := by
    have hblanks := hne
    simp only [nonSymbols, List.forall_mem_cons] at hblanks
    simp [isBlank, hblanks]
  have hspecial : ∀ other ∈ ['#', '"', '\x7b', '\'', backquote], char ≠ other := by
    have hsubset : ['#', '"', '\x7b', '\'', backquote] ⊆ nonSymbols := by decide
    exact fun other hother => hne other (hsubset hother)
  have hdelimiter : delimiterKind char = none := by
    unfold delimiterKind
    split <;> first | rfl | exact absurd rfl (hne _ (by decide))
  have hstart : ¬ identifierStart tables char = true := by
    unfold identifierStart
    rw [tables.letter_ascii char hascii, hletter]
    simp [hne '_' (by decide)]
  rw [lexToken_eq_lexPlain hblank (fun h => hne '(' (by decide) h.1) hspecial]
  unfold lexPlain
  dsimp only
  rw [if_neg fun h => hne ';' (by decide) h.1, if_neg (hne ';' (by decide)), if_neg (hne ',' (by decide)), hdelimiter]
  dsimp only
  rw [if_neg fun h => hne '#' (by decide) h.1, if_neg (hne '\\' (by decide)), if_neg hstart]

theorem unicodeOperator_ascii {char : Char} (hascii : char.toNat < 128) : unicodeOperator char = none := by
  unfold unicodeOperator
  split <;> first | rfl | exact absurd hascii (by decide)

/-- Characters of operators in front of one that is none; a hash sign can start a directive. -/
theorem roundTo_operator {closers : List TokenKind} {first stop : Char} {more : List Char}
    (hfirst : isOperatorChar first = true) (hhash : first ≠ '#') (hmore : more.all isOperatorChar = true)
    (hstop : isOperatorChar stop = false) (rest : List Char) :
    RoundTo tables closers first (more ++ stop :: rest) (some (.op, String.ofList (first :: more), none)) closers
      (stop :: rest) := by
  intro size previous delimiters hclosers
  have hall : ∀ char ∈ "!$%&*+-./:<=>?@^|~#".toList, char.toNat < 128 ∧ Replay.isAsciiLetter char = false ∧
      (char ≠ '#' → char ∉ nonSymbols) := List.all_iff_forall_prop.mp (by decide)
  obtain ⟨hascii, hletter, hothers⟩ := hall first (of_decide_eq_true hfirst)
  have htake : (more ++ stop :: rest).takeWhile isOperatorChar = more := by
    rw [List.takeWhile_append_of_pos (List.all_eq_true.mp hmore), List.takeWhile_cons, if_neg (by simp [hstop]),
      List.append_nil]
  rw [lexToken_symbol hascii hletter (hothers hhash)]
  unfold lexSymbol
  rw [unicodeOperator_ascii hascii]
  dsimp only
  rw [if_pos hfirst, htake, List.drop_left]
  exact ⟨_, rfl, rfl, hclosers, rfl⟩

/-- A decimal number in front of a semicolon. -/
theorem roundTo_number {closers : List TokenKind} {first : Char} {more : List Char}
    (hfirst : first ∈ "0123456789".toList) (hmore : more.all Replay.isAsciiDigit = true) (rest : List Char) :
    RoundTo tables closers first (more ++ ';' :: rest) (some (.atom, String.ofList (first :: more), none)) closers
      (';' :: rest) := by
  intro size previous delimiters hclosers
  have hall : ∀ char ∈ "0123456789".toList, char.toNat < 128 ∧ Replay.isAsciiLetter char = false ∧
      isOperatorChar char = false ∧ Replay.isAsciiDigit char = true ∧ char ∉ nonSymbols :=
    List.all_iff_forall_prop.mp (by decide)
  obtain ⟨hascii, hletter, hoperator, hdigit, hothers⟩ := hall first hfirst
  have htake : (more ++ ';' :: rest).takeWhile (fun char => Replay.isAsciiDigit char || Replay.isAsciiLetter char) =
      more := by
    have hdigits := List.all_eq_true.mp hmore
    rw [List.takeWhile_append_of_pos fun char hchar => by rw [hdigits char hchar]; rfl, List.takeWhile_cons,
      if_neg (by decide), List.append_nil]
  rw [lexToken_symbol hascii hletter hothers]
  unfold lexSymbol
  rw [unicodeOperator_ascii hascii]
  dsimp only
  rw [if_neg (by rw [hoperator]; decide), if_pos hdigit, htake, List.drop_left]
  exact ⟨_, rfl, rfl, hclosers, rfl⟩

/-! ## Runs of rounds -/

/-- With nothing open, `after` is read as `tokens` behind `read`, whatever was read last. -/
def ReadsAs (tables : UnicodeTables) (text read after : List Char) (count : ℕ) (tokens : List Token) : Prop :=
  ∀ previous, Reading tables text read after previous count [] tokens

section

variable {text read piece after : List Char} {char : Char} {count : ℕ} {found : List Token}

theorem readsAs_done (htext : text = read) : ReadsAs tables text read [] count [] :=
  htext ▸ fun _ => .done

theorem ReadsAs.blank (hround : ReadsRound tables char (piece ++ after) none after)
    (h : ReadsAs tables text (read ++ char :: piece) after count found) :
    ReadsAs tables text read (char :: (piece ++ after)) count found := by
  intro previous
  obtain ⟨lexed, hlexed, htoken, hopen, hrest⟩ := hround text.length previous
  exact .blank hlexed hrest htoken (hopen ▸ h _)

theorem ReadsAs.token {kind : TokenKind} {value : String} {literal : Option (Bytes × Bool)}
    (hround : ReadsRound tables char (piece ++ after) (some (kind, value, literal)) after)
    (hlimit : count + 1 ≤ maxTokens)
    (h : ReadsAs tables text (read ++ char :: piece) after (count + 1) found) :
    ReadsAs tables text read (char :: (piece ++ after)) count
      (placedToken read (char :: piece) kind value literal :: found) := by
  intro previous
  obtain ⟨lexed, hlexed, htoken, hopen, hrest⟩ := hround text.length previous
  exact .token hlexed hrest htoken hlimit (hopen ▸ h _)

end

/-- A byte of a text is NUL only for the character NUL. -/
theorem zero_not_mem_encode {text : List Char} (h : '\x00' ∉ text) : (0 : UInt8) ∉ encode text := by
  have hbyte : ∀ number, 0 < number % 256 → (0 : UInt8) ≠ UInt8.ofNat number := by
    intro number hpos heq
    have htoNat := congrArg UInt8.toNat heq
    rw [UInt8.toNat_ofNat', UInt8.toNat_zero] at htoNat
    omega
  intro hmem
  obtain ⟨char, hchar, hzero⟩ := List.mem_flatMap.mp hmem
  have hne : char ≠ '\x00' := by
    rintro rfl
    exact h hchar
  unfold String.utf8EncodeChar at hzero
  dsimp only at hzero
  split at hzero
  · rename_i hascii
    have hpos : 0 < char.val.toNat := by
      rw [Nat.pos_iff_ne_zero]
      intro heq
      exact hne (Char.ext (UInt32.toNat_inj.mp heq))
    exact hbyte _ (by omega) (List.mem_singleton.mp hzero)
  split at hzero
  · simp only [List.mem_cons, List.not_mem_nil, or_false] at hzero
    rcases hzero with hzero | hzero <;> exact hbyte _ (by omega) hzero
  split at hzero
  · simp only [List.mem_cons, List.not_mem_nil, or_false] at hzero
    rcases hzero with hzero | hzero | hzero <;> exact hbyte _ (by omega) hzero
  · simp only [List.mem_cons, List.not_mem_nil, or_false] at hzero
    rcases hzero with hzero | hzero | hzero | hzero <;> exact hbyte _ (by omega) hzero

/-! ## The values of literals -/

/-- The values of the string literals among tokens. -/
def literalValues (tokens : List Token) : List Bytes :=
  tokens.filterMap fun token => token.literal.map OcamlStringLiteral.valueBytes

/-- With these closers expected and room for so many tokens, the string literals of `after` have these values; `none`
if the main loop refuses it. -/
def ReadsValues (tables : UnicodeTables) (room : ℕ) (closers : List TokenKind) (after : List Char)
    (values : Option (List Bytes)) : Prop :=
  ∀ text read previous count delimiters, text = read ++ after → delimiters.map Prod.fst = closers →
    count + room ≤ maxTokens →
      (tokenizeFrom tables text.length text 0 previous count delimiters after).toOption.map literalValues = values

section

variable {closers next : List TokenKind} {char : Char} {piece after : List Char} {room : ℕ}
  {values : Option (List Bytes)}

theorem readsValues_done : ReadsValues tables room [] [] (some []) := by
  intro text read previous count delimiters htext hclosers hcount
  rw [List.map_eq_nil_iff.mp hclosers]
  rfl

theorem ReadsValues.blank (hround : RoundTo tables closers char (piece ++ after) none next after)
    (h : ReadsValues tables room next after values) :
    ReadsValues tables room closers (char :: (piece ++ after)) values := by
  intro text read previous count delimiters htext hclosers hcount
  obtain ⟨lexed, hlexed, htoken, hnext, hrest⟩ := hround text.length previous delimiters hclosers
  rw [tokenizeFrom_round htext hlexed hrest, htoken]
  exact h text (read ++ char :: piece) _ _ _ (by rw [htext]; simp) hnext hcount

theorem ReadsValues.token {kind : TokenKind} {value : String} {literal : Option (Bytes × Bool)}
    (hround : RoundTo tables closers char (piece ++ after) (some (kind, value, literal)) next after)
    (h : ReadsValues tables room next after values) :
    ReadsValues tables (room + 1) closers (char :: (piece ++ after))
      (values.map ((literal.map Prod.fst).toList ++ ·)) := by
  intro text read previous count delimiters htext hclosers hcount
  obtain ⟨lexed, hlexed, htoken, hnext, hrest⟩ := hround text.length previous delimiters hclosers
  have hlater := h text (read ++ char :: piece) (char :: piece).getLast? (count + 1) _ (by rw [htext]; simp) hnext
    (by omega)
  rw [tokenizeFrom_round htext hlexed hrest, htoken]
  dsimp only
  rw [if_neg (by omega), ← hlater]
  cases tokenizeFrom tables text.length text 0 (char :: piece).getLast? (count + 1) lexed.delimiters after with
  | error failure => rfl
  | ok tokens => cases literal <;> rfl

/-- A token without a literal. -/
theorem ReadsValues.plain {kind : TokenKind} {value : String}
    (hround : RoundTo tables closers char (piece ++ after) (some (kind, value, none)) next after)
    (h : ReadsValues tables room next after values) :
    ReadsValues tables (room + 1) closers (char :: (piece ++ after)) values := by
  have htoken := h.token hround
  cases values <;> exact htoken

/-- A round that fails. -/
theorem readsValues_refused
    (h : ∀ size previous delimiters, ∃ failure, lexToken tables size previous delimiters char after = .error failure) :
    ReadsValues tables room closers (char :: after) none := by
  intro text read previous count delimiters htext hclosers hcount
  obtain ⟨failure, hfailure⟩ := h text.length previous delimiters
  rw [tokenizeFrom, hfailure]
  rfl

end

/-! ## The phrase of a loader -/

/-- The characters of the literal behind its opening quote. -/
def literalBody (path : String) : List Char :=
  (String.join ((utf8 path).map ocamlEscape)).toList ++ ['"']

theorem ocamlStringLiteral_toList (value : String) : (ocamlStringLiteral value).toList = '"' :: literalBody value := by
  simp only [ocamlStringLiteral, literalBody, String.toList_append]
  rfl

/-- A source loader that opens the source, with one literal as its argument, is a literal call of it. -/
theorem classifyTokens_literal {source : Bytes} {tokens rest : List Token} {use : LoaderUse} {literal : OcamlStringLiteral}
    (huncaptured : uncapturedExecutionOccurrences source tables [] tokens = []) (huses : loaderUses tokens = [use])
    (hbefore : use.before = []) (hopened : use.locallyOpened = false) (hloader : use.token.value ∈ sourceLoaders)
    (hargument : exactStringArgument use.after = some (literal, rest, literal.span.stop))
    (hsupported : literal.unsupported = false) (hboundary : callBoundary rest = true) :
    classifyTokens source tables tokens =
      [literalOccurrence source use.token .source literal.span.stop literal none] := by
  have hcall : classifySourceCall source use =
      (literalOccurrence source use.token .source literal.span.stop literal none, false) := by
    unfold classifySourceCall
    rw [hargument]
    dsimp only
    rw [hsupported, hboundary]
    rfl
  have hfamily : use.family = .source := if_pos hloader
  have hclassify : classifyUse source [] use =
      (some (literalOccurrence source use.token .source literal.span.stop literal none), false) := by
    have hbinding : use.isBinding = false := by
      unfold LoaderUse.isBinding
      rw [hbefore]
      rfl
    have hqualified : use.isQualified = false := by
      unfold LoaderUse.isQualified
      rw [hbefore, hopened]
      rfl
    have hposition : use.inCallPosition = true := by
      unfold LoaderUse.inCallPosition
      rw [hbefore]
      rfl
    unfold classifyUse
    rw [hbinding, hqualified, hposition, hfamily, hcall]
    rfl
  unfold classifyTokens
  rw [huncaptured, huses, classifyUses, hclassify]
  rfl

/-- A literal without NUL names a path of the file system. -/
theorem unsupported_of_path {literal : OcamlStringLiteral} {path : String} (hvalue : literal.valueBytes = utf8 path)
    (hzero : '\x00' ∉ path.toList) : literal.utf8Text = some path ∧ literal.unsupported = false := by
  have hdecoded : literal.utf8Text = some path := by
    unfold OcamlStringLiteral.utf8Text
    rw [hvalue]
    show String.fromUTF8? ⟨(encode path.toList).toArray⟩ = some path
    rw [fromUTF8?_encode, String.ofList_toList]
  refine ⟨hdecoded, ?_⟩
  unfold OcamlStringLiteral.unsupported
  rw [hdecoded, hvalue]
  have habsent : (0 : UInt8) ∉ utf8 path := zero_not_mem_encode hzero
  simpa using habsent

/-- The phrase that loads a path. -/
def loadtPhrase (path : String) : String :=
  "loadt " ++ ocamlStringLiteral path ++ ";;"

/-- The tokens of the phrase. -/
def loadtTokens (path : String) : List Token :=
  [placedToken [] "loadt".toList .loader "loadt" none,
    placedToken "loadt ".toList ('"' :: literalBody path) .string "" (some (utf8 path, false)),
    placedToken ("loadt ".toList ++ '"' :: literalBody path) [';', ';'] .semisemi ";;" none]

theorem tokenize_loadtPhrase (path : String) :
    tokenize tables (loadtPhrase path).toList = .ok (loadtTokens path) := by
  have htext : (loadtPhrase path).toList =
      'l' :: ("oadt".toList ++ ' ' :: ([] ++ '"' :: (literalBody path ++ ';' :: ([';'] ++ [])))) := by
    unfold loadtPhrase
    rw [String.toList_append, String.toList_append, ocamlStringLiteral_toList]
    simp
  have hword : ∀ rest, ReadsRound tables 'l' ("oadt".toList ++ ' ' :: rest) (some (.loader, "loadt", none))
      (' ' :: rest) := by
    have hletters : "oadt".toList.all Replay.isAsciiLetter = true := rfl
    exact readsRound_word rfl (List.all_eq_true.mp hletters)
  have hliteral : ∀ rest, ReadsRound tables '"' (literalBody path ++ rest)
      (some (.string, "", some (utf8 path, false))) rest :=
    readsRound_literal path
  have hread : ReadsAs tables (loadtPhrase path).toList [] _ 0 _ :=
    .token (hword _) (by decide) <| .blank (readsRound_space _) <|
      .token (hliteral _) (by decide) <| .token (readsRound_semisemi _) (by decide) <|
        readsAs_done (by rw [htext]; simp)
  rw [← htext] at hread
  rw [(hread none).tokenize_eq]
  rfl

theorem classifyTokens_loadtTokens (source : Bytes) {path : String} (hzero : '\x00' ∉ path.toList) :
    ∃ occurrence, classifyTokens source tables (loadtTokens path) = [occurrence] ∧ occurrence.loader = "loadt" ∧
      occurrence.outcome = .literal ∧ occurrence.pathLiteral.bind OcamlStringLiteral.utf8Text = some path := by
  obtain ⟨literal, hliteral⟩ : ∃ literal : OcamlStringLiteral, literal =
      ⟨⟨width "loadt ".toList, width ("loadt ".toList ++ '"' :: literalBody path)⟩, utf8 path,
        encode ('"' :: literalBody path), false⟩ := ⟨_, rfl⟩
  have hvalue : literal.valueBytes = utf8 path := by rw [hliteral]
  obtain ⟨hdecoded, hsupported⟩ := unsupported_of_path hvalue hzero
  have huncaptured : uncapturedExecutionOccurrences source tables [] (loadtTokens path) = [] := rfl
  have huses : loaderUses (loadtTokens path) =
      [⟨[], placedToken [] "loadt".toList .loader "loadt" none, (loadtTokens path).tail, false⟩] := rfl
  have hargument : exactStringArgument (loadtTokens path).tail =
      some (literal, (loadtTokens path).drop 2, literal.span.stop) := by
    rw [hliteral]
    rfl
  have hloader : "loadt" ∈ sourceLoaders := by decide
  exact ⟨_, classifyTokens_literal huncaptured huses rfl rfl hloader hargument hsupported rfl, rfl, rfl, hdecoded⟩

/-- A literal is read as the bytes of its text, and a phrase that loads it, within the size of a scan, as a literal
call with this path. -/
theorem ocamlStringLiteral_readBack (value : String) :
    (∃ body, (ocamlStringLiteral value).toList = '"' :: body ∧
      ∀ size start tail, ordinaryStringFrom size start 0 [] (body ++ tail) = .ok (utf8 value, tail)) ∧
    ('\x00' ∉ value.toList → (utf8 (loadtPhrase value)).length ≤ maxSourceBytes →
      (scanOcamlLoaders tables (utf8 (loadtPhrase value))).status = .ok ∧
      ∃ occurrence, (scanOcamlLoaders tables (utf8 (loadtPhrase value))).occurrences = [occurrence] ∧
        occurrence.loader = "loadt" ∧ occurrence.outcome = .literal ∧
        occurrence.pathLiteral.bind OcamlStringLiteral.utf8Text = some value) := by
  constructor
  · refine ⟨literalBody value, ocamlStringLiteral_toList value, fun size start tail => ?_⟩
    unfold literalBody
    rw [List.append_assoc, List.singleton_append, ordinaryStringFrom_literal, List.nil_append]
  · intro hzero hsize
    have hscan := (scanOcamlLoaders_encode hsize (@tokenize_loadtPhrase tables value)).1
    obtain ⟨occurrence, hoccurrence, hloader, houtcome, hpath⟩ :=
      @classifyTokens_loadtTokens tables (utf8 (loadtPhrase value)) _ hzero
    have hscan' : scanOcamlLoaders tables (utf8 (loadtPhrase value)) = _ := hscan
    rw [hscan']
    exact ⟨rfl, occurrence, hoccurrence, hloader, houtcome, hpath⟩

/-- A path with a quote, a backslash, a line end and a letter beyond ASCII is loaded. -/
theorem loadt_odd_path :
    ∃ occurrence, (scanOcamlLoaders .ascii (utf8 (loadtPhrase "a\"\\\né"))).occurrences = [occurrence] ∧
      occurrence.pathLiteral.bind OcamlStringLiteral.utf8Text = some "a\"\\\né" := by
  obtain ⟨-, occurrence, hoccurrence, -, -, hpath⟩ :=
    (@ocamlStringLiteral_readBack .ascii "a\"\\\né").2 (by decide) (by decide +kernel)
  exact ⟨occurrence, hoccurrence, hpath⟩

/-- A text has no more pieces than characters, if none of them is empty. -/
theorem length_le_length_flatMap {α β : Type} {pieces : α → List β} (h : ∀ item, pieces item ≠ []) (items : List α) :
    items.length ≤ (items.flatMap pieces).length := by
  induction items with
  | nil => exact Nat.zero_le _
  | cons item items ih =>
      have hpiece := List.length_pos_iff.mpr (h item)
      rw [List.flatMap_cons, List.length_append, List.length_cons]
      omega

theorem ocamlEscape_ne_nil (byte : UInt8) : (ocamlEscape byte).toList ≠ [] := by
  intro hnil
  have hescapes := escapesByte_ocamlEscape byte
  rw [hnil] at hescapes
  cases hescapes

theorem length_le_length_utf8 (text : String) : text.toList.length ≤ (utf8 text).length :=
  length_le_length_flatMap (fun _ => String.utf8EncodeChar_ne_nil) text.toList

/-- The phrase is longer than its path. -/
theorem length_lt_length_loadtPhrase (path : String) : path.toList.length < (utf8 (loadtPhrase path)).length := by
  have hliteral : (utf8 path).length ≤ (literalBody path).length := by
    have hbody := length_le_length_flatMap ocamlEscape_ne_nil (utf8 path)
    unfold literalBody
    rw [String.toList_join, List.length_append, List.flatMap_map]
    exact Nat.le_add_right_of_le hbody
  have hphrase : (literalBody path).length < (loadtPhrase path).toList.length := by
    unfold loadtPhrase
    rw [String.toList_append, String.toList_append, ocamlStringLiteral_toList, List.length_append, List.length_append,
      List.length_cons]
    omega
  calc
    path.toList.length ≤ (utf8 path).length := length_le_length_utf8 path
    _ ≤ (literalBody path).length := hliteral
    _ < (loadtPhrase path).toList.length := hphrase
    _ ≤ (utf8 (loadtPhrase path)).length := length_le_length_utf8 _

/-- A path beyond the size of a scan is refused with its phrase. -/
theorem long_path_refused :
    '\x00' ∉ (String.ofList (List.replicate maxSourceBytes 'a')).toList ∧
    (scanOcamlLoaders .ascii (utf8 (loadtPhrase (String.ofList (List.replicate maxSourceBytes 'a'))))).status =
      .refused ∧
    (scanOcamlLoaders .ascii (utf8 (loadtPhrase (String.ofList (List.replicate maxSourceBytes 'a'))))).occurrences =
      [] := by
  obtain ⟨path, hpath⟩ : ∃ path, path = String.ofList (List.replicate maxSourceBytes 'a') := ⟨_, rfl⟩
  have hlength : path.toList.length = maxSourceBytes := by
    rw [hpath, String.toList_ofList, List.length_replicate]
  have hlong : maxSourceBytes < (utf8 (loadtPhrase path)).length := hlength ▸ length_lt_length_loadtPhrase path
  rw [← hpath]
  have hscan : scanOcamlLoaders .ascii (utf8 (loadtPhrase path)) = refusedScan _ _ := if_pos hlong
  rw [hscan]
  refine ⟨?_, rfl, rfl⟩
  rw [hpath, String.toList_ofList]
  intro hmem
  exact absurd (List.eq_of_mem_replicate hmem) (by decide)

end Hearth.Loader
