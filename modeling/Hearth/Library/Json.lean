import Hearth.Library.Ascii
import Mathlib.Data.Int.Notation
import Mathlib.Tactic.Common

/-!
# JSON text

The values of JSON without floating-point numbers, their compact text with all but the
printable ASCII characters escaped, and a parser.  The parser takes back what was
written, so the text determines the value.

The parser is given fuel; twice the length of the text is always enough.
-/

namespace Hearth.Library

/-- A JSON value.  An object keeps its fields in the order in which they are written. -/
inductive Json
  | null
  | bool (value : Bool)
  | int (value : ℤ)
  | str (value : String)
  | arr (items : List Json)
  | obj (fields : List (String × Json))

namespace Json

/-! ## Writing -/

/-- `\u` and four hexadecimal digits. -/
def unicodeEscape (code : ℕ) : List Char :=
  ['\\', 'u', Nat.digitChar (code / 4096 % 16), Nat.digitChar (code / 256 % 16),
    Nat.digitChar (code / 16 % 16), Nat.digitChar (code % 16)]

/-- One character inside a string; beyond the basic plane it is a surrogate pair. -/
def renderChar (char : Char) : List Char :=
  if char = '\x22' then ['\\', '\x22']
  else if char = '\\' then ['\\', '\\']
  else if char = '\n' then ['\\', 'n']
  else if char = '\r' then ['\\', 'r']
  else if char = '\t' then ['\\', 't']
  else if char = '\x08' then ['\\', 'b']
  else if char = '\x0c' then ['\\', 'f']
  else if 0x20 ≤ char.toNat ∧ char.toNat ≤ 0x7E then [char]
  else if char.toNat < 0x10000 then unicodeEscape char.toNat
  else unicodeEscape (0xD800 + (char.toNat - 0x10000) / 1024) ++
    unicodeEscape (0xDC00 + (char.toNat - 0x10000) % 1024)

def renderString (value : String) : List Char :=
  '\x22' :: (value.toList.flatMap renderChar ++ ['\x22'])

def renderInt (value : ℤ) : List Char :=
  if value < 0 then '-' :: Nat.toDigits 10 value.natAbs else Nat.toDigits 10 value.natAbs

mutual

/-- The text of a value. -/
def render : Json → List Char
  | .null => ['n', 'u', 'l', 'l']
  | .bool true => ['t', 'r', 'u', 'e']
  | .bool false => ['f', 'a', 'l', 's', 'e']
  | .int value => renderInt value
  | .str value => renderString value
  | .arr items => '[' :: (renderItems items ++ [']'])
  | .obj fields => '\x7b' :: (renderFields fields ++ ['\x7d'])

def renderItems : List Json → List Char
  | [] => []
  | item :: items => render item ++ renderMoreItems items

def renderMoreItems : List Json → List Char
  | [] => []
  | item :: items => ',' :: (render item ++ renderMoreItems items)

def renderFields : List (String × Json) → List Char
  | [] => []
  | (key, value) :: fields => renderString key ++ ':' :: (render value ++ renderMoreFields fields)

def renderMoreFields : List (String × Json) → List Char
  | [] => []
  | (key, value) :: fields =>
      ',' :: (renderString key ++ ':' :: (render value ++ renderMoreFields fields))

end

/-- A field of an object; the last of several with one name counts. -/
def field (key : String) : Json → Option Json
  | .obj fields => fields.reverse.lookup key
  | _ => none

/-! ## Reading -/

def isSpace (char : Char) : Bool :=
  char = ' ' || char = '\t' || char = '\n' || char = '\r'

def skipSpace (text : List Char) : List Char :=
  text.dropWhile isSpace

def hexValue (char : Char) : Option ℕ :=
  if '0' ≤ char ∧ char ≤ '9' then some (char.toNat - 0x30)
  else if 'a' ≤ char ∧ char ≤ 'f' then some (char.toNat - 0x61 + 10)
  else if 'A' ≤ char ∧ char ≤ 'F' then some (char.toNat - 0x41 + 10)
  else none

/-- Four hexadecimal digits. -/
def parseUnicode : List Char → Option (ℕ × List Char)
  | a :: b :: c :: d :: rest => do
      let a ← hexValue a
      let b ← hexValue b
      let c ← hexValue c
      let d ← hexValue d
      return (a * 4096 + b * 256 + c * 16 + d, rest)
  | _ => none

/-- What follows a `\u`.  A surrogate is taken with its partner; alone it is no character. -/
def parseUnicodeChar (text : List Char) : Option (Char × List Char) := do
  let (code, rest) ← parseUnicode text
  if 0xD800 ≤ code ∧ code < 0xDC00 then
    match rest with
    | '\\' :: 'u' :: rest =>
        let (low, rest) ← parseUnicode rest
        if 0xDC00 ≤ low ∧ low < 0xE000 then
          return (Char.ofNat (0x10000 + (code - 0xD800) * 1024 + (low - 0xDC00)), rest)
        else none
    | _ => none
  else if 0xDC00 ≤ code ∧ code < 0xE000 then none
  else return (Char.ofNat code, rest)

/-- What follows a backslash. -/
def parseEscape : List Char → Option (Char × List Char)
  | '\x22' :: rest => some ('\x22', rest)
  | '\\' :: rest => some ('\\', rest)
  | '/' :: rest => some ('/', rest)
  | 'b' :: rest => some ('\x08', rest)
  | 'f' :: rest => some ('\x0c', rest)
  | 'n' :: rest => some ('\n', rest)
  | 'r' :: rest => some ('\r', rest)
  | 't' :: rest => some ('\t', rest)
  | 'u' :: rest => parseUnicodeChar rest
  | _ => none

/-- The characters of a string up to its closing quote. -/
def parseChars : ℕ → List Char → Option (List Char × List Char)
  | fuel + 1, char :: rest =>
      if char = '\x22' then some ([], rest)
      else if char = '\\' then do
        let (char, rest) ← parseEscape rest
        let (chars, rest) ← parseChars fuel rest
        return (char :: chars, rest)
      else if char.toNat < 0x20 then none
      else do
        let (chars, rest) ← parseChars fuel rest
        return (char :: chars, rest)
  | _, _ => none

/-- Whether a number goes on as a floating-point number or has a leading zero. -/
def isPlainInt (digits rest : List Char) : Bool :=
  digits ≠ [] && !(digits.head? = some '0' && digits.length ≠ 1) &&
    !(rest.head? = some '.' || rest.head? = some 'e' || rest.head? = some 'E')

def parseNat (text : List Char) : Option (ℕ × List Char) :=
  let digits := text.takeWhile Char.isDigit
  let rest := text.dropWhile Char.isDigit
  if isPlainInt digits rest then some (Nat.ofDigitChars 10 digits 0, rest) else none

mutual

/-- One value at the front of the text. -/
def parseValue : ℕ → List Char → Option (Json × List Char)
  | 0, _ => none
  | fuel + 1, text =>
      match skipSpace text with
      | 'n' :: 'u' :: 'l' :: 'l' :: rest => some (.null, rest)
      | 't' :: 'r' :: 'u' :: 'e' :: rest => some (.bool true, rest)
      | 'f' :: 'a' :: 'l' :: 's' :: 'e' :: rest => some (.bool false, rest)
      | '\x22' :: rest => (parseChars fuel rest).map fun (chars, rest) =>
          (.str (String.ofList chars), rest)
      | '[' :: rest => (parseItems fuel rest).map fun (items, rest) => (.arr items, rest)
      | '\x7b' :: rest => (parseFields fuel rest).map fun (fields, rest) => (.obj fields, rest)
      | '-' :: rest => (parseNat rest).map fun (value, rest) => (.int (-value), rest)
      | rest => (parseNat rest).map fun (value, rest) => (.int value, rest)

/-- Behind an opening bracket. -/
def parseItems : ℕ → List Char → Option (List Json × List Char)
  | 0, _ => none
  | fuel + 1, text =>
      match skipSpace text with
      | ']' :: rest => some ([], rest)
      | rest => do
          let (item, rest) ← parseValue fuel rest
          let (items, rest) ← parseMoreItems fuel rest
          return (item :: items, rest)

/-- Behind an item. -/
def parseMoreItems : ℕ → List Char → Option (List Json × List Char)
  | 0, _ => none
  | fuel + 1, text =>
      match skipSpace text with
      | ']' :: rest => some ([], rest)
      | ',' :: rest => do
          let (item, rest) ← parseValue fuel rest
          let (items, rest) ← parseMoreItems fuel rest
          return (item :: items, rest)
      | _ => none

/-- Behind an opening brace. -/
def parseFields : ℕ → List Char → Option (List (String × Json) × List Char)
  | 0, _ => none
  | fuel + 1, text =>
      match skipSpace text with
      | '\x7d' :: rest => some ([], rest)
      | rest => do
          let (field, rest) ← parseField fuel rest
          let (fields, rest) ← parseMoreFields fuel rest
          return (field :: fields, rest)

/-- Behind a field. -/
def parseMoreFields : ℕ → List Char → Option (List (String × Json) × List Char)
  | 0, _ => none
  | fuel + 1, text =>
      match skipSpace text with
      | '\x7d' :: rest => some ([], rest)
      | ',' :: rest => do
          let (field, rest) ← parseField fuel rest
          let (fields, rest) ← parseMoreFields fuel rest
          return (field :: fields, rest)
      | _ => none

/-- A key, a colon and a value. -/
def parseField : ℕ → List Char → Option ((String × Json) × List Char)
  | 0, _ => none
  | fuel + 1, text =>
      match skipSpace text with
      | '\x22' :: rest => do
          let (key, rest) ← parseChars fuel rest
          match skipSpace rest with
          | ':' :: rest =>
              let (value, rest) ← parseValue fuel rest
              return ((String.ofList key, value), rest)
          | _ => none
      | _ => none

end

/-- A whole text. -/
def parse (text : List Char) : Option Json :=
  match parseValue (2 * text.length + 1) text with
  | some (value, rest) => if skipSpace rest = [] then some value else none
  | none => none

/-! ## Characters -/

theorem skipSpace_cons {char : Char} (h : isSpace char = false) (rest : List Char) :
    skipSpace (char :: rest) = char :: rest := by
  unfold skipSpace
  rw [List.dropWhile_cons_of_neg]
  rw [h]
  exact Bool.false_ne_true

theorem hexValue_digitChar {digit : ℕ} (h : digit < 16) :
    hexValue (Nat.digitChar digit) = some digit := by
  have hall : ∀ digit < 16, hexValue (Nat.digitChar digit) = some digit := by decide
  exact hall digit h

/-- Four digits are read as the number they were written for. -/
theorem parseUnicode_digits {code : ℕ} (h : code < 65536) (rest : List Char) :
    parseUnicode (Nat.digitChar (code / 4096 % 16) :: Nat.digitChar (code / 256 % 16) ::
      Nat.digitChar (code / 16 % 16) :: Nat.digitChar (code % 16) :: rest) = some (code, rest) := by
  have hdigit : ∀ value : ℕ, hexValue (Nat.digitChar (value % 16)) = some (value % 16) :=
    fun value => hexValue_digitChar (Nat.mod_lt _ (by decide))
  have hcode : code / 4096 % 16 * 4096 + code / 256 % 16 * 256 + code / 16 % 16 * 16 + code % 16 =
      code := by
    omega
  simp only [parseUnicode, hdigit, Option.bind_eq_bind, Option.bind_some, hcode]
  rfl

/-- The code of a character is never that of a surrogate. -/
theorem toNat_lt_or (char : Char) :
    char.toNat < 0xD800 ∨ 0xDFFF < char.toNat ∧ char.toNat < 0x110000 :=
  char.valid

theorem parseEscape_unicode {code : ℕ} (hbasic : code < 0x10000)
    (hvalid : code < 0xD800 ∨ 0xDFFF < code) (rest : List Char) :
    parseEscape ((unicodeEscape code).tail ++ rest) = some (Char.ofNat code, rest) := by
  show parseUnicodeChar (Nat.digitChar (code / 4096 % 16) :: Nat.digitChar (code / 256 % 16) ::
    Nat.digitChar (code / 16 % 16) :: Nat.digitChar (code % 16) :: rest) = _
  simp only [parseUnicodeChar, parseUnicode_digits hbasic, Option.bind_eq_bind, Option.bind_some]
  rw [if_neg (by omega), if_neg (by omega)]
  rfl

theorem parseEscape_surrogates (high low : ℕ) (hhigh : 0xD800 ≤ high ∧ high < 0xDC00)
    (hlow : 0xDC00 ≤ low ∧ low < 0xE000) (rest : List Char) :
    parseEscape ((unicodeEscape high).tail ++ (unicodeEscape low ++ rest)) =
      some (Char.ofNat (0x10000 + (high - 0xD800) * 1024 + (low - 0xDC00)), rest) := by
  show parseUnicodeChar (Nat.digitChar (high / 4096 % 16) :: Nat.digitChar (high / 256 % 16) ::
    Nat.digitChar (high / 16 % 16) :: Nat.digitChar (high % 16) :: '\\' :: 'u' ::
    Nat.digitChar (low / 4096 % 16) :: Nat.digitChar (low / 256 % 16) ::
    Nat.digitChar (low / 16 % 16) :: Nat.digitChar (low % 16) :: rest) = _
  have hhighBasic : high < 65536 := by omega
  have hlowBasic : low < 65536 := by omega
  simp only [parseUnicodeChar, parseUnicode_digits hhighBasic, Option.bind_eq_bind,
    Option.bind_some]
  rw [if_pos hhigh]
  simp only [parseUnicode_digits hlowBasic, Option.bind_some]
  rw [if_pos hlow]
  rfl

theorem parseChars_escape {fuel : ℕ} {char : Char} {text rest : List Char}
    (h : parseEscape text = some (char, rest)) :
    parseChars (fuel + 1) ('\\' :: text) =
      (parseChars fuel rest).map fun read => (char :: read.1, read.2) := by
  rw [parseChars, if_neg (by decide), if_pos rfl, h]
  simp only [Option.bind_eq_bind, Option.bind_some]
  cases parseChars fuel rest with
  | none => rfl
  | some read => rfl

/-- A written character is read back. -/
theorem parseChars_renderChar (fuel : ℕ) (char : Char) (rest : List Char) :
    parseChars (fuel + 1) (renderChar char ++ rest) =
      (parseChars fuel rest).map fun read => (char :: read.1, read.2) := by
  have hvalid := toNat_lt_or char
  unfold renderChar
  by_cases hquote : char = '\x22'
  · rw [if_pos hquote, hquote]
    exact parseChars_escape rfl
  rw [if_neg hquote]
  by_cases hbackslash : char = '\\'
  · rw [if_pos hbackslash, hbackslash]
    exact parseChars_escape rfl
  rw [if_neg hbackslash]
  by_cases hnewline : char = '\n'
  · rw [if_pos hnewline, hnewline]
    exact parseChars_escape rfl
  rw [if_neg hnewline]
  by_cases hreturn : char = '\r'
  · rw [if_pos hreturn, hreturn]
    exact parseChars_escape rfl
  rw [if_neg hreturn]
  by_cases htab : char = '\t'
  · rw [if_pos htab, htab]
    exact parseChars_escape rfl
  rw [if_neg htab]
  by_cases hbackspace : char = '\x08'
  · rw [if_pos hbackspace, hbackspace]
    exact parseChars_escape rfl
  rw [if_neg hbackspace]
  by_cases hfeed : char = '\x0c'
  · rw [if_pos hfeed, hfeed]
    exact parseChars_escape rfl
  rw [if_neg hfeed]
  by_cases hplain : 0x20 ≤ char.toNat ∧ char.toNat ≤ 0x7E
  · rw [if_pos hplain]
    show parseChars (fuel + 1) (char :: rest) = _
    rw [parseChars, if_neg hquote, if_neg hbackslash, if_neg (by omega)]
    cases parseChars fuel rest with
    | none => rfl
    | some read => rfl
  rw [if_neg hplain]
  by_cases hbasic : char.toNat < 0x10000
  · rw [if_pos hbasic]
    have hread := parseEscape_unicode hbasic (by omega) rest
    rw [Char.ofNat_toNat] at hread
    exact parseChars_escape hread
  · rw [if_neg hbasic, List.append_assoc]
    have hread := parseEscape_surrogates (0xD800 + (char.toNat - 0x10000) / 1024)
      (0xDC00 + (char.toNat - 0x10000) % 1024) (by omega) (by omega) rest
    have hcode : 0x10000 + (0xD800 + (char.toNat - 0x10000) / 1024 - 0xD800) * 1024 +
        (0xDC00 + (char.toNat - 0x10000) % 1024 - 0xDC00) = char.toNat := by
      omega
    rw [hcode, Char.ofNat_toNat] at hread
    exact parseChars_escape hread

/-- A written string is read back up to its closing quote. -/
theorem parseChars_renderChars (chars : List Char) (fuel : ℕ) (h : chars.length < fuel)
    (rest : List Char) :
    parseChars fuel (chars.flatMap renderChar ++ '\x22' :: rest) = some (chars, rest) := by
  induction chars generalizing fuel with
  | nil =>
      obtain ⟨fuel, rfl⟩ : ∃ less, fuel = less + 1 := ⟨fuel - 1, by omega⟩
      show parseChars (fuel + 1) ('\x22' :: rest) = _
      rw [parseChars, if_pos rfl]
  | cons char chars ih =>
      rw [List.length_cons] at h
      obtain ⟨fuel, rfl⟩ : ∃ less, fuel = less + 1 := ⟨fuel - 1, by omega⟩
      rw [List.flatMap_cons, List.append_assoc, parseChars_renderChar, ih fuel (by omega)]
      rfl

/-! ## Numbers -/

/-- What may stand behind a value: nothing, or the next delimiter. -/
def Delimited (rest : List Char) : Prop :=
  ∀ char, rest.head? = some char → char = ',' ∨ char = ']' ∨ char = '\x7d'

theorem delimited_cons {char : Char} (h : char = ',' ∨ char = ']' ∨ char = '\x7d')
    (rest : List Char) : Delimited (char :: rest) := by
  intro first hfirst
  cases hfirst
  exact h

theorem toDigits_head {value : ℕ} (h : 0 < value) :
    (Nat.toDigits 10 value).head? ≠ some '0' := by
  induction value using Nat.strongRecOn with
  | ind value ih =>
      by_cases hsmall : value < 10
      · have hall : ∀ value < 10, 0 < value → (Nat.toDigits 10 value).head? ≠ some '0' := by decide
        exact hall value hsmall h
      · rw [Nat.toDigits_of_base_le (by decide) (by omega)]
        have hne : Nat.toDigits 10 (value / 10) ≠ [] := Nat.toDigits_ne_nil
        rw [List.head?_append_of_ne_nil _ hne]
        exact ih (value / 10) (by omega) (by omega)

theorem toDigits_isDigit (value : ℕ) : ∀ char ∈ Nat.toDigits 10 value, char.isDigit = true :=
  fun _ hmem => Nat.isDigit_of_mem_toDigits (by decide) (by decide) hmem

/-- Digits are read up to the delimiter. -/
theorem parseNat_toDigits (value : ℕ) {rest : List Char} (h : Delimited rest) :
    parseNat (Nat.toDigits 10 value ++ rest) = some (value, rest) := by
  have hrest : rest.takeWhile Char.isDigit = [] ∧ rest.dropWhile Char.isDigit = rest := by
    cases rest with
    | nil => exact ⟨rfl, rfl⟩
    | cons char rest =>
        have hdigit : char.isDigit = false := by
          rcases h char rfl with rfl | rfl | rfl
          · decide
          · decide
          · decide
        simp [hdigit]
  have hplain : isPlainInt (Nat.toDigits 10 value) rest = true := by
    have hzero : (Nat.toDigits 10 value).head? = some '0' → (Nat.toDigits 10 value).length = 1 := by
      intro hhead
      rcases Nat.eq_zero_or_pos value with rfl | hpositive
      · rfl
      · exact absurd hhead (toDigits_head hpositive)
    have hnext : rest.head? ≠ some '.' ∧ rest.head? ≠ some 'e' ∧ rest.head? ≠ some 'E' := by
      refine ⟨?_, ?_, ?_⟩
      · intro hhead
        rcases h _ hhead with hchar | hchar | hchar <;> cases hchar
      · intro hhead
        rcases h _ hhead with hchar | hchar | hchar <;> cases hchar
      · intro hhead
        rcases h _ hhead with hchar | hchar | hchar <;> cases hchar
    simp only [isPlainInt, Bool.and_eq_true, decide_eq_true_eq, Bool.not_eq_true',
      Bool.and_eq_false_iff, Bool.or_eq_false_iff, decide_eq_false_iff_not]
    refine ⟨⟨Nat.toDigits_ne_nil, ?_⟩, ⟨hnext.1, hnext.2.1⟩, hnext.2.2⟩
    by_cases hhead : (Nat.toDigits 10 value).head? = some '0'
    · exact .inr (by simp [hzero hhead])
    · exact .inl hhead
  unfold parseNat
  rw [List.takeWhile_append_of_pos (toDigits_isDigit value),
    List.dropWhile_append_of_pos (toDigits_isDigit value), hrest.1, hrest.2, List.append_nil]
  dsimp only
  rw [if_pos hplain, Nat.ofDigitChars_ten_toDigits]

/-! ## Values -/

theorem isSpace_of_isDigit {char : Char} (h : char.isDigit = true) : isSpace char = false := by
  simp only [isSpace, Bool.or_eq_false_iff, decide_eq_false_iff_not]
  refine ⟨⟨⟨?_, ?_⟩, ?_⟩, ?_⟩
  all_goals
    rintro rfl
    exact absurd h (by decide)

/-- Digits at the front of a text are read as a number. -/
theorem parseValue_digit (fuel : ℕ) {char : Char} (hdigit : char.isDigit = true)
    (rest : List Char) :
    parseValue (fuel + 1) (char :: rest) =
      (parseNat (char :: rest)).map fun (value, rest) => (.int value, rest) := by
  rw [parseValue, skipSpace_cons (isSpace_of_isDigit hdigit)]
  -- None of the other values starts with a digit.
  split
  all_goals
    first
    | rfl
    | rename_i heq
      cases heq
      exact absurd hdigit (by decide)

theorem parseValue_renderInt (value : ℤ) {fuel : ℕ} {rest : List Char} (h : Delimited rest) :
    parseValue (fuel + 1) (renderInt value ++ rest) = some (.int value, rest) := by
  unfold renderInt
  by_cases hnegative : value < 0
  · rw [if_pos hnegative]
    show (parseNat (Nat.toDigits 10 value.natAbs ++ rest)).map _ = _
    rw [parseNat_toDigits _ h]
    have hvalue : -(value.natAbs : ℤ) = value := by omega
    simp only [Option.map_some, hvalue]
  · rw [if_neg hnegative]
    have hread := parseNat_toDigits value.natAbs h
    have hvalue : (value.natAbs : ℤ) = value := by omega
    cases hdigits : Nat.toDigits 10 value.natAbs with
    | nil => exact absurd hdigits Nat.toDigits_ne_nil
    | cons char digits =>
        have hdigit := toDigits_isDigit value.natAbs char (by rw [hdigits]; exact .head _)
        rw [hdigits] at hread
        rw [List.cons_append, parseValue_digit fuel hdigit, ← List.cons_append, hread]
        simp only [Option.map_some, hvalue]

/-- Every written value starts with a character that is no space and closes no list. -/
theorem render_cons (value : Json) :
    ∃ char rest, render value = char :: rest ∧ isSpace char = false ∧ char ≠ ']' := by
  cases value with
  | null => exact ⟨_, _, rfl, by decide, by decide⟩
  | bool value =>
      cases value
      · exact ⟨_, _, rfl, by decide, by decide⟩
      · exact ⟨_, _, rfl, by decide, by decide⟩
  | int value =>
      by_cases hnegative : value < 0
      · refine ⟨'-', Nat.toDigits 10 value.natAbs, ?_, by decide, by decide⟩
        rw [render, renderInt, if_pos hnegative]
      · cases hdigits : Nat.toDigits 10 value.natAbs with
        | nil => exact absurd hdigits Nat.toDigits_ne_nil
        | cons char digits =>
            have hdigit := toDigits_isDigit value.natAbs char (by rw [hdigits]; exact .head _)
            refine ⟨char, digits, ?_, isSpace_of_isDigit hdigit, ?_⟩
            · rw [render, renderInt, if_neg hnegative, hdigits]
            · rintro rfl
              exact absurd hdigit (by decide)
  | str value => exact ⟨_, _, rfl, by decide, by decide⟩
  | arr items => exact ⟨_, _, rfl, by decide, by decide⟩
  | obj fields => exact ⟨_, _, rfl, by decide, by decide⟩

mutual

/-- The fuel with which a written value is read back. -/
def weight : Json → ℕ
  | .null => 1
  | .bool _ => 1
  | .int _ => 1
  | .str value => value.toList.length + 2
  | .arr items => 1 + itemsWeight items
  | .obj fields => 1 + fieldsWeight fields

def itemsWeight : List Json → ℕ
  | [] => 1
  | item :: items => 1 + weight item + itemsWeight items

def fieldsWeight : List (String × Json) → ℕ
  | [] => 1
  | (key, value) :: fields => 3 + key.toList.length + weight value + fieldsWeight fields

end

theorem parseField_render (key : String) {value : Json} {fuel : ℕ}
    (hfuel : key.toList.length + 1 < fuel) {text rest : List Char}
    (hvalue : parseValue (fuel - 1) text = some (value, rest)) :
    parseField fuel (renderString key ++ ':' :: text) = some ((key, value), rest) := by
  obtain ⟨fuel, rfl⟩ : ∃ less, fuel = less + 1 := ⟨fuel - 1, by omega⟩
  rw [Nat.add_sub_cancel] at hvalue
  have hkey := parseChars_renderChars key.toList fuel (by omega) (':' :: text)
  have htext : renderString key ++ ':' :: text =
      '\x22' :: (key.toList.flatMap renderChar ++ '\x22' :: ':' :: text) := by
    simp [renderString]
  rw [htext, parseField, skipSpace_cons (by decide)]
  simp only [hkey, Option.bind_eq_bind, Option.bind_some]
  rw [skipSpace_cons (by decide)]
  simp only [hvalue, Option.bind_some, String.ofList_toList]
  rfl

/-- What stands behind an item, and behind a field, is a delimiter. -/
theorem delimited_moreItems (items : List Json) (rest : List Char) :
    Delimited (renderMoreItems items ++ ']' :: rest) := by
  cases items with
  | nil => exact delimited_cons (.inr (.inl rfl)) _
  | cons item items => exact delimited_cons (.inl rfl) _

theorem delimited_moreFields (fields : List (String × Json)) (rest : List Char) :
    Delimited (renderMoreFields fields ++ '\x7d' :: rest) := by
  cases fields with
  | nil => exact delimited_cons (.inr (.inr rfl)) _
  | cons field fields => exact delimited_cons (.inl rfl) _

mutual

/-- A written value is read back, whatever delimiter stands behind it. -/
theorem parseValue_render : ∀ (value : Json) (fuel : ℕ), weight value ≤ fuel →
    ∀ {rest : List Char}, Delimited rest →
      parseValue fuel (render value ++ rest) = some (value, rest)
  | .null, fuel + 1, _, rest, _ => rfl
  | .bool true, fuel + 1, _, rest, _ => rfl
  | .bool false, fuel + 1, _, rest, _ => rfl
  | .int value, fuel + 1, _, rest, hrest => parseValue_renderInt value hrest
  | .str value, fuel + 1, hfuel, rest, _ => by
      rw [weight] at hfuel
      have hread := parseChars_renderChars value.toList fuel (by omega) rest
      have htext : render (.str value) ++ rest =
          '\x22' :: (value.toList.flatMap renderChar ++ '\x22' :: rest) := by
        simp [render, renderString]
      rw [htext, parseValue, skipSpace_cons (by decide)]
      simp only [hread, Option.map_some, String.ofList_toList]
  | .arr items, fuel + 1, hfuel, rest, _ => by
      rw [weight] at hfuel
      have hread := parseItems_render items fuel (by omega) rest
      have htext : render (.arr items) ++ rest = '[' :: (renderItems items ++ ']' :: rest) := by
        simp [render]
      rw [htext, parseValue, skipSpace_cons (by decide)]
      simp only [hread, Option.map_some]
  | .obj fields, fuel + 1, hfuel, rest, _ => by
      rw [weight] at hfuel
      have hread := parseFields_render fields fuel (by omega) rest
      have htext : render (.obj fields) ++ rest =
          '\x7b' :: (renderFields fields ++ '\x7d' :: rest) := by
        simp [render]
      rw [htext, parseValue, skipSpace_cons (by decide)]
      simp only [hread, Option.map_some]
  | value, 0, hfuel, _, _ => by
      cases value <;> simp only [weight] at hfuel <;> omega

theorem parseItems_render : ∀ (items : List Json) (fuel : ℕ), itemsWeight items ≤ fuel →
    ∀ rest : List Char,
      parseItems fuel (renderItems items ++ ']' :: rest) = some (items, rest)
  | [], 0, hfuel, _ => by rw [itemsWeight] at hfuel; omega
  | _ :: _, 0, hfuel, _ => by rw [itemsWeight] at hfuel; omega
  | [], fuel + 1, _, rest => rfl
  | item :: items, fuel + 1, hfuel, rest => by
      rw [itemsWeight] at hfuel
      have hitem := parseValue_render item fuel (by omega) (delimited_moreItems items rest)
      have hitems := parseMoreItems_render items fuel (by omega) rest
      obtain ⟨char, tail, hrender, hspace, hopen⟩ := render_cons item
      rw [renderItems, List.append_assoc]
      have htext : render item ++ (renderMoreItems items ++ ']' :: rest) =
          char :: (tail ++ (renderMoreItems items ++ ']' :: rest)) := by
        rw [hrender, List.cons_append]
      rw [htext, parseItems, skipSpace_cons hspace, ← htext]
      split
      · rename_i heq
        rw [htext] at heq
        cases heq
        exact absurd rfl hopen
      · simp only [hitem, hitems, Option.bind_eq_bind, Option.bind_some]
        rfl

theorem parseMoreItems_render : ∀ (items : List Json) (fuel : ℕ), itemsWeight items ≤ fuel →
    ∀ rest : List Char,
      parseMoreItems fuel (renderMoreItems items ++ ']' :: rest) = some (items, rest)
  | [], 0, hfuel, _ => by rw [itemsWeight] at hfuel; omega
  | _ :: _, 0, hfuel, _ => by rw [itemsWeight] at hfuel; omega
  | [], fuel + 1, _, rest => rfl
  | item :: items, fuel + 1, hfuel, rest => by
      rw [itemsWeight] at hfuel
      have hitem := parseValue_render item fuel (by omega) (delimited_moreItems items rest)
      have hitems := parseMoreItems_render items fuel (by omega) rest
      rw [renderMoreItems, List.cons_append, List.append_assoc, parseMoreItems,
        skipSpace_cons (by decide)]
      simp only [hitem, hitems, Option.bind_eq_bind, Option.bind_some]
      rfl

theorem parseFields_render : ∀ (fields : List (String × Json)) (fuel : ℕ),
    fieldsWeight fields ≤ fuel → ∀ rest : List Char,
      parseFields fuel (renderFields fields ++ '\x7d' :: rest) = some (fields, rest)
  | [], 0, hfuel, _ => by rw [fieldsWeight] at hfuel; omega
  | _ :: _, 0, hfuel, _ => by rw [fieldsWeight] at hfuel; omega
  | [], fuel + 1, _, rest => rfl
  | (key, value) :: fields, fuel + 1, hfuel, rest => by
      rw [fieldsWeight] at hfuel
      have hvalue := parseValue_render value (fuel - 1) (by omega)
        (delimited_moreFields fields rest)
      have hfield := parseField_render key (by omega) hvalue
      have hfields := parseMoreFields_render fields fuel (by omega) rest
      have htext : renderFields ((key, value) :: fields) ++ '\x7d' :: rest =
          renderString key ++ ':' :: (render value ++ (renderMoreFields fields ++ '\x7d' :: rest)) := by
        simp [renderFields]
      rw [htext, parseFields]
      have hstart : skipSpace (renderString key ++ ':' ::
          (render value ++ (renderMoreFields fields ++ '\x7d' :: rest))) =
          renderString key ++ ':' :: (render value ++ (renderMoreFields fields ++ '\x7d' :: rest)) :=
        skipSpace_cons (by decide) _
      rw [hstart]
      split
      · rename_i heq
        cases heq
      · simp only [hfield, hfields, Option.bind_eq_bind, Option.bind_some]
        rfl

theorem parseMoreFields_render : ∀ (fields : List (String × Json)) (fuel : ℕ),
    fieldsWeight fields ≤ fuel → ∀ rest : List Char,
      parseMoreFields fuel (renderMoreFields fields ++ '\x7d' :: rest) = some (fields, rest)
  | [], 0, hfuel, _ => by rw [fieldsWeight] at hfuel; omega
  | _ :: _, 0, hfuel, _ => by rw [fieldsWeight] at hfuel; omega
  | [], fuel + 1, _, rest => rfl
  | (key, value) :: fields, fuel + 1, hfuel, rest => by
      rw [fieldsWeight] at hfuel
      have hvalue := parseValue_render value (fuel - 1) (by omega)
        (delimited_moreFields fields rest)
      have hfield := parseField_render key (by omega) hvalue
      have hfields := parseMoreFields_render fields fuel (by omega) rest
      have htext : renderMoreFields ((key, value) :: fields) ++ '\x7d' :: rest =
          ',' :: (renderString key ++
            ':' :: (render value ++ (renderMoreFields fields ++ '\x7d' :: rest))) := by
        simp [renderMoreFields]
      rw [htext, parseMoreFields, skipSpace_cons (by decide)]
      simp only [hfield, hfields, Option.bind_eq_bind, Option.bind_some]
      rfl

end

/-! ## The length of the text is enough -/

theorem length_renderChar_pos (char : Char) : 0 < (renderChar char).length := by
  unfold renderChar
  repeat' split
  all_goals simp [unicodeEscape]

theorem length_renderString (value : String) :
    value.toList.length + 2 ≤ (renderString value).length := by
  have hchars : ∀ chars : List Char, chars.length ≤ (chars.flatMap renderChar).length := by
    intro chars
    induction chars with
    | nil => exact Nat.le_refl 0
    | cons char chars ih =>
        have hchar := length_renderChar_pos char
        rw [List.flatMap_cons, List.length_append, List.length_cons]
        omega
  have hvalue := hchars value.toList
  rw [renderString, List.length_cons, List.length_append, List.length_singleton]
  omega

theorem length_render_pos (value : Json) : 0 < (render value).length := by
  obtain ⟨char, rest, hrender, -, -⟩ := render_cons value
  rw [hrender, List.length_cons]
  omega

mutual

theorem weight_le : ∀ value : Json, weight value ≤ 2 * (render value).length
  | .null => by rw [weight, render]; decide
  | .bool true => by rw [weight, render]; decide
  | .bool false => by rw [weight, render]; decide
  | .int value => by
      have hpositive := length_render_pos (.int value)
      rw [weight]
      omega
  | .str value => by
      have hvalue := length_renderString value
      rw [weight, render]
      omega
  | .arr items => by
      have hitems := itemsWeight_le items
      rw [weight, render, List.length_cons, List.length_append, List.length_singleton]
      omega
  | .obj fields => by
      have hfields := fieldsWeight_le fields
      rw [weight, render, List.length_cons, List.length_append, List.length_singleton]
      omega

theorem itemsWeight_le : ∀ items : List Json,
    itemsWeight items ≤ 2 * (renderItems items).length + 2 ∧
      itemsWeight items ≤ 2 * (renderMoreItems items).length + 1
  | [] => ⟨by rw [itemsWeight]; omega, by rw [itemsWeight]; omega⟩
  | item :: items => by
      have hitem := weight_le item
      have hitems := (itemsWeight_le items).2
      rw [itemsWeight, renderItems, renderMoreItems, List.length_cons, List.length_append]
      omega

theorem fieldsWeight_le : ∀ fields : List (String × Json),
    fieldsWeight fields ≤ 2 * (renderFields fields).length + 2 ∧
      fieldsWeight fields ≤ 2 * (renderMoreFields fields).length + 1
  | [] => ⟨by rw [fieldsWeight]; omega, by rw [fieldsWeight]; omega⟩
  | (key, value) :: fields => by
      have hkey := length_renderString key
      have hvalue := weight_le value
      have hfields := (fieldsWeight_le fields).2
      rw [fieldsWeight, renderFields, renderMoreFields]
      simp only [List.length_cons, List.length_append]
      omega

end

/-! ## The text determines the value -/

theorem parse_render (value : Json) : parse (render value) = some value := by
  have hfuel := weight_le value
  have hend : Delimited [] := by
    intro char h
    cases h
  have hread := parseValue_render value (2 * (render value).length + 1) (by omega) hend
  rw [List.append_nil] at hread
  rw [parse, hread]
  rfl

theorem render_injective {one other : Json} (h : render one = render other) : one = other := by
  have hone := parse_render one
  rw [h, parse_render other] at hone
  exact (Option.some.inj hone).symm

/-! ## The text is ASCII -/

theorem ascii_unicodeEscape (code : ℕ) : Ascii (unicodeEscape code) := by
  have hall : ∀ digit < 16, (Nat.digitChar digit).toNat < 128 := by decide
  have hdigit : ∀ value : ℕ, (Nat.digitChar (value % 16)).toNat < 128 :=
    fun value => hall _ (Nat.mod_lt _ (by decide))
  refine ascii_cons (by decide) (ascii_cons (by decide) ?_)
  exact ascii_cons (hdigit _) (ascii_cons (hdigit _) (ascii_cons (hdigit _)
    (ascii_cons (hdigit _) ascii_nil)))

theorem ascii_renderChar (char : Char) : Ascii (renderChar char) := by
  have hpair : ∀ escaped : Char, escaped.toNat < 128 → Ascii ['\\', escaped] :=
    fun escaped h => ascii_cons (by decide) (ascii_cons h ascii_nil)
  unfold renderChar
  split
  · exact hpair _ (by decide)
  split
  · exact hpair _ (by decide)
  split
  · exact hpair _ (by decide)
  split
  · exact hpair _ (by decide)
  split
  · exact hpair _ (by decide)
  split
  · exact hpair _ (by decide)
  split
  · exact hpair _ (by decide)
  split
  · rename_i hplain
    exact ascii_cons (by omega) ascii_nil
  split
  · exact ascii_unicodeEscape _
  · exact ascii_append (ascii_unicodeEscape _) (ascii_unicodeEscape _)

theorem ascii_renderString (value : String) : Ascii (renderString value) := by
  refine ascii_cons (by decide) (ascii_append ?_ (ascii_cons (by decide) ascii_nil))
  intro char hmem
  obtain ⟨source, -, hchar⟩ := List.mem_flatMap.mp hmem
  exact ascii_renderChar source char hchar

theorem ascii_renderInt (value : ℤ) : Ascii (renderInt value) := by
  have hdigits : Ascii (Nat.toDigits 10 value.natAbs) := by
    intro char hmem
    have hdigit := toDigits_isDigit value.natAbs char hmem
    have hrange : char.toNat ≤ 57 := by
      simp only [Char.isDigit, Bool.and_eq_true, decide_eq_true_eq, UInt32.le_iff_toNat_le] at hdigit
      exact hdigit.2
    omega
  unfold renderInt
  split
  · exact ascii_cons (by decide) hdigits
  · exact hdigits

mutual

theorem ascii_render : ∀ value : Json, Ascii (render value)
  | .null => by
      rw [render]
      exact ascii_of_all (by decide)
  | .bool true => by
      rw [render]
      exact ascii_of_all (by decide)
  | .bool false => by
      rw [render]
      exact ascii_of_all (by decide)
  | .int value => by
      rw [render]
      exact ascii_renderInt value
  | .str value => by
      rw [render]
      exact ascii_renderString value
  | .arr items => by
      rw [render]
      have hitems := (ascii_renderItems items).1
      exact ascii_cons (by decide) (ascii_append hitems (ascii_cons (by decide) ascii_nil))
  | .obj fields => by
      rw [render]
      have hfields := (ascii_renderFields fields).1
      exact ascii_cons (by decide) (ascii_append hfields (ascii_cons (by decide) ascii_nil))

theorem ascii_renderItems : ∀ items : List Json,
    Ascii (renderItems items) ∧ Ascii (renderMoreItems items)
  | [] => ⟨ascii_nil, ascii_nil⟩
  | item :: items => by
      have hitem := ascii_render item
      have hitems := (ascii_renderItems items).2
      rw [renderItems, renderMoreItems]
      exact ⟨ascii_append hitem hitems, ascii_cons (by decide) (ascii_append hitem hitems)⟩

theorem ascii_renderFields : ∀ fields : List (String × Json),
    Ascii (renderFields fields) ∧ Ascii (renderMoreFields fields)
  | [] => ⟨ascii_nil, ascii_nil⟩
  | (key, value) :: fields => by
      have hvalue := ascii_render value
      have hfields := (ascii_renderFields fields).2
      have hfield : Ascii (renderString key ++ ':' :: (render value ++ renderMoreFields fields)) :=
        ascii_append (ascii_renderString key)
          (ascii_cons (by decide) (ascii_append hvalue hfields))
      rw [renderFields, renderMoreFields]
      exact ⟨hfield, ascii_cons (by decide) hfield⟩

end

end Json

end Hearth.Library
