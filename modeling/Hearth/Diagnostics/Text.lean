import Hearth.Library.Json
import Hearth.Replay.Text
import Mathlib.Algebra.Ring.Int.Defs
import Mathlib.Data.List.DropRight

/-!
# Text of diagnostic records

The generated prelude writes numbers in decimal, and bounded byte strings in
hexadecimal, between colons.  The decoders take a record apart with `split(":")`, `int`,
`bytes.fromhex` and `decode("utf-8", errors="replace")`, and refuse text that is longer
than the prelude can have written.
-/

namespace Hearth.Diagnostics

open Hearth.Library
open Hearth.Library.Json (renderInt hexValue)

def maxTextBytes : ℕ := 2048
def maxTermBytes : ℕ := 16384
def maxExceptionBytes : ℕ := 65536

/-! ## What the prelude writes -/

/-- `"... [truncated]"`. -/
def truncationMark : Bytes :=
  asciiBytes "... [truncated]".toList

def boundedTo (limit : ℕ) (s : Bytes) : Bytes :=
  if s.length ≤ limit then s else s.take limit ++ truncationMark

def bounded (s : Bytes) : Bytes :=
  boundedTo 2048 s

def boundedExn (s : Bytes) : Bytes :=
  boundedTo maxExceptionBytes s

/-- `%02x`. -/
def hexByte (byte : UInt8) : List Char :=
  [Nat.digitChar (byte.toNat / 16), Nat.digitChar (byte.toNat % 16)]

def hex (s : Bytes) : List Char :=
  s.flatMap hexByte

/-- A term, as the pieces that the term printer sends to its formatter. -/
abbrev Term := List Bytes

/-- The formatter's `output`. -/
def output (buffer piece : Bytes) : Bytes :=
  let remaining := maxTermBytes - buffer.length
  if 0 < remaining then buffer ++ piece.take (min remaining piece.length) else buffer

def render (tm : Term) : Bytes :=
  let s := tm.foldl output []
  if s.length = maxTermBytes then s ++ truncationMark else s

/-- A source location; its line is an OCaml `int`. -/
structure Location where
  filename : Bytes
  lineNumber : ℤ
  representable : -2 ^ 62 ≤ lineNumber ∧ lineNumber < 2 ^ 62

/-- The line of the samples. -/
theorem representable_three : -2 ^ 62 ≤ (3 : ℤ) ∧ (3 : ℤ) < 2 ^ 62 := by
  omega

/-- A slot of a backtrace. -/
structure Slot where
  location : Option Location
  name : Option Bytes

/-- The slots that have a location, with the name that is printed for them. -/
def located (slots : List Slot) : List (Location × Bytes) :=
  slots.filterMap fun slot => slot.location.map fun loc => (loc, slot.name.getD [])

/-! ## What the decoders read -/

/-- The characters that `int` drops at both ends, as far as they are ASCII. -/
def isIntSpace (char : Char) : Bool :=
  (9 ≤ char.toNat && char.toNat ≤ 13) || (28 ≤ char.toNat && char.toNat ≤ 32)

/-- Digits, with single underscores between them. -/
def digitsValue (text : List Char) : Option ℕ :=
  let groups := text.splitOn '_'
  if groups.all fun group => group ≠ [] && group.all Char.isDigit then
    some (Nat.ofDigitChars 10 groups.flatten 0)
  else none

def signedValue : List Char → Option ℤ
  | '-' :: digits => (digitsValue digits).map fun value : ℕ => -(value : ℤ)
  | '+' :: digits => (digitsValue digits).map fun value : ℕ => (value : ℤ)
  | digits => (digitsValue digits).map fun value : ℕ => (value : ℤ)

/-- `int(text)`. -/
def intOf (text : List Char) : Option ℤ :=
  signedValue ((text.dropWhile isIntSpace).rdropWhile isIntSpace)

def isHexSpace (char : Char) : Bool :=
  (9 ≤ char.toNat && char.toNat ≤ 13) || char = ' '

/-- `bytes.fromhex(text)`: blanks may stand between the bytes. -/
def fromHex : List Char → Option Bytes
  | [] => some []
  | [char] => if isHexSpace char then some [] else none
  | high :: low :: rest =>
      if isHexSpace high then fromHex (low :: rest)
      else do
        let sixteens ← hexValue high
        let units ← hexValue low
        let bytes ← fromHex rest
        some (UInt8.ofNat (16 * sixteens + units) :: bytes)

/-- The continuation bytes that have still to come, as ranges, with the bits so far. -/
abbrev Pending := Option (ℕ × List (ℕ × ℕ))

/-- What a byte that begins a character says: a character, a replacement or more bytes. -/
def leadByte (byte : ℕ) : List Char × Pending :=
  let any := (0x80, 0xBF)
  if byte < 0x80 then ([Char.ofNat byte], none)
  else if 0xC2 ≤ byte ∧ byte ≤ 0xDF then ([], some (byte - 0xC0, [any]))
  else if byte = 0xE0 then ([], some (0, [(0xA0, 0xBF), any]))
  else if byte = 0xED then ([], some (0xD, [(0x80, 0x9F), any]))
  else if 0xE1 ≤ byte ∧ byte ≤ 0xEF then ([], some (byte - 0xE0, [any, any]))
  else if byte = 0xF0 then ([], some (0, [(0x90, 0xBF), any, any]))
  else if 0xF1 ≤ byte ∧ byte ≤ 0xF3 then ([], some (byte - 0xF0, [any, any, any]))
  else if byte = 0xF4 then ([], some (4, [(0x80, 0x8F), any, any]))
  else (['\uFFFD'], none)

/-- One byte; one that may not come next ends the character before it. -/
def decodeByte (pending : Pending) (byte : ℕ) : List Char × Pending :=
  match pending with
  | none => leadByte byte
  | some (_, []) => leadByte byte
  | some (bits, (low, high) :: ranges) =>
      if low ≤ byte ∧ byte ≤ high then
        let bits := bits * 64 + (byte - 0x80)
        if ranges = [] then ([Char.ofNat bits], none) else ([], some (bits, ranges))
      else
        let (chars, pending) := leadByte byte
        ('\uFFFD' :: chars, pending)

def decodeFrom (pending : Pending) : Bytes → List Char
  | [] => if pending.isSome then ['\uFFFD'] else []
  | byte :: rest =>
      let (chars, pending) := decodeByte pending byte.toNat
      chars ++ decodeFrom pending rest

/-- `raw.decode("utf-8", errors="replace")`. -/
def decodeReplace (raw : Bytes) : String :=
  String.ofList (decodeFrom none raw)

/-- `_text`. -/
def text (value : List Char) (limit : ℕ) : Option String :=
  if (limit + 32) * 2 < value.length then none else (fromHex value).map decodeReplace

def text_ (value : List Char) : Option String :=
  text value maxTextBytes

/-- `_term`. -/
def term (value : List Char) : Option String :=
  text value maxTermBytes

/-- `_exception`. -/
def exception (value : List Char) : Option String :=
  text value maxExceptionBytes

/-- A location as the decoders keep it. -/
structure RecordedLocation where
  file : String
  name : String
  line : ℤ
  deriving DecidableEq, Repr

/-- What the prelude writes of a location. -/
def recordedLocation (slot : Location × Bytes) : RecordedLocation where
  file := decodeReplace (bounded slot.1.filename)
  name := decodeReplace (bounded slot.2)
  line := slot.1.lineNumber

/-! ## Bounds -/

theorem length_truncationMark : truncationMark.length = 15 := by
  decide

theorem length_boundedTo_le (limit : ℕ) (s : Bytes) : (boundedTo limit s).length ≤ limit + 15 := by
  unfold boundedTo
  split
  · omega
  · rw [List.length_append, length_truncationMark, List.length_take]
    omega

theorem length_output_le {buffer : Bytes} (piece : Bytes) (h : buffer.length ≤ maxTermBytes) :
    (output buffer piece).length ≤ maxTermBytes := by
  unfold output
  dsimp only
  split
  · rw [List.length_append, List.length_take]
    omega
  · exact h

theorem length_foldl_output_le (tm : Term) {buffer : Bytes} (h : buffer.length ≤ maxTermBytes) :
    (tm.foldl output buffer).length ≤ maxTermBytes := by
  induction tm generalizing buffer with
  | nil => exact h
  | cons piece tm ih => exact ih (length_output_le piece h)

theorem length_render_le (tm : Term) : (render tm).length ≤ maxTermBytes + 15 := by
  have hbuffer : (tm.foldl output []).length ≤ maxTermBytes :=
    length_foldl_output_le tm (Nat.zero_le _)
  unfold render
  dsimp only
  split
  · rw [List.length_append, length_truncationMark]
    omega
  · omega

theorem length_hex (s : Bytes) : (hex s).length = 2 * s.length := by
  induction s with
  | nil => rfl
  | cons byte s ih =>
      show (hexByte byte ++ hex s).length = _
      rw [List.length_append, ih, List.length_cons]
      show 2 + _ = _
      omega

/-! ## Characters -/

/-- The characters of hexadecimal digits, and of decimal ones. -/
def isFieldChar (char : Char) : Bool :=
  char.isDigit || ('a' ≤ char && char ≤ 'f')

theorem isFieldChar_digitChar {digit : ℕ} (h : digit < 16) :
    isFieldChar (Nat.digitChar digit) = true := by
  have hall : ∀ digit < 16, isFieldChar (Nat.digitChar digit) = true := by decide
  exact hall digit h

theorem isFieldChar_hex {s : Bytes} {char : Char} (hmem : char ∈ hex s) :
    isFieldChar char = true := by
  obtain ⟨byte, -, hchar⟩ := List.mem_flatMap.mp hmem
  have hbyte := byte.toNat_lt
  rcases List.mem_cons.mp hchar with rfl | hchar
  · exact isFieldChar_digitChar (by omega)
  · rcases List.mem_singleton.mp hchar with rfl
    exact isFieldChar_digitChar (by omega)

/-! ## What was written is read -/

theorem fromHex_hex (s : Bytes) : fromHex (hex s) = some s := by
  induction s with
  | nil => rfl
  | cons byte s ih =>
      have hbyte := byte.toNat_lt
      have hspace : ∀ digit < 16, isHexSpace (Nat.digitChar digit) = false := by decide
      have hvalue : 16 * (byte.toNat / 16) + byte.toNat % 16 = byte.toNat := by omega
      show fromHex (Nat.digitChar (byte.toNat / 16) :: Nat.digitChar (byte.toNat % 16) :: hex s) = _
      rw [fromHex, hspace _ (by omega), Json.hexValue_digitChar (by omega),
        Json.hexValue_digitChar (by omega), ih]
      show some (UInt8.ofNat (16 * (byte.toNat / 16) + byte.toNat % 16) :: s) = _
      rw [hvalue, UInt8.ofNat_toNat]

theorem text_hex {s : Bytes} {limit : ℕ} (h : s.length ≤ limit + 15) :
    text (hex s) limit = some (decodeReplace s) := by
  unfold text
  rw [length_hex, if_neg (by omega), fromHex_hex]
  rfl

theorem text_bounded (s : Bytes) : text_ (hex (bounded s)) = some (decodeReplace (bounded s)) :=
  text_hex (length_boundedTo_le 2048 s)

theorem term_render (tm : Term) : term (hex (render tm)) = some (decodeReplace (render tm)) :=
  text_hex (length_render_le tm)

theorem exception_boundedExn (s : Bytes) :
    exception (hex (boundedExn s)) = some (decodeReplace (boundedExn s)) :=
  text_hex (length_boundedTo_le maxExceptionBytes s)

theorem digitsValue_toDigits (value : ℕ) : digitsValue (Nat.toDigits 10 value) = some value := by
  have hgroups : (Nat.toDigits 10 value).splitOn '_' = [Nat.toDigits 10 value] :=
    List.splitOn_eq_singleton Nat.underscore_not_in_toDigits
  have hall : (Nat.toDigits 10 value).all Char.isDigit = true :=
    List.all_eq_true.mpr (Json.toDigits_isDigit value)
  have hne : Nat.toDigits 10 value ≠ [] := Nat.toDigits_ne_nil
  unfold digitsValue
  dsimp only
  rw [hgroups, if_pos (by simp [hne, hall])]
  simp [Nat.ofDigitChars_ten_toDigits]

theorem not_isIntSpace {char : Char} (h : char.isDigit = true ∨ char = '-') :
    isIntSpace char = false := by
  rcases h with hdigit | rfl
  · have hrange : 48 ≤ char.toNat := by
      simp only [Char.isDigit, Bool.and_eq_true, decide_eq_true_eq, UInt32.le_iff_toNat_le] at hdigit
      exact hdigit.1
    simp only [isIntSpace, Bool.or_eq_false_iff, Bool.and_eq_false_iff, decide_eq_false_iff_not]
    omega
  · decide

theorem signedValue_renderInt (value : ℤ) : signedValue (renderInt value) = some value := by
  unfold renderInt
  split
  · rename_i hnegative
    have hvalue : -(value.natAbs : ℤ) = value := by omega
    rw [signedValue, digitsValue_toDigits, Option.map_some, hvalue]
  · rename_i hpositive
    have hvalue : (value.natAbs : ℤ) = value := by omega
    have hsign : ∀ digits char, Nat.toDigits 10 value.natAbs = char :: digits →
        char ≠ '-' ∧ char ≠ '+' := by
      intro digits char heq
      have hdigit := Json.toDigits_isDigit value.natAbs char (by rw [heq]; exact .head _)
      constructor
      · rintro rfl
        exact absurd hdigit (by decide)
      · rintro rfl
        exact absurd hdigit (by decide)
    rw [signedValue, digitsValue_toDigits, Option.map_some, hvalue]
    · intro digits heq
      exact (hsign digits _ heq).1 rfl
    · intro digits heq
      exact (hsign digits _ heq).2 rfl

theorem intOf_renderInt (value : ℤ) : intOf (renderInt value) = some value := by
  have hchars : ∀ char ∈ renderInt value, isIntSpace char = false := by
    intro char hmem
    apply not_isIntSpace
    unfold renderInt at hmem
    split at hmem
    · rcases List.mem_cons.mp hmem with rfl | hmem
      · exact .inr rfl
      · exact .inl (Json.toDigits_isDigit _ char hmem)
    · exact .inl (Json.toDigits_isDigit _ char hmem)
  have hfirst : (renderInt value).dropWhile isIntSpace = renderInt value := by
    apply List.dropWhile_eq_self_iff.mpr
    intro hne
    rw [hchars _ (List.getElem_mem _)]
    exact Bool.false_ne_true
  have hlast : (renderInt value).rdropWhile isIntSpace = renderInt value := by
    apply List.rdropWhile_eq_self_iff.mpr
    intro hne
    rw [hchars _ (List.getLast_mem hne)]
    exact Bool.false_ne_true
  unfold intOf
  rw [hfirst, hlast]
  exact signedValue_renderInt value

end Hearth.Diagnostics
