import Hearth.Diagnostics.Activity

/-!
# Records

A record is a prefix and fields with colons between them.  Its fields are printable and
have no colon, so it stays on one line and `split(":")` takes it apart again.
-/

namespace Hearth.Diagnostics

open Hearth.Library
open Hearth.Library.Json (renderInt)
open Hearth.Replay (isProbeNonce isLowerHex isAsciiDigit)

/-- Text without blanks and control characters. -/
def Printable (text : List Char) : Prop :=
  ∀ char ∈ text, 32 < char.toNat ∧ char.toNat < 128

/-- Printable text without a colon. -/
def Field (text : List Char) : Prop :=
  ∀ char ∈ text, 32 < char.toNat ∧ char.toNat < 128 ∧ char ≠ ':'

/-- The fields behind the first one. -/
def fieldsText (fields : List (List Char)) : List Char :=
  fields.flatMap fun field => ':' :: field

/-! ## Printable text -/

theorem Printable.ascii {text : List Char} (h : Printable text) : Ascii text :=
  fun char hmem => (h char hmem).2

theorem Printable.append {text rest : List Char} (h : Printable text) (hrest : Printable rest) :
    Printable (text ++ rest) := by
  intro char hmem
  rcases List.mem_append.mp hmem with hmem | hmem
  · exact h char hmem
  · exact hrest char hmem

theorem Printable.cons {text : List Char} {char : Char} (hchar : 32 < char.toNat ∧ char.toNat < 128)
    (h : Printable text) : Printable (char :: text) := by
  intro other hmem
  rcases List.mem_cons.mp hmem with rfl | hmem
  · exact hchar
  · exact h other hmem

theorem Field.printable {text : List Char} (h : Field text) : Printable text :=
  fun char hmem => ⟨(h char hmem).1, (h char hmem).2.1⟩

theorem field_of_all {text : List Char}
    (h : (text.all fun char => 32 < char.toNat && char.toNat < 128 && char ≠ ':') = true) :
    Field text := by
  intro char hmem
  have hchar := List.all_eq_true.mp h char hmem
  simp only [Bool.and_eq_true, decide_eq_true_eq] at hchar
  exact ⟨hchar.1.1, hchar.1.2, hchar.2⟩

/-- Printable text is on one line. -/
theorem Printable.oneLine {text : List Char} (h : Printable text) : OneLine (asciiBytes text) := by
  constructor
  · intro hmem
    obtain ⟨char, hchar, heq⟩ := List.mem_map.mp hmem
    have hnat := congrArg UInt8.toNat heq
    rw [toNat_asciiByte (h char hchar).2] at hnat
    have hlarge := (h char hchar).1
    have hlf : (10 : UInt8).toNat = 10 := rfl
    omega
  · intro hmem
    obtain ⟨char, hchar, heq⟩ := List.mem_map.mp hmem
    have hnat := congrArg UInt8.toNat heq
    rw [toNat_asciiByte (h char hchar).2] at hnat
    have hlarge := (h char hchar).1
    have hcr : (13 : UInt8).toNat = 13 := rfl
    omega

/-- The line end is taken off a printed line. -/
theorem rdropWhile_oneLine {line : Bytes} (h : OneLine line) :
    (line ++ [10]).rdropWhile isLineEnd = line := by
  rw [List.rdropWhile_concat_pos _ _ _ (by decide)]
  apply List.rdropWhile_eq_self_iff.mpr
  intro hne hend
  have hmem := List.getLast_mem hne
  simp only [isLineEnd, Bool.or_eq_true, decide_eq_true_eq] at hend
  rcases hend with hlf | hcr
  · exact h.1 (hlf ▸ hmem)
  · exact h.2 (hcr ▸ hmem)

theorem asciiBytes_append (text rest : List Char) :
    asciiBytes (text ++ rest) = asciiBytes text ++ asciiBytes rest :=
  List.map_append

theorem length_asciiBytes (text : List Char) : (asciiBytes text).length = text.length :=
  List.length_map _

/-! ## Fields -/

theorem field_hex (s : Bytes) : Field (hex s) := by
  intro char hmem
  have hchar := isFieldChar_hex hmem
  have hrange : (48 ≤ char.toNat ∧ char.toNat ≤ 57) ∨ (97 ≤ char.toNat ∧ char.toNat ≤ 102) := by
    simp only [isFieldChar, Char.isDigit, Bool.or_eq_true, Bool.and_eq_true, decide_eq_true_eq,
      UInt32.le_iff_toNat_le, Char.le_def] at hchar
    exact hchar
  refine ⟨by omega, by omega, ?_⟩
  rintro rfl
  revert hrange
  decide

theorem field_renderInt (value : ℤ) : Field (renderInt value) := by
  have hdigit : ∀ char : Char, char.isDigit = true →
      32 < char.toNat ∧ char.toNat < 128 ∧ char ≠ ':' := by
    intro char h
    have hrange : 48 ≤ char.toNat ∧ char.toNat ≤ 57 := by
      simp only [Char.isDigit, Bool.and_eq_true, decide_eq_true_eq, UInt32.le_iff_toNat_le] at h
      exact h
    refine ⟨by omega, by omega, ?_⟩
    rintro rfl
    revert hrange
    decide
  intro char hmem
  unfold renderInt at hmem
  split at hmem
  · rcases List.mem_cons.mp hmem with rfl | hmem
    · decide
    · exact hdigit char (Json.toDigits_isDigit _ char hmem)
  · exact hdigit char (Json.toDigits_isDigit _ char hmem)

theorem printable_fieldsText {fields : List (List Char)} (h : ∀ field ∈ fields, Field field) :
    Printable (fieldsText fields) := by
  intro char hmem
  obtain ⟨field, hfield, hchar⟩ := List.mem_flatMap.mp hmem
  rcases List.mem_cons.mp hchar with rfl | hchar
  · decide
  · exact (h field hfield).printable char hchar

theorem splitOn_fieldsText {first : List Char} {fields : List (List Char)}
    (h : ∀ field ∈ first :: fields, Field field) :
    (first ++ fieldsText fields).splitOn ':' = first :: fields := by
  have hcolon : ∀ field, Field field → ':' ∉ field :=
    fun field hfield hmem => (hfield ':' hmem).2.2 rfl
  induction fields generalizing first with
  | nil =>
      show (first ++ []).splitOn ':' = _
      rw [List.append_nil]
      exact List.splitOn_eq_singleton (hcolon first (h first (.head _)))
  | cons field fields ih =>
      show (first ++ ':' :: (field ++ fieldsText fields)).splitOn ':' = _
      rw [List.splitOn_append_cons_self_of_not_mem (hcolon first (h first (.head _)))]
      rw [ih fun other hmem => h other (.tail _ hmem)]

/-! ## The prefix -/

theorem printable_nonce {nonce : String} (h : isProbeNonce nonce = true) :
    Printable nonce.toList ∧ nonce.toList.length = 32 := by
  simp only [isProbeNonce, Bool.and_eq_true, decide_eq_true_eq, List.all_eq_true] at h
  refine ⟨?_, h.1⟩
  intro char hmem
  have hchar := h.2 char hmem
  have hrange : (48 ≤ char.toNat ∧ char.toNat ≤ 57) ∨ (97 ≤ char.toNat ∧ char.toNat ≤ 102) := by
    simp only [isLowerHex, isAsciiDigit, Bool.or_eq_true, Bool.and_eq_true, decide_eq_true_eq,
      UInt32.le_iff_toNat_le, Char.le_def] at hchar
    exact hchar
  omega

theorem printable_markerPrefix {marker : List Char} {nonce : String} (hmarker : Printable marker)
    (h : isProbeNonce nonce = true) : Printable (markerPrefix marker nonce) := by
  have hcolon : 32 < ':'.toNat ∧ ':'.toNat < 128 := by decide
  have hlast : Printable [':'] := .cons hcolon nofun
  exact hmarker.append (.cons hcolon ((printable_nonce h).1.append hlast))

theorem length_markerPrefix (marker : List Char) {nonce : String} (h : isProbeNonce nonce = true) :
    (markerPrefix marker nonce).length = marker.length + 34 := by
  unfold markerPrefix
  simp only [List.length_append, List.length_cons, List.length_nil, (printable_nonce h).2]

theorem markerPrefix_ne_nil (marker : List Char) (nonce : String) :
    asciiBytes (markerPrefix marker nonce) ≠ [] := by
  intro hnil
  have hlength := congrArg List.length hnil
  rw [length_asciiBytes, markerPrefix] at hlength
  simp at hlength

/-! ## Lengths -/

theorem length_renderInt_le {value : ℤ} (h : -2 ^ 62 ≤ value ∧ value < 2 ^ 62) :
    (renderInt value).length ≤ 20 := by
  have hdigits : (Nat.toDigits 10 value.natAbs).length ≤ 19 := by
    rw [Nat.length_toDigits_le_iff (by decide) (by decide)]
    have habs : value.natAbs ≤ 2 ^ 62 := by omega
    calc value.natAbs ≤ 2 ^ 62 := habs
      _ < 10 ^ 19 := by decide
  unfold renderInt
  split
  · rw [List.length_cons]
    omega
  · omega

/-- The three fields of a location. -/
def locationFields (slot : Location × Bytes) : List (List Char) :=
  [hex (bounded slot.1.filename), hex (bounded slot.2), renderInt slot.1.lineNumber]

theorem field_locationFields (slot : Location × Bytes) :
    ∀ field ∈ locationFields slot, Field field := by
  intro field hmem
  simp only [locationFields, List.mem_cons, List.not_mem_nil, or_false] at hmem
  rcases hmem with rfl | rfl | rfl
  · exact field_hex _
  · exact field_hex _
  · exact field_renderInt _

theorem locationText_eq (slot : Location × Bytes) :
    locationText slot = fieldsText (locationFields slot) := by
  unfold locationText fieldsText locationFields
  simp

theorem length_locationText_le (slot : Location × Bytes) : (locationText slot).length ≤ 8275 := by
  have hfile : (bounded slot.1.filename).length ≤ 2048 + 15 := length_boundedTo_le _ _
  have hname : (bounded slot.2).length ≤ 2048 + 15 := length_boundedTo_le _ _
  have hline := length_renderInt_le slot.1.representable
  unfold locationText
  simp only [List.length_cons, List.length_append, length_hex]
  omega

end Hearth.Diagnostics
