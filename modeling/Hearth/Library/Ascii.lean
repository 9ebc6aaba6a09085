import Mathlib.Data.List.Basic

/-!
# ASCII text and its bytes

Text in which every character takes one byte of UTF-8, and the bytes of such text.
-/

namespace Hearth.Library

/-- Whether every character takes one byte of UTF-8. -/
def Ascii (text : List Char) : Prop :=
  ∀ char ∈ text, char.toNat < 128

theorem ascii_nil : Ascii [] := by
  intro char hmem
  cases hmem

theorem ascii_cons {char : Char} {text : List Char} (hchar : char.toNat < 128) (h : Ascii text) :
    Ascii (char :: text) := by
  intro other hmem
  cases hmem with
  | head => exact hchar
  | tail _ hmem => exact h other hmem

theorem ascii_append {text rest : List Char} (h : Ascii text) (hrest : Ascii rest) :
    Ascii (text ++ rest) := by
  intro char hmem
  rcases List.mem_append.mp hmem with hmem | hmem
  · exact h char hmem
  · exact hrest char hmem

theorem ascii_of_all {text : List Char} (h : (text.all fun char => char.toNat < 128) = true) :
    Ascii text := by
  intro char hmem
  exact of_decide_eq_true (List.all_eq_true.mp h char hmem)

theorem utf8EncodeChar_ascii {char : Char} (h : char.toNat < 128) :
    String.utf8EncodeChar char = [UInt8.ofNat char.toNat] := by
  have hsize : char.utf8Size = 1 := by
    rw [Char.utf8Size_eq_one_iff, UInt32.le_iff_toNat_le]
    exact Nat.le_of_lt_succ h
  rw [String.utf8EncodeChar_eq_singleton hsize]
  rfl

/-- The bytes of ASCII text. -/
def asciiBytes (text : List Char) : List UInt8 :=
  text.map fun char => UInt8.ofNat char.toNat

/-- The text of ASCII bytes. -/
def charsOfBytes (raw : List UInt8) : Option (List Char) :=
  if raw.all (· < 128) then some (raw.map fun byte => Char.ofNat byte.toNat) else none

theorem toNat_asciiByte {char : Char} (h : char.toNat < 128) :
    (UInt8.ofNat char.toNat).toNat = char.toNat := by
  rw [UInt8.toNat_ofNat']
  omega

theorem charsOfBytes_asciiBytes {text : List Char} (h : Ascii text) :
    charsOfBytes (asciiBytes text) = some text := by
  have hall : (asciiBytes text).all (· < 128) = true := by
    rw [List.all_eq_true]
    intro byte hmem
    obtain ⟨char, hchar, rfl⟩ := List.mem_map.mp hmem
    have hsmall := h char hchar
    rw [decide_eq_true_eq, UInt8.lt_iff_toNat_lt, toNat_asciiByte hsmall]
    exact hsmall
  have hmap : (asciiBytes text).map (fun byte => Char.ofNat byte.toNat) = text := by
    unfold asciiBytes
    rw [List.map_map]
    calc text.map ((fun byte => Char.ofNat byte.toNat) ∘ fun char => UInt8.ofNat char.toNat)
        = text.map id := by
          apply List.map_congr_left
          intro char hmem
          show Char.ofNat (UInt8.ofNat char.toNat).toNat = char
          rw [toNat_asciiByte (h char hmem), Char.ofNat_toNat]
      _ = text := List.map_id text
  unfold charsOfBytes
  rw [if_pos hall, hmap]

/-- A byte of ASCII text is the byte of one of its characters only. -/
theorem mem_asciiBytes {text : List Char} (h : Ascii text) {char : Char} (hchar : char.toNat < 128) :
    UInt8.ofNat char.toNat ∈ asciiBytes text ↔ char ∈ text := by
  constructor
  · intro hmem
    obtain ⟨other, hother, heq⟩ := List.mem_map.mp hmem
    have hnat : other.toNat = char.toNat := by
      rw [← toNat_asciiByte (h other hother), ← toNat_asciiByte hchar, heq]
    rwa [← Char.toNat_inj.mp hnat]
  · intro hmem
    exact List.mem_map_of_mem hmem

end Hearth.Library
