import Mathlib.Data.List.Infix

/-!
# Bytes and text

Transcripts and sources are byte strings; markers and generated OCaml are text
that is encoded before it is written.  `splitLines` is `bytes.splitlines()`: a
line ends at `\n`, `\r` or `\r\n`, and a final line end starts no new line.
-/

namespace Hearth

/-- A byte string. -/
abbrev Bytes := List UInt8

/-- `text.encode("utf-8")`. -/
def utf8 (text : String) : Bytes :=
  text.toList.flatMap String.utf8EncodeChar

/-- Whether `raw.decode("utf-8", errors="strict")` succeeds. -/
def decodesStrictly (raw : Bytes) : Bool :=
  (ByteArray.mk raw.toArray).validateUTF8

/-- `f"{value:0{width}d}"`. -/
def zeroPadded (width value : ℕ) : String :=
  String.ofList (List.replicate (width - (toString value).length) '0') ++ toString value

/-- One byte inside an OCaml string literal. -/
def ocamlEscape (byte : UInt8) : String :=
  if byte = 0x22 then "\\\""
  else if byte = 0x5C then "\\\\"
  else if 0x20 ≤ byte ∧ byte ≤ 0x7E then (Char.ofUInt8 byte).toString
  else "\\" ++ zeroPadded 3 byte.toNat

/-- `ocaml_string_literal`. -/
def ocamlStringLiteral (value : String) : String :=
  "\"" ++ String.join ((utf8 value).map ocamlEscape) ++ "\""

/-- The lines of `raw`, after the bytes of the open line in reverse order. -/
def splitLinesFrom (open_ : Bytes) : Bytes → List Bytes
  | [] => if open_ = [] then [] else [open_.reverse]
  | 10 :: rest => open_.reverse :: splitLinesFrom [] rest
  | 13 :: 10 :: rest => open_.reverse :: splitLinesFrom [] rest
  | 13 :: rest => open_.reverse :: splitLinesFrom [] rest
  | byte :: rest => splitLinesFrom (byte :: open_) rest

/-- `raw.splitlines()`. -/
def splitLines (raw : Bytes) : List Bytes :=
  splitLinesFrom [] raw

/-- The 1-based numbers of the lines equal to `marker`. -/
def markerLines (transcript marker : Bytes) : List ℕ :=
  ((splitLines transcript).zipIdx 1).filterMap fun (line, number) =>
    if line = marker then some number else none

theorem markerLines_length (transcript marker : Bytes) :
    (markerLines transcript marker).length = (splitLines transcript).count marker := by
  unfold markerLines
  generalize 1 = start
  induction splitLines transcript generalizing start with
  | nil => rfl
  | cons line rest ih =>
      by_cases h : line = marker
      · simp [h, ih]
      · simp [h, ih]

/-- A number of matching lines is positive exactly when there is one. -/
theorem markerLines_eq_nil_iff (transcript marker : Bytes) :
    markerLines transcript marker = [] ↔ (splitLines transcript).count marker = 0 := by
  rw [← markerLines_length, List.length_eq_zero_iff]

end Hearth
