import Hearth.Replay.NaturalOutput
import Hearth.Library.Json
import Hearth.Replay.Semantics

/-!
# The foundation wrapper

The OCaml that `foundation_wrapped_load` generates compares four registries before and after the load, and prints one
line on how they grew.  `account_foundation_delta` reads the line.  What it reads is what the registries are: the growth
where each was extended at the front, and nothing that could be taken for one elsewhere.

A count of more than eighteen digits is not read at all.
-/

namespace Hearth.Replay

open Hearth.Library
open Hearth.Diagnostics

/-! ## What the wrapper prints -/

/-- `hol_workbench_drop`. -/
def workbenchDrop {α : Type*} : ℕ → List α → Option (List α)
  | 0, elements => some elements
  | _ + 1, [] => none
  | count + 1, _ :: rest => workbenchDrop count rest

/-- `hol_workbench_delta`. -/
def workbenchDelta {α : Type*} [DecidableEq α] (before after : List α) : Option ℕ :=
  let growth : ℤ := after.length - before.length
  if growth < 0 then none
  else
    match workbenchDrop growth.toNat after with
    | some tail => if tail = before then some growth.toNat else none
    | none => none

/-- `hol_workbench_value`. -/
def workbenchValue : Option ℕ → ℤ
  | some count => count
  | none => -1

/-- The registries of theorems, types and constants. -/
structure Registries (Theorem TypeRow ConstantRow : Type*) where
  axioms : List Theorem
  definitions : List Theorem
  types : List TypeRow
  constants : List ConstantRow

/-- `%d`. -/
def decimal (value : ℤ) : Bytes :=
  asciiBytes (Json.renderInt value)

/-- `hol_workbench_emit`. -/
def workbenchEmit (markerPrefix status : String) (deltas : Deltas) : Bytes :=
  utf8 markerPrefix ++ utf8 status ++ [0x3A] ++ decimal deltas.axioms ++ [0x3A] ++ decimal deltas.definitions ++ [0x3A] ++
    decimal deltas.types ++ [0x3A] ++ decimal deltas.constants ++ [0x0A]

section

variable {Theorem TypeRow ConstantRow : Type*} [DecidableEq Theorem] [DecidableEq TypeRow] [DecidableEq ConstantRow]

/-- What the wrapper prints of the registries before and after the load.  They are missing when they cannot be read. -/
def printedMarker (markerPrefix : String) : Option (Registries Theorem TypeRow ConstantRow) →
    Option (Registries Theorem TypeRow ConstantRow) → Bytes
  | some before, some after =>
      let axiomDelta := workbenchDelta before.axioms after.axioms
      let definitionDelta := workbenchDelta before.definitions after.definitions
      let typeDelta := workbenchDelta before.types after.types
      let constantDelta := workbenchDelta before.constants after.constants
      let valid := axiomDelta.isSome && definitionDelta.isSome && typeDelta.isSome && constantDelta.isSome
      workbenchEmit markerPrefix (if valid then "ok" else "invalid")
        ⟨workbenchValue axiomDelta, workbenchValue definitionDelta, workbenchValue typeDelta, workbenchValue constantDelta⟩
  | _, _ => workbenchEmit markerPrefix "invalid" ⟨-1, -1, -1, -1⟩

end

/-! ## Growth at the front -/

theorem workbenchDrop_eq {α : Type*} {count : ℕ} {elements : List α} (h : count ≤ elements.length) :
    workbenchDrop count elements = some (elements.drop count) := by
  induction count generalizing elements with
  | zero => rfl
  | succ count ih =>
      cases elements with
      | nil => exact absurd h (Nat.not_succ_le_zero count)
      | cons first rest => exact ih (Nat.le_of_succ_le_succ h)

/-- The delta is the number of the elements that were put in front. -/
theorem workbenchDelta_eq_some {α : Type*} [DecidableEq α] {before after : List α} {count : ℕ} :
    workbenchDelta before after = some count ↔ ∃ new, after = new ++ before ∧ new.length = count := by
  unfold workbenchDelta
  dsimp only
  by_cases hshort : after.length < before.length
  · rw [if_pos (by omega)]
    constructor
    · intro h
      cases h
    · rintro ⟨new, rfl, -⟩
      rw [List.length_append] at hshort
      omega
  · have hgrowth : ((after.length : ℤ) - before.length).toNat = after.length - before.length := by omega
    rw [if_neg (by omega), hgrowth, workbenchDrop_eq (Nat.sub_le _ _)]
    dsimp only
    constructor
    · intro h
      by_cases hsame : after.drop (after.length - before.length) = before
      · rw [if_pos hsame] at h
        have hsplit := List.take_append_drop (after.length - before.length) after
        rw [hsame] at hsplit
        refine ⟨after.take (after.length - before.length), hsplit.symm, ?_⟩
        rw [List.length_take_of_le (Nat.sub_le _ _)]
        exact Option.some.inj h
      · rw [if_neg hsame] at h
        cases h
    · rintro ⟨new, rfl, rfl⟩
      have hlength : (new ++ before).length - before.length = new.length := by simp
      rw [hlength, List.drop_left, if_pos rfl]

theorem workbenchDelta_append {α : Type*} [DecidableEq α] (new before : List α) :
    workbenchDelta before (new ++ before) = some new.length :=
  workbenchDelta_eq_some.mpr ⟨new, rfl, rfl⟩

/-! ## Counts -/

/-- The byte of a decimal digit. -/
theorem digitByte {char : Char} (h : char.isDigit = true) :
    0x30 ≤ UInt8.ofNat char.toNat ∧ UInt8.ofNat char.toNat ≤ 0x39 ∧ (UInt8.ofNat char.toNat).toNat = char.toNat := by
  simp only [Char.isDigit, Bool.and_eq_true, decide_eq_true_eq, UInt32.le_iff_toNat_le] at h
  have hlow : 48 ≤ char.toNat := h.1
  have hhigh : char.toNat ≤ 57 := h.2
  have hascii : char.toNat < 128 := by omega
  have hbyte := toNat_asciiByte hascii
  refine ⟨?_, ?_, hbyte⟩
  · rw [UInt8.le_iff_toNat_le, hbyte]
    exact hlow
  · rw [UInt8.le_iff_toNat_le, hbyte]
    exact hhigh

/-- What may stand in a count. -/
theorem decimal_bytes {value : ℤ} {byte : UInt8} (h : byte ∈ decimal value) :
    byte = 0x2D ∨ 0x30 ≤ byte ∧ byte ≤ 0x39 := by
  obtain ⟨char, hchar, rfl⟩ := List.mem_map.mp h
  have hdigit : char = '-' ∨ char.isDigit = true := by
    unfold Json.renderInt at hchar
    split at hchar
    · exact (List.mem_cons.mp hchar).imp_right (Json.toDigits_isDigit _ char)
    · exact .inr (Json.toDigits_isDigit _ char hchar)
  obtain rfl | hdigit := hdigit
  · exact .inl rfl
  · obtain ⟨hlow, hhigh, -⟩ := digitByte hdigit
    exact .inr ⟨hlow, hhigh⟩

theorem foldl_digits {chars : List Char} (h : ∀ char ∈ chars, char.isDigit = true) (total : ℕ) :
    (asciiBytes chars).foldl (fun total byte => total * 10 + ((byte.toNat - 0x30 : ℕ) : ℤ)) (total : ℤ) =
      (Nat.ofDigitChars 10 chars total : ℕ) := by
  induction chars generalizing total with
  | nil => rfl
  | cons char chars ih =>
      obtain ⟨-, -, hbyte⟩ := digitByte (h char (.head _))
      have hnext : (total : ℤ) * 10 + ((char.toNat - 0x30 : ℕ) : ℤ) =
          ((10 * total + (char.toNat - '0'.toNat) : ℕ) : ℤ) := by
        rw [Nat.mul_comm, show '0'.toNat = 0x30 from rfl]
        exact (Int.natCast_add _ _).symm
      show (asciiBytes chars).foldl _ ((total : ℤ) * 10 + (((UInt8.ofNat char.toNat).toNat - 0x30 : ℕ) : ℤ)) = _
      rw [hbyte, hnext, Nat.ofDigitChars_cons]
      exact ih (fun other hother => h other (.tail _ hother)) _

/-- The digits of a count are read, if there are not too many. -/
theorem parseDigits (value : ℕ) :
    let digits := asciiBytes (Nat.toDigits 10 value)
    (digits ≠ [] ∧ digits.length ≤ 18 ∧ (digits.all fun byte => 0x30 ≤ byte && byte ≤ 0x39) = true ↔ value < 10 ^ 18) ∧
      digits.foldl (fun total byte => total * 10 + ((byte.toNat - 0x30 : ℕ) : ℤ)) ((0 : ℕ) : ℤ) = value := by
  have hdigits := Json.toDigits_isDigit value
  refine ⟨?_, ?_⟩
  · have hne : asciiBytes (Nat.toDigits 10 value) ≠ [] := by
      intro hnil
      exact Nat.toDigits_ne_nil (List.map_eq_nil_iff.mp hnil)
    have hall : ((asciiBytes (Nat.toDigits 10 value)).all fun byte => 0x30 ≤ byte && byte ≤ 0x39) = true := by
      rw [List.all_eq_true]
      intro byte hmem
      obtain ⟨char, hchar, rfl⟩ := List.mem_map.mp hmem
      obtain ⟨hlow, hhigh, -⟩ := digitByte (hdigits char hchar)
      rw [decide_eq_true hlow, decide_eq_true hhigh]
      rfl
    have hlength : (asciiBytes (Nat.toDigits 10 value)).length ≤ 18 ↔ value < 10 ^ 18 := by
      rw [asciiBytes, List.length_map, Nat.length_toDigits_le_iff (by decide) (by decide)]
    rw [hlength]
    exact ⟨fun h => h.2.1, fun h => ⟨hne, h, hall⟩⟩
  · rw [foldl_digits hdigits, Nat.ofDigitChars_ten_toDigits]

theorem parseCount_decimal (value : ℤ) :
    parseCount (decimal value) = if value.natAbs < 10 ^ 18 then some value else none := by
  obtain ⟨hread, hvalue⟩ := parseDigits value.natAbs
  unfold decimal Json.renderInt
  by_cases hnegative : value < 0
  · rw [if_pos hnegative]
    have hhead : (asciiBytes ('-' :: Nat.toDigits 10 value.natAbs)).head? = some 0x2D := rfl
    have htail : (asciiBytes ('-' :: Nat.toDigits 10 value.natAbs)).tail = asciiBytes (Nat.toDigits 10 value.natAbs) := rfl
    unfold parseCount
    dsimp only
    rw [if_pos hhead, if_pos hhead, htail, hvalue]
    by_cases hsmall : value.natAbs < 10 ^ 18
    · rw [if_pos (hread.mpr hsmall), if_pos hsmall, show -(value.natAbs : ℤ) = value by omega]
    · rw [if_neg (hsmall ∘ hread.mp), if_neg hsmall]
  · rw [if_neg hnegative]
    have hhead : ¬ (asciiBytes (Nat.toDigits 10 value.natAbs)).head? = some 0x2D := by
      intro hminus
      obtain ⟨char, hchar, hbyte⟩ := List.mem_map.mp (List.mem_of_mem_head? hminus)
      obtain ⟨hlow, -, -⟩ := digitByte (Json.toDigits_isDigit _ char hchar)
      rw [hbyte] at hlow
      exact absurd hlow (by decide)
    unfold parseCount
    dsimp only
    rw [if_neg hhead, if_neg hhead, hvalue]
    by_cases hsmall : value.natAbs < 10 ^ 18
    · rw [if_pos (hread.mpr hsmall), if_pos hsmall, show (value.natAbs : ℤ) = value by omega]
    · rw [if_neg (hsmall ∘ hread.mp), if_neg hsmall]

/-! ## The marker line -/

/-- A line of the wrapper, behind the prefix. -/
def deltaFields (status : String) (deltas : Deltas) : List Bytes :=
  [utf8 status, decimal deltas.axioms, decimal deltas.definitions, decimal deltas.types, decimal deltas.constants]

theorem workbenchEmit_eq (markerPrefix status : String) (deltas : Deltas) :
    workbenchEmit markerPrefix status deltas =
      utf8 markerPrefix ++ [0x3A].intercalate (deltaFields status deltas) ++ [0x0A] := by
  simp [workbenchEmit, deltaFields, List.intercalate]

/-- Whether every count can be read. -/
def Deltas.readable (deltas : Deltas) : Prop :=
  deltas.axioms.natAbs < 10 ^ 18 ∧ deltas.definitions.natAbs < 10 ^ 18 ∧ deltas.types.natAbs < 10 ^ 18 ∧
    deltas.constants.natAbs < 10 ^ 18

instance (deltas : Deltas) : Decidable deltas.readable :=
  inferInstanceAs (Decidable (_ ∧ _ ∧ _ ∧ _))

theorem mem_deltaFields {status : String} (hstatus : status = "ok" ∨ status = "invalid") {deltas : Deltas}
    {field : Bytes} (h : field ∈ deltaFields status deltas) {byte : UInt8} (hbyte : byte ∈ field) :
    byte ≠ 0x3A ∧ byte ≠ 0x0A ∧ byte ≠ 0x0D := by
  have hcount : ∀ value : ℤ, byte ∈ decimal value → byte ≠ 0x3A ∧ byte ≠ 0x0A ∧ byte ≠ 0x0D := by
    intro value hmem
    obtain rfl | ⟨hlow, hhigh⟩ := decimal_bytes hmem
    · decide
    · refine ⟨?_, ?_, ?_⟩
      · rintro rfl
        exact absurd hhigh (by decide)
      · rintro rfl
        exact absurd hlow (by decide)
      · rintro rfl
        exact absurd hlow (by decide)
  simp only [deltaFields, List.mem_cons, List.not_mem_nil, or_false] at h
  have hwords : ((utf8 "ok" ++ utf8 "invalid").all fun byte => byte ≠ 0x3A ∧ byte ≠ 0x0A ∧ byte ≠ 0x0D) = true := by
    decide
  obtain rfl | rfl | rfl | rfl | rfl := h
  · apply of_decide_eq_true (List.all_eq_true.mp hwords byte _)
    obtain rfl | rfl := hstatus
    · exact List.mem_append_left _ hbyte
    · exact List.mem_append_right _ hbyte
  · exact hcount _ hbyte
  · exact hcount _ hbyte
  · exact hcount _ hbyte
  · exact hcount _ hbyte

/-- The fields are read as they were printed, if every count can be. -/
theorem parseDelta_fields {status : String} (hstatus : status = "ok" ∨ status = "invalid") (deltas : Deltas) :
    parseDelta ([0x3A].intercalate (deltaFields status deltas)) =
      if deltas.readable then some (decide (status = "ok"), deltas) else none := by
  have hsplit : ([0x3A].intercalate (deltaFields status deltas)).splitOn 0x3A = deltaFields status deltas := by
    apply List.splitOn_intercalate
    · intro field hfield hmem
      exact (mem_deltaFields hstatus hfield hmem).1 rfl
    · exact List.cons_ne_nil _ _
  have hok : (utf8 status = utf8 "ok") ↔ status = "ok" := by
    obtain rfl | rfl := hstatus
    · exact iff_of_true rfl rfl
    · exact iff_of_false (by decide) (by decide)
  have hread : utf8 status = utf8 "ok" ∨ utf8 status = utf8 "invalid" :=
    hstatus.imp (congrArg utf8) (congrArg utf8)
  rw [parseDelta, hsplit, deltaFields]
  dsimp only
  rw [if_pos hread, parseCount_decimal, parseCount_decimal, parseCount_decimal, parseCount_decimal]
  by_cases hreadable : deltas.readable
  · obtain ⟨haxioms, hdefinitions, htypes, hconstants⟩ := hreadable
    rw [if_pos haxioms, if_pos hdefinitions, if_pos htypes, if_pos hconstants,
      if_pos ⟨haxioms, hdefinitions, htypes, hconstants⟩, ← decide_eq_decide.mpr hok]
    rfl
  · rw [if_neg hreadable]
    by_cases haxioms : deltas.axioms.natAbs < 10 ^ 18
    · by_cases hdefinitions : deltas.definitions.natAbs < 10 ^ 18
      · by_cases htypes : deltas.types.natAbs < 10 ^ 18
        · have hconstants : ¬ deltas.constants.natAbs < 10 ^ 18 := fun hconstants =>
            hreadable ⟨haxioms, hdefinitions, htypes, hconstants⟩
          rw [if_pos haxioms, if_pos hdefinitions, if_pos htypes, if_neg hconstants]
          rfl
        · rw [if_pos haxioms, if_pos hdefinitions, if_neg htypes]
          rfl
      · rw [if_pos haxioms, if_neg hdefinitions]
        rfl
    · rw [if_neg haxioms]
      rfl

theorem utf8_ascii {text : String} (h : Ascii text.toList) : utf8 text = asciiBytes text.toList := by
  unfold utf8 asciiBytes
  generalize text.toList = chars at h
  induction chars with
  | nil => rfl
  | cons char chars ih =>
      rw [List.flatMap_cons, utf8EncodeChar_ascii (h char (.head _)), ih fun other hother => h other (.tail _ hother)]
      rfl

theorem isLowerHex_toNat {char : Char} (h : isLowerHex char = true) :
    48 ≤ char.toNat ∧ char.toNat ≤ 57 ∨ 97 ≤ char.toNat ∧ char.toNat ≤ 102 := by
  simp only [isLowerHex, isAsciiDigit, Bool.or_eq_true, Bool.and_eq_true, decide_eq_true_eq,
    UInt32.le_iff_toNat_le, Char.le_def] at h
  exact h

/-- The characters of a marker prefix. -/
theorem markerPrefix_chars {markerPrefix : String} (h : isFoundationMarkerPrefix markerPrefix = true) :
    ∀ char ∈ markerPrefix.toList, 32 < char.toNat ∧ char.toNat < 128 := by
  simp only [isFoundationMarkerPrefix, Bool.and_eq_true, decide_eq_true_eq, List.all_eq_true] at h
  obtain ⟨⟨⟨hhead, hlength⟩, hhex⟩, hlast⟩ := h
  have hsplit := List.take_append_drop (foundationDeltaPrefix ++ ":").toList.length markerPrefix.toList
  rw [hhead] at hsplit
  generalize markerPrefix.toList.drop (foundationDeltaPrefix ++ ":").toList.length = body at hsplit hlength hhex hlast
  have hwords : ((foundationDeltaPrefix ++ ":").toList.all fun char => 32 < char.toNat ∧ char.toNat < 128) = true := by
    decide +kernel
  intro char hmem
  rw [← hsplit] at hmem
  obtain hmem | hmem := List.mem_append.mp hmem
  · exact of_decide_eq_true (List.all_eq_true.mp hwords char hmem)
  · rw [← List.take_append_drop 32 body] at hmem
    obtain hmem | hmem := List.mem_append.mp hmem
    · obtain hrange | hrange := isLowerHex_toNat (hhex char hmem)
      · omega
      · omega
    · -- the last of the 33 characters is the colon
      obtain ⟨front, rfl⟩ := List.getLast?_eq_some_iff.mp hlast
      have hfront : front.length = 32 := by simpa using hlength
      rw [List.drop_left' hfront, List.mem_singleton] at hmem
      rw [hmem]
      decide

/-- A marker prefix is the beginning of a line. -/
theorem oneLine_markerPrefix {markerPrefix : String} (h : isFoundationMarkerPrefix markerPrefix = true) :
    OneLine (utf8 markerPrefix) := by
  have hchars := markerPrefix_chars h
  have hascii : Ascii markerPrefix.toList := fun char hmem => (hchars char hmem).2
  rw [utf8_ascii hascii]
  constructor
  · intro hmem
    have hchar : '\n' ∈ markerPrefix.toList := (mem_asciiBytes hascii (by decide)).mp hmem
    exact absurd (hchars _ hchar).1 (by decide)
  · intro hmem
    have hchar : '\r' ∈ markerPrefix.toList := (mem_asciiBytes hascii (by decide)).mp hmem
    exact absurd (hchars _ hchar).1 (by decide)

theorem utf8_markerPrefix_ne_nil {markerPrefix : String} (h : isFoundationMarkerPrefix markerPrefix = true) :
    utf8 markerPrefix ≠ [] := by
  intro hnil
  have hascii : Ascii markerPrefix.toList := fun char hmem => (markerPrefix_chars h char hmem).2
  rw [utf8_ascii hascii, asciiBytes, List.map_eq_nil_iff] at hnil
  simp only [isFoundationMarkerPrefix, hnil, Bool.and_eq_true, decide_eq_true_eq] at h
  exact absurd h.1.1.2 (by decide)

/-- The line of the wrapper. -/
def markerLine (markerPrefix status : String) (deltas : Deltas) : Bytes :=
  utf8 markerPrefix ++ [0x3A].intercalate (deltaFields status deltas)

theorem oneLine_markerLine {markerPrefix : String} (h : isFoundationMarkerPrefix markerPrefix = true) {status : String}
    (hstatus : status = "ok" ∨ status = "invalid") (deltas : Deltas) : OneLine (markerLine markerPrefix status deltas) := by
  have hfield : ∀ field ∈ deltaFields status deltas, OneLine field := by
    intro field hmem
    exact ⟨fun hlf => (mem_deltaFields hstatus hmem hlf).2.1 rfl, fun hcr => (mem_deltaFields hstatus hmem hcr).2.2 rfl⟩
  have hcolon : OneLine [0x3A] := ⟨by decide, by decide⟩
  have hfields : [0x3A].intercalate (deltaFields status deltas) =
      utf8 status ++ ([0x3A] ++ (decimal deltas.axioms ++ ([0x3A] ++ (decimal deltas.definitions ++ ([0x3A] ++
        (decimal deltas.types ++ ([0x3A] ++ decimal deltas.constants))))))) := by
    simp [deltaFields, List.intercalate]
  simp only [deltaFields, List.forall_mem_cons] at hfield
  obtain ⟨hword, haxioms, hdefinitions, htypes, hconstants, -⟩ := hfield
  rw [markerLine, hfields]
  exact (oneLine_markerPrefix h).append (hword.append (hcolon.append (haxioms.append (hcolon.append
    (hdefinitions.append (hcolon.append (htypes.append (hcolon.append hconstants))))))))

/-! ## The accounting of a printed marker -/

/-- The only line that begins with the prefix is looked at. -/
theorem filter_zipIdx {lines behind : List Bytes} (line : Bytes) (select : Bytes → Bool)
    (hlines : ∀ other ∈ lines, select other = false) (hline : select line = true)
    (hbehind : ∀ other ∈ behind, select other = false) (start : ℕ) :
    ((lines ++ line :: behind).zipIdx start).filter (fun row => select row.1) = [(line, start + lines.length)] := by
  have hnone : ∀ (others : List Bytes) (start : ℕ), (∀ other ∈ others, select other = false) →
      (others.zipIdx start).filter (fun row => select row.1) = [] := by
    intro others start h
    rw [List.filter_eq_nil_iff]
    rintro ⟨other, number⟩ hmem
    rw [h other (List.fst_mem_of_mem_zipIdx hmem)]
    exact Bool.false_ne_true
  rw [List.zipIdx_append, List.zipIdx_cons, List.filter_append, List.filter_cons_of_pos (by exact hline), hnone lines start hlines,
    hnone behind _ hbehind]
  rfl

/-- No other line of the transcript begins with the prefix. -/
def NoOtherMarker (markerPrefix : String) (front back : Bytes) : Prop :=
  ∀ line ∈ splitLines front ++ splitLines back, ¬ utf8 markerPrefix <+: line

theorem splitLines_markerLine {markerPrefix : String} (h : isFoundationMarkerPrefix markerPrefix = true) {status : String}
    (hstatus : status = "ok" ∨ status = "invalid") (deltas : Deltas) {front : Bytes} (hfront : Complete front)
    (back : Bytes) :
    splitLines (front ++ workbenchEmit markerPrefix status deltas ++ back) =
      splitLines front ++ markerLine markerPrefix status deltas :: splitLines back := by
  have hline := oneLine_markerLine h hstatus deltas
  have hemit : front ++ workbenchEmit markerPrefix status deltas ++ back =
      front ++ (markerLine markerPrefix status deltas ++ 0x0A :: back) := by
    rw [workbenchEmit_eq, markerLine]
    simp
  have hhead : (markerLine markerPrefix status deltas ++ 0x0A :: back).head? ≠ some 10 := by
    intro hhead
    obtain ⟨byte, rest, hbytes⟩ := List.exists_cons_of_ne_nil (utf8_markerPrefix_ne_nil h)
    rw [markerLine, hbytes] at hhead
    obtain rfl : byte = 10 := Option.some.inj hhead
    exact (oneLine_markerPrefix h).1 (hbytes ▸ .head _)
  rw [hemit, splitLines_eq, lineRanges_complete hfront hhead, lineRanges_oneLine hline, List.map_append, List.map_cons,
    ← splitLines_eq, ← splitLines_eq, rdropWhile_oneLine hline]

/-- The accounting of a transcript with one marker is that of its fields. -/
theorem accountFoundationDelta_printed {markerPrefix : String} {contract : Contract}
    (hcontract : contract.foundationDelta = some markerPrefix) (h : isFoundationMarkerPrefix markerPrefix = true)
    {status : String} (hstatus : status = "ok" ∨ status = "invalid") (deltas : Deltas) {front back : Bytes}
    (hfront : Complete front) (honly : NoOtherMarker markerPrefix front back) :
    accountFoundationDelta (front ++ workbenchEmit markerPrefix status deltas ++ back) contract =
      accountCandidate (1 + (splitLines front).length) ([0x3A].intercalate (deltaFields status deltas)) := by
  have hselect : ∀ other, ¬ utf8 markerPrefix <+: other → (utf8 markerPrefix).isPrefixOf other = false := by
    intro other hother
    rw [Bool.eq_false_iff]
    exact fun hbegins => hother (List.isPrefixOf_iff_prefix.mp hbegins)
  have hfilter := filter_zipIdx (markerLine markerPrefix status deltas) (fun line => (utf8 markerPrefix).isPrefixOf line)
    (fun other hother => hselect other (honly other (List.mem_append_left _ hother)))
    (List.isPrefixOf_iff_prefix.mpr (List.prefix_append _ _))
    (fun other hother => hselect other (honly other (List.mem_append_right _ hother))) 1
  have hbody : (markerLine markerPrefix status deltas).drop (utf8 markerPrefix).length =
      [0x3A].intercalate (deltaFields status deltas) := List.drop_left
  unfold accountFoundationDelta
  rw [hcontract]
  dsimp only
  rw [h, splitLines_markerLine h hstatus deltas hfront back, hfilter]
  dsimp only
  rw [hbody]
  rfl

/-- What is made of the fields of a marker. -/
theorem accountCandidate_fields (number : ℕ) {status : String} (hstatus : status = "ok" ∨ status = "invalid")
    (deltas : Deltas) :
    let delta := accountCandidate number ([0x3A].intercalate (deltaFields status deltas))
    (delta.status = .malformed ↔ ¬ deltas.readable) ∧
      (delta.status = .observed ↔ deltas.readable ∧ deltas.acceptable (status = "ok") = true) ∧
      (delta.status = .observed → delta.deltas = some deltas) ∧
      (delta.status = .observed ∨ delta.status = .invalid ∨ delta.status = .malformed) := by
  unfold accountCandidate
  rw [parseDelta_fields hstatus]
  by_cases hreadable : deltas.readable
  · rw [if_pos hreadable]
    dsimp only
    by_cases hacceptable : deltas.acceptable (status = "ok") = true
    · rw [if_pos hacceptable]
      simp [hreadable, hacceptable]
    · rw [if_neg hacceptable]
      simp [noDelta, hreadable, hacceptable]
  · rw [if_neg hreadable]
    simp [noDelta, hreadable]

/-! ## What is read of the registries -/

/-- More elements were put in front than a count can say. -/
def Overlong {α : Type*} (before after : List α) : Prop :=
  ∃ new, after = new ++ before ∧ 10 ^ 18 ≤ new.length

theorem natAbs_workbenchValue_lt {α : Type*} [DecidableEq α] (before after : List α) :
    (workbenchValue (workbenchDelta before after)).natAbs < 10 ^ 18 ↔ ¬ Overlong before after := by
  cases hdelta : workbenchDelta before after with
  | none =>
      refine iff_of_true (by decide) ?_
      rintro ⟨new, rfl, -⟩
      rw [workbenchDelta_append] at hdelta
      cases hdelta
  | some count =>
      obtain ⟨new, rfl, rfl⟩ := workbenchDelta_eq_some.mp hdelta
      show new.length < 10 ^ 18 ↔ _
      rw [← Nat.not_le, not_iff_not]
      constructor
      · exact fun hlong => ⟨new, rfl, hlong⟩
      · rintro ⟨other, hother, hlong⟩
        rwa [List.append_cancel_right hother]

theorem workbenchValue_nonneg (delta : Option ℕ) : 0 ≤ workbenchValue delta ↔ delta.isSome = true := by
  cases delta with
  | none => decide
  | some count => exact iff_of_true (Int.natCast_nonneg count) rfl

section

variable {Theorem TypeRow ConstantRow : Type*}

namespace Registries

/-- The registries are those before with the new ones in front of them. -/
structure PrependedBy (before after new : Registries Theorem TypeRow ConstantRow) : Prop where
  axioms : after.axioms = new.axioms ++ before.axioms
  definitions : after.definitions = new.definitions ++ before.definitions
  types : after.types = new.types ++ before.types
  constants : after.constants = new.constants ++ before.constants

/-- How many there are. -/
def counts (registries : Registries Theorem TypeRow ConstantRow) : Deltas where
  axioms := registries.axioms.length
  definitions := registries.definitions.length
  types := registries.types.length
  constants := registries.constants.length

/-- One of the registries grew by more than a count can say. -/
def AnyOverlong (before after : Registries Theorem TypeRow ConstantRow) : Prop :=
  Overlong before.axioms after.axioms ∨ Overlong before.definitions after.definitions ∨
    Overlong before.types after.types ∨ Overlong before.constants after.constants

end Registries

/-- What the accounting of a printed marker says of the registries. -/
structure ReadsRegistries (before after : Option (Registries Theorem TypeRow ConstantRow)) (delta : FoundationDelta) :
    Prop where
  observed : delta.status = .observed ↔ ∃ old now new, before = some old ∧ after = some now ∧
    old.PrependedBy now new ∧ new.counts.readable
  counted : ∀ old now new, before = some old → after = some now → old.PrependedBy now new → delta.status = .observed →
    delta.deltas = some new.counts
  malformed : delta.status = .malformed ↔ ∃ old now, before = some old ∧ after = some now ∧ old.AnyOverlong now
  otherwise : delta.status ≠ .observed → delta.status ≠ .malformed → delta.status = .invalid

variable [DecidableEq Theorem] [DecidableEq TypeRow] [DecidableEq ConstantRow]

namespace Registries

/-- The counts that are printed. -/
def printed (before after : Registries Theorem TypeRow ConstantRow) : Deltas where
  axioms := workbenchValue (workbenchDelta before.axioms after.axioms)
  definitions := workbenchValue (workbenchDelta before.definitions after.definitions)
  types := workbenchValue (workbenchDelta before.types after.types)
  constants := workbenchValue (workbenchDelta before.constants after.constants)

/-- `hol_workbench_valid`. -/
def valid (before after : Registries Theorem TypeRow ConstantRow) : Bool :=
  (workbenchDelta before.axioms after.axioms).isSome && (workbenchDelta before.definitions after.definitions).isSome &&
    (workbenchDelta before.types after.types).isSome && (workbenchDelta before.constants after.constants).isSome

theorem readable_printed (before after : Registries Theorem TypeRow ConstantRow) :
    (before.printed after).readable ↔ ¬ before.AnyOverlong after := by
  unfold Deltas.readable AnyOverlong printed
  rw [natAbs_workbenchValue_lt, natAbs_workbenchValue_lt, natAbs_workbenchValue_lt, natAbs_workbenchValue_lt, not_or,
    not_or, not_or]

theorem PrependedBy.printed_eq {before after new : Registries Theorem TypeRow ConstantRow}
    (h : before.PrependedBy after new) : before.printed after = new.counts ∧ before.valid after = true := by
  unfold Registries.printed Registries.valid Registries.counts
  rw [h.axioms, h.definitions, h.types, h.constants, workbenchDelta_append, workbenchDelta_append, workbenchDelta_append,
    workbenchDelta_append]
  exact ⟨rfl, rfl⟩

theorem exists_prependedBy {before after : Registries Theorem TypeRow ConstantRow} (h : before.valid after = true) :
    ∃ new, before.PrependedBy after new := by
  unfold valid at h
  simp only [Bool.and_eq_true, Option.isSome_iff_exists] at h
  obtain ⟨⟨⟨⟨_, haxioms⟩, ⟨_, hdefinitions⟩⟩, ⟨_, htypes⟩⟩, ⟨_, hconstants⟩⟩ := h
  obtain ⟨newAxioms, haxioms, -⟩ := workbenchDelta_eq_some.mp haxioms
  obtain ⟨newDefinitions, hdefinitions, -⟩ := workbenchDelta_eq_some.mp hdefinitions
  obtain ⟨newTypes, htypes, -⟩ := workbenchDelta_eq_some.mp htypes
  obtain ⟨newConstants, hconstants, -⟩ := workbenchDelta_eq_some.mp hconstants
  exact ⟨⟨newAxioms, newDefinitions, newTypes, newConstants⟩, haxioms, hdefinitions, htypes, hconstants⟩

theorem acceptable_printed (before after : Registries Theorem TypeRow ConstantRow) :
    (before.printed after).acceptable (before.valid after) = before.valid after := by
  unfold Deltas.acceptable printed
  rw [Bool.eq_iff_iff]
  simp only [Bool.and_eq_true, decide_eq_true_eq, workbenchValue_nonneg]
  constructor
  · exact fun h => h.1.1.1.1
  · intro h
    refine ⟨⟨⟨⟨h, ?_⟩, ?_⟩, ?_⟩, ?_⟩ <;> (simp only [valid, Bool.and_eq_true] at h; simp [h])

end Registries

/-- The accounting of what the wrapper printed says what became of the registries. -/
theorem readsRegistries {markerPrefix : String} {contract : Contract}
    (hcontract : contract.foundationDelta = some markerPrefix) (h : isFoundationMarkerPrefix markerPrefix = true)
    {front back : Bytes} (hfront : Complete front) (honly : NoOtherMarker markerPrefix front back)
    (before after : Option (Registries Theorem TypeRow ConstantRow)) :
    ReadsRegistries before after
      (accountFoundationDelta (front ++ printedMarker markerPrefix before after ++ back) contract) := by
  -- registries that cannot be read are printed as invalid
  have hunread : (∀ old now, before = some old → after = some now → False) →
      printedMarker markerPrefix before after = workbenchEmit markerPrefix "invalid" ⟨-1, -1, -1, -1⟩ →
      ReadsRegistries before after
        (accountFoundationDelta (front ++ printedMarker markerPrefix before after ++ back) contract) := by
    intro hmissing hprinted
    rw [hprinted, accountFoundationDelta_printed hcontract h (.inr rfl) _ hfront honly]
    obtain ⟨hmalformed, hobserved, -, hcases⟩ :=
      accountCandidate_fields (1 + (splitLines front).length) (.inr rfl) ⟨-1, -1, -1, -1⟩
    have hnotMalformed := mt hmalformed.mp (not_not_intro (by decide))
    have hnotObserved := mt hobserved.mp fun h => absurd h.2 (by decide)
    constructor
    · exact iff_of_false hnotObserved fun ⟨old, now, _, hold, hnow, _⟩ => hmissing old now hold hnow
    · exact fun old now _ hold hnow => (hmissing old now hold hnow).elim
    · exact iff_of_false hnotMalformed fun ⟨old, now, hold, hnow, _⟩ => hmissing old now hold hnow
    · exact fun _ _ => (hcases.resolve_left hnotObserved).resolve_right hnotMalformed
  cases before with
  | none => exact hunread nofun rfl
  | some old =>
      cases after with
      | none => exact hunread nofun rfl
      | some now =>
          have hprinted : printedMarker markerPrefix (some old) (some now) =
              workbenchEmit markerPrefix (if old.valid now then "ok" else "invalid") (old.printed now) := rfl
          have hstatus : (if old.valid now then "ok" else "invalid") = "ok" ∨
              (if old.valid now then "ok" else "invalid") = "invalid" := by
            cases old.valid now
            · exact .inr rfl
            · exact .inl rfl
          have hok : decide ((if old.valid now then "ok" else "invalid") = "ok") = old.valid now := by
            cases old.valid now
            · rfl
            · rfl
          rw [hprinted, accountFoundationDelta_printed hcontract h hstatus _ hfront honly]
          obtain ⟨hmalformed, hobserved, hdeltas, hcases⟩ :=
            accountCandidate_fields (1 + (splitLines front).length) hstatus (old.printed now)
          rw [old.readable_printed, not_not] at hmalformed
          rw [hok, old.acceptable_printed] at hobserved
          constructor
          · rw [hobserved]
            constructor
            · rintro ⟨hreadable, hvalid⟩
              obtain ⟨new, hnew⟩ := Registries.exists_prependedBy hvalid
              exact ⟨old, now, new, rfl, rfl, hnew, hnew.printed_eq.1 ▸ hreadable⟩
            · rintro ⟨_, _, new, hold, hnow, hnew, hreadable⟩
              cases hold
              cases hnow
              exact ⟨hnew.printed_eq.1 ▸ hreadable, hnew.printed_eq.2⟩
          · intro _ _ new hold hnow hnew hstatus
            cases hold
            cases hnow
            rw [hdeltas hstatus, hnew.printed_eq.1]
          · rw [hmalformed]
            constructor
            · exact fun hlong => ⟨old, now, rfl, rfl, hlong⟩
            · rintro ⟨_, _, hold, hnow, hlong⟩
              cases hold
              cases hnow
              exact hlong
          · exact fun hnotObserved hnotMalformed => (hcases.resolve_left hnotObserved).resolve_right hnotMalformed

end

/-! ## Every transcript -/

/-- One line of the transcript begins with the prefix of the contract, and the rest of it says these counts. -/
structure SoleMarker (transcript : Bytes) (contract : Contract) (deltas : Deltas) : Prop where
  line : ∃ markerPrefix body, contract.foundationDelta = some markerPrefix ∧
    (splitLines transcript).filter (fun line => (utf8 markerPrefix).isPrefixOf line) = [utf8 markerPrefix ++ body] ∧
    parseDelta body = some (true, deltas)
  acceptable : deltas.acceptable true = true

/-- A candidate that is observed has a good status and counts that are not negative. -/
theorem accountCandidate_of_observed {number : ℕ} {body : Bytes}
    (h : (accountCandidate number body).status = .observed) :
    ∃ deltas, parseDelta body = some (true, deltas) ∧ deltas.acceptable true = true ∧
      (accountCandidate number body).deltas = some deltas ∧
        (accountCandidate number body).newAxiomCount = some deltas.axioms := by
  unfold accountCandidate at h ⊢
  cases hparse : parseDelta body with
  | none =>
      rw [hparse] at h
      cases h
  | some parsed =>
      obtain ⟨ok, deltas⟩ := parsed
      rw [hparse] at h
      dsimp only at h ⊢
      by_cases hacceptable : deltas.acceptable ok = true
      · have hok : ok = true := by
          simp only [Deltas.acceptable, Bool.and_eq_true] at hacceptable
          exact hacceptable.1.1.1.1
        subst hok
        rw [if_pos hacceptable]
        exact ⟨deltas, rfl, hacceptable, rfl, rfl⟩
      · rw [if_neg hacceptable] at h
        cases h

/-- Only a sole well-formed marker is reported as observed. -/
theorem soleMarker_of_observed {transcript : Bytes} {contract : Contract}
    (h : (accountFoundationDelta transcript contract).status = .observed) :
    ∃ deltas, SoleMarker transcript contract deltas ∧ (accountFoundationDelta transcript contract).deltas = some deltas ∧
      (accountFoundationDelta transcript contract).newAxiomCount = some deltas.axioms := by
  cases hcontract : contract.foundationDelta with
  | none =>
      rw [accountFoundationDelta, hcontract] at h
      cases h
  | some markerPrefix =>
      unfold accountFoundationDelta at h ⊢
      rw [hcontract] at h ⊢
      dsimp only at h ⊢
      by_cases hform : isFoundationMarkerPrefix markerPrefix = true
      · rw [hform] at h ⊢
        have hfst : (((splitLines transcript).zipIdx 1).filter fun row => (utf8 markerPrefix).isPrefixOf row.1).map Prod.fst =
            (splitLines transcript).filter fun line => (utf8 markerPrefix).isPrefixOf line := by
          conv_rhs => rw [← List.zipIdx_map_fst 1 (splitLines transcript), List.filter_map]
          rfl
        generalize ((splitLines transcript).zipIdx 1).filter (fun row => (utf8 markerPrefix).isPrefixOf row.1) = rows at h hfst ⊢
        have hnot : ¬ (!true) = true := Bool.false_ne_true
        rw [if_neg hnot] at h ⊢
        cases rows with
        | nil => cases h
        | cons row rows =>
            obtain ⟨candidate, number⟩ := row
            cases rows with
            | nil =>
                obtain ⟨deltas, hparse, hacceptable, hdeltas, hcount⟩ := accountCandidate_of_observed h
                have hmem : candidate ∈ (splitLines transcript).filter fun line => (utf8 markerPrefix).isPrefixOf line :=
                  hfst ▸ .head _
                obtain ⟨body, rfl⟩ := List.isPrefixOf_iff_prefix.mp (List.mem_filter.mp hmem).2
                rw [List.drop_left] at hparse
                exact ⟨deltas, ⟨⟨markerPrefix, body, hcontract, hfst.symm, hparse⟩, hacceptable⟩, hdeltas, hcount⟩
            | cons other rows => cases h
      · rw [Bool.eq_false_iff.mpr hform] at h
        cases h

/-- No objection is advised only where an observed delta has no new axiom. -/
theorem observed_of_noFoundationObjection {diagnostics : Diagnostics} {identify : FailureAttribution} {claims : List Claim}
    {transcript : Bytes} {contract : Contract} {transport : String} {response : Option Response} {semantic : Semantic}
    (h : analyzeVanillaTranscript diagnostics identify claims transcript contract transport response = .ok semantic)
    {advisory : Advisory} (hadvisory : semantic.promotionAdvisory = some advisory)
    (hrecommendation : advisory.recommendation = .noFoundationObjection) :
    semantic.foundationDelta = some (accountFoundationDelta transcript contract) ∧
      (accountFoundationDelta transcript contract).status = .observed ∧
        (accountFoundationDelta transcript contract).newAxiomCount = some 0 := by
  unfold analyzeVanillaTranscript at h
  obtain ⟨⟨docs, accounting⟩, -, h⟩ := bind_eq_ok.mp h
  obtain rfl := Except.ok.inj h
  dsimp only at hadvisory ⊢
  by_cases henabled : contract.foundationDelta.isSome = true
  · rw [if_pos henabled] at hadvisory ⊢
    obtain rfl := Option.some.inj hadvisory
    change recommendation _ _ _ = _ at hrecommendation
    unfold recommendation at hrecommendation
    split at hrecommendation
    · cases hrecommendation
    · rename_i hnoAxiom
      split at hrecommendation
      · rename_i hclean
        obtain ⟨deltas, hmarker, -, hcount⟩ := soleMarker_of_observed hclean.1
        refine ⟨rfl, hclean.1, ?_⟩
        have hpositive : 0 ≤ deltas.axioms := by
          have hacceptable := hmarker.acceptable
          simp only [Deltas.acceptable, Bool.and_eq_true, decide_eq_true_eq] at hacceptable
          exact hacceptable.1.1.1.2
        have hzero : ¬ 0 < deltas.axioms := by
          intro h
          apply hnoAxiom
          rw [hcount]
          exact ⟨hclean.1, h⟩
        rw [hcount, show deltas.axioms = 0 by omega]
      · cases hrecommendation
  · rw [if_neg henabled] at hadvisory
    cases hadvisory

/-- **What the wrapper prints is read as what became of the registries**, only a sole well-formed marker is observed, and
no objection is advised only without new axioms. -/
theorem foundation_delta_agrees {Theorem TypeRow ConstantRow : Type*} [DecidableEq Theorem] [DecidableEq TypeRow]
    [DecidableEq ConstantRow] {markerPrefix : String} {contract : Contract}
    (hcontract : contract.foundationDelta = some markerPrefix) (hform : isFoundationMarkerPrefix markerPrefix = true)
    {front back : Bytes} (hfront : Complete front) (honly : NoOtherMarker markerPrefix front back)
    (before after : Option (Registries Theorem TypeRow ConstantRow)) :
    ReadsRegistries before after
        (accountFoundationDelta (front ++ printedMarker markerPrefix before after ++ back) contract) ∧
      (∀ transcript contract, (accountFoundationDelta transcript contract).status = .observed →
        ∃ deltas, SoleMarker transcript contract deltas ∧
          (accountFoundationDelta transcript contract).deltas = some deltas) ∧
      ∀ (diagnostics : Diagnostics) identify claims transcript contract transport response semantic advisory,
        analyzeVanillaTranscript diagnostics identify claims transcript contract transport response = .ok semantic →
          semantic.promotionAdvisory = some advisory → advisory.recommendation = .noFoundationObjection →
            semantic.foundationDelta = some (accountFoundationDelta transcript contract) ∧
              (accountFoundationDelta transcript contract).status = .observed ∧
                (accountFoundationDelta transcript contract).newAxiomCount = some 0 := by
  refine ⟨readsRegistries hcontract hform hfront honly before after, ?_, ?_⟩
  · intro transcript contract h
    obtain ⟨deltas, hmarker, hdeltas, -⟩ := soleMarker_of_observed h
    exact ⟨deltas, hmarker, hdeltas⟩
  · intro _ _ _ _ _ _ _ _ _ h hadvisory hrecommendation
    exact observed_of_noFoundationObjection h hadvisory hrecommendation

/-- A contract with a prefix. -/
def deltaContract : Contract where
  nonce := sampleNonce
  sourceSha256 := ""
  sourceByteCount := 0
  prefixSha256 := none
  prefixByteCount := 0
  suffixSha256 := ""
  suffixByteCount := 0
  executedPayloadSha256 := ""
  completionMarker := ""
  claims := []
  foundationDelta := some (foundationDeltaPrefix ++ ":" ++ sampleNonce ++ ":")

/-- Registries with these numbers as axioms. -/
def axiomRegistries (axioms : List ℕ) : Registries ℕ ℕ ℕ where
  axioms := axioms
  definitions := [1]
  types := []
  constants := [2, 3]

theorem isFoundationMarkerPrefix_sample :
    isFoundationMarkerPrefix (foundationDeltaPrefix ++ ":" ++ sampleNonce ++ ":") = true := by
  decide +kernel

/-- One axiom more, printed behind a line of output. -/
theorem one_axiom_observed :
    (accountFoundationDelta (utf8 "val it : unit = ()\n" ++ printedMarker (foundationDeltaPrefix ++ ":" ++ sampleNonce ++ ":")
        (some (axiomRegistries [7])) (some (axiomRegistries [8, 7])) ++ []) deltaContract).deltas = some ⟨1, 0, 0, 0⟩ := by
  have honly : NoOtherMarker (foundationDeltaPrefix ++ ":" ++ sampleNonce ++ ":") (utf8 "val it : unit = ()\n") [] := by
    unfold NoOtherMarker
    decide +kernel
  have hfront : Complete (utf8 "val it : unit = ()\n") := .inr ⟨utf8 "val it : unit = ()", 10, rfl, rfl⟩
  have hcontract : deltaContract.foundationDelta = some (foundationDeltaPrefix ++ ":" ++ sampleNonce ++ ":") := rfl
  obtain ⟨hreads, -, -⟩ := foundation_delta_agrees hcontract isFoundationMarkerPrefix_sample hfront honly (some (axiomRegistries [7])) (some (axiomRegistries [8, 7]))
  have hnew : (axiomRegistries [7]).PrependedBy (axiomRegistries [8, 7]) ⟨[8], [], [], []⟩ := ⟨rfl, rfl, rfl, rfl⟩
  exact hreads.counted _ _ _ rfl rfl hnew (hreads.observed.mpr ⟨_, _, _, rfl, rfl, hnew, by decide⟩)

/-- A registry with too many new elements is no observed delta, although they were all put in front. -/
theorem overlong_malformed :
    (axiomRegistries []).PrependedBy (axiomRegistries (List.replicate (10 ^ 18) 7))
        ⟨List.replicate (10 ^ 18) 7, [], [], []⟩ ∧
      (accountFoundationDelta ([] ++ printedMarker (foundationDeltaPrefix ++ ":" ++ sampleNonce ++ ":")
        (some (axiomRegistries [])) (some (axiomRegistries (List.replicate (10 ^ 18) 7))) ++ []) deltaContract).status =
          .malformed := by
  have honly : NoOtherMarker (foundationDeltaPrefix ++ ":" ++ sampleNonce ++ ":") [] [] := nofun
  have hcontract : deltaContract.foundationDelta = some (foundationDeltaPrefix ++ ":" ++ sampleNonce ++ ":") := rfl
  have hreads := readsRegistries hcontract isFoundationMarkerPrefix_sample (.inl rfl) honly
    (some (axiomRegistries [])) (some (axiomRegistries (List.replicate (10 ^ 18) 7)))
  refine ⟨⟨(List.append_nil _).symm, rfl, rfl, rfl⟩, hreads.malformed.mpr ⟨_, _, rfl, rfl, .inl ?_⟩⟩
  exact ⟨List.replicate (10 ^ 18) 7, (List.append_nil _).symm, (List.length_replicate ..).ge⟩

end Hearth.Replay
