import Hearth.Loader.Inventory

/-!
# Line numbers

A line ends with a line feed, a carriage return, or both.  `line_for_byte` looks an offset up in the table of line starts,
`_line_number_for_offset` counts the ends in front of it.
-/

namespace Hearth.Loader

open Hearth.Library

/-! ## Table and count -/

/-- The line starts are behind the bytes that were read. -/
theorem lt_of_mem_lineStartsFrom {index start : ℕ} {source : Bytes} (h : start ∈ lineStartsFrom index source) :
    index < start := by
  fun_induction lineStartsFrom index source with
  | case1 => nomatch h
  | case2 index rest ih =>
      rcases List.mem_cons.mp h with rfl | h
      · omega
      · have hlt := ih h
        omega
  | case3 index rest _ ih =>
      rcases List.mem_cons.mp h with rfl | h
      · omega
      · have hlt := ih h
        omega
  | case4 index rest ih =>
      rcases List.mem_cons.mp h with rfl | h
      · omega
      · have hlt := ih h
        omega
  | case5 index byte rest _ _ _ ih =>
      have hlt := ih h
      omega

/-- The last byte is no carriage return in front of a line feed. -/
def EndsApart (front behind : Bytes) : Prop :=
  front.getLast? = some 0x0D → behind.head? ≠ some 0x0A

theorem EndsApart.tail {byte : UInt8} {front behind : Bytes} (h : EndsApart (byte :: front) behind) :
    EndsApart front behind := by
  intro hlast
  cases front with
  | nil => nomatch hlast
  | cons next front => exact h hlast

/-- The line starts up to an offset are one for each end in front of it. -/
theorem length_takeWhile_lineStartsFrom (index : ℕ) {front behind : Bytes} (h : EndsApart front behind) :
    ((lineStartsFrom index (front ++ behind)).takeWhile (· ≤ index + front.length)).length + 1 =
      lineNumberForOffset.count front := by
  fun_induction lineNumberForOffset.count front generalizing index with
  | case1 =>
      cases hstarts : lineStartsFrom index ([] ++ behind) with
      | nil => rfl
      | cons start starts =>
          have hlt : index < start := lt_of_mem_lineStartsFrom (by rw [hstarts]; exact .head _)
          rw [List.takeWhile_cons_of_neg (by simpa using hlt)]
          rfl
  | case2 rest ih =>
      rw [List.cons_append, List.cons_append, lineStartsFrom, List.takeWhile_cons_of_pos (by simp)]
      have hlength : index + (rest.length + 1 + 1) = index + 2 + rest.length := by omega
      rw [List.length_cons, List.length_cons, List.length_cons, hlength, ih (index + 2) h.tail.tail]
  | case3 rest hne ih =>
      have hnext : ∀ rest', rest ++ behind = 0x0A :: rest' → False := by
        intro rest' heq
        cases rest with
        | nil => exact h rfl (by rw [List.nil_append] at heq; rw [heq]; rfl)
        | cons next rest => exact hne rest (by rw [(List.cons.inj heq).1])
      have hlength : index + (rest.length + 1) = index + 1 + rest.length := by omega
      rw [List.cons_append, lineStartsFrom, List.takeWhile_cons_of_pos (by simp), List.length_cons, List.length_cons,
        hlength, ih (index + 1) h.tail]
      exact hnext
  | case4 rest ih =>
      rw [List.cons_append, lineStartsFrom, List.takeWhile_cons_of_pos (by simp)]
      have hlength : index + (rest.length + 1) = index + 1 + rest.length := by omega
      rw [List.length_cons, List.length_cons, hlength, ih (index + 1) h.tail]
  | case5 byte rest _ hcr hlf ih =>
      have hlength : index + (rest.length + 1) = index + 1 + rest.length := by omega
      rw [List.cons_append, lineStartsFrom, List.length_cons, hlength, ih (index + 1) h.tail]
      · exact fun _ heq _ => hcr heq
      · exact hcr
      · exact hlf

theorem lineForByte_append {front behind : Bytes} (h : EndsApart front behind) :
    lineForByte (front ++ behind) front.length = lineNumberForOffset.count front := by
  have hlength := length_takeWhile_lineStartsFrom 0 h
  rw [Nat.zero_add] at hlength
  unfold lineForByte lineStarts
  rw [List.takeWhile_cons_of_pos (by simp), List.length_cons, hlength]

/-- Outside of the pairs of a carriage return and a line feed, the table and the count give an offset the same line. -/
theorem lineForByte_eq_lineNumberForOffset {source : Bytes} {offset : ℕ} (hoffset : offset ≤ source.length)
    (hbetween : ∀ front behind, source = front ++ 0x0D :: 0x0A :: behind → offset ≠ front.length + 1) :
    lineForByte source offset = lineNumberForOffset source offset := by
  have hends : EndsApart (source.take offset) (source.drop offset) := by
    intro hlast hfirst
    obtain ⟨front, hfront⟩ := List.getLast?_eq_some_iff.mp hlast
    obtain ⟨behind, hbehind⟩ := List.head?_eq_some_iff.mp hfirst
    have hsource : source = front ++ 0x0D :: 0x0A :: behind := by
      rw [← List.take_append_drop offset source, hfront, hbehind]
      simp
    have hlength := congrArg List.length hfront
    rw [List.length_take_of_le hoffset, List.length_append] at hlength
    exact hbetween front behind hsource hlength
  have hline := lineForByte_append hends
  rwa [List.take_append_drop, List.length_take_of_le hoffset] at hline

/-- Behind all three ends of a line. -/
theorem line_of_mixed_ends :
    lineForByte (utf8 "a\r\n\rb\nc") 6 = lineNumberForOffset (utf8 "a\r\n\rb\nc") 6 := by
  refine lineForByte_eq_lineNumberForOffset (by decide) fun front behind h heq => ?_
  have hbyte : (utf8 "a\r\n\rb\nc")[6]? = some 0x0A := by
    rw [h, heq, List.getElem?_append_right (by omega)]
    simp
  exact absurd hbyte (by decide)

end Hearth.Loader
