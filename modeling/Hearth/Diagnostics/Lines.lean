import Hearth.Library.Ascii
import Hearth.Replay.Text
import Mathlib.Data.List.DropRight

/-!
# Lines of a transcript

What the prelude prints is interleaved with other output.  `_line_ranges` yields the
lines with their ends, `splitlines` without them; a record that is printed with a line
end on both sides is a line of its own in either, whatever is printed before and after it.
-/

namespace Hearth.Diagnostics

open Hearth.Library

/-- The lines of a transcript with their ends, after the bytes of the open line in reverse
order. -/
def lineRangesFrom (open_ : Bytes) : Bytes → List Bytes
  | [] => if open_ = [] then [] else [open_.reverse]
  | 10 :: rest => (10 :: open_).reverse :: lineRangesFrom [] rest
  | 13 :: 10 :: rest => (10 :: 13 :: open_).reverse :: lineRangesFrom [] rest
  | 13 :: rest => (13 :: open_).reverse :: lineRangesFrom [] rest
  | byte :: rest => lineRangesFrom (byte :: open_) rest

attribute [grind =] lineRangesFrom

/-- `_line_ranges`: the bytes of each range. -/
def lineRanges (transcript : Bytes) : List Bytes :=
  lineRangesFrom [] transcript

/-- Prints in their order, with quiet output before, between and behind them. -/
inductive Interleaved (quiet : Bytes → Prop) : List Bytes → Bytes → Prop
  | last {noise : Bytes} (hquiet : quiet noise) : Interleaved quiet [] noise
  | print {noise print transcript : Bytes} {prints : List Bytes} (hquiet : quiet noise)
      (hrest : Interleaved quiet prints transcript) :
      Interleaved quiet (print :: prints) (noise ++ print ++ transcript)

theorem Interleaved.flatten {quiet : Bytes → Prop} (h : quiet []) (prints : List Bytes) :
    Interleaved quiet prints prints.flatten := by
  induction prints with
  | nil => exact .last h
  | cons print prints ih => exact .print h ih

/-- Bytes without a line end. -/
def OneLine (line : Bytes) : Prop :=
  10 ∉ line ∧ 13 ∉ line

/-! ## Lines with their ends -/

theorem lineRangesFrom_cr (open_ : Bytes) {rest : Bytes} (h : rest.head? ≠ some 10) :
    lineRangesFrom open_ (13 :: rest) = (13 :: open_).reverse :: lineRangesFrom [] rest := by
  rw [lineRangesFrom]
  rintro after rfl
  exact h rfl

theorem lineRangesFrom_byte (open_ : Bytes) {byte : UInt8} (hlf : byte ≠ 10) (hcr : byte ≠ 13)
    (rest : Bytes) :
    lineRangesFrom open_ (byte :: rest) = lineRangesFrom (byte :: open_) rest := by
  rw [lineRangesFrom]
  · exact hlf
  · rintro after rfl
    exact fun _ => hcr rfl
  · exact hcr

/-- A line feed ends a line, whatever is before it. -/
theorem lineRangesFrom_append_lf (open_ before after : Bytes) :
    lineRangesFrom open_ (before ++ 10 :: after) =
      lineRangesFrom open_ (before ++ [10]) ++ lineRanges after := by
  fun_induction lineRangesFrom open_ before with
  | case1 | case2 => rfl
  | case3 open_ rest ih | case4 open_ rest ih =>
      show _ :: lineRangesFrom [] (rest ++ 10 :: after) = _ :: lineRangesFrom [] (rest ++ [10]) ++ _
      rw [ih]
      rfl
  | case5 open_ rest hrest ih =>
      -- a carriage return takes the line feed that is appended, if nothing is between them
      cases rest with
      | nil => rfl
      | cons byte rest =>
          have hcut : ∀ more, lineRangesFrom open_ (13 :: byte :: more) =
              (13 :: open_).reverse :: lineRangesFrom [] (byte :: more) := by
            intro more
            apply lineRangesFrom_cr
            intro heq
            cases heq
            exact hrest rest rfl
          show lineRangesFrom open_ (13 :: byte :: (rest ++ 10 :: after)) =
            lineRangesFrom open_ (13 :: byte :: (rest ++ [10])) ++ _
          rw [hcut, hcut]
          show _ :: lineRangesFrom [] (byte :: rest ++ 10 :: after) = _
          rw [ih]
          rfl
  | case6 open_ byte rest hlf hcrlf hcr ih =>
      show lineRangesFrom open_ (byte :: (rest ++ 10 :: after)) =
        lineRangesFrom open_ (byte :: (rest ++ [10])) ++ _
      rw [lineRangesFrom_byte open_ hlf hcr, lineRangesFrom_byte open_ hlf hcr]
      exact ih

/-- A carriage return ends a line that no line feed follows. -/
theorem lineRangesFrom_append_cr (open_ before : Bytes) {after : Bytes}
    (h : after.head? ≠ some 10) :
    lineRangesFrom open_ (before ++ 13 :: after) =
      lineRangesFrom open_ (before ++ [13]) ++ lineRanges after := by
  fun_induction lineRangesFrom open_ before with
  | case1 | case2 =>
      show lineRangesFrom _ (13 :: after) = _
      rw [lineRangesFrom_cr _ h]
      rfl
  | case3 open_ rest ih | case4 open_ rest ih =>
      show _ :: lineRangesFrom [] (rest ++ 13 :: after) = _ :: lineRangesFrom [] (rest ++ [13]) ++ _
      rw [ih]
      rfl
  | case5 open_ rest hrest ih =>
      have hcut : ∀ more, lineRangesFrom open_ (13 :: (rest ++ 13 :: more)) =
          (13 :: open_).reverse :: lineRangesFrom [] (rest ++ 13 :: more) := by
        intro more
        apply lineRangesFrom_cr
        cases rest with
        | nil => exact fun heq => by cases heq
        | cons byte rest =>
            intro heq
            cases heq
            exact hrest rest rfl
      show lineRangesFrom open_ (13 :: (rest ++ 13 :: after)) =
        lineRangesFrom open_ (13 :: (rest ++ [13])) ++ _
      rw [hcut, hcut, ih]
      rfl
  | case6 open_ byte rest hlf hcrlf hcr ih =>
      show lineRangesFrom open_ (byte :: (rest ++ 13 :: after)) =
        lineRangesFrom open_ (byte :: (rest ++ [13])) ++ _
      rw [lineRangesFrom_byte open_ hlf hcr, lineRangesFrom_byte open_ hlf hcr]
      exact ih

/-- A line feed that is appended ends the last line or is a line of its own. -/
theorem mem_lineRangesFrom_append_lf {open_ raw line : Bytes}
    (h : line ∈ lineRangesFrom open_ (raw ++ [10])) :
    line ∈ lineRangesFrom open_ raw ∨
      ∃ last, (last ∈ lineRangesFrom open_ raw ∨ last = []) ∧ line = last ++ [10] := by
  fun_induction lineRangesFrom open_ raw with
  | case1 =>
      rcases List.mem_singleton.mp h with rfl
      exact .inr ⟨[], .inr rfl, rfl⟩
  | case2 open_ hopen =>
      rcases List.mem_singleton.mp h with rfl
      exact .inr ⟨open_.reverse, .inl (.head _), List.reverse_cons⟩
  | case3 open_ rest ih | case4 open_ rest ih =>
      rcases List.mem_cons.mp h with rfl | h
      · exact .inl (.head _)
      rcases ih h with hmem | ⟨last, hlast, rfl⟩
      · exact .inl (.tail _ hmem)
      · exact .inr ⟨last, hlast.imp_left (.tail _), rfl⟩
  | case5 open_ rest hrest ih =>
      cases rest with
      | nil =>
          rcases List.mem_singleton.mp h with rfl
          exact .inr ⟨(13 :: open_).reverse, .inl (.head _), List.reverse_cons⟩
      | cons byte rest =>
          have hne : (byte :: rest ++ [10]).head? ≠ some 10 := by
            intro heq
            cases heq
            exact hrest rest rfl
          have hcut := lineRangesFrom_cr open_ hne
          replace h : line ∈ lineRangesFrom open_ (13 :: (byte :: rest ++ [10])) := h
          rw [hcut] at h
          rcases List.mem_cons.mp h with rfl | h
          · exact .inl (.head _)
          rcases ih h with hmem | ⟨last, hlast, rfl⟩
          · exact .inl (.tail _ hmem)
          · exact .inr ⟨last, hlast.imp_left (.tail _), rfl⟩
  | case6 open_ byte rest hlf hcrlf hcr ih =>
      replace h : line ∈ lineRangesFrom open_ (byte :: (rest ++ [10])) := h
      rw [lineRangesFrom_byte open_ hlf hcr] at h
      exact ih h

theorem lineRangesFrom_oneLine (open_ : Bytes) {line : Bytes} (h : OneLine line) :
    lineRangesFrom open_ (line ++ [10]) = [open_.reverse ++ line ++ [10]] := by
  induction line generalizing open_ with
  | nil =>
      show [(10 :: open_).reverse] = _
      rw [List.reverse_cons, List.append_nil]
  | cons byte line ih =>
      have hlf : byte ≠ 10 := fun heq => h.1 (heq ▸ .head _)
      have hcr : byte ≠ 13 := fun heq => h.2 (heq ▸ .head _)
      have hline : OneLine line := ⟨fun hmem => h.1 (.tail _ hmem), fun hmem => h.2 (.tail _ hmem)⟩
      show lineRangesFrom open_ (byte :: (line ++ [10])) = _
      rw [lineRangesFrom_byte open_ hlf hcr, ih _ hline]
      simp

theorem lineRanges_append_lf (before after : Bytes) :
    lineRanges (before ++ 10 :: after) = lineRanges (before ++ [10]) ++ lineRanges after :=
  lineRangesFrom_append_lf [] before after

/-- A printed line is a line of the transcript. -/
theorem lineRanges_oneLine {line : Bytes} (h : OneLine line) (after : Bytes) :
    lineRanges (line ++ 10 :: after) = (line ++ [10]) :: lineRanges after := by
  rw [lineRanges_append_lf]
  unfold lineRanges
  rw [lineRangesFrom_oneLine [] h]
  rfl

/-- A print with a line end on both sides is a line behind those of the output before it. -/
theorem lineRanges_print (noise : Bytes) {line : Bytes} (h : OneLine line) (after : Bytes) :
    lineRanges (noise ++ 10 :: (line ++ [10]) ++ after) =
      lineRanges (noise ++ [10]) ++ (line ++ [10]) :: lineRanges after := by
  calc lineRanges (noise ++ 10 :: (line ++ [10]) ++ after)
      = lineRanges (noise ++ 10 :: (line ++ 10 :: after)) := by simp
    _ = lineRanges (noise ++ [10]) ++ lineRanges (line ++ 10 :: after) := lineRanges_append_lf _ _
    _ = lineRanges (noise ++ [10]) ++ (line ++ [10]) :: lineRanges after := by
        rw [lineRanges_oneLine h]

/-- Numbered lines that each leave a state are passed by. -/
theorem foldlM_quiet {State Error : Type} {f : State → Bytes × ℕ → Except Error State} {state : State}
    {lines : List Bytes} (h : ∀ line ∈ lines, ∀ lineno, f state (line, lineno) = .ok state)
    (lineno : ℕ) : (lines.zipIdx lineno).foldlM f state = .ok state := by
  induction lines generalizing lineno with
  | nil => rfl
  | cons line lines ih =>
      have hrest := ih (fun other hmem => h other (.tail _ hmem)) (lineno + 1)
      rw [List.zipIdx_cons, List.foldlM_cons, h line (.head _)]
      exact hrest

/-- The lines of `noise ++ [10]` begin as those of `noise` do. -/
theorem not_prefix_lineRanges {noise marker line : Bytes} (hmarker : marker ≠ []) (hlf : 10 ∉ marker)
    (h : ∀ line ∈ lineRanges noise, ¬ marker <+: line) (hmem : line ∈ lineRanges (noise ++ [10])) :
    ¬ marker <+: line := by
  rcases mem_lineRangesFrom_append_lf hmem with hmem | ⟨last, hlast, rfl⟩
  · exact h line hmem
  · intro hprefix
    have hshort : marker <+: last := by
      rcases List.prefix_concat_iff.mp hprefix with rfl | hshort
      · exact absurd (List.mem_append_right _ (.head _)) hlf
      · exact hshort
    rcases hlast with hlast | rfl
    · exact h last hlast hshort
    · exact hmarker (List.prefix_nil.mp hshort)

/-! ## Lines without their ends -/

def isLineEnd (byte : UInt8) : Bool :=
  byte = 10 || byte = 13

theorem rdropWhile_lineEnd {open_ ends : Bytes} (hopen : ∀ byte ∈ open_, isLineEnd byte = false)
    (hends : ∀ byte ∈ ends, isLineEnd byte = true) :
    (ends ++ open_).reverse.rdropWhile isLineEnd = open_.reverse := by
  have hdrop : open_.dropWhile isLineEnd = open_ := by
    apply List.dropWhile_eq_self_iff.mpr
    intro hne
    rw [hopen _ (List.getElem_mem _)]
    exact Bool.false_ne_true
  unfold List.rdropWhile
  rw [List.reverse_reverse, List.dropWhile_append_of_pos hends, hdrop]

/-- `splitlines` yields the same lines as `_line_ranges`. -/
theorem splitLinesFrom_eq {open_ : Bytes} (hopen : ∀ byte ∈ open_, isLineEnd byte = false)
    (raw : Bytes) :
    splitLinesFrom open_ raw = (lineRangesFrom open_ raw).map (List.rdropWhile isLineEnd) := by
  have hnone : ∀ byte ∈ ([] : Bytes), isLineEnd byte = false := nofun
  fun_induction lineRangesFrom open_ raw with
  | case1 => rfl
  | case2 open_ hne =>
      rw [splitLinesFrom, if_neg hne]
      exact congrArg (· :: []) (@rdropWhile_lineEnd _ [] hopen nofun).symm
  | case3 open_ rest ih =>
      rw [splitLinesFrom, ih hnone, List.map_cons]
      congr 1
      exact (@rdropWhile_lineEnd _ [10] hopen (by simp [isLineEnd])).symm
  | case4 open_ rest ih =>
      rw [splitLinesFrom, ih hnone, List.map_cons]
      congr 1
      exact (@rdropWhile_lineEnd _ [10, 13] hopen (by simp [isLineEnd])).symm
  | case5 open_ rest hrest ih =>
      rw [splitLinesFrom, ih hnone, List.map_cons]
      · congr 1
        exact (@rdropWhile_lineEnd _ [13] hopen (by simp [isLineEnd])).symm
      · exact hrest
  | case6 open_ byte rest hlf hcrlf hcr ih =>
      rw [splitLinesFrom]
      · apply ih
        intro other hmem
        rcases List.mem_cons.mp hmem with rfl | hmem
        · simp only [isLineEnd, Bool.or_eq_false_iff, decide_eq_false_iff_not]
          exact ⟨hlf, hcr⟩
        · exact hopen other hmem
      · exact hlf
      · exact hcrlf
      · exact hcr

theorem splitLines_eq (raw : Bytes) :
    splitLines raw = (lineRanges raw).map (List.rdropWhile isLineEnd) := by
  apply splitLinesFrom_eq
  exact nofun

/-! ## Marked lines -/

/-- Output that ends with its last line. -/
def Complete (noise : Bytes) : Prop :=
  noise = [] ∨ ∃ before last, noise = before ++ [last] ∧ isLineEnd last = true

/-- A line that is printed with a line feed behind it and perhaps one before it. -/
def IsPrint (marker print line : Bytes) : Prop :=
  (print = line ++ [10] ∨ print = 10 :: (line ++ [10])) ∧ OneLine line ∧ marker <+: line

section

variable {marker : Bytes}

/-- Taking the line end off keeps a prefix that has none. -/
theorem prefix_rdropWhile_iff (hmarker : OneLine marker) (line : Bytes) :
    marker <+: line.rdropWhile isLineEnd ↔ marker <+: line := by
  induction line using List.reverseRecOn with
  | nil => rw [List.rdropWhile_nil]
  | append_singleton line last ih =>
      by_cases hlast : isLineEnd last = true
      · rw [List.rdropWhile_concat_pos _ _ _ hlast, ih, List.prefix_concat_iff]
        constructor
        · exact .inr
        · rintro (rfl | hprefix)
          · -- the prefix would have the line end
            have hmem : last ∈ line ++ [last] := List.mem_append_right _ (.head _)
            simp only [isLineEnd, Bool.or_eq_true, decide_eq_true_eq] at hlast
            rcases hlast with rfl | rfl
            · exact absurd hmem hmarker.1
            · exact absurd hmem hmarker.2
          · exact hprefix
      · rw [List.rdropWhile_concat_neg _ _ _ hlast]

theorem filter_splitLines (hmarker : OneLine marker) (raw : Bytes) :
    (splitLines raw).filter (fun line => marker <+: line) =
      ((lineRanges raw).filter fun line => marker <+: line).map (List.rdropWhile isLineEnd) := by
  rw [splitLines_eq, List.filter_map]
  congr 1
  apply List.filter_congr
  intro line _
  exact decide_eq_decide.mpr (prefix_rdropWhile_iff hmarker line)

theorem lineRanges_complete {noise : Bytes} (h : Complete noise) {after : Bytes}
    (hafter : after.head? ≠ some 10) :
    lineRanges (noise ++ after) = lineRanges noise ++ lineRanges after := by
  rcases h with rfl | ⟨before, last, rfl, hlast⟩
  · rfl
  · rw [List.append_assoc, List.singleton_append]
    simp only [isLineEnd, Bool.or_eq_true, decide_eq_true_eq] at hlast
    rcases hlast with rfl | rfl
    · exact lineRangesFrom_append_lf [] before after
    · exact lineRangesFrom_append_cr [] before hafter

/-- The marked lines of a transcript are the lines that were printed. -/
theorem filter_lineRanges_interleaved (hmarker : marker ≠ []) (hline : OneLine marker)
    {quiet : Bytes → Prop}
    (hquiet : ∀ noise, quiet noise → Complete noise ∧ ∀ line ∈ lineRanges noise, ¬ marker <+: line)
    {prints lines : List Bytes} (hprints : List.Forall₂ (IsPrint marker) prints lines)
    {transcript : Bytes} (hlog : Interleaved quiet prints transcript) :
    (lineRanges transcript).filter (fun line => marker <+: line) = lines.map (· ++ [10]) := by
  induction hprints generalizing transcript with
  | nil =>
      cases hlog with
      | last hnoise =>
          apply List.filter_eq_nil_iff.mpr
          intro line hmem hprefix
          exact (hquiet _ hnoise).2 line hmem (of_decide_eq_true hprefix)
  | @cons print line prints lines hprint hrest ih =>
      cases hlog with
      | @print noise _ transcript _ hnoise hlog =>
          obtain ⟨hform, honeLine, hprefix⟩ := hprint
          obtain ⟨hcomplete, hunmarked⟩ := hquiet noise hnoise
          have hmarked : marker <+: line ++ [10] := hprefix.trans (List.prefix_append _ _)
          -- the noise has its own lines, with or without the line feed before the record
          have hsplit : ∃ before, lineRanges (noise ++ print ++ transcript) =
              before ++ (line ++ [10]) :: lineRanges transcript ∧
                before.filter (fun line => marker <+: line) = [] := by
            rcases hform with rfl | rfl
            · refine ⟨lineRanges noise, ?_, ?_⟩
              · have hhead : (line ++ 10 :: transcript).head? ≠ some 10 := by
                  cases line with
                  | nil => exact absurd (List.prefix_nil.mp hprefix) hmarker
                  | cons byte line =>
                      intro heq
                      cases heq
                      exact honeLine.1 (.head _)
                calc lineRanges (noise ++ (line ++ [10]) ++ transcript)
                    = lineRanges (noise ++ (line ++ 10 :: transcript)) := by simp
                  _ = lineRanges noise ++ lineRanges (line ++ 10 :: transcript) :=
                      lineRanges_complete hcomplete hhead
                  _ = lineRanges noise ++ (line ++ [10]) :: lineRanges transcript := by
                      rw [lineRanges_oneLine honeLine]
              · apply List.filter_eq_nil_iff.mpr
                intro other hmem hother
                exact hunmarked other hmem (of_decide_eq_true hother)
            · refine ⟨lineRanges (noise ++ [10]), lineRanges_print noise honeLine transcript, ?_⟩
              apply List.filter_eq_nil_iff.mpr
              intro other hmem hother
              exact not_prefix_lineRanges hmarker hline.1 hunmarked hmem (of_decide_eq_true hother)
          obtain ⟨before, heq, hbefore⟩ := hsplit
          rw [heq, List.filter_append, hbefore, List.filter_cons,
            if_pos (decide_eq_true hmarked), ih hlog]
          rfl

end

end Hearth.Diagnostics
