import Hearth.Library.Pointwise
import Mathlib.Data.List.Basic
import Mathlib.Data.List.DropRight
import Mathlib.Data.List.Infix

/-!
# Lines and blanks of a text

`str.splitlines`, `str.isspace` and `str.strip`.  A line ends at any of the line boundaries of Unicode, and a
carriage return takes the line feed behind it.
-/

namespace Hearth.Library.Text

/-- `char.isspace()`. -/
def isSpace (char : Char) : Bool :=
  let code := char.toNat
  (9 ≤ code && code ≤ 13) || (28 ≤ code && code ≤ 32) || (0x2000 ≤ code && code ≤ 0x200A) ||
    [0x85, 0xA0, 0x1680, 0x2028, 0x2029, 0x202F, 0x205F, 0x3000].contains code

/-- The characters at which `str.splitlines` ends a line. -/
def isLineBreak (char : Char) : Bool :=
  let code := char.toNat
  (10 ≤ code && code ≤ 13) || (28 ≤ code && code ≤ 30) || [0x85, 0x2028, 0x2029].contains code

/-- A character in front of the first line. -/
def pushFront (char : Char) : List (List Char) → List (List Char)
  | [] => [[char]]
  | line :: lines => (char :: line) :: lines

/-- `text.splitlines()`. -/
def splitlines : List Char → List (List Char)
  | [] => []
  | '\r' :: '\n' :: rest => [] :: splitlines rest
  | char :: rest => if isLineBreak char then [] :: splitlines rest else pushFront char (splitlines rest)

attribute [grind =] splitlines

/-- `text.lstrip()`. -/
def lstrip (text : List Char) : List Char :=
  text.dropWhile isSpace

/-- `text.strip()`. -/
def strip (text : List Char) : List Char :=
  (lstrip text).rdropWhile isSpace

/-! ## Lines -/

theorem pushFront_append (char : Char) {lines : List (List Char)} (h : lines ≠ []) (more : List (List Char)) :
    pushFront char (lines ++ more) = pushFront char lines ++ more := by
  obtain ⟨line, lines, rfl⟩ := List.exists_cons_of_ne_nil h
  rfl

theorem pushFront_ne_nil (char : Char) (lines : List (List Char)) : pushFront char lines ≠ [] := by
  cases lines <;> exact List.cons_ne_nil _ _

theorem splitlines_cons {char : Char} {rest : List Char} (h : ¬ (char = '\r' ∧ rest.head? = some '\n')) :
    splitlines (char :: rest) =
      if isLineBreak char then [] :: splitlines rest else pushFront char (splitlines rest) := by
  rw [splitlines]
  rintro after rfl rfl
  exact h ⟨rfl, rfl⟩

theorem splitlines_char {char : Char} (h : isLineBreak char = false) (rest : List Char) :
    splitlines (char :: rest) = pushFront char (splitlines rest) := by
  rw [splitlines_cons, h]
  · rfl
  · rintro ⟨rfl, -⟩
    cases h

theorem splitlines_ne_nil {text : List Char} (h : text ≠ []) : splitlines text ≠ [] := by
  fun_cases splitlines text with
  | case1 => exact absurd rfl h
  | case2 rest => exact List.cons_ne_nil _ _
  | case3 char rest hcrlf hbreak => exact List.cons_ne_nil _ _
  | case4 char rest hcrlf hbreak => exact pushFront_ne_nil _ _

/-- What follows does not make a line boundary of two characters. -/
theorem not_crlf_append {char : Char} {after : List Char}
    (hcrlf : ∀ rest, char = '\r' → after = '\n' :: rest → False) (hne : ¬ (char = '\r' ∧ after = []))
    (more : List Char) : ¬ (char = '\r' ∧ (after ++ more).head? = some '\n') := by
  rintro ⟨rfl, hhead⟩
  cases after with
  | nil => exact hne ⟨rfl, rfl⟩
  | cons next after =>
      cases hhead
      exact hcrlf after rfl rfl

/-- A line feed ends a line, whatever is in front of it. -/
theorem splitlines_append_lf (text rest : List Char) :
    splitlines (text ++ '\n' :: rest) = splitlines (text ++ ['\n']) ++ splitlines rest := by
  fun_induction splitlines text with
  | case1 => rfl
  | case2 after ih =>
      show [] :: splitlines (after ++ '\n' :: rest) = _
      rw [ih]
      rfl
  | case3 char after hcrlf hbreak ih =>
      by_cases hreturn : char = '\r' ∧ after = []
      · obtain ⟨rfl, rfl⟩ := hreturn
        rfl
      · rw [List.cons_append, List.cons_append, splitlines_cons (not_crlf_append hcrlf hreturn _),
          splitlines_cons (not_crlf_append hcrlf hreturn _), if_pos hbreak, if_pos hbreak, ih]
        rfl
  | case4 char after hcrlf hbreak ih =>
      have hreturn : ¬ (char = '\r' ∧ after = []) := by
        rintro ⟨rfl, -⟩
        exact hbreak rfl
      rw [List.cons_append, List.cons_append, splitlines_cons (not_crlf_append hcrlf hreturn _),
        splitlines_cons (not_crlf_append hcrlf hreturn _), if_neg hbreak, if_neg hbreak, ih]
      exact pushFront_append _ (splitlines_ne_nil (by simp)) _

/-- A line feed that is appended ends the last line or is a line of its own. -/
theorem splitlines_append_newline (text : List Char) :
    splitlines (text ++ ['\n']) = splitlines text ∨ splitlines (text ++ ['\n']) = splitlines text ++ [[]] := by
  fun_induction splitlines text with
  | case1 => exact .inr rfl
  | case2 after ih => exact ih.imp (congrArg ([] :: ·)) (congrArg ([] :: ·))
  | case3 char after hcrlf hbreak ih =>
      by_cases hreturn : char = '\r' ∧ after = []
      · obtain ⟨rfl, rfl⟩ := hreturn
        exact .inl rfl
      · rw [List.cons_append, splitlines_cons (not_crlf_append hcrlf hreturn _), if_pos hbreak]
        exact ih.imp (congrArg ([] :: ·)) (congrArg ([] :: ·))
  | case4 char after hcrlf hbreak ih =>
      have hreturn : ¬ (char = '\r' ∧ after = []) := by
        rintro ⟨rfl, -⟩
        exact hbreak rfl
      rw [List.cons_append, splitlines_cons (not_crlf_append hcrlf hreturn _), if_neg hbreak]
      by_cases hnil : after = []
      · subst hnil
        exact .inl rfl
      · refine ih.imp (congrArg (pushFront char)) fun heq => ?_
        rw [heq, pushFront_append _ (splitlines_ne_nil hnil)]

theorem mem_splitlines_append_lf {text line : List Char} (h : line ∈ splitlines (text ++ ['\n'])) :
    line ∈ splitlines text ∨ line = [] := by
  rcases splitlines_append_newline text with heq | heq
  · exact .inl (heq ▸ h)
  · rw [heq] at h
    exact (List.mem_append.mp h).imp_right List.mem_singleton.mp

/-- A line without line boundaries is read whole. -/
theorem splitlines_line {line : List Char} (h : ∀ char ∈ line, isLineBreak char = false) (rest : List Char) :
    splitlines (line ++ '\n' :: rest) = line :: splitlines rest := by
  induction line with
  | nil =>
      rw [List.nil_append, splitlines_cons (by simp)]
      rfl
  | cons char line ih =>
      rw [List.cons_append, splitlines_char (h char List.mem_cons_self),
        ih fun other hmem => h other (List.mem_cons_of_mem _ hmem)]
      rfl

theorem splitlines_last {line : List Char} (h : ∀ char ∈ line, isLineBreak char = false) (hne : line ≠ []) :
    splitlines line = [line] := by
  induction line with
  | nil => exact absurd rfl hne
  | cons char line ih =>
      rw [splitlines_char (h char List.mem_cons_self)]
      cases line with
      | nil => rfl
      | cons next line =>
          rw [ih (fun other hmem => h other (List.mem_cons_of_mem _ hmem)) (List.cons_ne_nil _ _)]
          rfl

/-- The lines of a beginning of a text begin the first lines of the text. -/
theorem splitlines_append (text more : List Char) :
    ∃ front back, splitlines (text ++ more) = front ++ back ∧
      List.Forall₂ (· <+: ·) (splitlines text) front := by
  fun_induction splitlines text with
  | case1 => exact ⟨[], splitlines more, rfl, .nil⟩
  | case2 after ih =>
      obtain ⟨front, back, heq, hfront⟩ := ih
      exact ⟨[] :: front, back, congrArg ([] :: ·) heq, .cons List.nil_prefix hfront⟩
  | case3 char after hcrlf hbreak ih =>
      by_cases hreturn : char = '\r' ∧ after = []
      · obtain ⟨rfl, rfl⟩ := hreturn
        obtain ⟨back, hback⟩ : ∃ back, splitlines ('\r' :: more) = [] :: back := by
          by_cases hends : more.head? = some '\n'
          · rw [← List.cons_head?_tail hends]
            exact ⟨_, rfl⟩
          · rw [splitlines_cons fun h => hends h.2]
            exact ⟨_, rfl⟩
        exact ⟨[[]], back, hback, .cons List.nil_prefix .nil⟩
      · obtain ⟨front, back, heq, hfront⟩ := ih
        rw [List.cons_append, splitlines_cons (not_crlf_append hcrlf hreturn _), if_pos hbreak, heq]
        exact ⟨[] :: front, back, rfl, .cons List.nil_prefix hfront⟩
  | case4 char after hcrlf hbreak ih =>
      have hreturn : ¬ (char = '\r' ∧ after = []) := by
        rintro ⟨rfl, -⟩
        exact hbreak rfl
      obtain ⟨front, back, heq, hfront⟩ := ih
      rw [List.cons_append, splitlines_cons (not_crlf_append hcrlf hreturn _), if_neg hbreak, heq]
      generalize splitlines after = lines at hfront
      cases hfront with
      | nil =>
          cases back with
          | nil => exact ⟨[[char]], [], rfl, .cons (List.prefix_refl _) .nil⟩
          | cons line back => exact ⟨[char :: line], back, rfl, .cons ⟨line, rfl⟩ .nil⟩
      | cons hline hrest => exact ⟨_ :: _, back, rfl, .cons (List.cons_prefix_cons.mpr ⟨rfl, hline⟩) hrest⟩

theorem exists_line_of_prefix {text whole : List Char} (h : text <+: whole) {line : List Char}
    (hline : line ∈ splitlines text) : ∃ other ∈ splitlines whole, line <+: other := by
  obtain ⟨more, rfl⟩ := h
  obtain ⟨front, back, heq, hfront⟩ := splitlines_append text more
  obtain ⟨other, hother, hbegins⟩ := exists_mem_of_forall₂ hfront hline
  exact ⟨other, heq ▸ List.mem_append_left _ hother, hbegins⟩

/-! ## Blanks -/

theorem strip_eq_self {text : List Char} (hfirst : ∀ char ∈ text.head?, isSpace char = false)
    (hlast : ∀ char ∈ text.getLast?, isSpace char = false) : strip text = text := by
  have hlead : lstrip text = text := by
    unfold lstrip
    cases text with
    | nil => rfl
    | cons char text => exact List.dropWhile_cons_of_neg (by simp [hfirst char rfl])
  unfold strip
  rw [hlead, List.rdropWhile_eq_self_iff]
  intro hne hspace
  rw [hlast _ (List.getLast?_eq_some_getLast hne)] at hspace
  cases hspace

theorem prefix_rdropWhile {mark : List Char} (hlast : ∀ char ∈ mark.getLast?, isSpace char = false)
    (rest : List Char) : mark <+: (mark ++ rest).rdropWhile isSpace := by
  induction rest using List.reverseRecOn with
  | nil =>
      have hself : mark.rdropWhile isSpace = mark := by
        rw [List.rdropWhile_eq_self_iff]
        intro hne hspace
        rw [hlast _ (List.getLast?_eq_some_getLast hne)] at hspace
        cases hspace
      rw [List.append_nil, hself]
  | append_singleton rest char ih =>
      rw [← List.append_assoc, List.rdropWhile_concat]
      split
      · exact ih
      · exact List.append_assoc mark rest [char] ▸ List.prefix_append _ _

/-- A mark that does not end in a blank begins the stripped text if it begins the text behind its blanks. -/
theorem prefix_strip_iff {mark text : List Char} (hlast : ∀ char ∈ mark.getLast?, isSpace char = false) :
    mark <+: strip text ↔ mark <+: lstrip text := by
  constructor
  · intro h
    exact h.trans (List.rdropWhile_prefix _ _)
  · rintro ⟨rest, hrest⟩
    unfold strip
    rw [← hrest]
    exact prefix_rdropWhile hlast rest

/-- A longer text has the marks of its beginnings. -/
theorem prefix_strip_of_longer {mark text whole : List Char} (hne : mark ≠ [])
    (hlast : ∀ char ∈ mark.getLast?, isSpace char = false) (hwhole : text <+: whole) (h : mark <+: strip text) :
    mark <+: strip whole := by
  rw [prefix_strip_iff hlast] at h ⊢
  obtain ⟨more, rfl⟩ := hwhole
  have htext : (lstrip text).isEmpty = false := by
    rw [List.isEmpty_eq_false_iff]
    intro hnil
    rw [hnil, List.prefix_nil] at h
    exact hne h
  unfold lstrip at *
  rw [List.dropWhile_append, htext]
  exact h.trans (List.prefix_append _ _)

end Hearth.Library.Text
