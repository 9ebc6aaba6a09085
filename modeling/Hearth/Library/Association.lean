import Mathlib.Data.List.Basic
import Mathlib.Data.List.Perm.Basic

/-!
# Association lists

`List.lookup` finds the first row of a key.  Where all rows of a key agree, their order
does not matter, and the value found is the one that any row of the key has.
-/

namespace Hearth.Library

variable {κ ν : Type*} [BEq κ] [LawfulBEq κ]

theorem mem_of_lookup {rows : List (κ × ν)} {key : κ} {value : ν}
    (h : rows.lookup key = some value) : (key, value) ∈ rows := by
  obtain ⟨front, back, hrows, -⟩ := List.lookup_eq_some_iff.mp h
  rw [hrows]
  exact List.mem_append_right _ List.mem_cons_self

theorem lookup_eq_none {rows : List (κ × ν)} {key : κ} :
    rows.lookup key = none ↔ ∀ value, (key, value) ∉ rows := by
  constructor
  · intro h value hmem
    rw [List.lookup_eq_none_iff] at h
    have hne := h _ hmem
    simp at hne
  · intro h
    cases hlookup : rows.lookup key with
    | none => rfl
    | some value => exact absurd (mem_of_lookup hlookup) (h value)

/-- The rows of a key agree on a value that one of them has. -/
theorem lookup_eq_some_of_agree {rows : List (κ × ν)} {key : κ} {value : ν}
    (hmem : (key, value) ∈ rows) (hagree : ∀ other, (key, other) ∈ rows → other = value) :
    rows.lookup key = some value := by
  cases hlookup : rows.lookup key with
  | none => exact absurd hmem (lookup_eq_none.mp hlookup value)
  | some other => rw [hagree other (mem_of_lookup hlookup)]

/-- Rows of other keys do not matter. -/
theorem lookup_filter_ne [DecidableEq κ] {rows : List (κ × ν)} {key removed : κ} (h : key ≠ removed) :
    (rows.filter fun row => row.1 ≠ removed).lookup key = rows.lookup key := by
  induction rows with
  | nil => rfl
  | cons row rows ih =>
      by_cases hrow : row.1 = removed
      · have hbeq : (key == row.1) = false := beq_false_of_ne (hrow ▸ h)
        rw [List.filter_cons_of_neg (by simpa using hrow), ih, List.lookup_cons, hbeq]
      · rw [List.filter_cons_of_pos (by simpa using hrow), List.lookup_cons, List.lookup_cons, ih]

/-! ## What later elements decide -/

section Later

variable {α : Type*} (keep : α → List α → Bool)

/-- The elements that are kept in view of those behind them. -/
def filterLater : List α → List α
  | [] => []
  | first :: later => if keep first later then first :: filterLater later else filterLater later

theorem filterLater_append_not (elements : List α) :
    (filterLater keep elements ++ filterLater (fun first later => !keep first later) elements).Perm elements := by
  induction elements with
  | nil => exact .nil
  | cons first later ih =>
      rw [filterLater, filterLater]
      cases keep first later with
      | true => exact ih.cons first
      | false => exact List.perm_middle.trans (ih.cons first)

theorem mem_of_mem_filterLater {element : α} {elements : List α} (h : element ∈ filterLater keep elements) :
    element ∈ elements :=
  (filterLater_append_not keep elements).mem_iff.mp (List.mem_append_left _ h)

end Later

section Rows

variable {κ ν : Type*} [DecidableEq κ]

/-- `rows[key] = value`. -/
def setRow (key : κ) (value : ν) : List (κ × ν) → List (κ × ν)
  | [] => [(key, value)]
  | row :: rows => if row.1 = key then (key, value) :: rows else row :: setRow key value rows

theorem lookup_setRow (key other : κ) (value : ν) (rows : List (κ × ν)) :
    (setRow key value rows).lookup other = if other = key then some value else rows.lookup other := by
  induction rows with
  | nil =>
      rw [setRow, List.lookup_cons, List.lookup_nil]
      by_cases h : other = key
      · rw [if_pos h, h, beq_self_eq_true]
      · rw [if_neg h, beq_false_of_ne h]
  | cons row rows ih =>
      rw [setRow]
      by_cases hrow : row.1 = key
      · rw [if_pos hrow, List.lookup_cons, List.lookup_cons, hrow]
        by_cases h : other = key
        · rw [if_pos h, h, beq_self_eq_true]
        · rw [if_neg h, beq_false_of_ne h]
      · rw [if_neg hrow, List.lookup_cons, List.lookup_cons, ih]
        by_cases h : other = row.1
        · have hkey : other ≠ key := h ▸ hrow
          simp [h, hrow]
        · have hbeq : (other == row.1) = false := beq_false_of_ne h
          rw [hbeq]

variable {α : Type*}

/-- Written one after the other, the rows of a key are the last one. -/
theorem lookup_foldl_setRow (key : α → κ) (value : α → ν) (elements : List α) (rows : List (κ × ν)) (sought : κ) :
    (elements.foldl (fun rows element => setRow (key element) (value element) rows) rows).lookup sought =
      ((elements.reverse.find? fun element => key element = sought).map value).or (rows.lookup sought) := by
  induction elements generalizing rows with
  | nil => rfl
  | cons element elements ih =>
      rw [List.foldl_cons, ih, lookup_setRow, List.reverse_cons, List.find?_append]
      cases elements.reverse.find? fun element => key element = sought with
      | some found => rfl
      | none =>
          by_cases h : sought = key element
          · simp [h]
          · have hne : ¬ key element = sought := fun heq => h heq.symm
            simp [h, hne]

/-- Each element is found under its key exactly when the elements of a key agree. -/
theorem lookup_foldl_setRow_iff (key : α → κ) (value : α → ν) (elements : List α) :
    (∀ element ∈ elements, (elements.foldl (fun rows element => setRow (key element) (value element) rows) []).lookup
        (key element) = some (value element)) ↔
      ∀ first ∈ elements, ∀ second ∈ elements, key first = key second → value first = value second := by
  constructor
  · intro h first hfirst second hsecond hkey
    have hfound := h first hfirst
    rw [hkey, h second hsecond] at hfound
    exact (Option.some.inj hfound).symm
  · intro h element helement
    rw [lookup_foldl_setRow]
    cases hfind : elements.reverse.find? fun other => key other = key element with
    | none =>
        have hnone := List.find?_eq_none.mp hfind element (List.mem_reverse.mpr helement)
        exact absurd (decide_eq_true rfl) hnone
    | some last =>
        have hlast := List.mem_reverse.mp (List.mem_of_find?_eq_some hfind)
        have hkey : key last = key element :=
          of_decide_eq_true (List.find?_some (p := fun other => decide (key other = key element)) hfind)
        simp [h last hlast element helement hkey]

end Rows

end Hearth.Library
