import Mathlib.Data.List.Basic
import Mathlib.Data.List.Perm.Basic
import Mathlib.Data.List.Sort

/-!
# Matches of a pattern

A pattern is a function that reads a match at the beginning of an input, knowing the element in front of it, and returns
what it has read and what is left.  `findIter` reads an input from left to right and goes on behind each match; it finds
the matches at all places, if none of them begins inside another.
-/

namespace Hearth.Library

universe u v

variable {α : Type u} {β : Type v}

/-- What reads a match, behind an element. -/
abbrev Pattern (α : Type u) (β : Type v) : Type (max u v) :=
  Option α → List α → Option (β × List α)

/-- `pattern.finditer`: each match with its start and what is behind it; `skip` elements belong to the last match. -/
def findIter (pattern : Pattern α β) : ℕ → Option α → ℕ → List α → List (ℕ × β × List α)
  | _, _, _, [] => []
  | skip + 1, _, start, head :: rest => findIter pattern skip (some head) (start + 1) rest
  | 0, previous, start, head :: rest =>
      match pattern previous (head :: rest) with
      | none => findIter pattern 0 (some head) (start + 1) rest
      | some (found, after) =>
          (start, found, after) :: findIter pattern (rest.length - after.length) (some head) (start + 1) rest

/-- The match at a place of an input. -/
def Pattern.at (pattern : Pattern α β) (previous : Option α) (input : List α) (place : ℕ) : Option (β × List α) :=
  if place < input.length then pattern ((input.take place).getLast?.or previous) (input.drop place) else none

/-- No match begins inside another. -/
def Pattern.Apart (pattern : Pattern α β) : Prop :=
  ∀ previous previous' front rest found after, front ≠ [] → pattern previous (front ++ rest) = some (found, after) →
    after.length < rest.length → pattern previous' rest = none

theorem Pattern.at_zero (pattern : Pattern α β) (previous : Option α) (head : α) (rest : List α) :
    pattern.at previous (head :: rest) 0 = pattern previous (head :: rest) :=
  if_pos (Nat.succ_pos _)

theorem Pattern.at_succ (pattern : Pattern α β) (previous : Option α) (head : α) (rest : List α) (place : ℕ) :
    pattern.at previous (head :: rest) (place + 1) = pattern.at (some head) rest place := by
  unfold Pattern.at
  simp only [List.length_cons, Nat.add_lt_add_iff_right, List.take_succ_cons, List.drop_succ_cons]
  congr 2
  rw [List.getLast?_cons]
  cases (rest.take place).getLast? <;> rfl

variable {pattern : Pattern α β}

/-- The matches that are found begin behind what is skipped. -/
theorem start_le_of_mem_findIter {skip start : ℕ} {previous : Option α} {input : List α}
    {item : ℕ × β × List α} (h : item ∈ findIter pattern skip previous start input) : start + skip ≤ item.1 := by
  induction input generalizing skip previous start with
  | nil => nomatch h
  | cons head rest ih =>
      cases skip with
      | succ skip =>
          have hle := ih h
          omega
      | zero =>
          rw [findIter] at h
          split at h
          · have hle := ih h
            omega
          · rcases List.mem_cons.mp h with rfl | h
            · exact Nat.le_refl _
            · have hle := ih h
              omega

/-- The matches are found from left to right. -/
theorem findIter_pairwise (pattern : Pattern α β) (skip start : ℕ) (previous : Option α) (input : List α) :
    (findIter pattern skip previous start input).Pairwise fun first second => first.1 < second.1 := by
  induction input generalizing skip previous start with
  | nil => exact .nil
  | cons head rest ih =>
      cases skip with
      | succ skip => exact ih skip (start + 1) (some head)
      | zero =>
          rw [findIter]
          split
          · exact ih 0 (start + 1) (some head)
          · refine List.pairwise_cons.mpr ⟨fun item hitem => ?_, ih _ _ _⟩
            have hle := start_le_of_mem_findIter hitem
            omega

/-- Behind the skipped places, which have no match, every match is found. -/
theorem mem_findIter_iff (hapart : pattern.Apart) {skip start : ℕ} {previous : Option α} {input : List α}
    (hskip : ∀ place < skip, pattern.at previous input place = none) {item : ℕ × β × List α} :
    item ∈ findIter pattern skip previous start input ↔
      ∃ place, item.1 = start + place ∧ pattern.at previous input place = some item.2 := by
  induction input generalizing skip previous start with
  | nil =>
      constructor
      · nofun
      · rintro ⟨place, -, hmatch⟩
        nomatch hmatch
  | cons head rest ih =>
      -- Of the places of the input the first is this one.
      have hplaces : (∃ place, item.1 = start + place ∧ pattern.at previous (head :: rest) place = some item.2) ↔
          (item.1 = start ∧ pattern previous (head :: rest) = some item.2) ∨
            ∃ place, item.1 = start + 1 + place ∧ pattern.at (some head) rest place = some item.2 := by
        constructor
        · rintro ⟨_ | place, hstart, hmatch⟩
          · exact .inl ⟨hstart, (pattern.at_zero previous head rest).symm.trans hmatch⟩
          · exact .inr ⟨place, by omega, (pattern.at_succ previous head rest place).symm.trans hmatch⟩
        · rintro (⟨hstart, hmatch⟩ | ⟨place, hstart, hmatch⟩)
          · exact ⟨0, hstart, (pattern.at_zero previous head rest).trans hmatch⟩
          · exact ⟨place + 1, by omega, (pattern.at_succ previous head rest place).trans hmatch⟩
      rw [hplaces]
      cases skip with
      | succ skip =>
          have hhere : pattern previous (head :: rest) = none :=
            (pattern.at_zero previous head rest).symm.trans (hskip 0 (Nat.succ_pos _))
          have hlater : ∀ place < skip, pattern.at (some head) rest place = none := fun place hlt =>
            (pattern.at_succ previous head rest place).symm.trans (hskip (place + 1) (Nat.succ_lt_succ hlt))
          rw [findIter, ih hlater, hhere]
          simp
      | zero =>
          rw [findIter]
          split
          · rename_i hnone
            rw [ih (fun place hlt => absurd hlt (Nat.not_lt_zero _)), hnone]
            simp
          · rename_i found after hfound
            have hinside : ∀ place < rest.length - after.length, pattern.at (some head) rest place = none := by
              intro place hlt
              have hdrop : head :: rest = (head :: rest.take place) ++ rest.drop place := by simp
              rw [hdrop] at hfound
              rw [Pattern.at, if_pos (by omega)]
              refine hapart _ _ _ _ _ _ (List.cons_ne_nil _ _) hfound ?_
              rw [List.length_drop]
              omega
            rw [List.mem_cons, ih hinside, hfound]
            refine or_congr_left ?_
            constructor
            · rintro rfl
              exact ⟨rfl, rfl⟩
            · rintro ⟨hstart, hmatch⟩
              exact Prod.ext hstart (Option.some.inj hmatch).symm

/-! ## Lists in order -/

/-- Two lists with the same items in a strict order are the same. -/
theorem eq_of_pairwise_of_mem_iff {order : α → α → Prop} (hirrefl : ∀ item, ¬ order item item)
    (hasymm : ∀ first second, order first second → ¬ order second first) {first second : List α}
    (hfirst : first.Pairwise order) (hsecond : second.Pairwise order) (h : ∀ item, item ∈ first ↔ item ∈ second) :
    first = second := by
  have hne : ∀ {one other : α}, order one other → one ≠ other := by
    rintro one _ horder rfl
    exact hirrefl one horder
  have hnodup : ∀ {items : List α}, items.Pairwise order → items.Nodup := fun hpairs => hpairs.imp hne
  have hperm : first.Perm second := (List.perm_ext_iff_of_nodup (hnodup hfirst) (hnodup hsecond)).mpr h
  exact hperm.eq_of_pairwise (fun one other _ _ horder horder' => absurd horder' (hasymm one other horder)) hfirst hsecond

end Hearth.Library
