import Mathlib.Data.List.Basic
import Mathlib.Data.List.TakeWhile

/-!
# Bounded lookahead

A reader that consumes a piece of its input may also have looked at what follows the piece.  Two
inputs that agree up to some stopper look alike to it, if its lookahead does not go past the
stopper: the longest runs `takeWhile` finds, and what `dropWhile` leaves, are then the same up to
the stopper.
-/

namespace Hearth.Library

universe u

variable {α : Type u}

/-- The two inputs agree up to some `stop`. -/
def AgreeTo (stop : α) (first second : List α) : Prop :=
  ∃ shared tail tail', first = shared ++ stop :: tail ∧ second = shared ++ stop :: tail'

/-- Behind a piece that has the stopper, the inputs may differ. -/
theorem agreeTo_of_mem {stop : α} {piece : List α} (h : stop ∈ piece) (tail tail' : List α) :
    AgreeTo stop (piece ++ tail) (piece ++ tail') := by
  obtain ⟨shared, rest, rfl⟩ := List.append_of_mem h
  exact ⟨shared, rest ++ tail, rest ++ tail', by simp, by simp⟩

variable {stop : α} {first second : List α}

theorem AgreeTo.symm (h : AgreeTo stop first second) : AgreeTo stop second first := by
  obtain ⟨shared, tail, tail', hfirst, hsecond⟩ := h
  exact ⟨shared, tail', tail, hsecond, hfirst⟩

theorem AgreeTo.prepend (h : AgreeTo stop first second) (piece : List α) :
    AgreeTo stop (piece ++ first) (piece ++ second) := by
  obtain ⟨shared, tail, tail', rfl, rfl⟩ := h
  exact ⟨piece ++ shared, tail, tail', by simp, by simp⟩

theorem AgreeTo.head?_eq (h : AgreeTo stop first second) : first.head? = second.head? := by
  obtain ⟨shared, tail, tail', rfl, rfl⟩ := h
  cases shared <;> rfl

/-- Behind a head that is not the stopper the inputs still agree. -/
theorem AgreeTo.tail {head : α} {rest : List α} (h : AgreeTo stop (head :: rest) second)
    (hne : head ≠ stop) : ∃ rest', second = head :: rest' ∧ AgreeTo stop rest rest' := by
  obtain ⟨shared, tail, tail', hfirst, rfl⟩ := h
  cases shared with
  | nil =>
      cases hfirst
      exact absurd rfl hne
  | cons _ shared =>
      cases hfirst
      exact ⟨_, rfl, shared, tail, tail', rfl, rfl⟩

section

variable {p : α → Bool}

theorem AgreeTo.takeWhile_eq (h : AgreeTo stop first second) (hstop : p stop = false) :
    first.takeWhile p = second.takeWhile p := by
  obtain ⟨shared, tail, tail', rfl, rfl⟩ := h
  induction shared with
  | nil => simp [hstop]
  | cons head shared ih => simp only [List.cons_append, List.takeWhile_cons, ih]

theorem AgreeTo.dropWhile (h : AgreeTo stop first second) (hstop : p stop = false) :
    AgreeTo stop (first.dropWhile p) (second.dropWhile p) := by
  obtain ⟨shared, tail, tail', rfl, rfl⟩ := h
  induction shared with
  | nil => exact ⟨[], tail, tail', by simp [hstop], by simp [hstop]⟩
  | cons head shared ih =>
      simp only [List.cons_append, List.dropWhile_cons]
      split
      · exact ih
      · exact ⟨head :: shared, tail, tail', rfl, rfl⟩

/-- The first few elements are the same, if none of those on one side is the stopper, and what is behind
them agrees as well. -/
theorem AgreeTo.take_drop (h : AgreeTo stop first second) {count : ℕ} (hstop : stop ∉ first.take count) :
    first.take count = second.take count ∧ AgreeTo stop (first.drop count) (second.drop count) := by
  obtain ⟨shared, tail, tail', rfl, rfl⟩ := h
  have hle : count ≤ shared.length := by
    by_contra hlt
    exact hstop (List.mem_take_iff_getElem.mpr ⟨shared.length, by simp; omega, by simp⟩)
  constructor
  · rw [List.take_append_of_le_length hle, List.take_append_of_le_length hle]
  · exact ⟨shared.drop count, tail, tail', List.drop_append_of_le_length hle,
      List.drop_append_of_le_length hle⟩

theorem AgreeTo.take_eq (h : AgreeTo stop first second) {count : ℕ} (hstop : stop ∉ first.take count) :
    first.take count = second.take count :=
  (h.take_drop hstop).1

end

/-- Whether the inputs begin with a pattern without the stopper is the same. -/
theorem AgreeTo.isPrefixOf_eq [DecidableEq α] {pattern : List α} (h : AgreeTo stop first second)
    (hstop : stop ∉ pattern) : pattern.isPrefixOf first = pattern.isPrefixOf second := by
  rw [Bool.eq_iff_iff, List.isPrefixOf_iff_prefix, List.isPrefixOf_iff_prefix,
    List.prefix_iff_eq_take, List.prefix_iff_eq_take]
  constructor
  · intro heq
    exact heq.trans (h.take_eq (heq ▸ hstop))
  · intro heq
    exact heq.trans (h.symm.take_eq (heq ▸ hstop))

/-! ## Pieces -/

/-- Of two ways to begin an input the shorter is the beginning of the longer. -/
theorem append_split {piece after body rest : List α} (h : piece ++ after = body ++ rest)
    (hle : piece.length ≤ body.length) : ∃ middle, body = piece ++ middle ∧ after = middle ++ rest := by
  rcases List.append_eq_append_iff.mp h with ⟨middle, hbody, hafter⟩ | ⟨middle, hpiece, hrest⟩
  · exact ⟨middle, hbody, hafter⟩
  · have hnil : middle = [] := by
      rw [hpiece, List.length_append] at hle
      exact List.length_eq_zero_iff.mp (by omega)
    subst hnil
    exact ⟨[], by simpa using hpiece.symm, by simpa using hrest.symm⟩

/-- A short pattern is looked for in the piece only. -/
theorem isPrefixOf_append_eq [DecidableEq α] {pattern piece : List α}
    (hle : pattern.length ≤ piece.length) (tail tail' : List α) :
    pattern.isPrefixOf (piece ++ tail) = pattern.isPrefixOf (piece ++ tail') := by
  rw [Bool.eq_iff_iff, List.isPrefixOf_iff_prefix, List.isPrefixOf_iff_prefix,
    List.prefix_iff_eq_take, List.prefix_iff_eq_take, List.take_append_of_le_length hle,
    List.take_append_of_le_length hle]

/-! ## Longest runs -/

/-- A longest run is read again in front of any input that agrees with what followed it. -/
theorem takeWhile_append_of_agree {p : α → Bool} {input tail : List α}
    (h : AgreeTo stop (input.dropWhile p) tail) (hstop : p stop = false) :
    (input.takeWhile p ++ tail).takeWhile p = input.takeWhile p := by
  have hwhole := h.prepend (input.takeWhile p)
  rw [List.takeWhile_append_dropWhile] at hwhole
  exact (hwhole.takeWhile_eq hstop).symm

theorem drop_takeWhile_length (p : α → Bool) (input : List α) :
    input.drop (input.takeWhile p).length = input.dropWhile p := by
  induction input with
  | nil => rfl
  | cons head input ih =>
      rw [List.takeWhile_cons, List.dropWhile_cons]
      split
      · exact ih
      · rfl

/-- What follows a longest run is left again. -/
theorem dropWhile_append_of_agree {p : α → Bool} {input tail : List α}
    (h : AgreeTo stop (input.dropWhile p) tail) (hstop : p stop = false) :
    (input.takeWhile p ++ tail).dropWhile p = tail := by
  rw [← drop_takeWhile_length, takeWhile_append_of_agree h hstop]
  exact List.drop_left

/-! ## The same input, or one that differs behind the stopper -/

/-- The inputs are the same, or agree up to some `stop`. -/
def SameUpTo (stop : α) (first second : List α) : Prop :=
  first = second ∨ AgreeTo stop first second

theorem SameUpTo.prepend (h : SameUpTo stop first second) (piece : List α) :
    SameUpTo stop (piece ++ first) (piece ++ second) :=
  h.imp (congrArg (piece ++ ·)) fun hagree => hagree.prepend piece

theorem SameUpTo.head?_eq (h : SameUpTo stop first second) : first.head? = second.head? :=
  h.elim (congrArg List.head?) AgreeTo.head?_eq

section

variable {p : α → Bool}

theorem SameUpTo.takeWhile_eq (h : SameUpTo stop first second) (hstop : p stop = false) :
    first.takeWhile p = second.takeWhile p :=
  h.elim (congrArg (List.takeWhile p)) fun hagree => hagree.takeWhile_eq hstop

theorem SameUpTo.dropWhile (h : SameUpTo stop first second) (hstop : p stop = false) :
    SameUpTo stop (first.dropWhile p) (second.dropWhile p) :=
  h.imp (congrArg (List.dropWhile p)) fun hagree => hagree.dropWhile hstop

theorem SameUpTo.drop (h : SameUpTo stop first second) {count : ℕ} (hstop : stop ∉ first.take count) :
    SameUpTo stop (first.drop count) (second.drop count) :=
  h.imp (congrArg (List.drop count)) fun hagree => (hagree.take_drop hstop).2

/-- A longest run is read again in front of any input that is the same up to the stopper. -/
theorem SameUpTo.takeWhile_append {input tail : List α} (h : SameUpTo stop (input.dropWhile p) tail)
    (hstop : p stop = false) : (input.takeWhile p ++ tail).takeWhile p = input.takeWhile p := by
  rcases h with rfl | hagree
  · rw [List.takeWhile_append_dropWhile]
  · exact takeWhile_append_of_agree hagree hstop

end

theorem SameUpTo.isPrefixOf_eq [DecidableEq α] {pattern : List α} (h : SameUpTo stop first second)
    (hstop : stop ∉ pattern) : pattern.isPrefixOf first = pattern.isPrefixOf second :=
  h.elim (congrArg pattern.isPrefixOf) fun hagree => hagree.isPrefixOf_eq hstop

end Hearth.Library
