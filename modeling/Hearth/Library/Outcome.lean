import Mathlib.Logic.Basic
import Mathlib.Data.List.Forall2

/-!
# Sequenced computations that may raise

A `do` block in `Except` that returns has run every one of its steps.  These lemmas
peel a block apart from the outside in, one step at a time, so that no proof unfolds
the monad.
-/

namespace Hearth.Library

universe u v

variable {ε : Type u} {α β : Type v}

/-- A sequence that returns has returned from its first step. -/
theorem bind_eq_ok {x : Except ε α} {f : α → Except ε β} {b : β} :
    (x >>= f) = .ok b ↔ ∃ a, x = .ok a ∧ f a = .ok b := by
  cases x with
  | error e =>
      constructor
      · intro h
        cases h
      · rintro ⟨a, ha, -⟩
        cases ha
  | ok a =>
      constructor
      · intro h
        exact ⟨a, rfl, h⟩
      · rintro ⟨a', ha, h⟩
        cases ha
        exact h

/-- A mapped result is returned where the result is. -/
theorem map_eq_ok {x : Except ε α} {f : α → β} {b : β} :
    x.map f = .ok b ↔ ∃ a, x = .ok a ∧ f a = b := by
  cases x with
  | error e =>
      constructor
      · intro h
        cases h
      · rintro ⟨a, ha, -⟩
        cases ha
  | ok a =>
      constructor
      · intro h
        cases h
        exact ⟨a, rfl, rfl⟩
      · rintro ⟨a', ha, rfl⟩
        cases ha
        rfl

/-- A guard that raises, in front of the rest of the block. -/
theorem guard_eq_ok {p : Prop} [Decidable p] {e : ε} {f : α → Except ε β} {rest : Except ε β}
    {b : β} : (if p then throw e >>= f else rest) = .ok b ↔ ¬ p ∧ rest = .ok b := by
  by_cases h : p
  · rw [if_pos h]
    constructor
    · intro hthrow
      cases hthrow
    · intro hok
      exact absurd h hok.1
  · rw [if_neg h]
    constructor
    · intro hok
      exact ⟨h, hok⟩
    · intro hok
      exact hok.2

/-- A returned value is the value returned. -/
theorem pure_eq_ok {a b : α} : (pure a : Except ε α) = .ok b ↔ a = b := by
  constructor
  · intro h
    cases h
    rfl
  · intro h
    rw [h]
    rfl

/-- A sequence that raises has raised in its first step or behind it. -/
theorem bind_eq_error {x : Except ε α} {f : α → Except ε β} {e : ε} :
    (x >>= f) = .error e ↔ x = .error e ∨ ∃ a, x = .ok a ∧ f a = .error e := by
  cases x with
  | error e' =>
      constructor
      · intro h
        cases h
        exact .inl rfl
      · rintro (h | ⟨a, ha, -⟩)
        · cases h
          rfl
        · cases ha
  | ok a =>
      constructor
      · intro h
        exact .inr ⟨a, rfl, h⟩
      · rintro (h | ⟨a', ha, h⟩)
        · cases h
        · cases ha
          exact h

/-- A guard raises, or the rest of the block does. -/
theorem guard_eq_error {p : Prop} [Decidable p] {e e' : ε} {f : α → Except ε β} {rest : Except ε β} :
    (if p then throw e >>= f else rest) = .error e' ↔ p ∧ e = e' ∨ ¬ p ∧ rest = .error e' := by
  by_cases h : p
  · rw [if_pos h]
    constructor
    · intro hthrow
      cases hthrow
      exact .inl ⟨h, rfl⟩
    · rintro (⟨-, rfl⟩ | ⟨hnot, -⟩)
      · rfl
      · exact absurd h hnot
  · rw [if_neg h]
    constructor
    · intro hraise
      exact .inr ⟨h, hraise⟩
    · rintro (⟨hp, -⟩ | ⟨-, hraise⟩)
      · exact absurd hp h
      · exact hraise

/-- What was raised, if anything was. -/
def raised : Except ε α → Option ε
  | .error e => some e
  | .ok _ => none

/-! ## Lists of computations -/

/-- A list of computations that returns has returned from each of them, in order. -/
theorem mapM_eq_ok {f : α → Except ε β} {l : List α} {m : List β} :
    l.mapM f = .ok m ↔ List.Forall₂ (fun a b => f a = .ok b) l m := by
  induction l generalizing m with
  | nil =>
      simp only [List.mapM_nil, List.forall₂_nil_left_iff]
      exact pure_eq_ok.trans eq_comm
  | cons a l ih =>
      simp only [List.mapM_cons, bind_eq_ok, pure_eq_ok, ih, List.forall₂_cons_left_iff]
      constructor
      · rintro ⟨b, hb, rest, hrest, rfl⟩
        exact ⟨b, rest, hb, hrest, rfl⟩
      · rintro ⟨b, rest, hb, hrest, rfl⟩
        exact ⟨b, hb, rest, hrest, rfl⟩

/-- A list of computations that raises has raised in one of them. -/
theorem mapM_eq_error {f : α → Except ε β} {l : List α} {e : ε} (h : l.mapM f = .error e) :
    ∃ a ∈ l, f a = .error e := by
  induction l with
  | nil =>
      rw [List.mapM_nil] at h
      cases h
  | cons a l ih =>
      simp only [List.mapM_cons, bind_eq_error] at h
      rcases h with h | ⟨b, -, h | ⟨rest, -, h⟩⟩
      · exact ⟨a, List.mem_cons_self, h⟩
      · obtain ⟨a', ha', h⟩ := ih h
        exact ⟨a', List.mem_cons_of_mem _ ha', h⟩
      · cases h

/-- A list of checks that returns has passed each of them. -/
theorem forM_eq_ok {f : α → Except ε PUnit} {l : List α} {result : PUnit} (h : l.forM f = .ok result) :
    ∀ a ∈ l, f a = .ok result := by
  induction l with
  | nil => exact fun a ha => (List.not_mem_nil ha).elim
  | cons a l ih =>
      have hsteps : (f a >>= fun _ => l.forM f) = .ok result := h
      obtain ⟨_, ha, hrest⟩ := bind_eq_ok.mp hsteps
      exact List.forall_mem_cons.mpr ⟨ha, ih hrest⟩

/-- A list of checks that all pass returns. -/
theorem forM_ok {f : α → Except ε PUnit} {l : List α} (h : ∀ a ∈ l, f a = .ok ⟨⟩) : l.forM f = .ok ⟨⟩ := by
  induction l with
  | nil => rfl
  | cons a l ih =>
      show (f a >>= fun _ => l.forM f) = .ok ⟨⟩
      rw [h a List.mem_cons_self]
      exact ih fun b hb => h b (List.mem_cons_of_mem _ hb)

/-- A list of checks that raises has raised in one of them. -/
theorem forM_eq_error {f : α → Except ε PUnit} {l : List α} {e : ε} (h : l.forM f = .error e) :
    ∃ a ∈ l, f a = .error e := by
  induction l with
  | nil => cases h
  | cons a l ih =>
      have hsteps : (f a >>= fun _ => l.forM f) = .error e := h
      rcases bind_eq_error.mp hsteps with h | ⟨-, -, h⟩
      · exact ⟨a, List.mem_cons_self, h⟩
      · obtain ⟨a', ha', h⟩ := ih h
        exact ⟨a', List.mem_cons_of_mem _ ha', h⟩

/-! ## Both outcomes -/

/-- What returns is good, and what is raised is for a cause. -/
structure Settles (x : Except ε α) (good : α → Prop) (cause : ε → Prop) : Prop where
  ok : ∀ a, x = .ok a → good a
  error : ∀ e, x = .error e → cause e

theorem Settles.pure {a : α} {good : α → Prop} {cause : ε → Prop} (h : good a) :
    Settles (.ok a) good cause := by
  refine ⟨fun a' ha' => ?_, fun e he => ?_⟩
  · cases ha'
    exact h
  · cases he

theorem Settles.throw {e : ε} {good : α → Prop} {cause : ε → Prop} (h : cause e) :
    Settles (.error e) good cause := by
  refine ⟨fun a ha => ?_, fun e' he' => ?_⟩
  · cases ha
  · cases he'
    exact h

theorem Settles.imp {x : Except ε α} {good good' : α → Prop} {cause : ε → Prop} (h : Settles x good cause)
    (himp : ∀ a, good a → good' a) : Settles x good' cause :=
  ⟨fun a ha => himp a (h.ok a ha), h.error⟩

/-- A sequence settles as its second step does, wherever the first one returns. -/
theorem Settles.bind {x : Except ε α} {f : α → Except ε β} {good : α → Prop} {good' : β → Prop} {cause : ε → Prop}
    (h : Settles x good cause) (hf : ∀ a, x = .ok a → good a → Settles (f a) good' cause) :
    Settles (x >>= f) good' cause := by
  constructor
  · intro b hb
    obtain ⟨a, ha, hfa⟩ := bind_eq_ok.mp hb
    exact (hf a ha (h.ok a ha)).ok b hfa
  · intro e he
    rcases bind_eq_error.mp he with hx | ⟨a, ha, hfa⟩
    · exact h.error e hx
    · exact (hf a ha (h.ok a ha)).error e hfa

end Hearth.Library
