import Mathlib.Logic.Basic
import Mathlib.Data.List.Basic

/-!
# Labelled runs and their invariants

A transition system is a relation `step : State → Label → State → Prop`.  This
file has the two things every development over such a system needs: finite runs
with the list of labels they take, and the rule that a predicate which holds at
the start and is preserved by `step` holds in every state of every run.

Runs are built at the front (`Run.cons`), which is the direction of recursion
over a list of labels; `Run.append` and `Run.split` give the other direction.
-/

namespace Hearth.Library

variable {State Label : Type*} {step : State → Label → State → Prop}

/-- `Run step s labels t`: from `s`, taking the steps named by `labels` in
order, the system can reach `t`. -/
inductive Run (step : State → Label → State → Prop) : State → List Label → State → Prop
  | nil (s : State) : Run step s [] s
  | cons {s t u : State} {label : Label} {labels : List Label} :
      step s label t → Run step t labels u → Run step s (label :: labels) u

namespace Run

/-- Two runs that meet compose. -/
theorem append {s t u : State} {first second : List Label} (hfirst : Run step s first t)
    (hsecond : Run step t second u) : Run step s (first ++ second) u := by
  induction hfirst with
  | nil => exact hsecond
  | cons hstep _ ih => exact .cons hstep (ih hsecond)

/-- A run over a concatenation passes through an intermediate state. -/
theorem split {s u : State} {first second : List Label} (h : Run step s (first ++ second) u) :
    ∃ t, Run step s first t ∧ Run step t second u := by
  induction first generalizing s with
  | nil => exact ⟨s, .nil s, h⟩
  | cons label first ih =>
      cases h with
      | cons hstep hrest =>
          obtain ⟨t, hfirst, hsecond⟩ := ih hrest
          exact ⟨t, .cons hstep hfirst, hsecond⟩

/-- A run of steps that are all steps of another system is one of its runs. -/
theorem mono {other : State → Label → State → Prop} (hother : ∀ s label t, step s label t → other s label t)
    {s t : State} {labels : List Label} (hrun : Run step s labels t) : Run other s labels t := by
  induction hrun with
  | nil s => exact .nil s
  | cons hstep _ ih => exact .cons (hother _ _ _ hstep) ih

/-- **The run rule.**  What one step preserves, a run preserves. -/
theorem preserves {Inv : State → Prop}
    (hstep : ∀ s label t, Inv s → step s label t → Inv t) {s t : State} {labels : List Label}
    (hrun : Run step s labels t) (h : Inv s) : Inv t := by
  induction hrun with
  | nil => exact h
  | cons hone _ ih => exact ih (hstep _ _ _ h hone)

/-- The run rule for a step that only has to preserve `Inv` where a second
invariant already holds. -/
theorem preserves_of {Base Inv : State → Prop}
    (hbase : ∀ s label t, Base s → step s label t → Base t)
    (hstep : ∀ s label t, Base s → Inv s → step s label t → Inv t)
    {s t : State} {labels : List Label} (hrun : Run step s labels t) (hb : Base s) (h : Inv s) :
    Inv t := by
  have hboth : ∀ s label t, Base s ∧ Inv s → step s label t → Base t ∧ Inv t :=
    fun s label t hs hone => ⟨hbase s label t hs.1 hone, hstep s label t hs.1 hs.2 hone⟩
  have both : Base t ∧ Inv t := hrun.preserves hboth ⟨hb, h⟩
  exact both.2

end Run

end Hearth.Library
