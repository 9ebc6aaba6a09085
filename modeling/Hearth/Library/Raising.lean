import Hearth.Library.Outcome

/-!
# Computations that write and may raise

A computation over a state that ends in a result or in an exception.  An exception does not
undo what was written before it, so what a failed run leaves behind is a question of its own:
`Keeps` says that a part of the state is the same afterwards, however the run ends.
-/

namespace Hearth.Library

universe u

/-- A computation over states `σ` that may raise `ε`. -/
def Raising (σ ε α : Type u) : Type u :=
  σ → Except ε α × σ

namespace Raising

variable {σ ε α β γ : Type u}

/-- The result and the last state of a run. -/
def on (m : Raising σ ε α) (s : σ) : Except ε α × σ :=
  m s

instance : Monad (Raising σ ε) where
  pure a := fun s => (.ok a, s)
  bind m f := fun s =>
    match m s with
    | (.ok a, s') => f a s'
    | (.error e, s') => (.error e, s')

/-- `raise`. -/
def raise (e : ε) : Raising σ ε α :=
  fun s => (.error e, s)

/-- A write. -/
def update (f : σ → σ) : Raising σ ε PUnit :=
  fun s => (.ok ⟨⟩, f s)

/-- A computation that writes nothing. -/
def ofExcept (x : Except ε α) : Raising σ ε α :=
  fun s => (x, s)

/-- A check that raises. -/
def check (p : Prop) [Decidable p] (e : ε) : Raising σ ε PUnit :=
  if p then raise e else pure ⟨⟩

/-- `finally`: the last write of a run, however it ends. -/
def ensuring (m : Raising σ ε α) (f : σ → σ) : Raising σ ε α :=
  fun s => ((m s).1, f (m s).2)

@[simp] theorem on_pure (a : α) (s : σ) : (pure a : Raising σ ε α).on s = (.ok a, s) := rfl

@[simp] theorem on_raise (e : ε) (s : σ) : (raise e : Raising σ ε α).on s = (.error e, s) := rfl

@[simp] theorem on_update (f : σ → σ) (s : σ) : (update f : Raising σ ε PUnit).on s = (.ok ⟨⟩, f s) := rfl

@[simp] theorem on_ofExcept (x : Except ε α) (s : σ) : (ofExcept x : Raising σ ε α).on s = (x, s) := rfl

@[simp] theorem on_ensuring (m : Raising σ ε α) (f : σ → σ) (s : σ) :
    (m.ensuring f).on s = ((m.on s).1, f (m.on s).2) := rfl

/-- Behind a step that returned the rest runs in the state it left. -/
theorem on_bind_ok {m : Raising σ ε α} {f : α → Raising σ ε β} {s s' : σ} {a : α}
    (h : m.on s = (.ok a, s')) : (m >>= f).on s = (f a).on s' := by
  show (match m s with
    | (.ok a, s') => f a s'
    | (.error e, s') => (.error e, s')) = f a s'
  rw [show m s = (.ok a, s') from h]

/-- Behind a step that raised nothing runs. -/
theorem on_bind_error {m : Raising σ ε α} {f : α → Raising σ ε β} {s s' : σ} {e : ε}
    (h : m.on s = (.error e, s')) : (m >>= f).on s = (.error e, s') := by
  show (match m s with
    | (.ok a, s') => f a s'
    | (.error e, s') => (.error e, s')) = (.error e, s')
  rw [show m s = (.error e, s') from h]

/-- What follows does not see how its state was reached. -/
theorem bind_on_congr {m m' : Raising σ ε α} {s s' : σ} (h : m.on s = m'.on s')
    (f : α → Raising σ ε β) : (m >>= f).on s = (m' >>= f).on s' := by
  rcases hrun : m'.on s' with ⟨_ | a, t⟩
  · rw [on_bind_error hrun, on_bind_error (h.trans hrun)]
  · rw [on_bind_ok hrun, on_bind_ok (h.trans hrun)]

@[simp] theorem on_pure_bind (a : α) (f : α → Raising σ ε β) (s : σ) :
    ((pure a : Raising σ ε α) >>= f).on s = (f a).on s := rfl

@[simp] theorem on_update_bind (g : σ → σ) (f : PUnit → Raising σ ε β) (s : σ) :
    (update g >>= f).on s = (f ⟨⟩).on (g s) := rfl

/-- A sequence that returns has returned from its first step. -/
theorem bind_on_eq_ok {m : Raising σ ε α} {f : α → Raising σ ε β} {s t : σ} {b : β} :
    (m >>= f).on s = (.ok b, t) ↔ ∃ a s', m.on s = (.ok a, s') ∧ (f a).on s' = (.ok b, t) := by
  constructor
  · intro h
    rcases hm : m.on s with ⟨_ | a, s'⟩
    · rw [on_bind_error hm] at h
      cases h
    · rw [on_bind_ok hm] at h
      exact ⟨a, s', rfl, h⟩
  · rintro ⟨a, s', hm, hf⟩
    rw [on_bind_ok hm]
    exact hf

/-- A check that is passed writes nothing. -/
theorem check_on_eq_ok {p : Prop} [Decidable p] {e : ε} {s t : σ} {u : PUnit} :
    (check p e).on s = (.ok u, t) ↔ ¬ p ∧ s = t := by
  unfold check
  by_cases h : p
  · rw [if_pos h]
    constructor
    · intro hraise
      cases hraise
    · intro hok
      exact absurd h hok.1
  · rw [if_neg h]
    constructor
    · intro hok
      cases hok
      exact ⟨h, rfl⟩
    · rintro ⟨-, rfl⟩
      rfl

theorem check_of_not {p : Prop} [Decidable p] (h : ¬ p) (e : ε) :
    (check p e : Raising σ ε PUnit) = pure ⟨⟩ :=
  if_neg h

theorem check_of {p : Prop} [Decidable p] (h : p) (e : ε) :
    (check p e : Raising σ ε PUnit) = raise e :=
  if_pos h

/-- A check in front of a computation raises, or leaves it everything as it is. -/
theorem check_bind_on (p : Prop) [Decidable p] (e : ε) (f : PUnit → Raising σ ε β) (s : σ) :
    (check p e >>= f).on s = (.error e, s) ∨ (check p e >>= f).on s = (f ⟨⟩).on s := by
  by_cases h : p
  · rw [check_of h]
    exact .inl rfl
  · rw [check_of_not h]
    exact .inr rfl

/-! ## What a run leaves alone -/

/-- However the run ends, this view of the state is what it was. -/
def Keeps (view : σ → γ) (m : Raising σ ε α) : Prop :=
  ∀ s, view (m.on s).2 = view s

section

variable {view : σ → γ}

theorem keeps_pure (a : α) : Keeps view (pure a : Raising σ ε α) := fun _ => rfl

theorem keeps_raise (e : ε) : Keeps view (raise e : Raising σ ε α) := fun _ => rfl

theorem keeps_ofExcept (x : Except ε α) : Keeps view (ofExcept x : Raising σ ε α) := fun _ => rfl

theorem keeps_check (p : Prop) [Decidable p] (e : ε) : Keeps view (check p e : Raising σ ε PUnit) := by
  unfold check
  split
  · exact keeps_raise e
  · exact keeps_pure _

/-- A sequence keeps what its steps keep. -/
theorem Keeps.bind {m : Raising σ ε α} {f : α → Raising σ ε β} (hm : Keeps view m)
    (hf : ∀ a, Keeps view (f a)) : Keeps view (m >>= f) := by
  intro s
  rcases hrun : m.on s with ⟨_ | a, s'⟩
  · calc
      view ((m >>= f).on s).2 = view (m.on s).2 := by rw [on_bind_error hrun, hrun]
      _ = view s := hm s
  · calc
      view ((m >>= f).on s).2 = view ((f a).on s').2 := by rw [on_bind_ok hrun]
      _ = view s' := hf a s'
      _ = view (m.on s).2 := by rw [hrun]
      _ = view s := hm s

end

end Raising

end Hearth.Library
