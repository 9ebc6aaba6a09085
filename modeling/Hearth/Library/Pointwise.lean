import Mathlib.Data.List.Forall2
import Mathlib.Data.List.Nodup

/-!
# Lists changed in place

An operation that walks over a list of records and changes some of them relates
the old list to the new one position by position, which `List.Forall₂` says.
When every changed record only loses what a partial observation `f` reads from
it, the observations of the new list are a sublist of the old ones; so whatever
sublists inherit (`Nodup`, length bounds) is inherited.
-/

namespace Hearth.Library

variable {α β γ : Type*}

/-- A position-wise relation holds between a list and its image. -/
theorem forall₂_map_self {r : α → β → Prop} {f : α → β} {l : List α}
    (h : ∀ a ∈ l, r a (f a)) : List.Forall₂ r l (l.map f) :=
  List.forall₂_map_right_iff.mpr (List.forall₂_same.mpr h)

/-- Position-wise relations compose. -/
theorem forall₂_trans {r : α → β → Prop} {s : β → γ → Prop} {t : α → γ → Prop}
    (h : ∀ a b c, r a b → s b c → t a c) {l : List α} {m : List β} {n : List γ}
    (hr : List.Forall₂ r l m) (hs : List.Forall₂ s m n) : List.Forall₂ t l n := by
  induction hr generalizing n with
  | nil => cases hs; exact .nil
  | cons hab _ ih =>
      cases hs with
      | cons hbc hrest => exact .cons (h _ _ _ hab hbc) (ih hrest)

/-- Every record of the old list has its counterpart in the new one. -/
theorem exists_mem_of_forall₂ {r : α → β → Prop} {l : List α} {m : List β}
    (h : List.Forall₂ r l m) {a : α} (ha : a ∈ l) : ∃ b ∈ m, r a b := by
  induction h with
  | nil => simp at ha
  | cons hab _ ih =>
      rcases List.mem_cons.mp ha with rfl | ha
      · exact ⟨_, List.mem_cons_self .., hab⟩
      · obtain ⟨b, hb, hr⟩ := ih ha
        exact ⟨b, List.mem_cons_of_mem _ hb, hr⟩

/-- Every record of the new list has its origin in the old one. -/
theorem exists_mem_of_forall₂' {r : α → β → Prop} {l : List α} {m : List β}
    (h : List.Forall₂ r l m) {b : β} (hb : b ∈ m) : ∃ a ∈ l, r a b := by
  induction h with
  | nil => simp at hb
  | cons hab _ ih =>
      rcases List.mem_cons.mp hb with rfl | hb
      · exact ⟨_, List.mem_cons_self .., hab⟩
      · obtain ⟨a, ha, hr⟩ := ih hb
        exact ⟨a, List.mem_cons_of_mem _ ha, hr⟩

/-- Where records only lose their observation, the observations form a sublist. -/
theorem filterMap_sublist_of_forall₂ {r : α → α → Prop} {f : α → Option γ}
    (hf : ∀ a b, r a b → f b = none ∨ f b = f a) {l m : List α} (h : List.Forall₂ r l m) :
    (m.filterMap f).Sublist (l.filterMap f) := by
  induction h with
  | nil => exact List.Sublist.refl _
  | @cons a b l m hab _ ih =>
      rcases hf a b hab with hb | hb
      · rw [List.filterMap_cons_none hb]
        cases ha : f a with
        | none => rwa [List.filterMap_cons_none ha]
        | some c =>
            rw [List.filterMap_cons_some ha]
            exact ih.cons c
      · cases ha : f a with
        | none => rwa [List.filterMap_cons_none ha, List.filterMap_cons_none (hb.trans ha)]
        | some c =>
            rw [List.filterMap_cons_some ha, List.filterMap_cons_some (hb.trans ha)]
            exact ih.cons_cons c

/-- The records at one position are related. -/
theorem rel_of_getElem? {r : α → β → Prop} {l : List α} {m : List β} (h : List.Forall₂ r l m) {index : ℕ} {a : α} {b : β}
    (ha : l[index]? = some a) (hb : m[index]? = some b) : r a b := by
  obtain ⟨hl, rfl⟩ := List.getElem?_eq_some_iff.mp ha
  obtain ⟨hm, rfl⟩ := List.getElem?_eq_some_iff.mp hb
  exact h.get hl hm

/-- A total observation that no record changes is unchanged on the list. -/
theorem map_eq_of_forall₂ {r : α → α → Prop} {f : α → γ} (hf : ∀ a b, r a b → f b = f a)
    {l m : List α} (h : List.Forall₂ r l m) : m.map f = l.map f := by
  induction h with
  | nil => rfl
  | cons hab _ ih => rw [List.map_cons, List.map_cons, hf _ _ hab, ih]

/-- Where the observations are distinct, two records with one observation are one
record. -/
theorem eq_of_nodup_filterMap {f : α → Option γ} {l : List α} (h : (l.filterMap f).Nodup)
    {a b : α} (ha : a ∈ l) (hb : b ∈ l) {c : γ} (hfa : f a = some c) (hfb : f b = some c) :
    a = b := by
  induction l with
  | nil => simp at ha
  | cons head rest ih =>
      have hhead : ∀ other ∈ rest, f other = some c → f head ≠ some c := by
        intro other hother hfother hfhead
        rw [List.filterMap_cons_some hfhead, List.nodup_cons] at h
        exact h.1 (List.mem_filterMap.mpr ⟨other, hother, hfother⟩)
      have hrest : (rest.filterMap f).Nodup :=
        h.sublist ((List.sublist_cons_self head rest).filterMap f)
      rcases List.mem_cons.mp ha with ha | ha
      · rcases List.mem_cons.mp hb with hb | hb
        · rw [ha, hb]
        · exact absurd (ha ▸ hfa) (hhead b hb hfb)
      · rcases List.mem_cons.mp hb with hb | hb
        · exact absurd (hb ▸ hfb) (hhead a ha hfa)
        · exact ih hrest ha hb

/-- Two lists with the same keys are related position by position, if any two items with the same key are. -/
theorem forall₂_of_map_eq {key : α → γ} {key' : β → γ} {r : α → β → Prop} {l : List α} {m : List β}
    (hkeys : l.map key = m.map key') (h : ∀ a ∈ l, ∀ b ∈ m, key a = key' b → r a b) : List.Forall₂ r l m := by
  induction l generalizing m with
  | nil =>
      rw [List.map_nil, eq_comm, List.map_eq_nil_iff] at hkeys
      rw [hkeys]
      exact .nil
  | cons a l ih =>
      cases m with
      | nil => nomatch hkeys
      | cons b m =>
          obtain ⟨hkey, hrest⟩ := List.cons.inj hkeys
          refine .cons (h a (.head _) b (.head _) hkey) (ih hrest fun a' ha b' hb => ?_)
          exact h a' (.tail _ ha) b' (.tail _ hb)

end Hearth.Library
