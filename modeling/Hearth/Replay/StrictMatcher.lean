import Hearth.Library.HolTerm
import Mathlib.Data.Nat.Digits.Defs

/-!
# The strict matcher

The functions that the lines of `_strict_matcher_source` define.  The prover's own functions are the parameter
`TermKernel`, and `KernelLaws` is what is used of them: the matcher accepts two terms exactly when they are
alpha-equivalent up to an injective renaming of type variables.
-/

namespace Hearth.Replay

open Hearth.Library

/-! ## The generated functions -/

/-- The functions of the prover; `none` is a `Failure`. -/
structure TermKernel where
  typeVarsInTerm : HolTerm → List HolType
  inst : List (HolType × HolType) → HolTerm → Option HolTerm
  aconv : HolTerm → HolTerm → Bool

/-- The type variable number `n` of the probe. -/
def probeTypeName (n : ℕ) : String :=
  "hol_workbench_probe_ty_" ++ toString n

/-- `number_typevars`. -/
def numberTypevars : ℕ → List HolType → List (HolType × HolType)
  | _, [] => []
  | n, type :: rest => (.tyvar (probeTypeName n), type) :: numberTypevars (n + 1) rest

/-- `hol_workbench_probe_canonicalize`. -/
def canonicalize (kernel : TermKernel) (term : HolTerm) : Option HolTerm :=
  kernel.inst (numberTypevars 0 (kernel.typeVarsInTerm term)) term

/-- `hol_workbench_probe_matches`. -/
def probeMatches (kernel : TermKernel) (a b : HolTerm) : Bool :=
  kernel.aconv a b ||
    match canonicalize kernel a, canonicalize kernel b with
    | some a', some b' => kernel.aconv a' b'
    | _, _ => false

/-! ## The prover -/

/-- What an instantiation puts in place of a type variable. -/
def instAssign (pairs : List (HolType × HolType)) (name : String) : HolType :=
  ((pairs.find? fun pair => pair.2 = .tyvar name).map Prod.fst).getD (.tyvar name)

/-- `type_vars_in_term` lists each type variable once, in an order that only depends on the structure of the term;
`inst` is simultaneous and avoids capture; `aconv` is alpha-equivalence. -/
structure KernelLaws (kernel : TermKernel) : Prop where
  nodup : ∀ term, (kernel.typeVarsInTerm term).Nodup
  complete : ∀ term type, type ∈ kernel.typeVarsInTerm term ↔ ∃ name ∈ term.typeVars, type = .tyvar name
  structural : ∀ (a b : HolTerm) (f : String → String), Set.InjOn f {v | v ∈ a.typeVars} →
    HolTerm.AlphaEq (a.rename f) b → kernel.typeVarsInTerm b = (kernel.typeVarsInTerm a).map (HolType.rename f)
  instantiates : ∀ pairs term, (∀ pair ∈ pairs, ∃ name, pair.2 = HolType.tyvar name) →
    ∃ result, kernel.inst pairs term = some result ∧
      result.nameless = term.nameless.mapTypes (HolType.subst (instAssign pairs))
  aconv_iff : ∀ a b, kernel.aconv a b = true ↔ HolTerm.AlphaEq a b

theorem probeTypeName_injective : Function.Injective probeTypeName := by
  intro one other h
  have hrepr : one.repr = other.repr := (String.append_right_inj _).mp h
  have hdigits : Nat.toDigits 10 one = Nat.toDigits 10 other := by
    rw [← Nat.toList_repr, hrepr, Nat.toList_repr]
  calc one = Nat.ofDigitChars 10 (Nat.toDigits 10 one) 0 := Nat.ofDigitChars_ten_toDigits.symm
    _ = Nat.ofDigitChars 10 (Nat.toDigits 10 other) 0 := by rw [hdigits]
    _ = other := Nat.ofDigitChars_ten_toDigits

/-- A listed variable is replaced by the name of its position. -/
theorem instAssign_numberTypevars {name : String} {types : List HolType} (n : ℕ) (h : HolType.tyvar name ∈ types) :
    instAssign (numberTypevars n types) name = .tyvar (probeTypeName (n + types.idxOf (.tyvar name))) := by
  induction types generalizing n with
  | nil => nomatch h
  | cons type types ih =>
      by_cases heq : type = .tyvar name
      · subst heq
        simp [instAssign, numberTypevars]
      · have hmem : HolType.tyvar name ∈ types := (List.mem_cons.mp h).resolve_left fun hhead => heq hhead.symm
        have hrest := ih (n + 1) hmem
        unfold instAssign at hrest ⊢
        rw [numberTypevars, List.find?_cons_of_neg (by simpa using heq), hrest, List.idxOf_cons_ne _ heq,
          Nat.succ_add_eq_add_succ]

/-- The position of an element whose image no other element has. -/
theorem idxOf_map {f : HolType → HolType} {types : List HolType} {type : HolType}
    (h : ∀ other ∈ types, f other = f type → other = type) : (types.map f).idxOf (f type) = types.idxOf type := by
  induction types with
  | nil => rfl
  | cons head types ih =>
      have hrest := ih fun other hmem => h other (.tail _ hmem)
      rw [List.map_cons]
      by_cases heq : head = type
      · rw [heq, List.idxOf_cons_self, List.idxOf_cons_self]
      · rw [List.idxOf_cons_ne _ fun hf => heq (h head (.head _) hf), List.idxOf_cons_ne _ heq, hrest]

theorem mem_numberTypevars {n : ℕ} {types : List HolType} {pair : HolType × HolType}
    (h : pair ∈ numberTypevars n types) : pair.2 ∈ types := by
  induction types generalizing n with
  | nil => nomatch h
  | cons type types ih =>
      rcases List.mem_cons.mp h with rfl | hmem
      · exact .head _
      · exact .tail _ (ih hmem)

section

variable {kernel : TermKernel} (laws : KernelLaws kernel)

/-- The name that replaces a type variable of the term. -/
def canonicalName (kernel : TermKernel) (term : HolTerm) (name : String) : String :=
  probeTypeName ((kernel.typeVarsInTerm term).idxOf (.tyvar name))

include laws

theorem KernelLaws.mem_listed {term : HolTerm} {name : String} (h : name ∈ term.typeVars) :
    HolType.tyvar name ∈ kernel.typeVarsInTerm term :=
  (laws.complete term _).mpr ⟨name, h, rfl⟩

/-- Different type variables have different positions. -/
theorem KernelLaws.canonicalName_injOn (term : HolTerm) :
    Set.InjOn (canonicalName kernel term) {v | v ∈ term.typeVars} := by
  intro one hone other hother h
  have hindex := probeTypeName_injective h
  have htypes := (List.idxOf_inj (laws.mem_listed hone)).mp hindex
  exact HolType.tyvar.inj htypes

/-- The canonical form of a term is the term with each type variable renamed to the name of its position. -/
theorem KernelLaws.canonicalize_spec (term : HolTerm) : ∃ result, canonicalize kernel term = some result ∧
    result.nameless = term.nameless.mapTypes (HolType.rename (canonicalName kernel term)) := by
  have hpairs : ∀ pair ∈ numberTypevars 0 (kernel.typeVarsInTerm term), ∃ name, pair.2 = HolType.tyvar name := by
    intro pair hpair
    obtain ⟨name, -, htype⟩ := (laws.complete term pair.2).mp (mem_numberTypevars hpair)
    exact ⟨name, htype⟩
  obtain ⟨result, hresult, hnameless⟩ := laws.instantiates _ term hpairs
  refine ⟨result, hresult, hnameless.trans (Nameless.mapTypes_congr fun type hsub => ?_)⟩
  apply HolType.subst_congr
  intro name hname
  have hlisted := laws.mem_listed (HolTerm.mem_typeVars_nameless.mp (hsub name hname))
  rw [instAssign_numberTypevars 0 hlisted, Nat.zero_add]
  rfl

/-- The matcher compares the terms, and then their canonical forms. -/
theorem KernelLaws.probeMatches_eq_true (a b : HolTerm) : probeMatches kernel a b = true ↔
    HolTerm.AlphaEq a b ∨ a.nameless.mapTypes (HolType.rename (canonicalName kernel a)) =
      b.nameless.mapTypes (HolType.rename (canonicalName kernel b)) := by
  obtain ⟨a', ha, hnamelessa⟩ := laws.canonicalize_spec a
  obtain ⟨b', hb, hnamelessb⟩ := laws.canonicalize_spec b
  unfold probeMatches
  rw [ha, hb, Bool.or_eq_true, laws.aconv_iff, laws.aconv_iff, ← hnamelessa, ← hnamelessb]
  rfl

omit laws in
/-- A renaming that makes the terms alpha-equivalent acts on their nameless forms. -/
theorem alphaEq_rename_iff {a b : HolTerm} {f : String → String} (hinj : Set.InjOn f {v | v ∈ a.typeVars}) :
    HolTerm.AlphaEq (a.rename f) b ↔ a.nameless.mapTypes (HolType.rename f) = b.nameless := by
  unfold HolTerm.AlphaEq
  rw [HolTerm.nameless_rename hinj]

omit laws in
/-- The type variables of the second term are the renamed ones of the first. -/
theorem bijOn_of_alphaEq {a b : HolTerm} {f : String → String} (hinj : Set.InjOn f {v | v ∈ a.typeVars})
    (h : HolTerm.AlphaEq (a.rename f) b) : Set.BijOn f {v | v ∈ a.typeVars} {v | v ∈ b.typeVars} := by
  rw [alphaEq_rename_iff hinj] at h
  have hvars : ∀ w, w ∈ b.typeVars ↔ ∃ v ∈ a.typeVars, f v = w := by
    intro w
    rw [← HolTerm.mem_typeVars_nameless, ← h, Nameless.typeVars_rename, List.mem_map]
    simp only [HolTerm.mem_typeVars_nameless]
  refine ⟨fun v hv => (hvars (f v)).mpr ⟨v, hv, rfl⟩, hinj, fun w hw => ?_⟩
  obtain ⟨v, hv, hfv⟩ := (hvars w).mp hw
  exact ⟨v, hv, hfv⟩

/-- Equal canonical forms come from a renaming: a type variable of the first term goes to the one of the second that has
the same position. -/
theorem KernelLaws.exists_renaming {a b : HolTerm}
    (h : a.nameless.mapTypes (HolType.rename (canonicalName kernel a)) =
      b.nameless.mapTypes (HolType.rename (canonicalName kernel b))) :
    ∃ f : String → String, Set.InjOn f {v | v ∈ a.typeVars} ∧ HolTerm.AlphaEq (a.rename f) b := by
  have hvars := congrArg Nameless.typeVars h
  rw [Nameless.typeVars_rename, Nameless.typeVars_rename] at hvars
  have hpartner : ∀ v, ∃ w, v ∈ a.typeVars → w ∈ b.typeVars ∧ canonicalName kernel b w = canonicalName kernel a v := by
    intro v
    by_cases hv : v ∈ a.typeVars
    · have hmem := List.mem_map_of_mem (f := canonicalName kernel a) (HolTerm.mem_typeVars_nameless.mpr hv)
      rw [hvars] at hmem
      obtain ⟨w, hw, hname⟩ := List.mem_map.mp hmem
      exact ⟨w, fun _ => ⟨HolTerm.mem_typeVars_nameless.mp hw, hname⟩⟩
    · exact ⟨v, fun hv' => absurd hv' hv⟩
  choose f hf using hpartner
  have hinj : Set.InjOn f {v | v ∈ a.typeVars} := by
    intro one hone other hother heq
    apply laws.canonicalName_injOn a hone hother
    rw [← (hf one hone).2, heq, (hf other hother).2]
  refine ⟨f, hinj, (alphaEq_rename_iff hinj).mpr ?_⟩
  -- Both sides have the same canonical form, which tells the type variables of the second term apart.
  apply Nameless.rename_inj (f := canonicalName kernel b)
  · intro v hv w hw
    rw [Nameless.typeVars_rename] at hv
    obtain ⟨u, hu, rfl⟩ := List.mem_map.mp hv
    exact laws.canonicalName_injOn b (hf u (HolTerm.mem_typeVars_nameless.mp hu)).1 (HolTerm.mem_typeVars_nameless.mp hw)
  · rw [Nameless.rename_rename, ← h]
    exact Nameless.rename_congr fun v hv => (hf v (HolTerm.mem_typeVars_nameless.mp hv)).2

/-- A renaming keeps the positions. -/
theorem KernelLaws.canonicalName_rename {a b : HolTerm} {f : String → String} (hinj : Set.InjOn f {v | v ∈ a.typeVars})
    (h : HolTerm.AlphaEq (a.rename f) b) {v : String} (hv : v ∈ a.typeVars) :
    canonicalName kernel b (f v) = canonicalName kernel a v := by
  have hdistinct : ∀ type ∈ kernel.typeVarsInTerm a, HolType.rename f type = .tyvar (f v) → type = .tyvar v := by
    intro type htype heq
    obtain ⟨w, hw, rfl⟩ := (laws.complete a type).mp htype
    rw [hinj hw hv (HolType.tyvar.inj heq)]
  have hindex := @idxOf_map (HolType.rename f) (kernel.typeVarsInTerm a) (.tyvar v) hdistinct
  unfold canonicalName
  rw [laws.structural a b f hinj h]
  exact congrArg probeTypeName hindex

/-- **The matcher is exact.** -/
theorem KernelLaws.probeMatches_iff (a b : HolTerm) : probeMatches kernel a b = true ↔
    ∃ f : String → String, Set.InjOn f {v | v ∈ a.typeVars} ∧ HolTerm.AlphaEq (a.rename f) b := by
  rw [laws.probeMatches_eq_true]
  constructor
  · rintro (halpha | hcanonical)
    · refine ⟨id, Set.injOn_id _, ?_⟩
      rwa [HolTerm.rename_id]
    · exact laws.exists_renaming hcanonical
  · rintro ⟨f, hinj, h⟩
    right
    have hforms := (alphaEq_rename_iff hinj).mp h
    rw [← hforms, Nameless.rename_rename]
    exact Nameless.rename_congr fun v hv =>
      (laws.canonicalName_rename hinj h (HolTerm.mem_typeVars_nameless.mp hv)).symm

theorem KernelLaws.probeMatches_symm {a b : HolTerm} (h : probeMatches kernel a b = true) :
    probeMatches kernel b a = true := by
  rw [laws.probeMatches_eq_true] at h ⊢
  exact h.imp Eq.symm Eq.symm

theorem KernelLaws.probeMatches_trans {a b c : HolTerm} (hab : probeMatches kernel a b = true)
    (hbc : probeMatches kernel b c = true) : probeMatches kernel a c = true := by
  rw [laws.probeMatches_iff] at hab hbc ⊢
  obtain ⟨f, hf, hab⟩ := hab
  obtain ⟨g, hg, hbc⟩ := hbc
  have hbij := bijOn_of_alphaEq hf hab
  have hinj : Set.InjOn (fun v => g (f v)) {v | v ∈ a.typeVars} := hg.comp hf hbij.mapsTo
  refine ⟨fun v => g (f v), hinj, (alphaEq_rename_iff hinj).mpr ?_⟩
  rw [alphaEq_rename_iff hf] at hab
  rw [alphaEq_rename_iff hg] at hbc
  rw [← hbc, ← hab, Nameless.rename_rename]

/-- **The strict matcher matches up to alpha-equivalence and the names of type variables.** -/
theorem strict_matcher_exact : (∀ a b, probeMatches kernel a b = true ↔
      ∃ f : String → String, Set.InjOn f {v | v ∈ a.typeVars} ∧ HolTerm.AlphaEq (a.rename f) b) ∧
    (∀ a b, probeMatches kernel a b = true → ∃ f : String → String,
      Set.BijOn f {v | v ∈ a.typeVars} {v | v ∈ b.typeVars} ∧ HolTerm.AlphaEq (a.rename f) b) ∧
    (∀ a b, probeMatches kernel a b = true → probeMatches kernel b a = true) ∧
    ∀ a b c, probeMatches kernel a b = true → probeMatches kernel b c = true → probeMatches kernel a c = true := by
  refine ⟨laws.probeMatches_iff, fun a b h => ?_, fun _ _ => laws.probeMatches_symm, fun _ _ _ => laws.probeMatches_trans⟩
  obtain ⟨f, hinj, halpha⟩ := (laws.probeMatches_iff a b).mp h
  exact ⟨f, bijOn_of_alphaEq hinj halpha, halpha⟩

end

/-- A prover made of the functions on terms. -/
def plainKernel : TermKernel where
  typeVarsInTerm := HolTerm.typeVarsInTerm
  inst := fun pairs term => some (term.instTypes (instAssign pairs))
  aconv := fun a b => decide (HolTerm.AlphaEq a b)

theorem plainKernel_laws : KernelLaws plainKernel where
  nodup := HolTerm.nodup_typeVarsInTerm
  complete := fun _ _ => HolTerm.mem_typeVarsInTerm
  structural := fun _ _ _ hinj h => HolTerm.typeVarsInTerm_rename hinj h
  instantiates := fun pairs term _ => ⟨_, rfl, HolTerm.nameless_instTypes (instAssign pairs) term⟩
  aconv_iff := fun _ _ => decide_eq_true_iff

/-- A term whose type variables are those of the probe, in the other order. -/
def probeNamedTerm : HolTerm :=
  .abs "x" (.tyvar (probeTypeName 1)) (.comb (.var "f" (.tyvar (probeTypeName 0))) (.var "x" (.tyvar (probeTypeName 1))))

/-- The same term with other names. -/
def otherNamedTerm : HolTerm :=
  .abs "y" (.tyvar "A") (.comb (.var "f" (.tyvar "B")) (.var "y" (.tyvar "A")))

theorem swapped_names_match : probeMatches plainKernel probeNamedTerm otherNamedTerm = true ∧
    ∃ f : String → String, HolTerm.AlphaEq (probeNamedTerm.rename f) otherNamedTerm := by
  have hmatches : probeMatches plainKernel probeNamedTerm otherNamedTerm = true := by
    decide +kernel
  obtain ⟨f, -, halpha⟩ := ((strict_matcher_exact plainKernel_laws).1 _ _).mp hmatches
  exact ⟨hmatches, f, halpha⟩

end Hearth.Replay
