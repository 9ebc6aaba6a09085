import Mathlib.Data.List.Nodup
import Mathlib.Data.Set.Function

/-!
# Terms of higher-order logic

Simply typed terms with named variables, where a variable is its name and its type.  Two terms are alpha-equivalent
when they have the same nameless form, in which a bound variable is the number of binders between it and its own; the
instantiation of type variables is defined on nameless forms, where nothing can be captured.
-/

namespace Hearth.Library

/-! ## Types -/

/-- A type: a variable, or an operator applied to types. -/
inductive HolType
  | tyvar (name : String)
  | tyapp (op : String) (args : List HolType)
  deriving Repr, Inhabited

mutual

/-- Equality of types. -/
def HolType.decEq : (one other : HolType) → Decidable (one = other)
  | .tyvar name, .tyvar name' => decidable_of_iff (name = name') (HolType.tyvar.injEq name name').to_iff.symm
  | .tyapp op args, .tyapp op' args' =>
      haveI := HolType.decEqAll args args'
      decidable_of_iff (op = op' ∧ args = args') (HolType.tyapp.injEq op args op' args').to_iff.symm
  | .tyvar _, .tyapp _ _ => .isFalse nofun
  | .tyapp _ _, .tyvar _ => .isFalse nofun

/-- Equality of lists of types. -/
def HolType.decEqAll : (one other : List HolType) → Decidable (one = other)
  | [], [] => .isTrue rfl
  | type :: types, type' :: types' =>
      haveI := HolType.decEq type type'
      haveI := HolType.decEqAll types types'
      decidable_of_iff (type = type' ∧ types = types') (List.cons.injEq type types type' types').to_iff.symm
  | [], _ :: _ => .isFalse nofun
  | _ :: _, [] => .isFalse nofun

end

instance : DecidableEq HolType := HolType.decEq

mutual

/-- The type with its variables replaced, all at once. -/
def HolType.subst (assign : String → HolType) : HolType → HolType
  | .tyvar name => assign name
  | .tyapp op args => .tyapp op (HolType.substAll assign args)

/-- The same for the arguments of an operator. -/
def HolType.substAll (assign : String → HolType) : List HolType → List HolType
  | [] => []
  | type :: types => HolType.subst assign type :: HolType.substAll assign types

end

mutual

/-- The variables of a type, from left to right. -/
def HolType.typeVars : HolType → List String
  | .tyvar name => [name]
  | .tyapp _ args => HolType.typeVarsAll args

/-- The same for the arguments of an operator. -/
def HolType.typeVarsAll : List HolType → List String
  | [] => []
  | type :: types => HolType.typeVars type ++ HolType.typeVarsAll types

end

/-- The type with its variables renamed. -/
def HolType.rename (f : String → String) : HolType → HolType :=
  HolType.subst fun name => .tyvar (f name)

namespace HolType

mutual

/-- Substitution looks at the variables of the type only. -/
theorem subst_congr {assign assign' : String → HolType} :
    (type : HolType) → (∀ name ∈ type.typeVars, assign name = assign' name) → type.subst assign = type.subst assign'
  | .tyvar name, h => h name (.head _)
  | .tyapp op args, h => congrArg (tyapp op) (substAll_congr args h)

theorem substAll_congr {assign assign' : String → HolType} :
    (types : List HolType) → (∀ name ∈ typeVarsAll types, assign name = assign' name) →
      substAll assign types = substAll assign' types
  | [], _ => rfl
  | type :: types, h => by
      have hhead := subst_congr type fun name hmem => h name (List.mem_append_left _ hmem)
      have htail := substAll_congr types fun name hmem => h name (List.mem_append_right _ hmem)
      rw [substAll, hhead, htail, substAll]

end

mutual

/-- A renaming in front of a substitution. -/
theorem subst_rename (assign : String → HolType) (f : String → String) :
    (type : HolType) → (type.rename f).subst assign = type.subst fun name => assign (f name)
  | .tyvar _ => rfl
  | .tyapp op args => congrArg (tyapp op) (substAll_rename assign f args)

theorem substAll_rename (assign : String → HolType) (f : String → String) :
    (types : List HolType) → substAll assign (substAll (fun name => tyvar (f name)) types) =
      substAll (fun name => assign (f name)) types
  | [] => rfl
  | type :: types => by
      have hhead := subst_rename assign f type
      have htail := substAll_rename assign f types
      unfold rename at hhead
      rw [substAll, substAll, hhead, htail, substAll]

end

mutual

theorem typeVars_rename (f : String → String) :
    (type : HolType) → (type.rename f).typeVars = type.typeVars.map f
  | .tyvar _ => rfl
  | .tyapp _ args => typeVarsAll_rename f args

theorem typeVarsAll_rename (f : String → String) :
    (types : List HolType) → typeVarsAll (substAll (fun name => tyvar (f name)) types) = (typeVarsAll types).map f
  | [] => rfl
  | type :: types => by
      have hhead := typeVars_rename f type
      unfold rename at hhead
      rw [substAll, typeVarsAll, hhead, typeVarsAll_rename f types, typeVarsAll, List.map_append]

end

mutual

/-- A renaming that tells the variables of two types apart tells the types apart. -/
theorem rename_inj {f : String → String} :
    (type type' : HolType) → (∀ name ∈ type.typeVars, ∀ name' ∈ type'.typeVars, f name = f name' → name = name') →
      type.rename f = type'.rename f → type = type'
  | .tyvar name, .tyvar name', h, heq =>
      congrArg tyvar (h name (.head _) name' (.head _) (HolType.tyvar.inj heq))
  | .tyapp op args, .tyapp op' args', h, heq => by
      obtain ⟨hop, hargs⟩ := HolType.tyapp.inj heq
      rw [hop, substAll_inj args args' h hargs]
  | .tyvar _, .tyapp _ _, _, heq => nomatch heq
  | .tyapp _ _, .tyvar _, _, heq => nomatch heq

theorem substAll_inj {f : String → String} : (types types' : List HolType) →
    (∀ name ∈ typeVarsAll types, ∀ name' ∈ typeVarsAll types', f name = f name' → name = name') →
      substAll (fun name => tyvar (f name)) types = substAll (fun name => tyvar (f name)) types' → types = types'
  | [], [], _, _ => rfl
  | type :: types, type' :: types', h, heq => by
      obtain ⟨hhead, htail⟩ := List.cons.inj heq
      have hfirst := rename_inj type type' (fun name hmem name' hmem' =>
        h name (List.mem_append_left _ hmem) name' (List.mem_append_left _ hmem')) hhead
      have hrest := substAll_inj types types' (fun name hmem name' hmem' =>
        h name (List.mem_append_right _ hmem) name' (List.mem_append_right _ hmem')) htail
      rw [hfirst, hrest]
  | [], _ :: _, _, heq => nomatch heq
  | _ :: _, [], _, heq => nomatch heq

end

mutual

theorem rename_id : (type : HolType) → type.rename id = type
  | .tyvar _ => rfl
  | .tyapp op args => congrArg (tyapp op) (substAll_id args)

theorem substAll_id : (types : List HolType) → substAll (fun name => tyvar (id name)) types = types
  | [] => rfl
  | type :: types => by
      have hhead := rename_id type
      unfold rename at hhead
      rw [substAll, hhead, substAll_id types]

end

end HolType

/-! ## Terms -/

/-- A term; the variable that an abstraction binds is a name and a type. -/
inductive HolTerm
  | var (name : String) (type : HolType)
  | const (name : String) (type : HolType)
  | comb (function argument : HolTerm)
  | abs (name : String) (type : HolType) (body : HolTerm)
  deriving DecidableEq, Repr, Inhabited

/-- A term without names of bound variables. -/
inductive Nameless
  | bound (index : ℕ)
  | free (name : String) (type : HolType)
  | const (name : String) (type : HolType)
  | comb (function argument : Nameless)
  | abs (type : HolType) (body : Nameless)
  deriving DecidableEq, Repr, Inhabited

/-- The binders around a place, the nearest one first. -/
abbrev Binders := List (String × HolType)

/-- The nearest binder of a variable. -/
def Binders.find (name : String) (type : HolType) : Binders → Option ℕ
  | [] => none
  | (name', type') :: binders =>
      if name = name' ∧ type = type' then some 0 else (Binders.find name type binders).map (· + 1)

namespace HolTerm

/-- The nameless form of a term among binders. -/
def namelessIn : Binders → HolTerm → Nameless
  | binders, .var name type => (binders.find name type).elim (.free name type) .bound
  | _, .const name type => .const name type
  | binders, .comb function argument => .comb (function.namelessIn binders) (argument.namelessIn binders)
  | binders, .abs name type body => .abs type (body.namelessIn ((name, type) :: binders))

/-- The nameless form of a term. -/
def nameless (term : HolTerm) : Nameless :=
  term.namelessIn []

/-- The terms differ in the names of bound variables only. -/
def AlphaEq (one other : HolTerm) : Prop :=
  one.nameless = other.nameless

instance (one other : HolTerm) : Decidable (AlphaEq one other) :=
  inferInstanceAs (Decidable (one.nameless = other.nameless))

/-- The type variables that occur in a term. -/
def typeVars : HolTerm → List String
  | .var _ type => type.typeVars
  | .const _ type => type.typeVars
  | .comb function argument => function.typeVars ++ argument.typeVars
  | .abs _ type body => type.typeVars ++ body.typeVars

/-- The term with its types replaced where they stand. -/
def mapTypes (f : HolType → HolType) : HolTerm → HolTerm
  | .var name type => .var name (f type)
  | .const name type => .const name (f type)
  | .comb function argument => .comb (function.mapTypes f) (argument.mapTypes f)
  | .abs name type body => .abs name (f type) (body.mapTypes f)

attribute [grind =] mapTypes

/-- The term with its type variables renamed. -/
def rename (f : String → String) : HolTerm → HolTerm :=
  mapTypes (HolType.rename f)

end HolTerm

namespace Nameless

def mapTypes (f : HolType → HolType) : Nameless → Nameless
  | .bound index => .bound index
  | .free name type => .free name (f type)
  | .const name type => .const name (f type)
  | .comb function argument => .comb (function.mapTypes f) (argument.mapTypes f)
  | .abs type body => .abs (f type) (body.mapTypes f)

attribute [grind =] mapTypes

/-- The type variables that occur in a nameless term. -/
def typeVars : Nameless → List String
  | .bound _ => []
  | .free _ type => type.typeVars
  | .const _ type => type.typeVars
  | .comb function argument => function.typeVars ++ argument.typeVars
  | .abs type body => type.typeVars ++ body.typeVars

theorem mapTypes_congr {f g : HolType → HolType} {term : Nameless}
    (h : ∀ type : HolType, (∀ name ∈ type.typeVars, name ∈ term.typeVars) → f type = g type) :
    term.mapTypes f = term.mapTypes g := by
  induction term with
  | bound index => rfl
  | free name type => exact congrArg (Nameless.free name) (h type fun _ hmem => hmem)
  | const name type => exact congrArg (Nameless.const name) (h type fun _ hmem => hmem)
  | comb function argument ihfunction ihargument =>
      have hfunction := ihfunction fun type hsub => h type fun name hmem => List.mem_append_left _ (hsub name hmem)
      have hargument := ihargument fun type hsub => h type fun name hmem => List.mem_append_right _ (hsub name hmem)
      rw [mapTypes, hfunction, hargument, mapTypes]
  | abs type body ih =>
      have htype := h type fun name hmem => List.mem_append_left _ hmem
      have hbody := ih fun other hsub => h other fun name hmem => List.mem_append_right _ (hsub name hmem)
      rw [mapTypes, htype, hbody, mapTypes]

theorem mapTypes_mapTypes (f g : HolType → HolType) (term : Nameless) :
    (term.mapTypes g).mapTypes f = term.mapTypes fun type => f (g type) := by
  induction term with
  | bound index => rfl
  | free name type => rfl
  | const name type => rfl
  | comb function argument ihfunction ihargument => rw [mapTypes, mapTypes, ihfunction, ihargument, mapTypes]
  | abs type body ih => rw [mapTypes, mapTypes, ih, mapTypes]

theorem typeVars_rename (f : String → String) (term : Nameless) :
    (term.mapTypes (HolType.rename f)).typeVars = term.typeVars.map f := by
  induction term with
  | bound index => rfl
  | free name type => exact HolType.typeVars_rename f type
  | const name type => exact HolType.typeVars_rename f type
  | comb function argument ihfunction ihargument =>
      rw [mapTypes, typeVars, ihfunction, ihargument, typeVars, List.map_append]
  | abs type body ih => rw [mapTypes, typeVars, HolType.typeVars_rename, ih, typeVars, List.map_append]

/-- Renaming looks at the type variables of the term only. -/
theorem rename_congr {f g : String → String} {term : Nameless} (h : ∀ v ∈ term.typeVars, f v = g v) :
    term.mapTypes (HolType.rename f) = term.mapTypes (HolType.rename g) :=
  mapTypes_congr fun type hsub => HolType.subst_congr type fun v hv => congrArg HolType.tyvar (h v (hsub v hv))

theorem rename_rename (f g : String → String) (term : Nameless) :
    (term.mapTypes (HolType.rename f)).mapTypes (HolType.rename g) = term.mapTypes (HolType.rename fun v => g (f v)) := by
  rw [mapTypes_mapTypes]
  exact mapTypes_congr fun type _ => HolType.subst_rename _ f type

/-- A renaming that tells the type variables of two terms apart tells the terms apart. -/
theorem rename_inj {f : String → String} {term term' : Nameless}
    (h : ∀ name ∈ term.typeVars, ∀ name' ∈ term'.typeVars, f name = f name' → name = name')
    (heq : term.mapTypes (HolType.rename f) = term'.mapTypes (HolType.rename f)) : term = term' := by
  induction term generalizing term' with
  | bound index =>
      cases term' with
      | bound index' => exact heq
      | free | const | comb | abs => nomatch heq
  | free name type =>
      cases term' with
      | free name' type' =>
          obtain ⟨hname, htype⟩ := Nameless.free.inj heq
          rw [hname, HolType.rename_inj type type' h htype]
      | bound | const | comb | abs => nomatch heq
  | const name type =>
      cases term' with
      | const name' type' =>
          obtain ⟨hname, htype⟩ := Nameless.const.inj heq
          rw [hname, HolType.rename_inj type type' h htype]
      | bound | free | comb | abs => nomatch heq
  | comb function argument ihfunction ihargument =>
      cases term' with
      | comb function' argument' =>
          obtain ⟨hfunction, hargument⟩ := Nameless.comb.inj heq
          rw [ihfunction (fun name hmem name' hmem' =>
            h name (List.mem_append_left _ hmem) name' (List.mem_append_left _ hmem')) hfunction,
            ihargument (fun name hmem name' hmem' =>
            h name (List.mem_append_right _ hmem) name' (List.mem_append_right _ hmem')) hargument]
      | bound | free | const | abs => nomatch heq
  | abs type body ih =>
      cases term' with
      | abs type' body' =>
          obtain ⟨htype, hbody⟩ := Nameless.abs.inj heq
          rw [HolType.rename_inj type type' (fun name hmem name' hmem' =>
            h name (List.mem_append_left _ hmem) name' (List.mem_append_left _ hmem')) htype,
            ih (fun name hmem name' hmem' =>
            h name (List.mem_append_right _ hmem) name' (List.mem_append_right _ hmem')) hbody]
      | bound | free | const | comb => nomatch heq

end Nameless

/-! ## Nameless forms -/

theorem Binders.getElem?_of_find {name : String} {type : HolType} {binders : Binders} {index : ℕ}
    (h : binders.find name type = some index) : binders[index]? = some (name, type) := by
  induction binders generalizing index with
  | nil => nomatch h
  | cons binder binders ih =>
      unfold Binders.find at h
      split at h
      · rename_i heq
        rw [← Option.some.inj h, heq.1, heq.2]
        rfl
      · obtain ⟨index', hindex', rfl⟩ := Option.map_eq_some_iff.mp h
        exact ih hindex'

theorem Binders.mem_of_find {name : String} {type : HolType} {binders : Binders} {index : ℕ}
    (h : binders.find name type = some index) : (name, type) ∈ binders :=
  List.mem_of_getElem? (Binders.getElem?_of_find h)

/-- A renaming that tells the types in sight apart finds the same binder. -/
theorem Binders.find_rename {f : String → String} {S : Set String} (hinj : Set.InjOn f S) (name : String)
    {type : HolType} (htype : ∀ v ∈ type.typeVars, v ∈ S) {binders : Binders}
    (hbinders : ∀ binder ∈ binders, ∀ v ∈ binder.2.typeVars, v ∈ S) :
    Binders.find name (type.rename f) (binders.map fun binder => (binder.1, binder.2.rename f)) =
      binders.find name type := by
  induction binders with
  | nil => rfl
  | cons binder binders ih =>
      have hhead : type.rename f = binder.2.rename f ↔ type = binder.2 := by
        constructor
        · exact HolType.rename_inj type binder.2 fun v hv w hw heq =>
            hinj (htype v hv) (hbinders binder (.head _) w hw) heq
        · exact congrArg _
      have hrest := ih fun other hmem => hbinders other (.tail _ hmem)
      rw [List.map_cons, Binders.find, Binders.find, hrest]
      simp only [hhead]

namespace HolTerm

/-- Renaming commutes with the nameless form: where distinct variables stay distinct, nothing is captured. -/
theorem namelessIn_rename {f : String → String} {S : Set String} (hinj : Set.InjOn f S) {term : HolTerm}
    {binders : Binders} (hterm : ∀ v ∈ term.typeVars, v ∈ S)
    (hbinders : ∀ binder ∈ binders, ∀ v ∈ binder.2.typeVars, v ∈ S) :
    (term.rename f).namelessIn (binders.map fun binder => (binder.1, binder.2.rename f)) =
      (term.namelessIn binders).mapTypes (HolType.rename f) := by
  induction term generalizing binders with
  | var name type =>
      unfold rename
      rw [mapTypes, namelessIn, Binders.find_rename hinj name hterm hbinders, namelessIn]
      cases binders.find name type with
      | none => rfl
      | some index => rfl
  | const name type => rfl
  | comb function argument ihfunction ihargument =>
      have hfunction := ihfunction (fun v hv => hterm v (List.mem_append_left _ hv)) hbinders
      have hargument := ihargument (fun v hv => hterm v (List.mem_append_right _ hv)) hbinders
      exact congrArg₂ Nameless.comb hfunction hargument
  | abs name type body ih =>
      have hinner : ∀ binder ∈ ((name, type) :: binders : Binders), ∀ v ∈ binder.2.typeVars, v ∈ S := by
        intro binder hmem v hv
        rcases List.mem_cons.mp hmem with rfl | hmem
        · exact hterm v (List.mem_append_left _ hv)
        · exact hbinders binder hmem v hv
      have hbody := ih (fun v hv => hterm v (List.mem_append_right _ hv)) hinner
      exact congrArg (Nameless.abs (type.rename f)) hbody

theorem nameless_rename {f : String → String} {term : HolTerm} (hinj : Set.InjOn f {v | v ∈ term.typeVars}) :
    (term.rename f).nameless = term.nameless.mapTypes (HolType.rename f) :=
  @namelessIn_rename f _ hinj term [] (fun _ hv => hv) fun _ hmem => nomatch hmem

/-- The variables of a nameless form are those of the term, but for the types of outer binders. -/
theorem mem_typeVars_namelessIn {v : String} {term : HolTerm} {binders : Binders} :
    (v ∈ (term.namelessIn binders).typeVars → v ∈ term.typeVars) ∧
      (v ∈ term.typeVars → v ∈ (term.namelessIn binders).typeVars ∨ ∃ binder ∈ binders, v ∈ binder.2.typeVars) := by
  induction term generalizing binders with
  | var name type =>
      rw [namelessIn]
      cases hfind : binders.find name type with
      | none => exact ⟨id, .inl⟩
      | some index => exact ⟨nofun, fun hv => .inr ⟨_, Binders.mem_of_find hfind, hv⟩⟩
  | const name type => exact ⟨id, .inl⟩
  | comb function argument ihfunction ihargument =>
      simp only [namelessIn, Nameless.typeVars, typeVars, List.mem_append]
      constructor
      · exact Or.imp ihfunction.1 ihargument.1
      · rintro (hv | hv)
        · exact (ihfunction.2 hv).imp_left .inl
        · exact (ihargument.2 hv).imp_left .inr
  | abs name type body ih =>
      simp only [namelessIn, Nameless.typeVars, typeVars, List.mem_append]
      constructor
      · exact Or.imp_right ih.1
      · rintro (hv | hv)
        · exact .inl (.inl hv)
        · rcases ih.2 hv with hbody | ⟨binder, hmem, hbinder⟩
          · exact .inl (.inr hbody)
          · rcases List.mem_cons.mp hmem with rfl | hmem
            · exact .inl (.inl hbinder)
            · exact .inr ⟨binder, hmem, hbinder⟩

/-- Alpha-equivalent terms have the same type variables. -/
theorem mem_typeVars_nameless {v : String} {term : HolTerm} : v ∈ term.nameless.typeVars ↔ v ∈ term.typeVars := by
  constructor
  · exact mem_typeVars_namelessIn.1
  · intro hv
    rcases (@mem_typeVars_namelessIn v term []).2 hv with hmem | ⟨binder, hbinder, -⟩
    · exact hmem
    · nomatch hbinder

theorem rename_id (term : HolTerm) : term.rename id = term := by
  induction term with
  | var name type => exact congrArg (HolTerm.var name) type.rename_id
  | const name type => exact congrArg (HolTerm.const name) type.rename_id
  | comb function argument ihfunction ihargument => exact congrArg₂ HolTerm.comb ihfunction ihargument
  | abs name type body ih => exact congrArg₂ (HolTerm.abs name) type.rename_id ih

end HolTerm

/-! ## Instantiating type variables -/

namespace Nameless

/-- Each bound variable has a binder. -/
def ClosedAt : ℕ → Nameless → Prop
  | depth, .bound index => index < depth
  | _, .free _ _ => True
  | _, .const _ _ => True
  | depth, .comb function argument => function.ClosedAt depth ∧ argument.ClosedAt depth
  | depth, .abs _ body => body.ClosedAt (depth + 1)

/-- The length of the longest name of a free variable. -/
def longestName : Nameless → ℕ
  | .bound _ => 0
  | .free name _ => name.length
  | .const _ _ => 0
  | .comb function argument => max function.longestName argument.longestName
  | .abs _ body => body.longestName

/-- A name that is too long for a free variable. -/
def freshName (longest depth : ℕ) : String :=
  String.ofList (List.replicate (longest + depth + 1) 'x')

/-- A term with the nameless form: each binder has the fresh name of its depth. -/
def named (longest : ℕ) : Binders → Nameless → HolTerm
  | binders, .bound index => (binders[index]?).elim default fun binder => .var binder.1 binder.2
  | _, .free name type => .var name type
  | _, .const name type => .const name type
  | binders, .comb function argument => .comb (function.named longest binders) (argument.named longest binders)
  | binders, .abs type body =>
      .abs (freshName longest binders.length) type
        (body.named longest ((freshName longest binders.length, type) :: binders))

/-- The binders have the fresh names of their depths. -/
def FreshBinders (longest : ℕ) : Binders → Prop
  | [] => True
  | binder :: binders => binder.1 = freshName longest binders.length ∧ FreshBinders longest binders

theorem length_freshName (longest depth : ℕ) : (freshName longest depth).length = longest + depth + 1 := by
  unfold freshName
  rw [String.length_ofList, List.length_replicate]

theorem FreshBinders.length {longest : ℕ} {binders : Binders} (h : FreshBinders longest binders)
    {binder : String × HolType} (hmem : binder ∈ binders) :
    longest < binder.1.length ∧ binder.1.length ≤ longest + binders.length := by
  induction binders with
  | nil => nomatch hmem
  | cons head binders ih =>
      rcases List.mem_cons.mp hmem with rfl | hmem
      · rw [h.1, length_freshName, List.length_cons]
        omega
      · have hrest := ih h.2 hmem
        rw [List.length_cons]
        omega

/-- A short name has no binder. -/
theorem FreshBinders.find_free {longest : ℕ} {binders : Binders} (h : FreshBinders longest binders) {name : String}
    (hname : name.length ≤ longest) (type : HolType) : binders.find name type = none := by
  cases hfind : binders.find name type with
  | none => rfl
  | some index =>
      have hlength := (h.length (Binders.mem_of_find hfind)).1
      exact absurd hname (Nat.not_le.mpr hlength)

/-- A binder is found by its own name. -/
theorem FreshBinders.find_bound {longest : ℕ} {binders : Binders} (h : FreshBinders longest binders) {index : ℕ}
    {binder : String × HolType} (hindex : binders[index]? = some binder) :
    binders.find binder.1 binder.2 = some index := by
  induction binders generalizing index with
  | nil => nomatch hindex
  | cons head binders ih =>
      match index with
      | 0 =>
          obtain rfl : head = binder := Option.some.inj hindex
          rw [Binders.find, if_pos ⟨rfl, rfl⟩]
      | index + 1 =>
          rw [List.getElem?_cons_succ] at hindex
          have hlength := (h.2.length (List.mem_of_getElem? hindex)).2
          have hne : binder.1 ≠ head.1 := by
            intro heq
            rw [heq, h.1, length_freshName] at hlength
            omega
          rw [Binders.find, if_neg fun heq => hne heq.1, ih h.2 hindex]
          rfl

/-- A named term has the nameless form it comes from. -/
theorem namelessIn_named {longest : ℕ} {term : Nameless} {binders : Binders} (hnames : term.longestName ≤ longest)
    (hclosed : term.ClosedAt binders.length) (hbinders : FreshBinders longest binders) :
    (term.named longest binders).namelessIn binders = term := by
  induction term generalizing binders with
  | bound index =>
      have hindex := List.getElem?_eq_getElem (show index < binders.length from hclosed)
      rw [named, hindex, Option.elim_some, HolTerm.namelessIn, hbinders.find_bound hindex, Option.elim_some]
  | free name type => rw [named, HolTerm.namelessIn, hbinders.find_free hnames, Option.elim_none]
  | const name type => rfl
  | comb function argument ihfunction ihargument =>
      obtain ⟨hfunction, hargument⟩ := hclosed
      rw [longestName, Nat.max_le] at hnames
      rw [named, HolTerm.namelessIn, ihfunction hnames.1 hfunction hbinders, ihargument hnames.2 hargument hbinders]
  | abs type body ih =>
      have hbody := @ih ((freshName longest binders.length, type) :: binders) hnames hclosed ⟨rfl, hbinders⟩
      rw [named, HolTerm.namelessIn, hbody]

theorem ClosedAt.mapTypes {f : HolType → HolType} {term : Nameless} {depth : ℕ} (h : term.ClosedAt depth) :
    (term.mapTypes f).ClosedAt depth := by
  induction term generalizing depth with
  | bound index => exact h
  | free name type => trivial
  | const name type => trivial
  | comb function argument ihfunction ihargument => exact ⟨ihfunction h.1, ihargument h.2⟩
  | abs type body ih => exact ih h

end Nameless

namespace HolTerm

theorem closedAt_namelessIn (term : HolTerm) (binders : Binders) :
    (term.namelessIn binders).ClosedAt binders.length := by
  induction term generalizing binders with
  | var name type =>
      rw [namelessIn]
      cases hfind : binders.find name type with
      | none => trivial
      | some index => exact (List.getElem?_eq_some_iff.mp (Binders.getElem?_of_find hfind)).1
  | const name type => trivial
  | comb function argument ihfunction ihargument => exact ⟨ihfunction binders, ihargument binders⟩
  | abs name type body ih => exact ih ((name, type) :: binders)

/-- The term with its type variables replaced, all at once and without capture: the names of bound variables stay where
they can. -/
def instTypes (assign : String → HolType) (term : HolTerm) : HolTerm :=
  let target := term.nameless.mapTypes (HolType.subst assign)
  if (term.mapTypes (HolType.subst assign)).nameless = target then term.mapTypes (HolType.subst assign)
  else target.named target.longestName []

/-- Instantiation acts on the nameless form. -/
theorem nameless_instTypes (assign : String → HolType) (term : HolTerm) :
    (term.instTypes assign).nameless = term.nameless.mapTypes (HolType.subst assign) := by
  unfold instTypes
  dsimp only
  split
  · assumption
  · have hclosed := (term.closedAt_namelessIn []).mapTypes (f := HolType.subst assign)
    exact Nameless.namelessIn_named le_rfl hclosed trivial

end HolTerm

/-! ## Listing type variables -/

mutual

/-- The type variables of a type, each one once. -/
def HolType.tyvars : HolType → List HolType
  | .tyvar name => [.tyvar name]
  | .tyapp _ args => HolType.tyvarsAll args

/-- The same for the arguments of an operator. -/
def HolType.tyvarsAll : List HolType → List HolType
  | [] => []
  | type :: types => HolType.tyvars type ∪ HolType.tyvarsAll types

end

/-- The type variables of a term, each one once. -/
def HolTerm.typeVarsInTerm : HolTerm → List HolType
  | .var _ type => type.tyvars
  | .const _ type => type.tyvars
  | .comb function argument => function.typeVarsInTerm ∪ argument.typeVarsInTerm
  | .abs _ type body => type.tyvars ∪ body.typeVarsInTerm

mutual

theorem HolType.nodup_tyvars : (type : HolType) → type.tyvars.Nodup
  | .tyvar _ => List.nodup_singleton _
  | .tyapp _ args => HolType.nodup_tyvarsAll args

theorem HolType.nodup_tyvarsAll : (types : List HolType) → (HolType.tyvarsAll types).Nodup
  | [] => List.nodup_nil
  | type :: types => List.Nodup.union type.tyvars (HolType.nodup_tyvarsAll types)

end

mutual

theorem HolType.mem_tyvars {other : HolType} :
    (type : HolType) → (other ∈ type.tyvars ↔ ∃ name ∈ type.typeVars, other = .tyvar name)
  | .tyvar name => by simp [HolType.tyvars, HolType.typeVars]
  | .tyapp _ args => HolType.mem_tyvarsAll args

theorem HolType.mem_tyvarsAll {other : HolType} :
    (types : List HolType) → (other ∈ HolType.tyvarsAll types ↔ ∃ name ∈ HolType.typeVarsAll types, other = .tyvar name)
  | [] => by simp [HolType.tyvarsAll, HolType.typeVarsAll]
  | type :: types => by
      rw [HolType.tyvarsAll, List.mem_union_iff, HolType.mem_tyvars type, HolType.mem_tyvarsAll types]
      simp only [HolType.typeVarsAll, List.mem_append, or_and_right, exists_or]

end

namespace HolTerm

theorem nodup_typeVarsInTerm (term : HolTerm) : term.typeVarsInTerm.Nodup := by
  induction term with
  | var name type => exact type.nodup_tyvars
  | const name type => exact type.nodup_tyvars
  | comb function argument ihfunction ihargument => exact List.Nodup.union _ ihargument
  | abs name type body ih => exact List.Nodup.union _ ih

theorem mem_typeVarsInTerm {term : HolTerm} {other : HolType} :
    other ∈ term.typeVarsInTerm ↔ ∃ name ∈ term.typeVars, other = .tyvar name := by
  induction term with
  | var name type => exact HolType.mem_tyvars type
  | const name type => exact HolType.mem_tyvars type
  | comb function argument ihfunction ihargument =>
      rw [typeVarsInTerm, List.mem_union_iff, ihfunction, ihargument]
      simp only [typeVars, List.mem_append, or_and_right, exists_or]
  | abs name type body ih =>
      rw [typeVarsInTerm, List.mem_union_iff, HolType.mem_tyvars type, ih]
      simp only [typeVars, List.mem_append, or_and_right, exists_or]

end HolTerm

theorem map_insert_of_inj {f : HolType → HolType} {type : HolType} {types : List HolType}
    (h : ∀ other ∈ types, f type = f other → type = other) :
    (types.insert type).map f = (types.map f).insert (f type) := by
  by_cases hmem : type ∈ types
  · rw [List.insert_of_mem hmem, List.insert_of_mem (List.mem_map_of_mem hmem)]
  · have himage : f type ∉ types.map f := by
      intro himage
      obtain ⟨other, hother, heq⟩ := List.mem_map.mp himage
      exact hmem (h other hother heq.symm ▸ hother)
    rw [List.insert_of_not_mem hmem, List.insert_of_not_mem himage, List.map_cons]

/-- The types are variables with names in a set. -/
def TyvarsIn (S : Set String) (types : List HolType) : Prop :=
  ∀ type ∈ types, ∃ name ∈ S, type = .tyvar name

theorem TyvarsIn.union {S : Set String} {one other : List HolType} (hone : TyvarsIn S one) (hother : TyvarsIn S other) :
    TyvarsIn S (one ∪ other) :=
  fun type hmem => (List.mem_union_iff.mp hmem).elim (hone type) (hother type)

theorem HolType.tyvarsIn {S : Set String} {type : HolType} (h : ∀ v ∈ type.typeVars, v ∈ S) : TyvarsIn S type.tyvars := by
  intro other hmem
  obtain ⟨name, hname, rfl⟩ := (HolType.mem_tyvars type).mp hmem
  exact ⟨name, h name hname, rfl⟩

/-- A union of type variables is renamed elementwise where they stay distinct. -/
theorem map_union_rename {f : String → String} {S : Set String} (hinj : Set.InjOn f S) {one other : List HolType}
    (hone : TyvarsIn S one) (hother : TyvarsIn S other) :
    (one ∪ other).map (HolType.rename f) = one.map (HolType.rename f) ∪ other.map (HolType.rename f) := by
  induction one with
  | nil => rfl
  | cons a one ih =>
      have hrest : TyvarsIn S one := fun b hb => hone b (.tail _ hb)
      have hdistinct : ∀ b ∈ one ∪ other, a.rename f = b.rename f → a = b := by
        intro b hb heq
        obtain ⟨v, hv, rfl⟩ := hone a (.head _)
        obtain ⟨w, hw, rfl⟩ := hrest.union hother b hb
        rw [hinj hv hw (HolType.tyvar.inj heq)]
      rw [List.cons_union, map_insert_of_inj hdistinct, ih hrest, List.map_cons, List.cons_union]

mutual

theorem HolType.tyvars_rename {f : String → String} {S : Set String} (hinj : Set.InjOn f S) :
    (type : HolType) → (∀ v ∈ type.typeVars, v ∈ S) → (type.rename f).tyvars = type.tyvars.map (HolType.rename f)
  | .tyvar _, _ => rfl
  | .tyapp _ args, h => HolType.tyvarsAll_rename hinj args h

theorem HolType.tyvarsAll_rename {f : String → String} {S : Set String} (hinj : Set.InjOn f S) : (types : List HolType) →
    (∀ v ∈ HolType.typeVarsAll types, v ∈ S) →
      HolType.tyvarsAll (HolType.substAll (fun name => .tyvar (f name)) types) =
        (HolType.tyvarsAll types).map (HolType.rename f)
  | [], _ => rfl
  | type :: types, h => by
      have hhead := HolType.tyvars_rename hinj type fun v hv => h v (List.mem_append_left _ hv)
      have htail := HolType.tyvarsAll_rename hinj types fun v hv => h v (List.mem_append_right _ hv)
      unfold HolType.rename at hhead
      rw [HolType.substAll, HolType.tyvarsAll, hhead, htail, HolType.tyvarsAll]
      have htypes : TyvarsIn S (HolType.tyvarsAll types) := by
        intro other hmem
        obtain ⟨name, hname, rfl⟩ := (HolType.mem_tyvarsAll types).mp hmem
        exact ⟨name, h name (List.mem_append_right _ hname), rfl⟩
      exact (map_union_rename hinj (HolType.tyvarsIn fun v hv => h v (List.mem_append_left _ hv)) htypes).symm

end

/-- The type variables of a nameless term among binders of the types. -/
def Nameless.typeVarsIn : List HolType → Nameless → List HolType
  | types, .bound index => (types[index]?).elim [] HolType.tyvars
  | _, .free _ type => type.tyvars
  | _, .const _ type => type.tyvars
  | types, .comb function argument => function.typeVarsIn types ∪ argument.typeVarsIn types
  | types, .abs type body => type.tyvars ∪ body.typeVarsIn (type :: types)

namespace Nameless

theorem tyvarsIn {S : Set String} {term : Nameless} {types : List HolType} (hterm : ∀ v ∈ term.typeVars, v ∈ S)
    (htypes : ∀ type ∈ types, ∀ v ∈ type.typeVars, v ∈ S) : TyvarsIn S (term.typeVarsIn types) := by
  induction term generalizing types with
  | bound index =>
      intro other hmem
      rw [typeVarsIn] at hmem
      cases hindex : types[index]? with
      | none =>
          rw [hindex] at hmem
          nomatch hmem
      | some type =>
          rw [hindex] at hmem
          exact HolType.tyvarsIn (htypes type (List.mem_of_getElem? hindex)) other hmem
  | free name type => exact HolType.tyvarsIn hterm
  | const name type => exact HolType.tyvarsIn hterm
  | comb function argument ihfunction ihargument =>
      exact (ihfunction (fun v hv => hterm v (List.mem_append_left _ hv)) htypes).union
        (ihargument (fun v hv => hterm v (List.mem_append_right _ hv)) htypes)
  | abs type body ih =>
      have htype : ∀ v ∈ type.typeVars, v ∈ S := fun v hv => hterm v (List.mem_append_left _ hv)
      exact (HolType.tyvarsIn htype).union
        (ih (fun v hv => hterm v (List.mem_append_right _ hv)) (List.forall_mem_cons.mpr ⟨htype, htypes⟩))

/-- The list of type variables is renamed with the term. -/
theorem typeVarsIn_rename {f : String → String} {S : Set String} (hinj : Set.InjOn f S) {term : Nameless}
    {types : List HolType} (hterm : ∀ v ∈ term.typeVars, v ∈ S) (htypes : ∀ type ∈ types, ∀ v ∈ type.typeVars, v ∈ S) :
    (term.mapTypes (HolType.rename f)).typeVarsIn (types.map (HolType.rename f)) =
      (term.typeVarsIn types).map (HolType.rename f) := by
  induction term generalizing types with
  | bound index =>
      rw [mapTypes, typeVarsIn, typeVarsIn, List.getElem?_map]
      cases hindex : types[index]? with
      | none => rfl
      | some type => exact HolType.tyvars_rename hinj type (htypes type (List.mem_of_getElem? hindex))
  | free name type => exact HolType.tyvars_rename hinj type hterm
  | const name type => exact HolType.tyvars_rename hinj type hterm
  | comb function argument ihfunction ihargument =>
      have hfunction : ∀ v ∈ function.typeVars, v ∈ S := fun v hv => hterm v (List.mem_append_left _ hv)
      have hargument : ∀ v ∈ argument.typeVars, v ∈ S := fun v hv => hterm v (List.mem_append_right _ hv)
      rw [mapTypes, typeVarsIn, ihfunction hfunction htypes, ihargument hargument htypes, typeVarsIn,
        map_union_rename hinj (tyvarsIn hfunction htypes) (tyvarsIn hargument htypes)]
  | abs type body ih =>
      have htype : ∀ v ∈ type.typeVars, v ∈ S := fun v hv => hterm v (List.mem_append_left _ hv)
      have hbody : ∀ v ∈ body.typeVars, v ∈ S := fun v hv => hterm v (List.mem_append_right _ hv)
      have hinner := List.forall_mem_cons.mpr ⟨htype, htypes⟩
      rw [mapTypes, typeVarsIn, ← List.map_cons, ih hbody hinner, HolType.tyvars_rename hinj type htype, typeVarsIn,
        map_union_rename hinj (HolType.tyvarsIn htype) (tyvarsIn hbody hinner)]

end Nameless

namespace HolTerm

theorem typeVarsInTerm_eq (term : HolTerm) (binders : Binders) :
    term.typeVarsInTerm = (term.namelessIn binders).typeVarsIn (binders.map Prod.snd) := by
  induction term generalizing binders with
  | var name type =>
      rw [namelessIn]
      cases hfind : binders.find name type with
      | none => rfl
      | some index =>
          have hindex := Binders.getElem?_of_find hfind
          rw [Option.elim_some, Nameless.typeVarsIn, List.getElem?_map, hindex]
          rfl
  | const name type => rfl
  | comb function argument ihfunction ihargument =>
      rw [typeVarsInTerm, ihfunction binders, ihargument binders]
      rfl
  | abs name type body ih =>
      rw [typeVarsInTerm, ih ((name, type) :: binders)]
      rfl

/-- The list of type variables depends on the nameless form, and is renamed with the term. -/
theorem typeVarsInTerm_rename {a b : HolTerm} {f : String → String} (hinj : Set.InjOn f {v | v ∈ a.typeVars})
    (h : AlphaEq (a.rename f) b) : b.typeVarsInTerm = a.typeVarsInTerm.map (HolType.rename f) := by
  have hlist := @Nameless.typeVarsIn_rename f _ hinj a.nameless [] (fun v hv => mem_typeVars_nameless.mp hv)
    fun _ hmem => nomatch hmem
  calc b.typeVarsInTerm
      = b.nameless.typeVarsIn [] := b.typeVarsInTerm_eq []
    _ = (a.nameless.mapTypes (HolType.rename f)).typeVarsIn [] := by rw [← nameless_rename hinj, h]
    _ = (a.nameless.typeVarsIn []).map (HolType.rename f) := hlist
    _ = a.typeVarsInTerm.map (HolType.rename f) := by rw [a.typeVarsInTerm_eq []]; rfl

end HolTerm

end Hearth.Library
