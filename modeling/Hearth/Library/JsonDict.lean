import Hearth.Library.Association
import Hearth.Library.Json
import Mathlib.Data.List.Forall2
import Mathlib.Data.String.Basic

/-!
# JSON objects as dictionaries

A dictionary is an object that keeps its fields by strictly increasing keys, so that the
order in which they were given is no part of it.  `canonical` brings every object of a
value into this form; `dumps` writes a value so, and two values with one text are the same
value up to the order of their fields.

Besides this relation there is the equality of a language in which `true` is the number
one; it forgets more, and nothing is derived from it but that a value equals itself.
-/

namespace Hearth.Library

namespace Json

instance : DecidableEq Json := fun one other =>
  decidable_of_iff (render one = render other)
    ⟨render_injective, fun heq => congrArg render heq⟩

/-! ## Dictionaries -/

/-- A field is put where its key belongs; a field that is there stays. -/
def insertField (key : String) (value : Json) : List (String × Json) → List (String × Json)
  | [] => [(key, value)]
  | (other, present) :: rest =>
      if key < other then (key, value) :: (other, present) :: rest
      else if key = other then (other, present) :: rest
      else (other, present) :: insertField key value rest

/-- The fields by their keys; of several with one key the last counts. -/
def sortFields : List (String × Json) → List (String × Json)
  | [] => []
  | (key, value) :: rest => insertField key value (sortFields rest)

/-- The dictionary with these fields. -/
def dict (fields : List (String × Json)) : Json :=
  .obj (sortFields fields)

/-- The value of a key, and `null` where there is none. -/
def get (value : Json) (key : String) : Json :=
  (value.field key).getD .null

/-- `value.update(fields)`. -/
def extend (value : Json) (fields : List (String × Json)) : Json :=
  match value with
  | .obj present => dict (present ++ fields)
  | value => value

/-- The part of a dictionary that these keys name. -/
def pick (keys : List String) (value : Json) : Json :=
  dict (keys.map fun key => (key, value.get key))

mutual

/-- The value with every object a dictionary. -/
def canonical : Json → Json
  | .arr items => .arr (canonicalItems items)
  | .obj fields => .obj (canonicalFields fields)
  | value => value

def canonicalItems : List Json → List Json
  | [] => []
  | item :: items => canonical item :: canonicalItems items

def canonicalFields : List (String × Json) → List (String × Json)
  | [] => []
  | (key, value) :: fields => insertField key (canonical value) (canonicalFields fields)

end

/-- The two values differ in the order of their fields alone. -/
def Same (one other : Json) : Prop :=
  canonical one = canonical other

instance (one other : Json) : Decidable (Same one other) :=
  inferInstanceAs (Decidable (canonical one = canonical other))

/-- The text with the keys in order. -/
def dumps (value : Json) : List Char :=
  render (canonical value)

/-- The value of a text. -/
def loads (text : List Char) : Option Json :=
  (parse text).map canonical

/-! ## Truth and equality -/

mutual

/-- The value with its truth values as numbers. -/
def numeric : Json → Json
  | .bool value => .int (if value then 1 else 0)
  | .arr items => .arr (numericItems items)
  | .obj fields => .obj (numericFields fields)
  | value => value

def numericItems : List Json → List Json
  | [] => []
  | item :: items => numeric item :: numericItems items

def numericFields : List (String × Json) → List (String × Json)
  | [] => []
  | (key, value) :: fields => (key, numeric value) :: numericFields fields

end

/-- What is left of a value under `==`. -/
def compared (value : Json) : Json :=
  canonical (numeric value)

/-- `one == other`. -/
def equal (one other : Json) : Bool :=
  compared one = compared other

/-- The number of values that differ under `==`. -/
def distinct (values : List Json) : ℕ :=
  (values.map compared).dedup.length

/-- `bool(value)`. -/
def truthy : Json → Bool
  | .null => false
  | .bool value => value
  | .int value => value ≠ 0
  | .str value => value ≠ ""
  | .arr items => !items.isEmpty
  | .obj fields => !fields.isEmpty

/-- `value or other`. -/
def orElse (value other : Json) : Json :=
  if truthy value then value else other

def isStr : Json → Bool
  | .str _ => true
  | _ => false

def isBool : Json → Bool
  | .bool _ => true
  | _ => false

def isList : Json → Bool
  | .arr _ => true
  | _ => false

def isDict : Json → Bool
  | .obj _ => true
  | _ => false

/-- The items of a list; any other value has none. -/
def items : Json → List Json
  | .arr items => items
  | _ => []

/-- A value or `null`. -/
def ofOption {α : Type*} (write : α → Json) : Option α → Json
  | none => .null
  | some value => write value

/-- A field that may be missing. -/
def optional {α : Type*} (key : String) (write : α → Json) : Option α → List (String × Json)
  | none => []
  | some value => [(key, write value)]

@[simp] theorem equal_self (value : Json) : equal value value = true :=
  decide_eq_true rfl

@[simp] theorem items_arr (items : List Json) : (arr items).items = items := rfl

/-! ## Fields in order -/

/-- The keys are strictly increasing. -/
def Increasing (fields : List (String × Json)) : Prop :=
  fields.Pairwise fun one other => one.1 < other.1

theorem insertField_cons (key : String) (value : Json) (first : String × Json) (rest : List (String × Json)) :
    insertField key value (first :: rest) =
      if key < first.1 then (key, value) :: first :: rest
      else if key = first.1 then first :: rest
      else first :: insertField key value rest :=
  rfl

theorem mem_insertField {key : String} {value : Json} {fields : List (String × Json)}
    {field : String × Json} (h : field ∈ insertField key value fields) :
    field = (key, value) ∨ field ∈ fields := by
  induction fields with
  | nil => exact .inl (List.mem_singleton.mp h)
  | cons first rest ih =>
      rw [insertField_cons] at h
      split at h
      · exact List.mem_cons.mp h
      split at h
      · exact .inr h
      · rcases List.mem_cons.mp h with rfl | hrest
        · exact .inr List.mem_cons_self
        · exact (ih hrest).imp id (List.mem_cons_of_mem _)

theorem mem_sortFields {fields : List (String × Json)} {field : String × Json}
    (h : field ∈ sortFields fields) : field ∈ fields := by
  induction fields with
  | nil => exact h
  | cons first rest ih =>
      rcases mem_insertField h with rfl | hrest
      · exact List.mem_cons_self
      · exact List.mem_cons_of_mem _ (ih hrest)

theorem increasing_insertField {key : String} {value : Json} {fields : List (String × Json)}
    (h : Increasing fields) : Increasing (insertField key value fields) := by
  induction fields with
  | nil => exact List.pairwise_singleton _ _
  | cons first rest ih =>
      obtain ⟨hfirst, hrest⟩ := List.pairwise_cons.mp h
      rw [insertField_cons]
      split
      · rename_i hlt
        refine List.pairwise_cons.mpr ⟨?_, h⟩
        intro field hfield
        rcases List.mem_cons.mp hfield with rfl | hfield
        · exact hlt
        · exact lt_trans hlt (hfirst field hfield)
      split
      · exact h
      · rename_i hnlt hne
        -- The new key lies behind the first one, so the rest is where it goes.
        have hgt : first.1 < key := lt_of_le_of_ne (not_lt.mp hnlt) (Ne.symm hne)
        refine List.pairwise_cons.mpr ⟨?_, ih hrest⟩
        intro field hfield
        rcases mem_insertField hfield with rfl | hfield
        · exact hgt
        · exact hfirst field hfield

theorem increasing_sortFields (fields : List (String × Json)) : Increasing (sortFields fields) := by
  induction fields with
  | nil => exact List.Pairwise.nil
  | cons first rest ih => exact increasing_insertField ih

/-- Fields that are in order stay as they are. -/
theorem sortFields_eq_self {fields : List (String × Json)} (h : Increasing fields) :
    sortFields fields = fields := by
  induction fields with
  | nil => rfl
  | cons first rest ih =>
      obtain ⟨hfirst, hrest⟩ := List.pairwise_cons.mp h
      show insertField first.1 first.2 (sortFields rest) = first :: rest
      rw [ih hrest]
      cases rest with
      | nil => rfl
      | cons second rest =>
          have hlt : first.1 < second.1 := hfirst second List.mem_cons_self
          rw [insertField_cons]
          rw [if_pos hlt]

/-- In front of larger keys there is nothing. -/
theorem lookup_eq_none_of_lt {key : String} {fields : List (String × Json)}
    (h : ∀ field ∈ fields, key < field.1) : fields.lookup key = none := by
  rw [lookup_eq_none]
  intro value hmem
  exact lt_irrefl key (h _ hmem)

theorem lookup_insertField (key : String) (value : Json) {fields : List (String × Json)}
    (h : Increasing fields) (other : String) :
    (insertField key value fields).lookup other =
      if other = key then some ((fields.lookup key).getD value) else fields.lookup other := by
  induction fields with
  | nil =>
      show List.lookup other [(key, value)] = _
      by_cases heq : other = key
      · rw [if_pos heq, heq, List.lookup_cons_self]
        rfl
      · have hbeq : (other == key) = false := beq_false_of_ne heq
        rw [if_neg heq, List.lookup_cons, hbeq]
  | cons first rest ih =>
      obtain ⟨hfirst, hrest⟩ := List.pairwise_cons.mp h
      rw [insertField_cons]
      split
      · rename_i hlt
        have hnone : (first :: rest).lookup key = none := by
          apply lookup_eq_none_of_lt
          intro field hfield
          rcases List.mem_cons.mp hfield with rfl | hfield
          · exact hlt
          · exact lt_trans hlt (hfirst field hfield)
        rw [List.lookup_cons]
        by_cases heq : other = key
        · rw [if_pos heq, heq, beq_self_eq_true, hnone]
          rfl
        · rw [if_neg heq, beq_false_of_ne heq]
      split
      · rename_i hkey
        by_cases heq : other = key
        · rw [if_pos heq, heq, List.lookup_cons, hkey, beq_self_eq_true]
          rfl
        · rw [if_neg heq]
      · rename_i hne
        rw [List.lookup_cons, List.lookup_cons, List.lookup_cons, ih hrest,
          beq_false_of_ne hne]
        by_cases hother : other = first.1
        · have hnkey : ¬ other = key := fun heq => hne (heq ▸ hother)
          have hbeq : (other == first.1) = true := beq_iff_eq.mpr hother
          rw [hbeq, if_neg hnkey, if_neg hnkey]
        · rw [beq_false_of_ne hother]

/-- Among sorted fields a key has the value that was given last. -/
theorem lookup_sortFields (fields : List (String × Json)) (key : String) :
    (sortFields fields).lookup key = fields.reverse.lookup key := by
  induction fields with
  | nil => rfl
  | cons first rest ih =>
      show (insertField first.1 first.2 (sortFields rest)).lookup key = _
      rw [lookup_insertField _ _ (increasing_sortFields rest), List.reverse_cons,
        List.lookup_append, ← ih, List.lookup_cons]
      by_cases heq : key = first.1
      · rw [if_pos heq, heq, beq_self_eq_true]
        cases (sortFields rest).lookup first.1 with
        | none => rfl
        | some value => rfl
      · rw [if_neg heq, beq_false_of_ne heq, List.lookup_nil, Option.or_none]

theorem field_dict (fields : List (String × Json)) (key : String) :
    (dict fields).field key = fields.reverse.lookup key := by
  show (sortFields fields).reverse.lookup key = _
  calc (sortFields fields).reverse.lookup key
      = (sortFields (sortFields fields)).lookup key := (lookup_sortFields _ _).symm
    _ = (sortFields fields).lookup key := by
        rw [sortFields_eq_self (increasing_sortFields fields)]
    _ = fields.reverse.lookup key := lookup_sortFields _ _

theorem get_dict (fields : List (String × Json)) (key : String) :
    (dict fields).get key = (fields.reverse.lookup key).getD .null := by
  unfold get
  rw [field_dict]

/-- Fields in order are determined by what is looked up in them. -/
theorem increasing_ext {one other : List (String × Json)} (hone : Increasing one)
    (hother : Increasing other) (h : ∀ key, one.lookup key = other.lookup key) : one = other := by
  induction one generalizing other with
  | nil =>
      cases other with
      | nil => rfl
      | cons first rest =>
          have hfirst := h first.1
          rw [List.lookup_nil, List.lookup_cons, beq_self_eq_true] at hfirst
          cases hfirst
  | cons field fields ih =>
      obtain ⟨hbehind, hfields⟩ := List.pairwise_cons.mp hone
      cases other with
      | nil =>
          have hfield := h field.1
          rw [List.lookup_nil, List.lookup_cons, beq_self_eq_true] at hfield
          cases hfield
      | cons first rest =>
          obtain ⟨hlater, hrest⟩ := List.pairwise_cons.mp hother
          have hself : (field :: fields).lookup field.1 = some field.2 := by
            rw [List.lookup_cons, beq_self_eq_true]
          have hfirst : (first :: rest).lookup first.1 = some first.2 := by
            rw [List.lookup_cons, beq_self_eq_true]
          -- The smaller of the two first keys would be missing in the other list.
          have hkey : field.1 = first.1 := by
            rcases lt_trichotomy field.1 first.1 with hlt | heq | hgt
            · have hnone : (first :: rest).lookup field.1 = none := by
                apply lookup_eq_none_of_lt
                intro other hmem
                rcases List.mem_cons.mp hmem with rfl | hmem
                · exact hlt
                · exact lt_trans hlt (hlater other hmem)
              rw [← h, hself] at hnone
              cases hnone
            · exact heq
            · have hnone : (field :: fields).lookup first.1 = none := by
                apply lookup_eq_none_of_lt
                intro other hmem
                rcases List.mem_cons.mp hmem with rfl | hmem
                · exact hgt
                · exact lt_trans hgt (hbehind other hmem)
              rw [h, hfirst] at hnone
              cases hnone
          have hvalue : field.2 = first.2 := by
            rw [h, hkey, hfirst] at hself
            exact (Option.some.inj hself).symm
          have hbehindNone : fields.lookup field.1 = none := lookup_eq_none_of_lt hbehind
          have hlaterNone : rest.lookup first.1 = none := lookup_eq_none_of_lt hlater
          have htail : fields = rest := by
            apply ih hfields hrest
            intro key
            by_cases heq : key = field.1
            · rw [heq, hbehindNone, hkey, hlaterNone]
            · have hlookup := h key
              rw [List.lookup_cons, List.lookup_cons, beq_false_of_ne heq,
                beq_false_of_ne (hkey ▸ heq)] at hlookup
              exact hlookup
          rw [htail]
          exact congrArg (· :: rest) (Prod.ext hkey hvalue)

theorem lookup_dict_fields (fields : List (String × Json)) (key : String) :
    (sortFields fields).reverse.lookup key = fields.reverse.lookup key :=
  field_dict fields key

/-- Later fields are put over a dictionary as over the fields that it was made of. -/
theorem extend_dict (fields extra : List (String × Json)) :
    (dict fields).extend extra = dict (fields ++ extra) := by
  show Json.obj (sortFields (sortFields fields ++ extra)) = .obj (sortFields (fields ++ extra))
  congr 1
  apply increasing_ext (increasing_sortFields _) (increasing_sortFields _)
  intro key
  rw [lookup_sortFields, lookup_sortFields, List.reverse_append, List.reverse_append,
    List.lookup_append, List.lookup_append, lookup_dict_fields]

/-- A key that is picked keeps its value. -/
theorem get_pick {keys : List String} {key : String} (h : key ∈ keys) (value : Json) :
    (pick keys value).get key = value.get key := by
  have hlookup : (keys.map fun key => (key, value.get key)).reverse.lookup key =
      some (value.get key) := by
    apply lookup_eq_some_of_agree
    · rw [List.mem_reverse]
      exact List.mem_map.mpr ⟨key, h, rfl⟩
    · intro other hother
      rw [List.mem_reverse] at hother
      obtain ⟨name, -, hname⟩ := List.mem_map.mp hother
      cases hname
      rfl
  unfold pick
  rw [get_dict, hlookup]
  rfl

/-! ## The canonical form -/

theorem canonicalItems_eq (items : List Json) : canonicalItems items = items.map canonical := by
  induction items with
  | nil => rfl
  | cons item items ih => exact congrArg (canonical item :: ·) ih

theorem canonicalFields_eq (fields : List (String × Json)) :
    canonicalFields fields = sortFields (fields.map fun field => (field.1, canonical field.2)) := by
  induction fields with
  | nil => rfl
  | cons field fields ih =>
      obtain ⟨key, value⟩ := field
      exact congrArg (insertField key (canonical value)) ih

/-- Every object of the value is a dictionary. -/
def Canonical (value : Json) : Prop :=
  canonical value = value

@[simp] theorem canonical_null : Canonical .null := rfl

@[simp] theorem canonical_bool (value : Bool) : Canonical (.bool value) := rfl

@[simp] theorem canonical_int (value : ℤ) : Canonical (.int value) := rfl

@[simp] theorem canonical_str (value : String) : Canonical (.str value) := rfl

theorem canonical_arr (items : List Json) :
    canonical (.arr items) = .arr (items.map canonical) :=
  congrArg Json.arr (canonicalItems_eq items)

theorem canonical_obj (fields : List (String × Json)) :
    canonical (.obj fields) = dict (fields.map fun field => (field.1, canonical field.2)) :=
  congrArg Json.obj (canonicalFields_eq fields)

theorem lookup_map_canonical (fields : List (String × Json)) (key : String) :
    (fields.map fun field => (field.1, canonical field.2)).lookup key =
      (fields.lookup key).map canonical := by
  induction fields with
  | nil => rfl
  | cons field fields ih =>
      rw [List.map_cons, List.lookup_cons, List.lookup_cons, ih]
      cases key == field.1 with
      | true => rfl
      | false => rfl

/-- A value is looked up in the canonical form where it is in the value itself. -/
theorem get_canonical (value : Json) (key : String) :
    (canonical value).get key = canonical (value.get key) := by
  cases value with
  | obj fields =>
      rw [canonical_obj, get_dict, ← List.map_reverse, lookup_map_canonical]
      show _ = canonical ((fields.reverse.lookup key).getD .null)
      cases fields.reverse.lookup key with
      | none => exact canonical_null.symm
      | some found => rfl
  | arr items =>
      rw [canonical_arr]
      exact canonical_null.symm
  | null =>
      rw [canonical_null]
      exact canonical_null.symm
  | bool value =>
      rw [canonical_bool]
      exact canonical_null.symm
  | int value =>
      rw [canonical_int]
      exact canonical_null.symm
  | str value =>
      rw [canonical_str]
      exact canonical_null.symm

theorem Same.get {one other : Json} (h : Same one other) (key : String) :
    Same (one.get key) (other.get key) := by
  unfold Same at *
  rw [← get_canonical, ← get_canonical, h]

/-- Lists are the same item by item. -/
theorem Same.items {one other : List Json} (h : Same (.arr one) (.arr other)) :
    List.Forall₂ Same one other := by
  unfold Same at h
  rw [canonical_arr, canonical_arr] at h
  injection h with h
  have hmapped : List.Forall₂ Eq (one.map canonical) (other.map canonical) := by
    rw [List.forall₂_eq_eq_eq]
    exact h
  rw [List.forall₂_map_left_iff, List.forall₂_map_right_iff] at hmapped
  exact hmapped

/-- Values with one text are the same. -/
theorem same_of_dumps {one other : Json} (h : dumps one = dumps other) : Same one other :=
  render_injective h

/-- Values that are the same where they are picked agree on the picked keys. -/
theorem Same.of_pick {keys : List String} {one other : Json}
    (h : Same (pick keys one) (pick keys other)) {key : String} (hkey : key ∈ keys) :
    Same (one.get key) (other.get key) := by
  have hget : Same ((pick keys one).get key) ((pick keys other).get key) := h.get key
  rwa [get_pick hkey, get_pick hkey] at hget

/-! ## Values in canonical form -/

theorem canonical_items {items : List Json} (h : ∀ item ∈ items, Canonical item) :
    Canonical (.arr items) := by
  unfold Canonical
  rw [canonical_arr]
  congr 1
  calc items.map canonical
      = items.map id := List.map_congr_left h
    _ = items := List.map_id items

theorem canonical_dict {fields : List (String × Json)} (h : ∀ field ∈ fields, Canonical field.2) :
    Canonical (dict fields) := by
  have hvalues : (sortFields fields).map (fun field => (field.1, canonical field.2)) =
      sortFields fields := by
    calc (sortFields fields).map (fun field => (field.1, canonical field.2))
        = (sortFields fields).map id := by
          apply List.map_congr_left
          intro field hfield
          have hvalue : canonical field.2 = field.2 := h field (mem_sortFields hfield)
          rw [hvalue]
          rfl
      _ = sortFields fields := List.map_id _
  show canonical (.obj (sortFields fields)) = .obj (sortFields fields)
  rw [canonical_obj, hvalues]
  show Json.obj (sortFields (sortFields fields)) = _
  rw [sortFields_eq_self (increasing_sortFields fields)]

@[simp] theorem canonical_ofOption {α : Type*} {write : α → Json} (h : ∀ value, Canonical (write value))
    (value : Option α) : Canonical (ofOption write value) := by
  cases value with
  | none => exact canonical_null
  | some value => exact h value

/-- A written value is read back, in whatever order its fields were written. -/
theorem loads_render {written value : Json} (h : canonical written = value) :
    loads (render written) = some value := by
  unfold loads
  rw [parse_render, Option.map_some, h]

end Json

end Hearth.Library
