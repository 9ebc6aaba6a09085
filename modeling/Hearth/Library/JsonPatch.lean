import Hearth.Library.JsonDict

/-!
# Changing the fields of a JSON object

`extend` sets fields of an object, later ones over earlier ones, and `drop` removes one.
Both leave every other field as it was, and leave alone what is no object.
-/

namespace Hearth.Library

namespace Json

/-- `value.pop(key, None)`. -/
def drop (value : Json) (key : String) : Json :=
  match value with
  | .obj fields => .obj (fields.filter fun field => field.1 ≠ key)
  | value => value

@[simp] theorem isDict_extend (value : Json) (fields : List (String × Json)) :
    (value.extend fields).isDict = value.isDict := by
  cases value <;> rfl

@[simp] theorem isDict_drop (value : Json) (key : String) : (value.drop key).isDict = value.isDict := by
  cases value <;> rfl

/-- A field that is set has its last value; any other keeps its own. -/
theorem get_extend {value : Json} (hdict : value.isDict = true) (fields : List (String × Json))
    (key : String) :
    (value.extend fields).get key = (fields.reverse.lookup key).getD (value.get key) := by
  cases value with
  | obj present =>
      show (dict (present ++ fields)).get key = _
      rw [get_dict, List.reverse_append, List.lookup_append]
      cases fields.reverse.lookup key <;> rfl
  | null | bool | int | str | arr => cases hdict

/-- What is set in an object can be read back. -/
theorem get_extend_of_mem {value new : Json} (hdict : value.isDict = true)
    {fields : List (String × Json)} {key : String} (hmem : (key, new) ∈ fields)
    (hagree : ∀ other, (key, other) ∈ fields → other = new) :
    (value.extend fields).get key = new := by
  have hlookup : fields.reverse.lookup key = some new := by
    apply lookup_eq_some_of_agree (List.mem_reverse.mpr hmem)
    intro other hother
    exact hagree other (List.mem_reverse.mp hother)
  rw [get_extend hdict, hlookup]
  rfl

/-- What is not set keeps its value. -/
theorem get_extend_of_notMem (value : Json) {fields : List (String × Json)} {key : String}
    (hmem : key ∉ fields.map Prod.fst) : (value.extend fields).get key = value.get key := by
  cases value with
  | obj present =>
      have hlookup : fields.reverse.lookup key = none := by
        rw [lookup_eq_none]
        intro other hother
        exact hmem (List.mem_map.mpr ⟨_, List.mem_reverse.mp hother, rfl⟩)
      rw [get_extend rfl, hlookup]
      rfl
  | null | bool | int | str | arr => rfl

/-- Removing a field leaves the others. -/
theorem get_drop_of_ne (value : Json) {key dropped : String} (hne : key ≠ dropped) :
    (value.drop dropped).get key = value.get key := by
  cases value with
  | obj fields =>
      show ((fields.filter _).reverse.lookup key).getD .null = (fields.reverse.lookup key).getD .null
      congr 1
      rw [← List.filter_reverse]
      induction fields.reverse with
      | nil => rfl
      | cons first rest ih =>
          by_cases hfirst : first.1 = dropped
          · rw [List.filter_cons_of_neg (by simpa using hfirst), List.lookup_cons,
              beq_false_of_ne (fun heq => hne (heq.trans hfirst))]
            exact ih
          · rw [List.filter_cons_of_pos (by simpa using hfirst), List.lookup_cons, List.lookup_cons, ih]
  | null | bool | int | str | arr => rfl

end Json

end Hearth.Library
