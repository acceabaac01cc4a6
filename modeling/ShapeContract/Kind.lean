/-!
# Kinds of values

The six kinds of JSON values, each with a tag that names it in schema literals and in messages.
-/

namespace ShapeContract

/-- What a value is at its top level. -/
inductive Kind
  | null
  | boolean
  | number
  | string
  | array
  | object
  deriving DecidableEq, Repr

namespace Kind

/-- Every kind, in the order in which messages list them. -/
def all : List Kind := [null, boolean, number, string, array, object]

/-- The name of a kind. -/
def tag : Kind → String
  | null => "null"
  | boolean => "boolean"
  | number => "number"
  | string => "string"
  | array => "array"
  | object => "object"

/-- The kind with a given name. Names are compared letter by letter. -/
def ofTag? (tag : String) : Option Kind := all.find? fun k => k.tag == tag

/-- A kind is found by its own name. -/
theorem ofTag?_tag (k : Kind) : ofTag? k.tag = some k := by
  cases k <;> decide

/-- A name stands for no kind but its own. -/
theorem tag_of_ofTag? {tag : String} {k : Kind} (h : ofTag? tag = some k) : k.tag = tag := by
  have := List.find?_some h
  simpa using this

theorem ofTag?_eq_none_iff {tag : String} : ofTag? tag = none ↔ ∀ k : Kind, k.tag ≠ tag := by
  constructor
  · rintro h k rfl
    rw [ofTag?_tag] at h
    cases h
  · intro h
    cases hk : ofTag? tag with
    | none => rfl
    | some k => exact absurd (tag_of_ofTag? hk) (h k)

end Kind

end ShapeContract
