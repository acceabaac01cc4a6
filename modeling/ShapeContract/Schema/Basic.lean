import ShapeContract.Json.Writer

/-!
# Schemas

A schema describes the shape of a value. It is a kind, or a sequence whose elements all have one
shape, or a record of named fields with a shape each. Every schema has a literal, the JSON value
that stands for it: a kind is the string with its tag, a sequence an array that holds the literal
of the elements, a record an object of literals.
-/

namespace ShapeContract

/-- The shape of a value. -/
inductive Schema
  | primitive (kind : Kind)
  | sequence (element : Schema)
  | record (fields : Fields Schema none)

namespace Schema

/-! ### Constructors -/

/-- Any number. -/
def number : Schema := primitive .number

/-- Any string. -/
def string : Schema := primitive .string

/-- Any boolean. -/
def boolean : Schema := primitive .boolean

/-- The record with the given fields; of a name that is given again the last shape counts. -/
def ofFields (fields : List (String × Schema)) : Schema := record (Dict.ofList fields)

/-! ### Depth -/

mutual

/-- The number of levels of a schema. -/
def depth : Schema → Nat
  | primitive _ => 1
  | sequence e => 1 + e.depth
  | record fs => 1 + depthOfFields fs

/-- The greatest number of levels among the fields. -/
def depthOfFields : {b : Option String} → Fields Schema b → Nat
  | _, .nil => 0
  | _, .cons _ _ s rest => max s.depth (depthOfFields rest)

end

/-! ### Literals -/

mutual

/-- The value that stands for a schema. -/
def literal : Schema → Json
  | primitive k => .string k.tag
  | sequence e => .array [e.literal]
  | record fs => .object (literalOfFields fs)

/-- The values that stand for the fields. -/
def literalOfFields : {b : Option String} → Fields Schema b → Fields Json b
  | _, .nil => .nil
  | _, .cons k h s rest => .cons k h s.literal (literalOfFields rest)

end

/-- The text of the literal. -/
def text (s : Schema) : String := s.literal.text

/-! ### Equality -/

mutual

/-- Equality of schemas can be decided. -/
def decEq : (s t : Schema) → Decidable (s = t)
  | primitive k, primitive l =>
    if h : k = l then isTrue (h ▸ rfl) else isFalse fun e => h (by injection e)
  | sequence s, sequence t =>
    match decEq s t with
    | isTrue h => isTrue (h ▸ rfl)
    | isFalse h => isFalse fun e => h (by injection e)
  | record fs, record gs =>
    match decEqFields fs gs with
    | isTrue h => isTrue (h ▸ rfl)
    | isFalse h => isFalse fun e => h (by injection e)
  | primitive _, sequence _ => isFalse (by simp)
  | primitive _, record _ => isFalse (by simp)
  | sequence _, primitive _ => isFalse (by simp)
  | sequence _, record _ => isFalse (by simp)
  | record _, primitive _ => isFalse (by simp)
  | record _, sequence _ => isFalse (by simp)

/-- Equality of fields can be decided. -/
def decEqFields : {b : Option String} → (fs gs : Fields Schema b) → Decidable (fs = gs)
  | _, .nil, .nil => isTrue rfl
  | _, .nil, .cons .. => isFalse (by simp)
  | _, .cons .., .nil => isFalse (by simp)
  | _, .cons k _ s rest, .cons l _ t rest' =>
    if h : k = l then by
      subst h
      exact
        match decEq s t, decEqFields rest rest' with
        | isTrue hs, isTrue hr => isTrue (by rw [hs, hr])
        | isFalse hs, _ => isFalse fun e => hs (by injection e)
        | _, isFalse hr => isFalse fun e => hr (by injection e)
    else isFalse fun e => h (by injection e)

end

instance : DecidableEq Schema := decEq

end Schema

end ShapeContract
