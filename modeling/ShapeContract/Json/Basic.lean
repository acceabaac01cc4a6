import ShapeContract.Fields
import ShapeContract.Json.Number
import ShapeContract.Kind

/-!
# JSON values

A value is null, a boolean, a number, a string, an array of values or an object with values under
names. The names of an object are kept in ascending order, each once, so two values are equal
exactly when they have the same content.
-/

namespace ShapeContract

/-- A JSON value. -/
inductive Json
  | null
  | boolean (b : Bool)
  | number (n : Number)
  | string (s : String)
  | array (elements : List Json)
  | object (members : Fields Json none)

namespace Json

/-- The kind of a value. -/
def kind : Json → Kind
  | null => .null
  | boolean _ => .boolean
  | number _ => .number
  | string _ => .string
  | array _ => .array
  | object _ => .object

/-- A natural number as a value. -/
def ofNatural (n : Nat) (h : n < wordBound) : Json := .number (.unsigned n h)

end Json

end ShapeContract
