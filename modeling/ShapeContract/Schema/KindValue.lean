import ShapeContract.Json.Unexpected
import ShapeContract.Text.Quoted

/-!
# Kinds from values

A kind is written as its tag, or as an object with the tag as its only name and null as value.
-/

namespace ShapeContract

/-- Why a value is not a kind. -/
inductive KindValueError
  | unknownTag (tag : String)
  /-- The value is neither a string nor an object. -/
  | wrongType (found : Json)
  /-- The object does not have exactly one member. -/
  | notSingle
  /-- The member of a known tag is not null. -/
  | notNull (found : Json)

/-- The message of an error. -/
def KindValueError.message : KindValueError → String
  | unknownTag tag =>
    "unknown variant `" ++ tag ++ "`, expected one of " ++
      ", ".intercalate (Kind.all.map fun k => "`" ++ k.tag ++ "`")
  | wrongType found =>
    "invalid type: " ++ found.unexpected Text.quoted ++ ", expected string or map"
  | notSingle => "invalid value: map, expected map with a single key"
  | notNull found => "invalid type: " ++ found.unexpected Text.quoted ++ ", expected unit"

/-- The kind with a tag. -/
def Kind.ofTag (tag : String) : Except KindValueError Kind :=
  match Kind.ofTag? tag with
  | some k => .ok k
  | none => .error (.unknownTag tag)

/-- The kind that a value stands for. -/
def Kind.ofValue : Json → Except KindValueError Kind
  | .string tag => Kind.ofTag tag
  | .object (.cons tag _ v .nil) =>
    match Kind.ofTag tag, v with
    | .ok k, .null => .ok k
    | .ok _, v => .error (.notNull v)
    | .error e, _ => .error e
  | .object _ => .error .notSingle
  | v => .error (.wrongType v)

end ShapeContract
