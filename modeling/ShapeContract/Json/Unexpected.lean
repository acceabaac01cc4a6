import ShapeContract.Json.Basic

/-!
# Values of the wrong type

How a value is named in a message that says it is not what was asked for: by its type, and scalars
by their content too.
-/

namespace ShapeContract

namespace Json

/-- A value named by its type and, for a scalar, by its content. Strings are quoted by `quote`. -/
def unexpected (quote : String → String) : Json → String
  | null => "null"
  | boolean true => "boolean `true`"
  | boolean false => "boolean `false`"
  | number (.double d) => "floating point `" ++ (Number.double d).text ++ "`"
  | number n => "integer `" ++ n.text ++ "`"
  | string s => "string " ++ quote s
  | array _ => "sequence"
  | object _ => "map"

end Json

end ShapeContract
