import ShapeContract.Json.Basic

/-!
# Rendering values in messages

The short text of a value in a message about it. A string stands for itself, an object for the
fixed text `[object Object]`, and an array for its elements with commas between them, where null
elements are empty. Brackets are not written, so nesting does not show.

Numbers are shown as doubles: an integer beyond 53 bits as the nearest double, and an integral
double below `10 ^ 21` by its shortest digits with zeros in place of an exponent. Both zeros are
shown as `0`.
-/

namespace ShapeContract

/-- The text that stands for any object. -/
def objectRendering : String := "[object Object]"

namespace Number

/-- The greatest natural number up to which every one is a double. -/
def maxSafeInteger : Nat := significandBound - 1

/-- Ten to the power of 21, from where on doubles are shown with an exponent. -/
def renderLimit : Nat := 1000000000000000000000

/-- The text of a double that is an integer below `10 ^ 21` in magnitude; there is none for other
doubles. -/
def integralText? (d : Double) : Option String :=
  match d.natural? with
  | some n =>
    if n = 0 then some "0"
    else if n < renderLimit then some ((if d.negative then "-" else "") ++ d.shortest.integerText)
    else none
  | none => none

/-- How a number is shown in a message. -/
def render (n : Number) : String :=
  match n with
  | unsigned k _ =>
    if k ≤ maxSafeInteger then Nat.repr k else (integralText? n.toDouble).getD n.text
  | negative k _ =>
    if k ≤ maxSafeInteger then "-" ++ Nat.repr k else (integralText? n.toDouble).getD n.text
  | double d => (integralText? d).getD n.text

end Number

namespace Json

mutual

/-- How a value is shown in a message. -/
def render : Json → String
  | null => "null"
  | boolean true => "true"
  | boolean false => "false"
  | number n => n.render
  | string s => s
  | object _ => objectRendering
  | array xs => ",".intercalate (renderElements xs)

/-- How the elements of an array are shown. -/
def renderElements : List Json → List String
  | [] => []
  | null :: xs => "" :: renderElements xs
  | x :: xs => x.render :: renderElements xs

end

end Json

end ShapeContract
