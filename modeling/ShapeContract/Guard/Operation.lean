import ShapeContract.Guard.Call

/-!
# Stock operations

Small operations to put under a guard. Their errors are texts.
-/

namespace ShapeContract

namespace Operation

/-- Give the arguments back as an array. -/
def echo : Operation String Json := fun arguments => .ok (.array arguments)

/-- Give the first argument back. -/
def first : Operation String Json
  | [] => .error "no arguments"
  | x :: _ => .ok x

/-- Give the arguments back as an array, the last one first. -/
def reverse : Operation String Json := fun arguments => .ok (.array arguments.reverse)

/-- Count the arguments. -/
def count : Operation String Json := fun arguments =>
  if h : arguments.length < wordBound then .ok (.number (.unsigned arguments.length h))
  else .error "too many arguments"

/-- Give the same value for all arguments. -/
def constant (value : Json) : Operation String Json := fun _ => .ok value

/-- Show the arguments as in messages. -/
def render : Operation String Json := fun arguments => .ok (.string (Json.array arguments).render)

/-- Fail with a message. -/
def failing (message : String) : Operation String Json := fun _ => .error message

/-- Echo the arguments, or fail if there is a message to fail with. -/
def echoOrFail : Option String → Operation String Json
  | none => echo
  | some message => failing message

end Operation

end ShapeContract
