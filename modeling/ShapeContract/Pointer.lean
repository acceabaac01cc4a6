/-!
# Pointers into a value

A pointer names a node of a value by the way from the root: every step adds a slash and a token,
the name of a member or the position of an element in decimal. Inside a token a tilde is written
`~0` and a slash `~1`, so the steps can be told apart. The root has the empty pointer.
-/

namespace ShapeContract

namespace Pointer

/-- How one character of a token is written. -/
def escapeChar (c : Char) : List Char :=
  match c with
  | '~' => ['~', '0']
  | '/' => ['~', '1']
  | c => [c]

/-- A token without tildes and slashes of its own. -/
def escape (token : String) : String := String.ofList (token.toList.flatMap escapeChar)

/-- The pointer to a member of the node at `base`. -/
def child (base token : String) : String := base ++ "/" ++ escape token

/-- The pointer to an element of the node at `base`. -/
def index (base : String) (i : Nat) : String := base ++ "/" ++ Nat.repr i

/-- How a pointer is shown in a message. -/
def shown (pointer : String) : String := if pointer = "" then "(root)" else pointer

/-- A step of a pointer: the name of a member or the position of an element. -/
inductive Token
  | name (s : String)
  | position (i : Nat)
  deriving DecidableEq, Repr

/-- Add a step to a pointer. -/
def extend (base : String) : Token → String
  | .name s => child base s
  | .position i => index base i

end Pointer

end ShapeContract
