import ShapeContract.Json.Basic

/-!
# Written values

One writer gives the text of a value for any layout. A layout says what stands before an element
or a member at a given depth and what stands between a name and its value: nothing but the colon
in the compact layout, a line break, two spaces for each level and a space after the colon in the
indented one. Empty arrays and objects are written `[]` and `{}` in every layout. Strings escape
the quote, the backslash and the control characters below U+0020, and nothing else.
-/

namespace ShapeContract

namespace Json

/-! ### Strings -/

/-- A hexadecimal digit. -/
def hexDigit (n : Nat) : Char := if n < 10 then Char.ofNat (48 + n) else Char.ofNat (87 + n)

/-- How one character is written inside a string. -/
def escapeChar (c : Char) : List Char :=
  match c with
  | '"' => ['\\', '"']
  | '\\' => ['\\', '\\']
  | '\n' => ['\\', 'n']
  | '\r' => ['\\', 'r']
  | '\t' => ['\\', 't']
  | '\x08' => ['\\', 'b']
  | '\x0c' => ['\\', 'f']
  | c =>
    if c.toNat < 32 then ['\\', 'u', '0', '0', hexDigit (c.toNat / 16), hexDigit (c.toNat % 16)]
    else [c]

/-- A string in quotes. -/
def quoted (s : String) : List Char := '"' :: s.toList.flatMap escapeChar ++ ['"']

/-! ### Values -/

/-- What the writer puts between the parts of a value. -/
structure Layout where
  /-- What stands before an element or a closing bracket at a depth. -/
  line : Nat → List Char
  /-- What stands between a name and its value. -/
  colon : List Char

/-- Everything on one line, without blanks. -/
def Layout.compact : Layout := ⟨fun _ => [], [':']⟩

/-- Every element on a line of its own, two spaces deeper than what holds it. -/
def Layout.indented : Layout := ⟨fun depth => '\n' :: List.replicate (2 * depth) ' ', [':', ' ']⟩

mutual

/-- The characters of a value that stands at a depth. -/
def write (l : Layout) (depth : Nat) : Json → List Char
  | null => "null".toList
  | boolean true => "true".toList
  | boolean false => "false".toList
  | number n => n.text.toList
  | string s => quoted s
  | array [] => ['[', ']']
  | array (x :: xs) =>
    '[' :: l.line (depth + 1) ++ (x.write l (depth + 1) ++ writeElements l depth xs)
  | object .nil => ['{', '}']
  | object (.cons k _ v rest) =>
    '{' :: l.line (depth + 1) ++
      (quoted k ++ l.colon ++ (v.write l (depth + 1) ++ writeMembers l depth rest))

/-- The elements after the first, each after a comma, and the closing bracket. -/
def writeElements (l : Layout) (depth : Nat) : List Json → List Char
  | [] => l.line depth ++ [']']
  | x :: xs =>
    ',' :: l.line (depth + 1) ++ (x.write l (depth + 1) ++ writeElements l depth xs)

/-- The members after the first, each after a comma, and the closing brace. -/
def writeMembers (l : Layout) (depth : Nat) : {b : Option String} → Fields Json b → List Char
  | _, .nil => l.line depth ++ ['}']
  | _, .cons k _ v rest =>
    ',' :: l.line (depth + 1) ++
      (quoted k ++ l.colon ++ (v.write l (depth + 1) ++ writeMembers l depth rest))

end

/-- The compact text of a value. -/
def text (v : Json) : String := String.ofList (v.write .compact 0)

/-- The indented text of a value. -/
def indentedText (v : Json) : String := String.ofList (v.write .indented 0)

end Json

end ShapeContract
