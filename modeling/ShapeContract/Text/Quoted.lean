import ShapeContract.Text.Hidden

/-!
# Quoted text in messages

A text that comes from a document is quoted in a message so that the message shows every character
of it: the quote and the backslash get a backslash, the common controls a letter, and any other
character without a picture of its own is written by its number.
-/

namespace ShapeContract

namespace Text

/-- How one character is shown inside quotes. -/
def showChar (c : Char) : List Char :=
  match c with
  | '\x00' => ['\\', '0']
  | '\t' => ['\\', 't']
  | '\r' => ['\\', 'r']
  | '\n' => ['\\', 'n']
  | '"' => ['\\', '"']
  | '\\' => ['\\', '\\']
  | c =>
    if isHidden c then ['\\', 'u', '\x7b'] ++ Nat.toDigits 16 c.toNat ++ ['\x7d'] else [c]

/-- A text in quotes. -/
def quoted (s : String) : String := String.ofList ('"' :: s.toList.flatMap showChar ++ ['"'])

end Text

end ShapeContract
