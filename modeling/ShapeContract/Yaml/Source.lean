/-!
# Characters of a YAML document

A document is a list of characters, each with its place, that ends with a mark of its own. Every
kind of line break but the two Unicode separators is the same character here. A text with a
control character or another character that documents may not contain has no such list.
-/

namespace ShapeContract

namespace Yaml

/-- A character with its line and its column, both counted from zero, and the number of bytes before
it in the text. -/
structure Cell where
  char : Char
  line : Nat
  column : Nat
  index : Nat

/-- The mark at the end of a document; it is not a character that a document may contain. -/
def endMark : Char := '\x00'

/-- The mark that may stand at the beginning of a line and is skipped there. -/
def byteOrderMark : Char := '\uFEFF'

/-! ### Classes of characters -/

/-- A document may contain the character. -/
def isAllowed (c : Char) : Bool :=
  c == '\t' || c == '\n' || c == '\r' || (' ' ≤ c && c ≤ '~') || c == '\x85' ||
    ('\xA0' ≤ c && c.toNat ≤ 0xFFFD) || 0x10000 ≤ c.toNat

/-- A line break, in documents where the others have been replaced by the line feed. -/
def isBreak (c : Char) : Bool := c == '\n' || c == '\u2028' || c == '\u2029'

/-- A space or a tab. -/
def isBlank (c : Char) : Bool := c == ' ' || c == '\t'

/-- A line break or the end. -/
def isBreakOrEnd (c : Char) : Bool := isBreak c || c == endMark

/-- A space, a tab, a line break or the end. -/
def isBlankOrEnd (c : Char) : Bool := isBlank c || isBreakOrEnd c

/-- A letter, a digit, a hyphen or an underscore, all of them ASCII. -/
def isWord (c : Char) : Bool := c.isAlphanum || c == '-' || c == '_'

/-- A character that has a meaning of its own between brackets or braces. -/
def isFlowIndicator (c : Char) : Bool := ",[]\x7b\x7d".toList.contains c

/-! ### The list of characters -/

/-- The characters from a place on, with line breaks made alike. -/
def cellsFrom (line column index : Nat) : List Char → List Cell
  | [] => [⟨endMark, line, column, index⟩]
  | '\r' :: '\n' :: rest => ⟨'\n', line, column, index⟩ :: cellsFrom (line + 1) 0 (index + 2) rest
  | c :: rest =>
    if c = '\r' ∨ c = '\n' ∨ c = '\x85' then
      ⟨'\n', line, column, index⟩ :: cellsFrom (line + 1) 0 (index + c.utf8Size) rest
    else if isBreak c then
      ⟨c, line, column, index⟩ :: cellsFrom (line + 1) 0 (index + c.utf8Size) rest
    else ⟨c, line, column, index⟩ :: cellsFrom line (column + 1) (index + c.utf8Size) rest

/-- The characters of a text that is allowed as a document. -/
def cells? (text : List Char) : Option (List Cell) :=
  if text.all isAllowed then some (cellsFrom 0 0 0 text) else none

/-- The character at a distance from the front; after the end there are only end marks. -/
def charAt (n : Nat) (cs : List Cell) : Char :=
  match cs[n]? with
  | some c => c.char
  | none => endMark

/-- The column of the first character. -/
def column (cs : List Cell) : Nat :=
  match cs with
  | [] => 0
  | c :: _ => c.column

/-- The characters at the front for which a test holds, and the rest. -/
def takeChars (p : Char → Bool) (cs : List Cell) : List Char × List Cell :=
  ((cs.takeWhile fun c => p c.char).map Cell.char, cs.dropWhile fun c => p c.char)

/-- The rest after the characters at the front for which a test holds. -/
def skipChars (p : Char → Bool) (cs : List Cell) : List Cell := cs.dropWhile fun c => p c.char

/-- Three hyphens or three dots at the beginning of a line, with a blank or the end after them. -/
def atDocumentMark (mark : Char) (cs : List Cell) : Bool :=
  column cs == 0 && charAt 0 cs == mark && charAt 1 cs == mark && charAt 2 cs == mark &&
    isBlankOrEnd (charAt 3 cs)

/-- The beginning or the end of a document stands at the front. -/
def atDocumentBoundary (cs : List Cell) : Bool := atDocumentMark '-' cs || atDocumentMark '.' cs

/-- Skip what stands between tokens: blanks, comments and line breaks. Outside of brackets a tab
is skipped only where no key may begin, and a key may begin on every new line; the flag that comes
back says whether one may begin at the rest. -/
def skipToToken (flow : Bool) : (comment keyAllowed : Bool) → List Cell → Bool × List Cell
  | _, keyAllowed, [] => (keyAllowed, [])
  | comment, keyAllowed, c :: rest =>
    if isBreak c.char then skipToToken flow false (keyAllowed || !flow) rest
    else if c.char == endMark then (keyAllowed, c :: rest)
    else if comment || c.char == '#' then skipToToken flow true keyAllowed rest
    else if c.char == ' ' || (c.char == byteOrderMark && c.column == 0) ||
        (c.char == '\t' && (flow || !keyAllowed)) then
      skipToToken flow false keyAllowed rest
    else (keyAllowed, c :: rest)

end Yaml

end ShapeContract
