import ShapeContract.Yaml.Source

/-!
# Scalars

The three ways to write the text of a scalar: plain, in quotes, and as a block of lines. In the
first two a line break between words becomes a space, and the first of several line breaks is
dropped. Every function takes the characters from the scalar on and gives its text and the rest,
or nothing if the text is not well formed.

A bound on the number of steps is carried where one step may read several characters; each step
reads at least one, so the number of characters is enough.
-/

namespace ShapeContract

namespace Yaml

/-! ### Blanks and line breaks between words -/

/-- What stands between two words: blanks of one line, or line breaks. -/
structure Gap where
  /-- The blanks before the first line break. -/
  blanks : List Char := []
  /-- The first line break. -/
  first : List Char := []
  /-- The line breaks after the first. -/
  others : List Char := []
  /-- A new line has begun. -/
  newLine : Bool := false

namespace Gap

/-- Add a blank; on a new line it is indentation and has no meaning. -/
def addBlank (c : Char) (g : Gap) : Gap := if g.newLine then g else { g with blanks := g.blanks ++ [c] }

/-- Add a line break; the blanks before the first one have no meaning. -/
def addBreak (c : Char) (g : Gap) : Gap :=
  if g.newLine then { g with others := g.others ++ [c] }
  else { g with blanks := [], first := [c], newLine := true }

/-- The text that a gap stands for. A single line feed becomes a space. -/
def text (g : Gap) : List Char :=
  if g.newLine then
    if g.first = ['\n'] then if g.others.isEmpty then [' '] else g.others
    else g.first ++ g.others
  else g.blanks

end Gap

/-- Read a gap, in which no tab may stand on a new line before the column `indent`. -/
def readGap (indent : Nat) (g : Gap) : List Cell → Option (Gap × List Cell)
  | [] => some (g, [])
  | c :: rest =>
    if isBlank c.char then
      if g.newLine && c.column < indent && c.char == '\t' then none
      else readGap indent (g.addBlank c.char) rest
    else if isBreak c.char then readGap indent (g.addBreak c.char) rest
    else some (g, c :: rest)

/-! ### Plain scalars -/

/-- The characters of a plain scalar up to a blank or to what ends the scalar. Between brackets a
colon before an indicator is an error. -/
def readPlainWord (flow : Bool) : List Cell → Option (List Char × List Cell)
  | [] => some ([], [])
  | c :: rest =>
    if isBlankOrEnd c.char then some ([], c :: rest)
    else if flow && c.char == ':' && (isFlowIndicator (charAt 0 rest) || charAt 0 rest == '?') then
      none
    else if (c.char == ':' && isBlankOrEnd (charAt 0 rest)) || (flow && isFlowIndicator c.char) then
      some ([], c :: rest)
    else (readPlainWord flow rest).map fun (text, rest) => (c.char :: text, rest)

/-- A plain scalar after a gap. Outside of brackets its lines after the first are indented to
`indent` at least. The flag that comes back says that the rest begins on a new line. -/
def readPlain (flow : Bool) (indent : Nat) :
    (fuel : Nat) → (gap : Gap) → List Cell → Option (List Char × Bool × List Cell)
  | 0, _, _ => none
  | fuel + 1, gap, cs =>
    if atDocumentBoundary cs || charAt 0 cs == '#' then some ([], gap.newLine, cs)
    else
      match readPlainWord flow cs with
      | none => none
      | some ([], rest) => some ([], gap.newLine, rest)
      | some (word, rest) =>
        if isBlank (charAt 0 rest) || isBreak (charAt 0 rest) then
          match readGap indent {} rest with
          | none => none
          | some (next, rest) =>
            if !flow && column rest < indent then some (gap.text ++ word, next.newLine, rest)
            else
              (readPlain flow indent fuel next rest).map fun (more, newLine, rest) =>
                (gap.text ++ word ++ more, newLine, rest)
        else some (gap.text ++ word, false, rest)

/-! ### Scalars in quotes -/

/-- The value of a hexadecimal digit of either case. -/
def hexValue? (c : Char) : Option Nat :=
  if '0' ≤ c ∧ c ≤ '9' then some (c.toNat - '0'.toNat)
  else if 'a' ≤ c ∧ c ≤ 'f' then some (c.toNat - 'a'.toNat + 10)
  else if 'A' ≤ c ∧ c ≤ 'F' then some (c.toNat - 'A'.toNat + 10)
  else none

/-- The number that some hexadecimal digits stand for. -/
def readHex : (count : Nat) → (value : Nat) → List Cell → Option (Nat × List Cell)
  | 0, value, cs => some (value, cs)
  | _ + 1, _, [] => none
  | count + 1, value, c :: rest =>
    match hexValue? c.char with
    | some d => readHex count (value * 16 + d) rest
    | none => none

/-- The character given by a number of so many hexadecimal digits. -/
def readCode (count : Nat) (cs : List Cell) : Option (Char × List Cell) :=
  match readHex count 0 cs with
  | some (n, rest) => if n.isValidChar then some (Char.ofNat n, rest) else none
  | none => none

/-- The character that an escape stands for, after its backslash. -/
def readEscape : List Cell → Option (Char × List Cell)
  | [] => none
  | c :: rest =>
    match c.char with
    | '0' => some ('\x00', rest)
    | 'a' => some ('\x07', rest)
    | 'b' => some ('\x08', rest)
    | 't' => some ('\t', rest)
    | '\t' => some ('\t', rest)
    | 'n' => some ('\n', rest)
    | 'v' => some ('\x0b', rest)
    | 'f' => some ('\x0c', rest)
    | 'r' => some ('\r', rest)
    | 'e' => some ('\x1b', rest)
    | ' ' => some (' ', rest)
    | '"' => some ('"', rest)
    | '/' => some ('/', rest)
    | '\\' => some ('\\', rest)
    | 'N' => some ('\x85', rest)
    | '_' => some ('\xA0', rest)
    | 'L' => some ('\u2028', rest)
    | 'P' => some ('\u2029', rest)
    | 'x' => readCode 2 rest
    | 'u' => readCode 4 rest
    | 'U' => readCode 8 rest
    | _ => none

/-- The characters in quotes up to a blank, the closing quote or an escaped line break. The flag
that comes back tells an escaped line break, which is not part of the rest. -/
def readQuotedWord (quote : Char) :
    (fuel : Nat) → List Cell → Option (List Char × Bool × List Cell)
  | 0, _ => none
  | _ + 1, [] => some ([], false, [])
  | fuel + 1, c :: rest =>
    let after (x : Char) (rest : List Cell) :=
      (readQuotedWord quote fuel rest).map fun (text, escaped, rest) => (x :: text, escaped, rest)
    if isBlankOrEnd c.char then some ([], false, c :: rest)
    else if quote == '\'' && c.char == quote && charAt 0 rest == quote then
      after quote (rest.drop 1)
    else if c.char == quote then some ([], false, c :: rest)
    else if quote == '"' && c.char == '\\' then
      if isBreak (charAt 0 rest) then some ([], true, rest.drop 1)
      else
        match readEscape rest with
        | some (x, rest) => after x rest
        | none => none
    else after c.char rest

/-- The text in quotes after the opening quote, and the rest after the closing one. -/
def readQuoted (quote : Char) : (fuel : Nat) → List Cell → Option (List Char × List Cell)
  | 0, _ => none
  | fuel + 1, cs =>
    if atDocumentBoundary cs || charAt 0 cs == endMark then none
    else
      match readQuotedWord quote (cs.length + 1) cs with
      | none => none
      | some (word, escaped, rest) =>
        if charAt 0 rest == quote then some (word, rest.drop 1)
        else
          match readGap 0 { newLine := escaped } rest with
          | none => none
          | some (gap, rest) =>
            (readQuoted quote fuel rest).map fun (text, rest) => (word ++ gap.text ++ text, rest)

/-! ### Blocks of lines -/

/-- What becomes of the line breaks at the end of a block. -/
inductive Chomping
  | strip
  | clip
  | keep
  deriving DecidableEq

/-- The indicators in the first line of a block: how to treat its end, and its indentation as far
as it is given. -/
def readBlockHeader (cs : List Cell) : Option (Chomping × Option Nat × List Cell) :=
  let chomping (cs : List Cell) : Option Chomping :=
    if charAt 0 cs == '+' then some .keep else if charAt 0 cs == '-' then some .strip else none
  let indentation (cs : List Cell) : Option Nat :=
    if '0' ≤ charAt 0 cs && charAt 0 cs ≤ '9' then some ((charAt 0 cs).toNat - '0'.toNat) else none
  let header : Chomping × Option Nat × List Cell :=
    match chomping cs, indentation cs with
    | some chomp, _ =>
      match indentation (cs.drop 1) with
      | some n => (chomp, some n, cs.drop 2)
      | none => (chomp, none, cs.drop 1)
    | none, some n =>
      match chomping (cs.drop 1) with
      | some chomp => (chomp, some n, cs.drop 2)
      | none => (.clip, some n, cs.drop 1)
    | none, none => (.clip, none, cs)
  let (chomp, indent, rest) := header
  if indent = some 0 then none
  else
    let rest := skipChars isBlank rest
    let rest := if charAt 0 rest == '#' then skipChars (fun c => !isBreakOrEnd c) rest else rest
    if isBreak (charAt 0 rest) then some (chomp, indent, rest.drop 1)
    else if charAt 0 rest == endMark then some (chomp, indent, rest)
    else none

/-- The empty lines at the front and the indentation of the line after them, up to the column
`indent` if that is known. The result has the line breaks and the greatest column reached. -/
def readBlockBreaks (indent : Option Nat) :
    (greatest : Nat) → (breaks : List Char) → List Cell → Option (List Char × Nat × List Cell)
  | greatest, breaks, [] => some (breaks, greatest, [])
  | greatest, breaks, c :: rest =>
    let inside := match indent with
      | none => true
      | some n => c.column < n
    if inside && c.char == ' ' then readBlockBreaks indent greatest breaks rest
    else if inside && c.char == '\t' then none
    else if isBreak c.char then
      readBlockBreaks indent (max greatest c.column) (breaks ++ [c.char]) rest
    else some (breaks, max greatest c.column, c :: rest)

/-- The lines of a block that has the given indentation. `lead` is the line break before the line
at the front and `breaks` the empty lines after that; `blank` tells that the line before began
with a blank. A folded block joins lines that do not begin with a blank. -/
def readBlockLines (folded : Bool) (chomping : Chomping) (indent : Nat) :
    (fuel : Nat) → (lead breaks : List Char) → (blank : Bool) → List Cell →
      Option (List Char × List Cell)
  | 0, _, _, _, _ => none
  | fuel + 1, lead, breaks, blank, cs =>
    if column cs = indent ∧ charAt 0 cs ≠ endMark then
      let startsBlank := isBlank (charAt 0 cs)
      let joint :=
        if folded && lead == ['\n'] && !blank && !startsBlank then
          if breaks.isEmpty then [' '] else breaks
        else lead ++ breaks
      let (line, rest) := takeChars (fun c => !isBreakOrEnd c) cs
      let (lead, rest) :=
        if isBreak (charAt 0 rest) then ([charAt 0 rest], rest.drop 1) else ([], rest)
      match readBlockBreaks (some indent) 0 [] rest with
      | none => none
      | some (breaks, _, rest) =>
        (readBlockLines folded chomping indent fuel lead breaks startsBlank rest).map
          fun (text, rest) => (joint ++ line ++ text, rest)
    else
      match chomping with
      | .strip => some ([], cs)
      | .clip => some (lead, cs)
      | .keep => some (lead ++ breaks, cs)

/-- A block after its first character, in a collection that is indented to `parent` if there is
one. A block whose indentation is not given has that of its first line that is not empty. -/
def readBlock (folded : Bool) (parent : Option Nat) (cs : List Cell) :
    Option (List Char × List Cell) :=
  match readBlockHeader cs with
  | none => none
  | some (chomping, given, rest) =>
    let indent := given.map fun n => parent.getD 0 + n
    match readBlockBreaks indent 0 [] rest with
    | none => none
    | some (breaks, greatest, rest) =>
      let least := match parent with
        | some n => n + 1
        | none => 1
      readBlockLines folded chomping (indent.getD (max greatest least)) (rest.length + 1)
        [] breaks false rest

end Yaml

end ShapeContract
