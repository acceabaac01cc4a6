import ShapeContract.Yaml.Token

/-!
# From characters to tokens

Outside of brackets the structure of a document is in its indentation, which is turned into tokens
of its own here: a line that is indented further than the collection around it opens a collection
where an entry or a key stands, and a line that is indented less closes those it lies outside of.

A key need not be marked. Where a key may begin, the place is remembered, and when a colon follows
on the same line and not too far away, the token of the key is put in before what was read there.
One such place is remembered for every level of brackets.
-/

namespace ShapeContract

namespace Yaml

/-- A place where a key may have begun. -/
structure KeyPlace where
  /-- Without a colon the document is wrong. -/
  required : Bool
  /-- The number of tokens before the place. -/
  token : Nat
  line : Nat
  column : Nat
  /-- The number of bytes before the place. -/
  index : Nat

/-- The tokens read so far and what decides about the next one. -/
structure Lexing where
  rest : List Cell
  /-- The tokens, the last one first, and their number. -/
  tokens : List Token := []
  count : Nat := 0
  /-- The indentation of the open block collections, the innermost first. -/
  indents : List Nat := []
  /-- A key may begin at the rest. -/
  keyAllowed : Bool := true
  /-- The place of a possible key of the innermost level. -/
  keyPlace : Option KeyPlace := none
  /-- The same for the levels of brackets further out. -/
  outer : List (Option KeyPlace) := []

namespace Lexing

/-- The rest lies between brackets. -/
def flow (s : Lexing) : Bool := !s.outer.isEmpty

/-- Add a token. -/
def push (t : Token) (s : Lexing) : Lexing :=
  { s with tokens := t :: s.tokens, count := s.count + 1 }

/-- Put a token in after so many tokens. -/
def insertAt (place : Nat) (t : Token) (s : Lexing) : Lexing :=
  let later := s.count - place
  { s with tokens := s.tokens.take later ++ t :: s.tokens.drop later, count := s.count + 1 }

/-! ### Indentation -/

/-- The indentation of a new block collection is greater than that of the one around it. -/
def isDeeper (column : Nat) : List Nat → Bool
  | [] => true
  | n :: _ => n < column

/-- Open a block collection at a column, if it lies deeper than the one around it. -/
def openBlock (column place : Nat) (t : Token) (s : Lexing) : Lexing :=
  if !s.flow && isDeeper column s.indents then
    { s.insertAt place t with indents := column :: s.indents }
  else s

/-- The number of block collections that end before a column, and those that stay open. -/
def closing (column : Nat) : List Nat → Nat × List Nat
  | [] => (0, [])
  | n :: ns => if column < n then ((closing column ns).1 + 1, (closing column ns).2) else (0, n :: ns)

/-- Close so many block collections. -/
def pushEnds : Nat → Lexing → Lexing
  | 0, s => s
  | n + 1, s => pushEnds n (s.push .blockEnd)

/-- Close the block collections that end before a column. -/
def closeBlocks (column : Nat) (s : Lexing) : Lexing :=
  if s.flow then s
  else
    let (count, open_) := closing column s.indents
    { pushEnds count s with indents := open_ }

/-- Close all block collections. -/
def closeAllBlocks (s : Lexing) : Lexing :=
  if s.flow then s else { pushEnds s.indents.length s with indents := [] }

/-! ### Keys -/

/-- A key that began at a place can no longer be marked by a colon at the rest, which lies on a later
line or more than 1024 bytes away. -/
def isStale (rest : List Cell) (p : KeyPlace) : Bool :=
  match rest with
  | [] => true
  | c :: _ => p.line < c.line || p.index + 1024 < c.index

/-- Forget a place if it is out of reach; it is an error if a key was required there. -/
def forgetStale (rest : List Cell) : Option KeyPlace → Option (Option KeyPlace)
  | none => some none
  | some p => if isStale rest p then if p.required then none else some none else some (some p)

/-- Forget every place that is out of reach. -/
def forgetStaleKeys (s : Lexing) : Option Lexing := do
  let keyPlace ← forgetStale s.rest s.keyPlace
  let outer ← s.outer.mapM (forgetStale s.rest)
  some { s with keyPlace, outer }

/-- Forget the place of the innermost level; it is an error if a key was required there. -/
def dropKey (s : Lexing) : Option Lexing :=
  match s.keyPlace with
  | some p => if p.required then none else some { s with keyPlace := none }
  | none => some s

/-- The token at the rest may be a key or begin one. -/
def markKey (s : Lexing) : Option Lexing :=
  if s.keyAllowed then
    match s.dropKey, s.rest with
    | some s, c :: _ =>
      some { s with
        keyPlace := some {
          required := !s.flow && s.indents.head? == some c.column
          token := s.count
          line := c.line
          column := c.column
          index := c.index } }
    | _, _ => none
  else some s

/-! ### Single tokens -/

/-- Add a token of so many characters. -/
def pushChars (count : Nat) (t : Token) (s : Lexing) : Lexing :=
  { s.push t with rest := s.rest.drop count }

/-- Add a token that has been read together with the rest after it. -/
def pushRead (t : Token) (rest : List Cell) (s : Lexing) : Lexing := { s.push t with rest }

/-- The end of the document. -/
def readEnd (s : Lexing) : Option Lexing := do
  let s ← s.closeAllBlocks.dropKey
  some { s.push .streamEnd with keyAllowed := false }

/-- A directive. -/
def readDirectiveToken (s : Lexing) : Option Lexing := do
  let s ← s.closeAllBlocks.dropKey
  let (t, rest) ← readDirective (s.rest.drop 1)
  some { s.pushRead t rest with keyAllowed := false }

/-- The mark at the beginning or at the end of a document. -/
def readBoundary (t : Token) (s : Lexing) : Option Lexing := do
  let s ← s.closeAllBlocks.dropKey
  some { s.pushChars 3 t with keyAllowed := false }

/-- An opening bracket. -/
def readOpening (t : Token) (s : Lexing) : Option Lexing := do
  let s ← s.markKey
  some { s.pushChars 1 t with keyAllowed := true, keyPlace := none, outer := s.keyPlace :: s.outer }

/-- A closing bracket. -/
def readClosing (t : Token) (s : Lexing) : Option Lexing := do
  let s ← s.dropKey
  let s := match s.outer with
    | [] => s
    | p :: outer => { s with keyPlace := p, outer }
  some { s.pushChars 1 t with keyAllowed := false }

/-- A comma between brackets. -/
def readComma (s : Lexing) : Option Lexing := do
  let s ← s.dropKey
  some { s.pushChars 1 .flowEntry with keyAllowed := true }

/-- The mark of an entry or of a key, which opens a block collection where none is open. -/
def readMark (start t : Token) (keyAllowed : Bool) (s : Lexing) : Option Lexing :=
  if !s.flow && !s.keyAllowed then none
  else do
    let s ← (s.openBlock (column s.rest) s.count start).dropKey
    some { s.pushChars 1 t with keyAllowed }

/-- A colon. It makes a key of what stands at the remembered place. -/
def readColon (s : Lexing) : Option Lexing :=
  match s.keyPlace with
  | some p =>
    let s := (s.insertAt p.token .key).openBlock p.column p.token .blockMappingStart
    some { s.pushChars 1 .value with keyPlace := none, keyAllowed := false }
  | none =>
    if !s.flow && !s.keyAllowed then none
    else
      let s := s.openBlock (column s.rest) s.count .blockMappingStart
      some { s.pushChars 1 .value with keyAllowed := !s.flow }

/-- An anchor or an alias. -/
def readAnchor (token : List Char → Token) (s : Lexing) : Option Lexing := do
  let s ← s.markKey
  let (name, rest) ← readAnchorName (s.rest.drop 1)
  some { s.pushRead (token name) rest with keyAllowed := false }

/-- A tag. -/
def readTagToken (s : Lexing) : Option Lexing := do
  let s ← s.markKey
  let (t, rest) ← readTag s.flow s.rest
  some { s.pushRead t rest with keyAllowed := false }

/-- A block of lines. -/
def readBlockToken (folded : Bool) (s : Lexing) : Option Lexing := do
  let s ← s.dropKey
  let (text, rest) ← readBlock folded s.indents.head? (s.rest.drop 1)
  some { s.pushRead (.scalar false text) rest with keyAllowed := true }

/-- A scalar in quotes. -/
def readQuotedToken (quote : Char) (s : Lexing) : Option Lexing := do
  let s ← s.markKey
  let (text, rest) ← readQuoted quote (s.rest.length + 1) (s.rest.drop 1)
  some { s.pushRead (.scalar false text) rest with keyAllowed := false }

/-- A plain scalar. -/
def readPlainToken (s : Lexing) : Option Lexing := do
  let s ← s.markKey
  let indent := match s.indents with
    | [] => 0
    | n :: _ => n + 1
  let (text, newLine, rest) ← readPlain s.flow indent (s.rest.length + 1) {} s.rest
  some { s.pushRead (.scalar true text) rest with keyAllowed := newLine }

/-- A plain scalar may begin with the character at the front. -/
def startsPlain (flow : Bool) (cs : List Cell) : Bool :=
  let c := charAt 0 cs
  let next := charAt 1 cs
  (!isBlankOrEnd c && !"-?:,[]\x7b\x7d#&*!|>'\"%@`".toList.contains c) ||
    (c == '-' && !isBlank next) ||
    (!flow && (c == '?' || c == ':') && !isBlankOrEnd next)

/-! ### All tokens -/

/-- Read the token at the rest. -/
def readToken (s : Lexing) : Option Lexing :=
  let cs := s.rest
  let c := charAt 0 cs
  let next := charAt 1 cs
  if c == endMark then s.readEnd
  else if column cs == 0 && c == '%' then s.readDirectiveToken
  else if atDocumentMark '-' cs then s.readBoundary .documentStart
  else if atDocumentMark '.' cs then s.readBoundary .documentEnd
  else if c == '[' then s.readOpening .flowSequenceStart
  else if c == '{' then s.readOpening .flowMappingStart
  else if c == ']' then s.readClosing .flowSequenceEnd
  else if c == '}' then s.readClosing .flowMappingEnd
  else if c == ',' then s.readComma
  else if c == '-' && isBlankOrEnd next then s.readMark .blockSequenceStart .blockEntry true
  else if c == '?' && (s.flow || isBlankOrEnd next) then
    s.readMark .blockMappingStart .key (!s.flow)
  else if c == ':' && (s.flow || isBlankOrEnd next) then s.readColon
  else if c == '*' then s.readAnchor .alias
  else if c == '&' then s.readAnchor .anchor
  else if c == '!' then s.readTagToken
  else if c == '|' && !s.flow then s.readBlockToken false
  else if c == '>' && !s.flow then s.readBlockToken true
  else if c == '\'' || c == '"' then s.readQuotedToken c
  else if startsPlain s.flow cs then s.readPlainToken
  else none

/-- Skip to the next token and read it. -/
def next (s : Lexing) : Option Lexing := do
  let (keyAllowed, rest) := skipToToken s.flow false s.keyAllowed s.rest
  let s ← forgetStaleKeys { s with keyAllowed, rest }
  (s.closeBlocks (column rest)).readToken

/-- Read tokens up to the end, in at most `fuel` steps. -/
def readAll : (fuel : Nat) → Lexing → Option (List Token)
  | 0, _ => none
  | fuel + 1, s =>
    match s.next with
    | none => none
    | some s =>
      match s.tokens with
      | .streamEnd :: _ => some s.tokens.reverse
      | _ => readAll fuel s

end Lexing

/-- The tokens of a document. Each step but the last reads a character. -/
def tokens? (cs : List Cell) : Option (List Token) := Lexing.readAll (cs.length + 1) { rest := cs }

end Yaml

end ShapeContract
