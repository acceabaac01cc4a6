import ShapeContract.Yaml.Scalar

/-!
# Tokens

The tokens of a YAML document, and the readers of those that hold a name: anchors, aliases, tags
and directives. A tag is a handle, which stands for a beginning declared elsewhere, and a suffix.
Octets of a suffix may be written as a percent sign and two digits, so a suffix is a list of
octets.
-/

namespace ShapeContract

namespace Yaml

/-- A token. -/
inductive Token
  | streamEnd
  | versionDirective (major minor : Nat)
  | tagDirective (handle : List Char) (start : List UInt8)
  | documentStart
  | documentEnd
  | blockSequenceStart
  | blockMappingStart
  | blockEnd
  | flowSequenceStart
  | flowSequenceEnd
  | flowMappingStart
  | flowMappingEnd
  | blockEntry
  | flowEntry
  | key
  | value
  | alias (name : List Char)
  | anchor (name : List Char)
  | tag (handle : List Char) (suffix : List UInt8)
  | scalar (plain : Bool) (text : List Char)
  deriving DecidableEq, Repr

/-! ### Anchors -/

/-- The name of an anchor or an alias, after its indicator. -/
def readAnchorName (cs : List Cell) : Option (List Char × List Cell) :=
  let (name, rest) := takeChars isWord cs
  let c := charAt 0 rest
  if name.isEmpty then none
  else if isBlankOrEnd c || "?:,]\x7d%@`".toList.contains c then some (name, rest)
  else none

/-! ### Tags -/

/-- A character that may stand in a tag as it is. -/
def isTagChar (verbatim : Bool) (c : Char) : Bool :=
  isWord c || ";/?:@&=+$.!~*'()".toList.contains c || (verbatim && ",[]".toList.contains c)

/-- An octet written with a percent sign. -/
def readOctet (cs : List Cell) : Option (Nat × List Cell) :=
  if charAt 0 cs == '%' then readHex 2 0 (cs.drop 1) else none

/-- The number of octets of a character that begins with the given one. -/
def octetCount? (lead : Nat) : Option Nat :=
  if lead < 0x80 then some 1
  else if 0xC0 ≤ lead ∧ lead < 0xE0 then some 2
  else if 0xE0 ≤ lead ∧ lead < 0xF0 then some 3
  else if 0xF0 ≤ lead ∧ lead < 0xF8 then some 4
  else none

/-- So many octets that continue a character. -/
def readTrailingOctets : (count : Nat) → List Cell → Option (List UInt8 × List Cell)
  | 0, cs => some ([], cs)
  | count + 1, cs =>
    match readOctet cs with
    | some (n, rest) =>
      if 0x80 ≤ n ∧ n < 0xC0 then
        (readTrailingOctets count rest).map fun (octets, rest) => (n.toUInt8 :: octets, rest)
      else none
    | none => none

/-- The octets of one character written with percent signs. -/
def readOctets (cs : List Cell) : Option (List UInt8 × List Cell) :=
  match readOctet cs with
  | some (lead, rest) =>
    match octetCount? lead with
    | some count =>
      (readTrailingOctets (count - 1) rest).map fun (octets, rest) => (lead.toUInt8 :: octets, rest)
    | none => none
  | none => none

/-- The octets of a tag up to the first character that cannot stand in one. -/
def readTagText (verbatim : Bool) : (fuel : Nat) → List Cell → Option (List UInt8 × List Cell)
  | 0, cs => some ([], cs)
  | _ + 1, [] => some ([], [])
  | fuel + 1, c :: rest =>
    if c.char == '%' then
      match readOctets (c :: rest) with
      | some (octets, rest) =>
        (readTagText verbatim fuel rest).map fun (more, rest) => (octets ++ more, rest)
      | none => none
    else if isTagChar verbatim c.char then
      (readTagText verbatim fuel rest).map fun (more, rest) =>
        (String.utf8EncodeChar c.char ++ more, rest)
    else some ([], c :: rest)

/-- A handle: an exclamation mark, a word, and another exclamation mark if there is one. -/
def readHandle (cs : List Cell) : Option (List Char × List Cell) :=
  if charAt 0 cs == '!' then
    let (word, rest) := takeChars isWord (cs.drop 1)
    if charAt 0 rest == '!' then some ('!' :: word ++ ['!'], rest.drop 1)
    else some ('!' :: word, rest)
  else none

/-- The octets of some characters. -/
def octets (text : List Char) : List UInt8 := text.flatMap String.utf8EncodeChar

/-- The handle and the suffix of a tag. A tag that is a single exclamation mark has no handle. -/
def readTagParts (cs : List Cell) : Option (List Char × List UInt8 × List Cell) :=
  if charAt 1 cs == '<' then
    match readTagText true (cs.length + 1) (cs.drop 2) with
    | some (suffix, rest) =>
      if suffix.isEmpty || charAt 0 rest != '>' then none else some ([], suffix, rest.drop 1)
    | none => none
  else
    match readHandle cs with
    | none => none
    | some (handle, rest) =>
      match readTagText false (rest.length + 1) rest with
      | none => none
      | some (suffix, rest) =>
        if 1 < handle.length ∧ handle.getLast? = some '!' then
          if suffix.isEmpty then none else some (handle, suffix, rest)
        else
          let suffix := octets (handle.drop 1) ++ suffix
          if suffix.isEmpty then some ([], octets ['!'], rest) else some (['!'], suffix, rest)

/-- A tag, which a blank or the end must follow, or a comma between brackets. -/
def readTag (flow : Bool) (cs : List Cell) : Option (Token × List Cell) :=
  match readTagParts cs with
  | some (handle, suffix, rest) =>
    let c := charAt 0 rest
    if isBlankOrEnd c || (flow && c == ',') then some (.tag handle suffix, rest) else none
  | none => none

/-! ### Directives -/

/-- A number of at most nine digits. -/
def readVersionNumber (cs : List Cell) : Option (Nat × List Cell) :=
  let (digits, rest) := takeChars (fun c => '0' ≤ c && c ≤ '9') cs
  if digits.isEmpty || 9 < digits.length then none
  else some (digits.foldl (fun n c => n * 10 + (c.toNat - '0'.toNat)) 0, rest)

/-- Two numbers with a point between them. -/
def readVersion (cs : List Cell) : Option (Token × List Cell) :=
  match readVersionNumber (skipChars isBlank cs) with
  | some (major, rest) =>
    if charAt 0 rest == '.' then
      (readVersionNumber (rest.drop 1)).map fun (minor, rest) =>
        (.versionDirective major minor, rest)
    else none
  | none => none

/-- A handle and the text it stands for. -/
def readTagDeclaration (cs : List Cell) : Option (Token × List Cell) :=
  match readHandle (skipChars isBlank cs) with
  | some (handle, rest) =>
    if handle ≠ ['!'] ∧ handle.getLast? ≠ some '!' then none
    else if !isBlank (charAt 0 rest) then none
    else
      match readTagText true (rest.length + 1) (skipChars isBlank rest) with
      | some (start, rest) =>
        if start.isEmpty || !isBlankOrEnd (charAt 0 rest) then none
        else some (.tagDirective handle start, rest)
      | none => none
  | none => none

/-- A directive after its percent sign, up to the end of its line. -/
def readDirective (cs : List Cell) : Option (Token × List Cell) :=
  let (name, rest) := takeChars isWord cs
  let content :=
    if !isBlankOrEnd (charAt 0 rest) then none
    else if name = "YAML".toList then readVersion rest
    else if name = "TAG".toList then readTagDeclaration rest
    else none
  match content with
  | none => none
  | some (token, rest) =>
    let rest := skipChars isBlank rest
    let rest := if charAt 0 rest == '#' then skipChars (fun c => !isBreakOrEnd c) rest else rest
    if isBreak (charAt 0 rest) then some (token, rest.drop 1)
    else if charAt 0 rest == endMark then some (token, rest)
    else none

end Yaml

end ShapeContract
