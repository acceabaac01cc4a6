import ShapeContract.Json.Basic
import ShapeContract.Json.NumberText
import ShapeContract.Json.ReadError

/-!
# Reading values

The reader takes a text to the value it stands for. It works on the list of characters still
unread; every function returns what it read and the rest, or a fault. Arrays and objects may be
nested to a fixed depth, and a name that occurs again in an object replaces the value read before.

The mutual functions carry a bound on the number of nested calls. Of any three calls in a row one
consumes a character, so three times the length of the text is enough and the bound is never met.
-/

namespace ShapeContract

namespace Json

/-- What has been read and the unread rest. -/
abbrev Taken (α : Type) := α × List Char

/-- A blank between the parts of a document. -/
def isBlank (c : Char) : Bool := c == ' ' || c == '\n' || c == '\t' || c == '\r'

/-- The text from its first character that is not blank. -/
def skipBlanks (cs : List Char) : List Char := cs.dropWhile isBlank

/-! ### Literal names -/

/-- Read the letters of a name that has begun. -/
def readLetters (value : Json) : (letters : List Char) → List Char → Except Fault (Taken Json)
  | [], cs => .ok (value, cs)
  | _ :: _, [] => .error (.next .endInValue [])
  | l :: ls, c :: cs =>
    if l = c then readLetters value ls cs else .error (.next .expectedIdent (c :: cs))

/-! ### Numbers -/

/-- A decimal digit. -/
def isDigit (c : Char) : Bool := '0' ≤ c && c ≤ '9'

/-- The value of a decimal digit. -/
def digitValue (c : Char) : Nat := c.toNat - '0'.toNat

/-- The digits at the front of a text. -/
def readDigits (cs : List Char) : List Nat × List Char :=
  ((cs.takeWhile isDigit).map digitValue, cs.dropWhile isDigit)

/-- The digits at the front of a text, of which there must be one. -/
def readSomeDigits (cs : List Char) : Except Fault (Taken (List Nat)) :=
  match cs with
  | [] => .error (.next .endInValue [])
  | c :: _ =>
    if isDigit c then .ok (readDigits cs) else .error (.next .invalidNumber cs)

/-- The digits before the point: no digit follows a zero at the front. -/
def readWhole (cs : List Char) : Except Fault (Taken (List Nat)) :=
  match cs with
  | '0' :: c :: rest =>
    if isDigit c then .error (.next .invalidNumber (c :: rest)) else .ok ([0], c :: rest)
  | _ => readSomeDigits cs

/-- The point and the digits after it, if there is a point. -/
def readFraction (cs : List Char) : Except Fault (Taken (Option (List Nat))) :=
  match cs with
  | '.' :: rest => (readSomeDigits rest).map fun (ds, rest) => (some ds, rest)
  | _ => .ok (none, cs)

/-- A sign at the front of a text; the flag tells a minus. -/
def readSign (cs : List Char) : Bool × List Char :=
  match cs with
  | '+' :: rest => (false, rest)
  | '-' :: rest => (true, rest)
  | _ => (false, cs)

/-- The exponent, if there is one. -/
def readExponent (cs : List Char) : Except Fault (Taken (Option (Bool × List Nat))) :=
  match cs with
  | c :: rest =>
    if c = 'e' ∨ c = 'E' then
      let (down, rest) := readSign rest
      (readSomeDigits rest).map fun (ds, rest) => (some (down, ds), rest)
    else .ok (none, cs)
  | [] => .ok (none, [])

/-- The number after its sign. -/
def readNumber (negative : Bool) (cs : List Char) : Except Fault (Taken Json) := do
  let (whole, cs) ← readWhole cs
  let (fraction, cs) ← readFraction cs
  let start := cs
  let (exponent, cs) ← readExponent cs
  match NumberText.toNumber ⟨negative, whole, fraction, exponent⟩ with
  | .ok n => .ok (.number n, cs)
  | .error unread =>
    .error (.here .numberOutOfRange (start.drop (start.length - cs.length - unread)))

/-! ### Strings -/

/-- The value of a hexadecimal digit of either case. -/
def hexValue? (c : Char) : Option Nat :=
  if isDigit c then some (digitValue c)
  else if 'a' ≤ c ∧ c ≤ 'f' then some (c.toNat - 'a'.toNat + 10)
  else if 'A' ≤ c ∧ c ≤ 'F' then some (c.toNat - 'A'.toNat + 10)
  else none

/-- Four hexadecimal digits. A text too short to hold them has ended inside the string. -/
def readHex (cs : List Char) : Except Fault (Taken Nat) :=
  if byteLength (cs.take 4) < 4 then .error (.here .endInString [])
  else
    match cs with
    | a :: b :: c :: d :: rest =>
      match hexValue? a, hexValue? b, hexValue? c, hexValue? d with
      | some a, some b, some c, some d => .ok (((a * 16 + b) * 16 + c) * 16 + d, rest)
      | _, _, _, _ => .error ⟨.invalidEscape, cs, 4⟩
    | _ => .error ⟨.invalidEscape, cs, 4⟩

/-- The second half of a pair of surrogates, after the first. -/
def readTrailing (leading : Nat) (cs : List Char) : Except Fault (Taken Char) :=
  match cs with
  | [] => .error (.here .endInString [])
  | ['\\'] => .error (.here .endInString [])
  | '\\' :: 'u' :: rest => do
    let (n, rest) ← readHex rest
    if 0xDC00 ≤ n ∧ n ≤ 0xDFFF then
      .ok (Char.ofNat (0x10000 + (leading - 0xD800) * 0x400 + (n - 0xDC00)), rest)
    else .error (.here .loneSurrogate rest)
  | '\\' :: rest => .error (.next .unfinishedSurrogate rest)
  | _ => .error (.next .unfinishedSurrogate cs)

/-- The character that hexadecimal digits stand for, one escape or a pair of them. -/
def readUnicode (cs : List Char) : Except Fault (Taken Char) := do
  let (n, rest) ← readHex cs
  if 0xDC00 ≤ n ∧ n ≤ 0xDFFF then .error (.here .loneSurrogate rest)
  else if 0xD800 ≤ n ∧ n ≤ 0xDBFF then readTrailing n rest
  else .ok (Char.ofNat n, rest)

/-- The character that an escape stands for, after its backslash. -/
def readEscape (cs : List Char) : Except Fault (Taken Char) :=
  match cs with
  | [] => .error (.here .endInString [])
  | '"' :: rest => .ok ('"', rest)
  | '\\' :: rest => .ok ('\\', rest)
  | '/' :: rest => .ok ('/', rest)
  | 'b' :: rest => .ok ('\x08', rest)
  | 'f' :: rest => .ok ('\x0c', rest)
  | 'n' :: rest => .ok ('\n', rest)
  | 'r' :: rest => .ok ('\r', rest)
  | 't' :: rest => .ok ('\t', rest)
  | 'u' :: rest => readUnicode rest
  | c :: rest => .error (.next .invalidEscape (c :: rest))

/-- The characters of a string up to its closing quote, in at most `fuel` steps. -/
def readCharacters : (fuel : Nat) → List Char → Except Fault (Taken (List Char))
  | 0, cs => .error (.here .endInString cs)
  | _ + 1, [] => .error (.here .endInString [])
  | fuel + 1, c :: cs =>
    if c = '"' then .ok ([], cs)
    else if c = '\\' then do
      let (e, rest) ← readEscape cs
      let (s, rest) ← readCharacters fuel rest
      .ok (e :: s, rest)
    else if c.toNat < 32 then .error (.next .controlCharacter (c :: cs))
    else do
      let (s, rest) ← readCharacters fuel cs
      .ok (c :: s, rest)

/-- A string after its opening quote. -/
def readString (cs : List Char) : Except Fault (Taken String) :=
  (readCharacters (cs.length + 1) cs).map fun (s, rest) => (String.ofList s, rest)

/-! ### Values -/

mutual

/-- A value, with arrays and objects nested to at most `depth`. -/
def readValue : (fuel depth : Nat) → List Char → Except Fault (Taken Json)
  | 0, _, cs => .error (.here .nestedTooDeeply cs)
  | fuel + 1, depth, cs =>
    match skipBlanks cs with
    | [] => .error (.next .endInValue [])
    | c :: rest =>
      if c = 'n' then readLetters .null ['u', 'l', 'l'] rest
      else if c = 't' then readLetters (.boolean true) ['r', 'u', 'e'] rest
      else if c = 'f' then readLetters (.boolean false) ['a', 'l', 's', 'e'] rest
      else if c = '-' then readNumber true rest
      else if isDigit c then readNumber false (c :: rest)
      else if c = '"' then (readString rest).map fun (s, rest) => (.string s, rest)
      else if c = '[' then
        match depth with
        | 0 => .error (.next .nestedTooDeeply (c :: rest))
        | depth + 1 =>
          (readElements fuel depth true rest).map fun (xs, rest) => (.array xs, rest)
      else if c = '{' then
        match depth with
        | 0 => .error (.next .nestedTooDeeply (c :: rest))
        | depth + 1 =>
          (readMembers fuel depth true rest).map fun (ms, rest) =>
            (.object (Dict.ofList ms), rest)
      else .error (.next .expectedValue (c :: rest))

/-- The elements of an array up to its closing bracket. `first` tells that none has been read. -/
def readElements : (fuel depth : Nat) → (first : Bool) → List Char →
    Except Fault (Taken (List Json))
  | 0, _, _, cs => .error (.here .nestedTooDeeply cs)
  | fuel + 1, depth, first, cs =>
    match skipBlanks cs with
    | [] => .error (.next .endInList [])
    | ']' :: rest => .ok ([], rest)
    | c :: rest =>
      if first then readElement fuel depth (c :: rest)
      else if c = ',' then
        match skipBlanks rest with
        | ']' :: rest => .error (.next .trailingComma (']' :: rest))
        | rest => readElement fuel depth rest
      else .error (.next .expectedListCommaOrEnd (c :: rest))

/-- An element and the elements after it. -/
def readElement : (fuel depth : Nat) → List Char → Except Fault (Taken (List Json))
  | 0, _, cs => .error (.here .nestedTooDeeply cs)
  | fuel + 1, depth, cs => do
    let (x, rest) ← readValue fuel depth cs
    let (xs, rest) ← readElements fuel depth false rest
    .ok (x :: xs, rest)

/-- The members of an object up to its closing brace. `first` tells that none has been read. -/
def readMembers : (fuel depth : Nat) → (first : Bool) → List Char →
    Except Fault (Taken (List (String × Json)))
  | 0, _, _, cs => .error (.here .nestedTooDeeply cs)
  | fuel + 1, depth, first, cs =>
    match skipBlanks cs with
    | [] => .error (.next .endInObject [])
    | '}' :: rest => .ok ([], rest)
    | c :: rest =>
      if first then readMember fuel depth (c :: rest)
      else if c = ',' then
        match skipBlanks rest with
        | [] => .error (.next .endInValue [])
        | '}' :: rest => .error (.next .trailingComma ('}' :: rest))
        | rest => readMember fuel depth rest
      else .error (.next .expectedObjectCommaOrEnd (c :: rest))

/-- A member and the members after it. -/
def readMember : (fuel depth : Nat) → List Char → Except Fault (Taken (List (String × Json)))
  | 0, _, cs => .error (.here .nestedTooDeeply cs)
  | fuel + 1, depth, cs =>
    match cs with
    | '"' :: rest => do
      let (k, rest) ← readString rest
      match skipBlanks rest with
      | [] => .error (.next .endInObject [])
      | ':' :: rest =>
        let (v, rest) ← readValue fuel depth rest
        let (ms, rest) ← readMembers fuel depth false rest
        .ok ((k, v) :: ms, rest)
      | rest => .error (.next .expectedColon rest)
    | _ => .error (.next .keyMustBeString cs)

end

/-- How many arrays and objects may be nested in one another. -/
def nestingLimit : Nat := 127

/-- The value at the front of a text. -/
def readFront (cs : List Char) : Except Fault (Taken Json) :=
  readValue (3 * cs.length + 3) nestingLimit cs

/-- The end of a text, with blanks before it. -/
def readEnd (cs : List Char) : Except Fault Unit :=
  match skipBlanks cs with
  | [] => .ok ()
  | rest => .error (.next .trailingCharacters rest)

/-- A whole text: one value with nothing but blanks around it. -/
def readAll (cs : List Char) : Except Fault Json := do
  let (v, rest) ← readFront cs
  readEnd rest
  .ok v

/-- Read a text as a JSON document. -/
def read (text : String) : Except ReadError Json :=
  (readAll text.toList).mapError fun f => f.locate text.toList

end Json

end ShapeContract
