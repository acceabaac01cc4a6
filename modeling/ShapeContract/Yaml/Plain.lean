import ShapeContract.Double.Shortest
import ShapeContract.Json.Basic
import ShapeContract.Yaml.Scalar

/-!
# What a plain scalar stands for

A plain scalar without tag stands for null, a boolean, an integer or a double if it is written
like one, and for its own text otherwise. Integers may be written in decimal, hexadecimal, octal
or binary; a decimal number with a zero at the front is text. Doubles are rounded correctly; one
that is too large is text, and infinity and what is no number are null. An integer that fits 128
bits but not 64 is an error.
-/

namespace ShapeContract

namespace Double

/-- The double nearest to a decimal, with a sign. There is none beyond the largest double. -/
def ofDecimal? (negative : Bool) (x : Decimal) : Option Double :=
  if x.digits = 0 ∨ x.order < -400 then some (.zero negative)
  else if 400 < x.order then none
  else round negative x.value

end Double

namespace Yaml

/-! ### Words -/

/-- A way to write null. -/
def isNullWord (text : String) : Bool := ["null", "Null", "NULL", "~"].contains text

/-- The boolean that is written so. -/
def boolean? (text : String) : Option Bool :=
  if ["true", "True", "TRUE"].contains text then some true
  else if ["false", "False", "FALSE"].contains text then some false
  else none

/-- A way to write infinity or what is no number. -/
def isNonFinite (text : String) : Bool :=
  [".inf", ".Inf", ".INF", "+.inf", "+.Inf", "+.INF", "-.inf", "-.Inf", "-.INF",
    ".nan", ".NaN", ".NAN"].contains text

/-! ### Integers -/

/-- The number that digits to a base stand for; there must be one digit at least. -/
def digits? (base : Nat) (text : List Char) : Option Nat :=
  if text.isEmpty then none
  else text.foldl (fun n c =>
    match n, hexValue? c with
    | some n, some d => if d < base then some (n * base + d) else none
    | _, _ => none) (some 0)

/-- The base that the letters at the front of a number announce, and the digits after them. -/
def base? : List Char → Option (Nat × List Char)
  | '0' :: 'x' :: rest => some (16, rest)
  | '0' :: 'o' :: rest => some (8, rest)
  | '0' :: 'b' :: rest => some (2, rest)
  | _ => none

/-- A zero with digits after it and nothing else. -/
def hasLeadingZero : List Char → Bool
  | '0' :: c :: rest => (c :: rest).all Char.isDigit
  | _ => false

/-- The number without sign that is written so. -/
def natural? (text : List Char) : Option Nat :=
  match base? text with
  | some (base, rest) => digits? base rest
  | none => if hasLeadingZero text then none else digits? 10 text

/-- The integer that is written so, as a sign and a magnitude. -/
def integer? : List Char → Option (Bool × Nat)
  | '+' :: rest => (natural? rest).map fun n => (false, n)
  | '-' :: rest => (natural? rest).map fun n => (true, n)
  | text => (natural? text).map fun n => (false, n)

/-! ### Doubles -/

/-- The digits at the front of a text, and the rest. -/
def splitDigits (text : List Char) : List Char × List Char :=
  (text.takeWhile Char.isDigit, text.dropWhile Char.isDigit)

/-- The exponent at the end of a number; no text is the exponent zero. -/
def exponent? : List Char → Option Int
  | [] => some 0
  | c :: rest =>
    if c == 'e' || c == 'E' then
      match rest with
      | '+' :: rest => (digits? 10 rest).map fun n => (n : Int)
      | '-' :: rest => (digits? 10 rest).map fun n => -(n : Int)
      | rest => (digits? 10 rest).map fun n => (n : Int)
    else none

/-- The decimal that is written so, without sign: digits with or without a point among them or
next to them, and an exponent. -/
def decimal? (text : List Char) : Option Decimal :=
  let (whole, rest) := splitDigits text
  let (fraction, rest) := match rest with
    | '.' :: rest => splitDigits rest
    | rest => ([], rest)
  match digits? 10 (whole ++ fraction), exponent? rest with
  | some n, some e => some ⟨n, e - fraction.length⟩
  | _, _ => none

/-- The finite double that is written so. -/
def double? : List Char → Option Double
  | '+' :: rest => (decimal? rest).bind (Double.ofDecimal? false)
  | '-' :: rest => (decimal? rest).bind (Double.ofDecimal? true)
  | text => (decimal? text).bind (Double.ofDecimal? false)

/-! ### Values -/

/-- The value of an integer, if it fits 64 bits. -/
def ofInteger? (negative : Bool) (n : Nat) : Option Json :=
  if negative ∧ 0 < n then
    if h : 0 < n ∧ n ≤ signedBound then some (.number (.negative n h)) else none
  else if h : n < wordBound then some (.number (.unsigned n h))
  else none

/-- An integer fits 128 bits. -/
def fitsWide (negative : Bool) (n : Nat) : Bool :=
  if negative then n ≤ signedBound * wordBound else n < wordBound * wordBound

/-- What a text has to say about integers: no integer, one that is too wide, or a value. -/
inductive IntegerReading
  | none
  | tooWide
  | value (v : Json)

/-- Read a text as an integer. Beyond 128 bits it is none. -/
def readInteger (text : List Char) : IntegerReading :=
  match integer? text with
  | some (negative, n) =>
    match ofInteger? negative n with
    | some v => .value v
    | none => if fitsWide negative n then .tooWide else .none
  | none => .none

/-- The value of a text as a double; infinity and what is no number are null. -/
def readDouble (text : List Char) : Option Json :=
  if isNonFinite (String.ofList text) then some .null
  else (double? text).map fun d => .number (.double d)

/-- The text without a sign at its front. -/
def dropSign : List Char → List Char
  | '+' :: rest => rest
  | '-' :: rest => rest
  | text => text

/-- The value of a plain scalar without tag; an integer that is too wide has none. -/
def plainValue? (text : List Char) : Option Json :=
  let word := String.ofList text
  if text.isEmpty || isNullWord word then some .null
  else
    match boolean? word with
    | some b => some (.boolean b)
    | none =>
      match readInteger text with
      | .value v => some v
      | .tooWide => none
      | .none =>
        if hasLeadingZero (dropSign text) then some (.string word)
        else some ((readDouble text).getD (.string word))

end Yaml

end ShapeContract
