/-!
# Errors of the JSON reader

Why a text is not a JSON document, and where. The place of an error is given by what was still
unread when it was found, and turned into a line and a column once, at the end.
-/

namespace ShapeContract

namespace Json

/-- What is wrong with a text. -/
inductive ReadCause
  | endInList
  | endInObject
  | endInString
  | endInValue
  | expectedColon
  | expectedListCommaOrEnd
  | expectedObjectCommaOrEnd
  | expectedIdent
  | expectedValue
  | invalidEscape
  | invalidNumber
  | numberOutOfRange
  | controlCharacter
  | keyMustBeString
  | loneSurrogate
  | unfinishedSurrogate
  | trailingComma
  | trailingCharacters
  | nestedTooDeeply
  deriving DecidableEq, Repr

/-- The wording of a cause. -/
def ReadCause.message : ReadCause → String
  | endInList => "EOF while parsing a list"
  | endInObject => "EOF while parsing an object"
  | endInString => "EOF while parsing a string"
  | endInValue => "EOF while parsing a value"
  | expectedColon => "expected `:`"
  | expectedListCommaOrEnd => "expected `,` or `]`"
  | expectedObjectCommaOrEnd => "expected `,` or `\x7d`"
  | expectedIdent => "expected ident"
  | expectedValue => "expected value"
  | invalidEscape => "invalid escape"
  | invalidNumber => "invalid number"
  | numberOutOfRange => "number out of range"
  | controlCharacter => "control character (\\u0000-\\u001F) found while parsing a string"
  | keyMustBeString => "key must be a string"
  | loneSurrogate => "lone leading surrogate in hex escape"
  | unfinishedSurrogate => "unexpected end of hex escape"
  | trailingComma => "trailing comma"
  | trailingCharacters => "trailing characters"
  | nestedTooDeeply => "recursion limit exceeded"

/-- The number of bytes that characters take in UTF-8. -/
def byteLength (cs : List Char) : Nat := cs.foldr (fun c n => c.utf8Size + n) 0

/-- A cause together with the unread characters and the number of their bytes that belong to the
error. -/
structure Fault where
  cause : ReadCause
  unread : List Char
  ahead : Nat

/-- The error at the next unread byte, or at the end when nothing is unread. -/
def Fault.next (cause : ReadCause) (unread : List Char) : Fault :=
  ⟨cause, unread, if unread.isEmpty then 0 else 1⟩

/-- The error right after what has been read. -/
def Fault.here (cause : ReadCause) (unread : List Char) : Fault := ⟨cause, unread, 0⟩

/-- A place in a text: lines count from one, columns are the bytes since the last line break. -/
structure Place where
  line : Nat
  column : Nat
  deriving DecidableEq, Repr

/-- The words before the line of a place. -/
def Place.lineWord : String := " at line "

/-- The words before the column of a place. -/
def Place.columnWord : String := " column "

/-- How a place is written at the end of a message. -/
def Place.text (p : Place) : String :=
  lineWord ++ Nat.repr p.line ++ columnWord ++ Nat.repr p.column

/-- The place after some bytes. -/
def Place.after (bytes : List UInt8) : Place :=
  bytes.foldl (fun p b => if b = 10 then ⟨p.line + 1, 0⟩ else ⟨p.line, p.column + 1⟩) ⟨1, 0⟩

/-- An error with its place in the text. -/
structure ReadError where
  cause : ReadCause
  place : Place
  deriving DecidableEq, Repr

/-- Find the place of a fault in the text it was found in. -/
def Fault.locate (f : Fault) (text : List Char) : ReadError :=
  let offset := byteLength text - byteLength f.unread + f.ahead
  ⟨f.cause, .after ((text.flatMap String.utf8EncodeChar).take offset)⟩

/-- The message of an error. -/
def ReadError.message (e : ReadError) : String := e.cause.message ++ e.place.text

end Json

end ShapeContract
