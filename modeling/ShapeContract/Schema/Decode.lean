import ShapeContract.Effect
import ShapeContract.Json.Relayed
import ShapeContract.Pointer
import ShapeContract.Schema.Basic
import ShapeContract.Text.Quoted

/-!
# Schemas from literals

A literal is decoded from the root down, the fields of an object in order of their names, and the
first part of it that describes no shape is the error. Of an array only the first element is
looked at; if it has others, an event says how many were passed over.
-/

namespace ShapeContract

/-- Why a value or a text is not a schema literal. Each error but the last has the pointer to the
part of the literal that it is about. -/
inductive SchemaError
  | unknownKind (tag path : String)
  | emptySequence (path : String)
  | unrecognizedShape (path found : String)
  | invalidJson (inner : Json.ReadError)
  deriving DecidableEq, Repr

namespace SchemaError

/-- The message of an error. -/
def message : SchemaError → String
  | unknownKind tag path =>
    "unknown primitive kind " ++ Text.quoted tag ++ " at " ++ Pointer.shown path
  | emptySequence path => "sequence schema at " ++ Pointer.shown path ++ " has no element schema"
  | unrecognizedShape path found =>
    "unrecognized schema shape at " ++ Pointer.shown path ++ ": " ++ found
  | invalidJson inner => "schema literal is not valid JSON: " ++ inner.message

/-- The message of an error as one of the reader's: an error of the reader has its own message, and
any other is relayed. -/
def readerMessage : SchemaError → String
  | invalidJson inner => inner.message
  | e => (Json.Relayed.ofMessage e.message).text

end SchemaError

/-- The kind with a given tag, or the error of a tag without place. -/
def Kind.parse (tag : String) : Except SchemaError Kind :=
  match Kind.ofTag? tag with
  | some k => .ok k
  | none => .error (.unknownKind tag "")

namespace Schema

/-- Say that an array of a literal has elements that are not used. -/
def noteSiblings (path : String) (ignored : Nat) : Run SchemaError Unit :=
  Run.debug "sequence schema has sibling elements; only the first is used"
    [("path", path), ("ignored", Nat.repr ignored)]

mutual

/-- The schema of a literal that stands at a path. -/
def decodeAt (path : String) : Json → Run SchemaError Schema
  | .string tag =>
    match Kind.ofTag? tag with
    | some k => .done (.primitive k)
    | none => .fail (.unknownKind tag path)
  | .array [] => .fail (.emptySequence path)
  | .array [x] => (decodeAt (Pointer.index path 0) x).andThen fun e => .done (.sequence e)
  | .array (x :: y :: ys) =>
    (noteSiblings path (y :: ys).length).andThen fun _ =>
      (decodeAt (Pointer.index path 0) x).andThen fun e => .done (.sequence e)
  | .object ms => (decodeFields path ms).andThen fun fs => .done (.record fs)
  | .null => .fail (.unrecognizedShape path Json.null.text)
  | .boolean b => .fail (.unrecognizedShape path (Json.boolean b).text)
  | .number n => .fail (.unrecognizedShape path (Json.number n).text)

/-- The schemas of the members of a literal, in order. -/
def decodeFields (path : String) :
    {b : Option String} → Fields Json b → Run SchemaError (Fields Schema b)
  | _, .nil => .done .nil
  | _, .cons k h v rest =>
    (decodeAt (Pointer.child path k) v).andThen fun s =>
      (decodeFields path rest).andThen fun fs => .done (.cons k h s fs)

end

/-- The schema of a literal. -/
def decode (literal : Json) : Run SchemaError Schema := decodeAt "" literal

/-- The schema of a literal given as text. -/
def parse (text : String) : Run SchemaError Schema :=
  (Run.ofExcept ((Json.read text).mapError .invalidJson)).andThen decode

/-- The schema of a literal at the front of a text. The literal is decoded before what follows it is
looked at, so when the literal is no schema and does not end the text either, the first is the
error. -/
def parseFront (text : String) : Run SchemaError Schema :=
  let placed := fun (f : Json.Fault) => SchemaError.invalidJson (f.locate text.toList)
  (Run.ofExcept ((Json.readFront text.toList).mapError placed)).andThen fun (literal, rest) =>
    (decode literal).andThen fun s =>
      (Run.ofExcept ((Json.readEnd rest).mapError placed)).andThen fun _ => .done s

end Schema

end ShapeContract
