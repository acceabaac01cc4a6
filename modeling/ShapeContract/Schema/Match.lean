import ShapeContract.Pointer
import ShapeContract.Schema.Basic

/-!
# Matching values against schemas

A value has the shape of a kind if it is of that kind, the shape of a sequence if it is an array
whose elements all have the shape of its elements, and the shape of a record if it is an object
that has every field with a value of the right shape. An object may have other members too, and a
missing member has no shape.

`accepts` answers yes or no. `locate` looks for the first place where a value fails: elements are
visited by position and fields by name, and nothing below a node of the wrong shape is visited.
-/

namespace ShapeContract

/-- A place where a value does not have the shape it should have. -/
structure Mismatch where
  path : String
  expected : String
  found : String
  deriving DecidableEq, Repr

/-- The message of a mismatch. -/
def Mismatch.message (m : Mismatch) : String :=
  Pointer.shown m.path ++ ": expected " ++ m.expected ++ ", found " ++ m.found

namespace Schema

mutual

/-- A value has the shape. -/
def accepts : Schema → Json → Bool
  | primitive k, v => v.kind == k
  | sequence e, .array xs => xs.all fun x => e.accepts x
  | sequence _, _ => false
  | record fs, .object ms => acceptsFields fs ms
  | record _, _ => false

/-- The members of an object have the shapes of the fields. -/
def acceptsFields : {b : Option String} → Fields Schema b → Dict Json → Bool
  | _, .nil, _ => true
  | _, .cons k _ s rest, ms =>
    (match ms.get? k with
      | some v => s.accepts v
      | none => false) && acceptsFields rest ms

end

/-- A value that may be missing has the shape; a missing one has none. -/
def acceptsField (s : Schema) : Option Json → Bool
  | some v => s.accepts v
  | none => false

/-- What is found at a place, in a word. -/
def foundAt : Option Json → String
  | some v => v.kind.tag
  | none => "absent"

/-- The mismatch of a node with the schema it should have. -/
def mismatchAt (s : Schema) (v : Option Json) (path : String) : Mismatch :=
  ⟨path, s.text, foundAt v⟩

mutual

/-- The first mismatch of a value that may be missing and stands at a path. -/
def locate (path : String) : Schema → Option Json → Option Mismatch
  | s, none => some (s.mismatchAt none path)
  | primitive k, some v =>
    if v.kind = k then none else some ((primitive k).mismatchAt (some v) path)
  | sequence e, some (.array xs) =>
    xs.zipIdx.findSome? fun (x, i) => e.locate (Pointer.index path i) (some x)
  | sequence e, some v => some ((sequence e).mismatchAt (some v) path)
  | record fs, some (.object ms) => locateFields path fs ms
  | record fs, some v => some ((record fs).mismatchAt (some v) path)

/-- The first mismatch among the fields of an object. -/
def locateFields (path : String) :
    {b : Option String} → Fields Schema b → Dict Json → Option Mismatch
  | _, .nil, _ => none
  | _, .cons k _ s rest, ms =>
    match s.locate (Pointer.child path k) (ms.get? k) with
    | some m => some m
    | none => locateFields path rest ms

end

/-- The first mismatch of a value with a schema. -/
def mismatch? (s : Schema) (v : Json) : Option Mismatch := s.locate "" (some v)

end Schema

end ShapeContract
