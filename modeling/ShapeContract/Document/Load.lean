import ShapeContract.Document.Files
import ShapeContract.Json.Reader
import ShapeContract.Schema.Decode
import ShapeContract.Yaml.Document

/-!
# Documents in files

A document is the text of a file, read as YAML if the name of the file says so and as JSON
otherwise. From documents come schemas, lists of schemas and lists of arguments. An error is told
as a chain of messages, the outermost first: what was to be done, and then why it could not be.
-/

namespace ShapeContract

/-- The format of a document. -/
inductive Format
  | json
  | yaml
  deriving DecidableEq, Repr

namespace Format

/-- The name of a format. -/
def name : Format → String
  | json => "json"
  | yaml => "yaml"

/-- The name of the file that a path leads to, if the path does not end by going back. -/
def fileName? (path : String) : Option String :=
  match (FileTree.steps path).getLast? with
  | some step => if step = ".." then none else some step
  | none => none

/-- What follows the last dot of a name, if something stands before that dot. -/
def extension? (name : String) : Option String :=
  let tail := name.toList.reverse.takeWhile (· != '.')
  if tail.length + 1 < name.length then some (String.ofList tail.reverse) else none

/-- The format that a path stands for. -/
def ofPath (path : String) : Format :=
  match (fileName? path).bind extension? with
  | some "yaml" => yaml
  | some "yml" => yaml
  | _ => json

end Format

/-- Why a text is not a document. -/
inductive DocumentError
  | invalidJson (inner : Json.ReadError)
  | invalidYaml
  deriving DecidableEq, Repr

/-- The messages of an error, the outermost first. -/
def DocumentError.chain : DocumentError → List String
  | invalidJson inner => ["invalid JSON", inner.message]
  | invalidYaml => ["invalid YAML"]

/-- Read a text as a document. -/
def Format.parse (text : String) : Format → Except DocumentError Json
  | json => (Json.read text).mapError .invalidJson
  | yaml =>
    match Yaml.read text with
    | some v => .ok v
    | none => .error .invalidYaml

/-- Why nothing could be loaded from a file. -/
inductive LoadError
  | unreadable (path : String) (inner : FileError)
  | malformed (path : String) (inner : DocumentError)
  | invalidSchema (path : String) (inner : SchemaError)
  | invalidSchemaAt (path : String) (position : Nat) (inner : SchemaError)
  | notArray (path : String) (found : Kind)
  deriving DecidableEq, Repr

/-- The messages of an error, the outermost first. -/
def LoadError.chain : LoadError → List String
  | unreadable path inner => ["cannot read " ++ path, inner.message]
  | malformed path inner => ("cannot parse " ++ path) :: inner.chain
  | invalidSchema path inner => ["invalid schema in " ++ path, inner.message]
  | invalidSchemaAt path position inner =>
    ["invalid schema at position " ++ Nat.repr position ++ " in " ++ path, inner.message]
  | notArray path found => [path ++ " must contain an array, found " ++ found.tag]

namespace Document

/-- The document in a file. -/
def load (files : Files) (path : String) : Except LoadError Json :=
  match files path with
  | .error e => .error (.unreadable path e)
  | .ok text =>
    match (Format.ofPath path).parse text with
    | .error e => .error (.malformed path e)
    | .ok v => .ok v

/-- The elements of a document that is an array. -/
def loadArray (files : Files) (path : String) : Except LoadError (List Json) :=
  match load files path with
  | .error e => .error e
  | .ok (.array xs) => .ok xs
  | .ok v => .error (.notArray path v.kind)

/-- The arguments in a file. -/
def loadArguments (files : Files) (path : String) : Except LoadError (List Json) :=
  loadArray files path

/-- The schema in a file. -/
def loadSchema (files : Files) (path : String) : Run LoadError Schema :=
  (Run.ofExcept (load files path)).andThen fun literal =>
    (Schema.decode literal).mapError (.invalidSchema path)

/-- The schemas of literals, the first of which is at `position`. -/
def decodeFrom (path : String) : (position : Nat) → List Json → Run LoadError (List Schema)
  | _, [] => .done []
  | position, literal :: rest =>
    ((Schema.decode literal).mapError (.invalidSchemaAt path position)).andThen fun s =>
      (decodeFrom path (position + 1) rest).andThen fun ss => .done (s :: ss)

/-- The schemas in a file. -/
def loadSchemas (files : Files) (path : String) : Run LoadError (List Schema) :=
  (Run.ofExcept (loadArray files path)).andThen fun literals => decodeFrom path 0 literals

end Document

end ShapeContract
