import ShapeContract.Fields

/-!
# Files

What reading a file can come to, and a directory tree held in memory that files can be read from.
A path is resolved from the top of the tree step by step: every step but the last has to be a
directory, a single dot stays where it is and two dots go back. What lies outside of the tree is
an empty directory, and a path that begins with a slash begins there.
-/

namespace ShapeContract

/-- Why a file cannot be read as text. -/
inductive FileError
  | notFound
  | isDirectory
  | notDirectory
  | nameTooLong
  | nulInPath
  | notText
  /-- Any other reason, in the words of the system. -/
  | other (message : String)
  deriving DecidableEq, Repr

/-- The message of an error. -/
def FileError.message : FileError → String
  | notFound => "No such file or directory (os error 2)"
  | isDirectory => "Is a directory (os error 21)"
  | notDirectory => "Not a directory (os error 20)"
  | nameTooLong => "File name too long (os error 36)"
  | nulInPath => "file name contained an unexpected NUL byte"
  | notText => "stream did not contain valid UTF-8"
  | other message => message

/-- A way to read the text of the file at a path. -/
abbrev Files := String → Except FileError String

/-- A file with its bytes, or a directory. -/
inductive FileTree
  | file (bytes : List UInt8)
  | directory (entries : Fields FileTree none)

namespace FileTree

/-- A directory without entries. -/
def empty : FileTree := directory .nil

/-- The steps of a path, in order. Slashes that follow one another count as one. -/
def steps (path : String) : List String :=
  ((path.splitOn "/").filter fun step => step != "" && step != ".")

/-- The path can only name a directory. -/
def namesDirectory (path : String) : Bool :=
  match (path.splitOn "/").getLast? with
  | some step => step == "" || step == "." || step == ".."
  | none => true

/-- Follow steps from a node; `above` are the directories that lead to it, the nearest first. -/
def walk : (above : List FileTree) → FileTree → List String → Except FileError FileTree
  | _, node, [] => .ok node
  | _, file _, _ :: _ => .error .notDirectory
  | above, directory entries, step :: rest =>
    if step = ".." then
      match above with
      | [] => walk [] empty rest
      | parent :: above => walk above parent rest
    else if 255 < step.utf8ByteSize then .error .nameTooLong
    else
      match entries.get? step with
      | some node => walk (directory entries :: above) node rest
      | none => .error .notFound

/-- The node at a path. -/
def find (tree : FileTree) (path : String) : Except FileError FileTree :=
  if path.toList.contains '\x00' then .error .nulInPath
  else if path = "" then .error .notFound
  else if 4095 < path.utf8ByteSize then .error .nameTooLong
  else
    match walk [] (if path.startsWith "/" then empty else tree) (steps path) with
    | .ok (file bytes) => if namesDirectory path then .error .notDirectory else .ok (file bytes)
    | result => result

/-- The text of the file at a path. -/
def read (tree : FileTree) : Files := fun path =>
  match tree.find path with
  | .ok (file bytes) =>
    match String.fromUTF8? ⟨bytes.toArray⟩ with
    | some text => .ok text
    | none => .error .notText
  | .ok (directory _) => .error .isDirectory
  | .error e => .error e

/-- Put a node in at the end of some steps. Directories on the way are made if they are missing,
and take the place of files. -/
def put (node : FileTree) : List String → FileTree → FileTree
  | [], _ => node
  | step :: rest, directory entries =>
    directory (Dict.put step (put node rest ((entries.get? step).getD empty)) entries)
  | step :: rest, file _ => directory (Dict.put step (put node rest empty) .nil)

end FileTree

end ShapeContract
