import ShapeContract.CommandLine.Process

/-!
# The program

The thin layer between the library and the system: it reads files, hands them to the library and
writes what comes back.
-/

namespace ShapeContract

/-- The reason for which the system could not read a file. -/
def FileError.ofSystem (path : String) (e : IO.Error) : FileError :=
  match e with
  | .noFileOrDirectory .. => .notFound
  | .inappropriateType .. => if path.endsWith "/" then .notDirectory else .isDirectory
  | e => .other (toString e)

/-- Read a file as the library wants it. -/
def readFile (path : String) : IO (Except FileError String) := do
  try
    let bytes ← IO.FS.readBinFile path
    return match String.fromUTF8? bytes with
      | some text => .ok text
      | none => .error .notText
  catch e => return .error (.ofSystem path e)

/-- The files that a command reads. -/
def CommandLine.Command.paths : CommandLine.Command → List String
  | .check schema value => [schema, value]
  | .guard schemas arguments _ _ => [schemas, arguments]

/-- The files that a command line asks for, read in advance. -/
def readFiles (arguments : List String) : IO Files := do
  let paths := match CommandLine.Request.ofArguments? arguments with
    | some (.run _ command) => command.paths
    | _ => []
  let contents ← paths.mapM fun path => do return (path, ← readFile path)
  return fun path => (contents.lookup path).getD (.error .notFound)

end ShapeContract

/-- Run the program. -/
def main (arguments : List String) : IO UInt32 := do
  let files ← ShapeContract.readFiles arguments
  let output := ShapeContract.CommandLine.execute files arguments
  (← IO.getStderr).putStr output.standardError
  (← IO.getStdout).putStr output.standardOutput
  return output.code.toUInt32
