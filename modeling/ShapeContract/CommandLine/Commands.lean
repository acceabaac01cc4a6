import ShapeContract.CommandLine.Arguments
import ShapeContract.Document.Load
import ShapeContract.Guard.Operation

/-!
# The commands

`check` compares one document with one schema and prints the result in one line. `guard` makes a
guarded call with the arguments in one file under the schemas in another; its operation echoes the
arguments, or fails with a message if one is given. Both work on any way to read files, and give
an exit code or an error together with their effects.
-/

namespace ShapeContract

namespace CommandLine

/-- The exit code of success. -/
def success : Nat := 0

/-- The exit code of failure. -/
def failure : Nat := 1

/-- The exit code of an invalid command line. -/
def misuse : Nat := 2

/-- Why a command has no result. -/
inductive CommandError
  | load (inner : LoadError)
  | guard (inner : GuardError String)

/-- The messages of an error, the outermost first. -/
def CommandError.chain : CommandError → List String
  | load inner => inner.chain
  | guard inner => [inner.message]

/-- The line that tells the result of a check. -/
def reportLine : Option Mismatch → String
  | none => "ok"
  | some m => "mismatch at " ++ m.message

/-- Compare the document in one file with the schema in another. -/
def runCheck (files : Files) (schemaPath valuePath : String) : Run CommandError Nat :=
  ((Document.loadSchema files schemaPath).mapError .load).andThen fun schema =>
    (Run.ofExcept ((Document.load files valuePath).mapError .load)).andThen fun value =>
      (Run.debug "checking document" [("schema", schema.text), ("value", valuePath)]).andThen
        fun _ =>
          let mismatch := schema.mismatch? value
          (Run.emit (.print (reportLine mismatch ++ "\n"))).andThen fun _ =>
            .done (if mismatch.isNone then success else failure)

/-- The guarded call of the operation that echoes its arguments or fails with a message. -/
def guardedEcho (schemas : List Schema) (arguments : List Json) (failWith : Option String)
    (policy : Policy) : Run (GuardError String) (Invocation Json) :=
  Guard.call schemas arguments (Operation.echoOrFail failWith) policy

/-- The policy of the command: failures are errors, or lines on standard error. -/
def failurePolicy (raise : Bool) : Policy :=
  if raise then .propagate else .report .standardError

/-- Echo the arguments in one file under the schemas in another. -/
def runGuard (files : Files) (schemasPath argumentsPath : String) (raise : Bool)
    (failWith : Option String) : Run CommandError Nat :=
  ((Document.loadSchemas files schemasPath).mapError .load).andThen fun schemas =>
    (Run.ofExcept ((Document.loadArguments files argumentsPath).mapError .load)).andThen
      fun arguments =>
        ((guardedEcho schemas arguments failWith (failurePolicy raise)).mapError .guard).andThen
          fun
          | .completed echoed =>
            (Run.emit (.print (echoed.indentedText ++ "\n"))).andThen fun _ => .done success
          | .suppressed kind =>
            (Run.debug "guarded call suppressed" [("kind", kind.name)]).andThen
              fun _ => .done failure

/-- Run a command. -/
def Command.run (files : Files) : Command → Run CommandError Nat
  | check schema value => runCheck files schema value
  | guard schemas arguments raise failWith => runGuard files schemas arguments raise failWith

end CommandLine

end ShapeContract
