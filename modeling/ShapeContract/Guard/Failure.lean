import ShapeContract.Rendering
import ShapeContract.Schema.Match

/-!
# Failures of a guarded call

A guarded call can fail in three ways: the number of arguments is wrong, an argument does not have
the shape of its schema, or the operation itself fails. The first two are found before the
operation is called.
-/

namespace ShapeContract

/-- The way in which a guarded call fails. -/
inductive FailureKind
  | arityMismatch
  | typeMismatch
  | executionFailure
  deriving DecidableEq, Repr

/-- The name of a way to fail. -/
def FailureKind.name : FailureKind → String
  | arityMismatch => "arity_mismatch"
  | typeMismatch => "type_mismatch"
  | executionFailure => "execution_failure"

/-- The failure of a guarded call whose operation has errors in `ε`. -/
inductive GuardError (ε : Type)
  /-- There are `expected` schemas and `actual` arguments. -/
  | arity (expected actual : Nat)
  /-- The argument at a position is the first that does not have the shape of its schema. -/
  | argument (index : Nat) (value : Json) (mismatch : Mismatch)
  /-- The operation failed. -/
  | execution (inner : ε)

namespace GuardError

variable {ε δ : Type}

/-- The way in which the call failed. -/
def kind : GuardError ε → FailureKind
  | arity .. => .arityMismatch
  | argument .. => .typeMismatch
  | execution _ => .executionFailure

/-- The message of a failure; the error of the operation gives its own. -/
def message [ToString ε] : GuardError ε → String
  | arity .. => "Invalid number of arguments"
  | argument index value _ =>
    "Argument at position index: " ++ Nat.repr index ++ ", value: " ++ value.render ++
      " does not match the expected type or structure."
  | execution inner => toString inner

/-- Change the error of the operation. -/
def mapExecution (f : ε → δ) : GuardError ε → GuardError δ
  | arity expected actual => arity expected actual
  | argument index value mismatch => argument index value mismatch
  | execution inner => execution (f inner)

/-- The error of the operation, if it was the operation that failed. -/
def execution? : GuardError ε → Option ε
  | execution inner => some inner
  | _ => none

end GuardError

end ShapeContract
