import ShapeContract.Guard.Policy

/-!
# Guarded calls

A guarded call checks its arguments against a list of schemas, one for each, before it hands them
to an operation: first their number, then their shapes from the left, up to the first argument
that fails. The operation is called once if every argument passes and not at all otherwise. What
becomes of a failure is up to the policy of the call.

A guard is a list of schemas with a policy, for any number of calls.
-/

namespace ShapeContract

/-- An operation takes the list of its arguments to a value or an error. -/
abbrev Operation (ε α : Type) := List Json → Except ε α

namespace Guard

variable {ε α : Type}

/-- Check arguments from the left, the first being the one at `index`. -/
def checkFrom (index : Nat) : List Schema → List Json → Run (GuardError ε) Unit
  | s :: ss, v :: vs =>
    match s.mismatch? v with
    | none => checkFrom (index + 1) ss vs
    | some m =>
      (Run.debug "argument does not match its schema"
        [("index", Nat.repr index), ("mismatch", m.message)]).andThen
          fun _ => .fail (.argument index v m)
  | _, _ => .done ()

/-- Check the number of arguments and then the arguments. -/
def checkArguments (schemas : List Schema) (arguments : List Json) : Run (GuardError ε) Unit :=
  if schemas.length = arguments.length then checkFrom 0 schemas arguments
  else
    (Run.debug "argument count does not match schema count"
      [("expected", Nat.repr schemas.length), ("actual", Nat.repr arguments.length)]).andThen
        fun _ => .fail (.arity schemas.length arguments.length)

/-- Call an operation. -/
def perform (operation : Operation ε α) (arguments : List Json) : Run (GuardError ε) α :=
  ⟨[.call arguments], (operation arguments).mapError .execution⟩

/-- Check the arguments, call the operation, and deal with a failure of either. -/
def call [ToString ε] (schemas : List Schema) (arguments : List Json) (operation : Operation ε α)
    (policy : Policy) : Run (GuardError ε) (Invocation α) :=
  let attempt := (checkArguments schemas arguments).andThen fun _ => perform operation arguments
  match attempt.outcome with
  | .ok value => ⟨attempt.effects, .ok (.completed value)⟩
  | .error e =>
    let handled := policy.handle e
    ⟨attempt.effects ++ handled.effects, handled.outcome⟩

end Guard

/-- Schemas for the arguments of calls, and what becomes of their failures. -/
structure Guard where
  schemas : List Schema
  policy : Policy

namespace Guard

variable {ε α : Type}

/-- A guard that logs failures. -/
def ofSchemas (schemas : List Schema) : Guard := ⟨schemas, .standard⟩

/-- The number of arguments that a guard asks for. -/
def arity (g : Guard) : Nat := g.schemas.length

/-- The same guard with another policy. -/
def withPolicy (policy : Policy) (g : Guard) : Guard := { g with policy }

/-- The same guard, handing failures to the caller. -/
def raising (g : Guard) : Guard := g.withPolicy .propagate

/-- Check arguments without calling anything. -/
def check (g : Guard) (arguments : List Json) : Run (GuardError ε) Unit :=
  checkArguments g.schemas arguments

/-- Call an operation under the guard. -/
def invoke [ToString ε] (g : Guard) (arguments : List Json) (operation : Operation ε α) :
    Run (GuardError ε) (Invocation α) :=
  Guard.call g.schemas arguments operation g.policy

end Guard

end ShapeContract
