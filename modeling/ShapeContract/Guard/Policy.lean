import ShapeContract.Effect
import ShapeContract.Guard.Failure

/-!
# What becomes of a failure

A policy settles whether the failure of a guarded call is handed to the caller or reported to a
sink and suppressed. The caller of a call with a suppressed failure learns only in which way it
failed.
-/

namespace ShapeContract

/-- What becomes of failures. -/
inductive Policy
  | propagate
  | report (sink : Sink)
  deriving DecidableEq, Repr

/-- The outcome of a guarded call that does not hand an error to its caller. -/
inductive Invocation (α : Type)
  | completed (value : α)
  | suppressed (kind : FailureKind)
  deriving DecidableEq, Repr

namespace Invocation

variable {α β : Type}

/-- Change the value of a completed call. -/
def map (f : α → β) : Invocation α → Invocation β
  | completed value => completed (f value)
  | suppressed kind => suppressed kind

/-- The value of a completed call. -/
def value? : Invocation α → Option α
  | completed value => some value
  | suppressed _ => none

/-- The way in which a suppressed call failed. -/
def failure? : Invocation α → Option FailureKind
  | completed _ => none
  | suppressed kind => some kind

/-- The call completed. -/
def isCompleted : Invocation α → Bool
  | completed _ => true
  | suppressed _ => false

end Invocation

namespace Policy

/-- Failures go to the log unless something else is asked for. -/
def standard : Policy := report .log

/-- Failures are handed to the caller if the flag says so, and logged otherwise. -/
def ofRaiseFlag (raise : Bool) : Policy := if raise then propagate else standard

/-- The policy hands failures to the caller. -/
def propagates : Policy → Bool
  | propagate => true
  | report _ => false

/-- A policy in a word. -/
def text : Policy → String
  | propagate => "Propagate"
  | report _ => "ReportAndSuppress(..)"

/-- Deal with a failure. -/
def handle {ε α : Type} [ToString ε] (e : GuardError ε) :
    Policy → Run (GuardError ε) (Invocation α)
  | propagate => .fail e
  | report sink =>
    (Run.debug "guarded call failed; reporting and suppressing" [("kind", e.kind.name)]).andThen
      fun _ => (Run.emit (sink.deliver e.message)).andThen
        fun _ => .done (.suppressed e.kind)

end Policy

end ShapeContract
