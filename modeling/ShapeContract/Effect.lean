import ShapeContract.Json.Basic

/-!
# Effects of a computation

What a computation shows to the outside besides its result: the events it logs, the messages it
reports, the calls it makes of an operation and the text it prints, all in one list in the order in
which they happen. A `Run` is a list of effects and a result or an error. Runs are put together in
the usual way: the second starts where the first ends, and does not start at all after an error.
-/

namespace ShapeContract

/-- How important an event is. -/
inductive Level
  | error
  | warn
  | info
  | debug
  | trace
  deriving DecidableEq, Repr

namespace Level

/-- The name of a level in log lines. -/
def name : Level → String
  | error => "ERROR"
  | warn => "WARN"
  | info => "INFO"
  | debug => "DEBUG"
  | trace => "TRACE"

/-- The place of a level among the levels, the most important first. -/
def rank : Level → Nat
  | error => 0
  | warn => 1
  | info => 2
  | debug => 3
  | trace => 4

end Level

/-- A logged event: a message and named values, shown as text. -/
structure Event where
  level : Level
  message : String
  fields : List (String × String)
  deriving DecidableEq, Repr

/-- Where the messages of failures go. -/
inductive Sink
  /-- Each message is logged as an error. -/
  | log
  /-- Each message is a line on standard error. -/
  | standardError
  /-- Messages are kept under a name and can be looked at later. -/
  | memory (name : String)
  /-- Messages are handed to a function of the caller. -/
  | callback
  deriving DecidableEq, Repr

/-- Something that can be seen from outside. -/
inductive Effect
  | event (e : Event)
  | report (sink : Sink) (message : String)
  | call (arguments : List Json)
  | print (text : String)

/-- Reporting a message to a sink; for the log it is an event without fields. -/
def Sink.deliver (message : String) : Sink → Effect
  | .log => .event ⟨.error, message, []⟩
  | sink => .report sink message

/-- A result or an error, with the effects on the way to it. -/
structure Run (ε α : Type) where
  effects : List Effect
  outcome : Except ε α

namespace Run

variable {ε δ α β : Type}

/-- A result without effects. -/
def done (a : α) : Run ε α := ⟨[], .ok a⟩

/-- An error without effects. -/
def fail (e : ε) : Run ε α := ⟨[], .error e⟩

/-- A single effect. -/
def emit (e : Effect) : Run ε Unit := ⟨[e], .ok ()⟩

/-- A result or an error without effects. -/
def ofExcept (r : Except ε α) : Run ε α := ⟨[], r⟩

/-- Continue with the result of a run; an error ends both. -/
def andThen (r : Run ε α) (f : α → Run ε β) : Run ε β :=
  match r.outcome with
  | .ok a => ⟨r.effects ++ (f a).effects, (f a).outcome⟩
  | .error e => ⟨r.effects, .error e⟩

/-- The outcome of two runs is that of the second, if there is a second. -/
@[simp] theorem outcome_andThen (r : Run ε α) (f : α → Run ε β) :
    (r.andThen f).outcome = r.outcome.bind fun a => (f a).outcome := by
  unfold andThen
  cases r.outcome <;> rfl

@[simp] theorem done_andThen (a : α) (f : α → Run ε β) : (done a).andThen f = f a := rfl

instance : Monad (Run ε) where
  pure := done
  bind := andThen

/-- Change the error of a run. -/
def mapError (f : ε → δ) (r : Run ε α) : Run δ α := ⟨r.effects, r.outcome.mapError f⟩

/-- Change the effects of a run. -/
def mapEffects (f : Effect → Effect) (r : Run ε α) : Run ε α := ⟨r.effects.map f, r.outcome⟩

/-- A debug event. -/
def debug (message : String) (fields : List (String × String)) : Run ε Unit :=
  emit (.event ⟨.debug, message, fields⟩)

/-- The events among the effects. -/
def events (r : Run ε α) : List Event :=
  r.effects.filterMap fun
    | .event e => some e
    | _ => none

/-- The argument lists of the calls among the effects. -/
def calls (r : Run ε α) : List (List Json) :=
  r.effects.filterMap fun
    | .call arguments => some arguments
    | _ => none

end Run

end ShapeContract
