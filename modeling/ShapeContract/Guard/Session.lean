import ShapeContract.Guard.Call

/-!
# Sessions

A session has guards and memory sinks, both under names, and keeps the messages that reach the
sinks. It changes by steps: guards are made, changed, copied and used, sinks are looked at and
emptied. Several guards may report to one sink. `Session.step` is the session after a step
together with the answer to the step, and what a call reported is stored before the next step.
-/

namespace ShapeContract

/-- Memory sinks with the messages they hold, and the messages handed to the callback. -/
structure Sinks where
  memory : Dict (List String) := .nil
  callback : List String := []

namespace Sinks

/-- The messages a memory sink holds; a sink that was never mentioned holds none. -/
def lines (name : String) (s : Sinks) : List String := (s.memory.get? name).getD []

/-- Make sure that a memory sink is there. -/
def mention (name : String) (s : Sinks) : Sinks :=
  if s.memory.contains name then s else { s with memory := s.memory.put name [] }

/-- Make sure that the sink of a policy is there. -/
def mentionPolicy (s : Sinks) : Policy → Sinks
  | .report (.memory name) => s.mention name
  | _ => s

/-- Remove the messages of a memory sink. -/
def clear (name : String) (s : Sinks) : Sinks := { s with memory := s.memory.put name [] }

/-- Store a message that was reported to a sink; only memory sinks and the callback keep any. -/
def store (message : String) (s : Sinks) : Sink → Sinks
  | .memory name => { s with memory := s.memory.put name (s.lines name ++ [message]) }
  | .callback => { s with callback := s.callback ++ [message] }
  | _ => s

/-- Store what effects report. -/
def absorb (effects : List Effect) (s : Sinks) : Sinks :=
  effects.foldl (fun s e => match e with
    | .report sink message => s.store message sink
    | _ => s) s

end Sinks

/-- Named guards and the sinks they report to. -/
structure Session where
  guards : Dict Guard := .nil
  sinks : Sinks := {}

namespace Session

/-- A step of a session. The operations of its calls have errors in `ε`. -/
inductive Step (ε : Type)
  | lines (sink : String)
  | take (sink : String)
  | report (sink message : String)
  | build (guard : String) (schemas : List Schema)
  | describe (guard : String)
  | check (guard : String) (arguments : List Json)
  | invoke (guard : String) (arguments : List Json) (operation : Operation ε Json)
  | raising (guard : String)
  | setPolicy (guard : String) (policy : Policy)
  | copy (guard target : String)

/-- The answer to a step. -/
inductive Reply (ε : Type)
  | lines (messages : List String)
  | taken (messages : List String)
  | guard (g : Guard)
  | checked (result : Run (GuardError ε) Unit)
  | called (result : Run (GuardError ε) (Invocation Json))
  | noSuchGuard

variable {ε : Type}

/-- Put a guard under a name. -/
def put (name : String) (g : Guard) (s : Session) : Session :=
  { s with guards := Dict.put name g s.guards }

/-- Put a guard under a name and answer with it. -/
def store (name : String) (g : Guard) (s : Session) : Session × Reply ε := (s.put name g, .guard g)

/-- Change the sinks and answer with what one of them holds then. -/
def showLines (name : String) (sinks : Sinks) (s : Session) : Session × Reply ε :=
  ({ s with sinks }, .lines (sinks.lines name))

/-- Do something with the guard of a name, if there is one. -/
def withGuard (name : String) (s : Session) (f : Guard → Session × Reply ε) : Session × Reply ε :=
  match s.guards.get? name with
  | some g => f g
  | none => (s, .noSuchGuard)

/-- The session after a step, and the answer to the step. -/
def step [ToString ε] (s : Session) : Step ε → Session × Reply ε
  | .lines name => s.showLines name (s.sinks.mention name)
  | .take name => ({ s with sinks := s.sinks.clear name }, .taken (s.sinks.lines name))
  | .report name message => s.showLines name (s.sinks.store message (.memory name))
  | .build name schemas => s.store name (.ofSchemas schemas)
  | .describe name => s.withGuard name fun g => (s, .guard g)
  | .check name arguments => s.withGuard name fun g => (s, .checked (g.check arguments))
  | .invoke name arguments operation => s.withGuard name fun g =>
    let result := g.invoke arguments operation
    ({ s with sinks := s.sinks.absorb result.effects }, .called result)
  | .raising name => s.withGuard name fun g => s.store name g.raising
  | .setPolicy name policy => s.withGuard name fun g =>
    { s with sinks := s.sinks.mentionPolicy policy }.store name (g.withPolicy policy)
  | .copy name target => s.withGuard name fun g => s.store target g

/-- The session after some steps, and the answers to them. -/
def run [ToString ε] (s : Session) : List (Step ε) → Session × List (Reply ε)
  | [] => (s, [])
  | x :: xs =>
    let (s, reply) := s.step x
    let (s, replies) := run s xs
    (s, reply :: replies)

end Session

end ShapeContract
