import ShapeContract.CommandLine.Commands
import ShapeContract.CommandLine.Help

/-!
# Running a command line

From the arguments and the files to what a user sees: the exit code and the text on the two output
streams. Events are written to standard error as lines, as far as the verbosity asks for them,
between the messages that are reported there. An error of a command is logged as one event, with
the messages of its chain joined.

Of a log line this has what the event says. The time stamp at its front, the blank that lines up a
level name of four letters and the codes that colour its parts are left out.
-/

namespace ShapeContract

namespace CommandLine

/-! ### Log lines -/

/-- The least important level that is written at a verbosity. -/
def threshold (verbosity : Nat) : Level :=
  match verbosity with
  | 0 => .warn
  | 1 => .info
  | 2 => .debug
  | _ => .trace

/-- A control character that a terminal could take for a command. -/
def drivesTerminal (c : Char) : Bool :=
  c == '\x1b' || c == '\x07' || c == '\x08' || c == '\x0c' || c == '\x7f'

/-- How a character of a message is written in a log line. -/
def logChar (c : Char) : List Char :=
  if drivesTerminal c then ['\\', 'x', Json.hexDigit (c.toNat / 16), Json.hexDigit (c.toNat % 16)]
  else if 0x80 ≤ c.toNat ∧ c.toNat ≤ 0x9F then
    ['\\', 'u', '\x7b'] ++ Nat.toDigits 16 c.toNat ++ ['\x7d']
  else [c]

/-- An event as a log line: its level, its message and its named values. In a log a time stamp comes
before them, and its parts are lined up and coloured. -/
def logLine (e : Event) : String :=
  let fields := e.fields.map fun field => " " ++ field.1 ++ "=" ++ field.2
  e.level.name ++ " " ++ String.ofList (e.message.toList.flatMap logChar) ++ String.join fields

/-! ### Output -/

/-- What a process leaves behind. -/
structure Output where
  code : Nat
  standardOutput : String
  standardError : String
  deriving DecidableEq, Repr

/-- The text that an effect adds to standard output. -/
def outputText : Effect → String
  | .print text => text
  | _ => ""

/-- The text that an effect adds to standard error, where events are logged down to a level if
there is a log. -/
def errorText (log : Option Level) : Effect → String
  | .event e =>
    match log with
    | some level => if e.level.rank ≤ level.rank then logLine e ++ "\n" else ""
    | none => ""
  | .report .standardError message => message ++ "\n"
  | _ => ""

/-- What effects write to standard output. -/
def standardOutput (effects : List Effect) : String := String.join (effects.map outputText)

/-- What effects write to standard error, up to what log lines leave out. -/
def standardError (log : Option Level) (effects : List Effect) : String :=
  String.join (effects.map (errorText log))

/-- The effects of a command, ending with the event of its error if it has one. -/
def allEffects (r : Run CommandError Nat) : List Effect :=
  match r.outcome with
  | .ok _ => r.effects
  | .error e => r.effects ++ [.event ⟨.error, ": ".intercalate e.chain, []⟩]

/-- The exit code of a command. -/
def exitCode (r : Run CommandError Nat) : Nat :=
  match r.outcome with
  | .ok code => code
  | .error _ => failure

/-- What a command line leaves behind. -/
def execute (files : Files) (arguments : List String) : Output :=
  match Request.ofArguments? arguments with
  | none => ⟨misuse, "", usageText⟩
  | some (.help topic) => ⟨success, topic.text, ""⟩
  | some .version => ⟨success, versionText, ""⟩
  | some (.run verbosity command) =>
    let r := command.run files
    let effects := allEffects r
    ⟨exitCode r, standardOutput effects, standardError (some (threshold verbosity)) effects⟩

end CommandLine

end ShapeContract
