/-!
# Arguments of the command line

What a command line asks for: a page of help, the version, or one of the two commands with its
options. Arguments are read from the left and the first one that is wrong makes the command line
invalid; a request for help or for the version counts as soon as it is read.

An option with a value takes it from the same argument after an equals sign or from the next
argument, which then must not look like an option. No option but the verbosity may be given twice.
The verbosity can be given before the command or among its options, and the latter counts.
-/

namespace ShapeContract

namespace CommandLine

/-- A page of help. -/
inductive Topic
  | overview
  | check
  | guard
  | help
  deriving DecidableEq, Repr

/-- A command with its options. -/
inductive Command
  | check (schema value : String)
  | guard (schemas arguments : String) (raise : Bool) (failWith : Option String)
  deriving DecidableEq, Repr

/-- What a command line asks for. -/
inductive Request
  | help (topic : Topic)
  | version
  | run (verbosity : Nat) (command : Command)
  deriving DecidableEq, Repr

/-! ### Single arguments -/

/-- An argument by its form. -/
inductive Argument
  /-- Two hyphens, which end the options. -/
  | separator
  /-- Two hyphens and a name, with a value after an equals sign if there is one. -/
  | long (name : String) (value : Option String)
  /-- A hyphen and letters. -/
  | short (letters : List Char)
  | plain (text : String)
  deriving DecidableEq, Repr

/-- The form of an argument. -/
def Argument.ofString (text : String) : Argument :=
  match text.toList with
  | ['-', '-'] => separator
  | '-' :: '-' :: rest =>
    let name := String.ofList (rest.takeWhile (· != '='))
    match rest.dropWhile (· != '=') with
    | _ :: value => long name (some (String.ofList value))
    | [] => long name none
  | '-' :: c :: rest => short (c :: rest)
  | _ => plain text

/-- What letters after one hyphen ask for: so much more verbosity, or something at once. -/
def readLetters (version : Bool) (topic : Topic) : List Char → Option (Nat ⊕ Request)
  | [] => some (.inl 0)
  | 'v' :: rest =>
    (readLetters version topic rest).map fun
      | .inl n => .inl (n + 1)
      | .inr request => .inr request
  | 'h' :: _ => some (.inr (.help topic))
  | 'V' :: _ => if version then some (.inr .version) else none
  | _ :: _ => none

/-! ### Options of a command -/

/-- The options of a command. -/
structure Options where
  topic : Topic
  /-- The options with a value that is not empty. -/
  paths : List String
  /-- The options with any value. -/
  texts : List String
  /-- The options without a value. -/
  flags : List String

/-- The options that have been given. -/
structure Given where
  values : List (String × String) := []
  flags : List String := []
  verbosity : Nat := 0

/-- Note the value of an option. -/
def Given.add (g : Given) (o : Options) (name value : String) : Option Given :=
  if (g.values.lookup name).isSome || (value == "" && o.paths.contains name) then none
  else some { g with values := (name, value) :: g.values }

/-- Read the options of a command. -/
def readOptions (o : Options) (g : Given) : List String → Option (Given ⊕ Request)
  | [] => some (.inl g)
  | text :: rest =>
    match Argument.ofString text with
    | .separator => if rest.isEmpty then some (.inl g) else none
    | .plain _ => none
    | .short letters =>
      match readLetters false o.topic letters with
      | some (.inl n) => readOptions o { g with verbosity := g.verbosity + n } rest
      | some (.inr request) => some (.inr request)
      | none => none
    | .long name value =>
      if o.paths.contains name || o.texts.contains name then
        match value, rest with
        | some value, rest =>
          match g.add o name value with
          | some g => readOptions o g rest
          | none => none
        | none, value :: rest =>
          match Argument.ofString value with
          | .plain _ =>
            match g.add o name value with
            | some g => readOptions o g rest
            | none => none
          | _ => none
        | none, [] => none
      else if value.isSome then none
      else if o.flags.contains name then
        if g.flags.contains name then none else readOptions o { g with flags := name :: g.flags } rest
      else if name = "verbose" then readOptions o { g with verbosity := g.verbosity + 1 } rest
      else if name = "help" then some (.inr (.help o.topic))
      else none

/-- The options of the command that checks a document. -/
def checkOptions : Options := ⟨.check, ["schema", "value"], [], []⟩

/-- The options of the command that makes a guarded call. -/
def guardOptions : Options := ⟨.guard, ["schemas", "args"], ["fail-with"], ["raise"]⟩

/-- The verbosity of a command line: what was given with the command goes before the rest. -/
def verbosity (before : Nat) (g : Given) : Nat := if g.verbosity = 0 then before else g.verbosity

/-- Read the options of the command that checks a document. -/
def readCheck (before : Nat) (arguments : List String) : Option Request :=
  match readOptions checkOptions {} arguments with
  | some (.inl g) => do
    let schema ← g.values.lookup "schema"
    let value ← g.values.lookup "value"
    some (.run (verbosity before g) (.check schema value))
  | some (.inr request) => some request
  | none => none

/-- Read the options of the command that makes a guarded call. -/
def readGuard (before : Nat) (arguments : List String) : Option Request :=
  match readOptions guardOptions {} arguments with
  | some (.inl g) => do
    let schemas ← g.values.lookup "schemas"
    let values ← g.values.lookup "args"
    some (.run (verbosity before g)
      (.guard schemas values (g.flags.contains "raise") (g.values.lookup "fail-with")))
  | some (.inr request) => some request
  | none => none

/-! ### Whole command lines -/

/-- The page that follows the word for help. -/
def readTopic : List String → Option Request
  | [] => some (.help .overview)
  | ["check"] => some (.help .check)
  | ["guard"] => some (.help .guard)
  | ["help"] => some (.help .help)
  | _ => none

/-- Read a command line after the name of the program; `before` is the verbosity so far. An
invalid command line asks for nothing. -/
def readFrom (before : Nat) : List String → Option Request
  | [] => none
  | text :: rest =>
    match Argument.ofString text with
    | .separator => none
    | .plain "check" => readCheck before rest
    | .plain "guard" => readGuard before rest
    | .plain "help" => readTopic rest
    | .plain _ => none
    | .short letters =>
      match readLetters true .overview letters with
      | some (.inl n) => readFrom (before + n) rest
      | some (.inr request) => some request
      | none => none
    | .long "verbose" none => readFrom (before + 1) rest
    | .long "help" none => some (.help .overview)
    | .long "version" none => some .version
    | .long _ _ => none

/-- Read a command line after the name of the program. -/
def Request.ofArguments? (arguments : List String) : Option Request := readFrom 0 arguments

end CommandLine

end ShapeContract
