import ShapeContract.CommandLine.Process
import ShapeContract.Proofs.Document.Loading
import ShapeContract.Proofs.Guard.Outcome

/-!
# What a process leaves behind

A user sees little of a run.  Notes in the log are not written unless they are asked for, and calls
are never seen; what shows of a run is the rest of its effects (`Run.shown`).  The outcome and what
shows settle the exit code, the standard output and, as long as no notes are asked for, the standard
error (`outputOf_of_alike`).  So loading can be left out of account once it is known what has been
loaded, and the guarded command comes to one of three ends:

* `runGuard_unloaded`: schemas or arguments cannot be loaded, and that is the error of the command;
* `runGuard_passed`: the arguments are admitted and none is to fail, and they are printed;
* `runGuard_failed`: the guarded call fails, and the failure is an error of the command or a line on
  standard error and a code, as the flag says.

The first and the last end in the same code and print nothing, however the failure is reported and
however much is logged (`guard_ends_alike`).
-/

namespace ShapeContract

/-! ### What shows of a run -/

/-- An effect shows unless it is a note in the log or a call. -/
def Effect.shows : Effect → Bool
  | .event e => e.level != .debug
  | .call _ => false
  | .report .. => true
  | .print _ => true

theorem Effect.receivedBy_of_not_shows {e : Effect} (h : e.shows = false) (sink : Sink) :
    e.receivedBy sink = none := by
  cases e with
  | event e =>
    have hlevel : e.level = .debug := by simpa [shows] using h
    simp [receivedBy, hlevel]
  | call arguments => rfl
  | report target message => cases h
  | print text => cases h

namespace Run

variable {ε δ α β : Type}

/-- The effects of a run that show, in order. -/
def shown (r : Run ε α) : List Effect := r.effects.filter Effect.shows

/-- Two runs come to the same and show the same. -/
structure Alike (r r' : Run ε α) : Prop where
  outcome : r.outcome = r'.outcome
  shown : r.shown = r'.shown

theorem Alike.refl (r : Run ε α) : r.Alike r := ⟨rfl, rfl⟩

theorem Alike.trans {r r' r'' : Run ε α} (h : r.Alike r') (h' : r'.Alike r'') : r.Alike r'' :=
  ⟨h.outcome.trans h'.outcome, h.shown.trans h'.shown⟩

/-- What follows on the result of a run follows on the result of a run like it. -/
theorem Alike.andThen {r r' : Run ε α} (h : r.Alike r') (f : α → Run ε β) :
    (r.andThen f).Alike (r'.andThen f) := by
  unfold Run.andThen
  rw [h.outcome]
  cases r'.outcome with
  | error e => exact ⟨rfl, h.shown⟩
  | ok a =>
    refine ⟨rfl, ?_⟩
    show (r.effects ++ _).filter _ = (r'.effects ++ _).filter _
    rw [List.filter_append, List.filter_append]
    exact congrArg (· ++ _) h.shown

theorem Alike.mapError {r r' : Run ε α} (h : r.Alike r') (f : ε → δ) :
    (r.mapError f).Alike (r'.mapError f) :=
  ⟨congrArg (Except.mapError f) h.outcome, h.shown⟩

/-- Effects that do not show can be left out. -/
theorem alike_append {before : List Effect} (hbefore : before.filter Effect.shows = [])
    {effects : List Effect} {outcome : Except ε α} :
    (⟨before ++ effects, outcome⟩ : Run ε α).Alike ⟨effects, outcome⟩ := by
  refine ⟨rfl, ?_⟩
  rw [shown, List.filter_append, hbefore]
  rfl

/-- Sinks receive what shows. -/
theorem received_eq_filterMap_shown (r : Run ε α) (sink : Sink) :
    r.received sink = r.shown.filterMap (Effect.receivedBy sink) := by
  rw [received, shown, List.filterMap_filter]
  refine congrArg (List.filterMap · r.effects) (funext fun e => ?_)
  cases h : e.shows with
  | true => rfl
  | false => exact Effect.receivedBy_of_not_shows h sink

theorem Alike.received_eq {r r' : Run ε α} (h : r.Alike r') (sink : Sink) :
    r.received sink = r'.received sink := by
  rw [received_eq_filterMap_shown, received_eq_filterMap_shown, h.shown]

theorem OnlyNotes.shown_eq_nil {r : Run ε α} (h : r.OnlyNotes) : r.shown = [] := by
  refine List.filter_eq_nil_iff.mpr fun e he => ?_
  obtain ⟨message, fields, rfl⟩ := h e he
  exact Bool.false_ne_true

/-- A run that only makes notes is like its result. -/
theorem OnlyNotes.alike_done {r : Run ε α} (h : r.OnlyNotes) {a : α} (ha : r.outcome = .ok a) :
    r.Alike (.done a) := ⟨ha, h.shown_eq_nil⟩

/-- A run that only makes notes is like its error. -/
theorem OnlyNotes.alike_fail {r : Run ε α} (h : r.OnlyNotes) {e : ε} (he : r.outcome = .error e) :
    r.Alike (.fail e) := ⟨he, h.shown_eq_nil⟩

end Run

namespace CommandLine

open Run (Alike)

/-! ### The output of a command -/

/-- What a process leaves behind that comes to a run. -/
def outputOf (verbosity : Nat) (r : Run CommandError Nat) : Output :=
  ⟨exitCode r, standardOutput (allEffects r),
    standardError (some (threshold verbosity)) (allEffects r)⟩

/-- A command line that asks for a command leaves behind what the command comes to. -/
theorem execute_of_run {line : List String} {verbosity : Nat} {command : Command}
    (h : Request.ofArguments? line = some (.run verbosity command)) (files : Files) :
    execute files line = outputOf verbosity (command.run files) := by
  rw [execute, h]
  rfl

theorem join_map_filter {α : Type} {p : α → Bool} {f : α → String}
    (h : ∀ x, p x = false → f x = "") (xs : List α) :
    String.join ((xs.filter p).map f) = String.join (xs.map f) := by
  induction xs with
  | nil => rfl
  | cons x xs ih =>
    rw [List.map_cons, String.join_cons, ← ih]
    cases hp : p x with
    | true => rw [List.filter_cons_of_pos hp, List.map_cons, String.join_cons]
    | false => rw [List.filter_cons_of_neg (by simp [hp]), h x hp, String.empty_append]

theorem outputText_of_not_shows (e : Effect) (h : e.shows = false) : outputText e = "" := by
  cases e <;> first | rfl | cases h

/-- Notes are not written unless they are asked for. -/
theorem errorText_of_not_shows {verbosity : Nat} (hquiet : verbosity < 2) (e : Effect)
    (h : e.shows = false) : errorText (some (threshold verbosity)) e = "" := by
  have hrank : ¬ Level.debug.rank ≤ (threshold verbosity).rank := by
    match verbosity, hquiet with
    | 0, _ => decide
    | 1, _ => decide
  cases e with
  | event e =>
    have hlevel : e.level = .debug := by simpa [Effect.shows] using h
    simp only [errorText, hlevel, if_neg hrank]
  | call arguments => rfl
  | report target message => cases h
  | print text => cases h

theorem filter_allEffects {r r' : Run CommandError Nat} (h : r.Alike r') :
    (allEffects r).filter Effect.shows = (allEffects r').filter Effect.shows := by
  unfold allEffects
  rw [h.outcome]
  cases r'.outcome with
  | ok code => exact h.shown
  | error e =>
    rw [List.filter_append, List.filter_append]
    exact congrArg (· ++ _) h.shown

/-- **The outcome of a command and what shows of it settle what is left behind**, but for notes in
the log that have been asked for. -/
theorem outputOf_of_alike {r r' : Run CommandError Nat} (h : r.Alike r') (verbosity : Nat) :
    (outputOf verbosity r).code = (outputOf verbosity r').code ∧
      (outputOf verbosity r).standardOutput = (outputOf verbosity r').standardOutput ∧
      (verbosity < 2 →
        (outputOf verbosity r).standardError = (outputOf verbosity r').standardError) := by
  refine ⟨?_, ?_, fun hquiet => ?_⟩
  · simp only [outputOf, exitCode, h.outcome]
  · simp only [outputOf, standardOutput]
    rw [← join_map_filter outputText_of_not_shows, filter_allEffects h,
      join_map_filter outputText_of_not_shows]
  · simp only [outputOf, standardError]
    rw [← join_map_filter (errorText_of_not_shows hquiet), filter_allEffects h,
      join_map_filter (errorText_of_not_shows hquiet)]

/-! ### The guarded command -/

/-- What the command makes of its guarded call: it prints a value, and has a code for a call that
was suppressed. -/
def conclude (r : Run (GuardError String) (Invocation Json)) : Run CommandError Nat :=
  (r.mapError .guard).andThen fun
    | .completed echoed =>
      (Run.emit (.print (echoed.indentedText ++ "\n"))).andThen fun _ => .done success
    | .suppressed kind =>
      (Run.debug "guarded call suppressed" [("kind", kind.name)]).andThen fun _ => .done failure

section Guard

variable {files : Files} {schemasPath argumentsPath : String} {failWith : Option String}
  {schemas : List Schema} {arguments : List Json}

/-- Both files of the guarded command can be loaded. -/
structure Loads (files : Files) (schemasPath argumentsPath : String) (schemas : List Schema)
    (arguments : List Json) : Prop where
  schemas_eq : (Document.loadSchemas files schemasPath).outcome = .ok schemas
  arguments_eq : Document.loadArguments files argumentsPath = .ok arguments

/-- What has been loaded is handed to the guarded call. -/
theorem runGuard_loaded (raise : Bool)
    (h : Loads files schemasPath argumentsPath schemas arguments) :
    (runGuard files schemasPath argumentsPath raise failWith).Alike
      (conclude (guardedEcho schemas arguments failWith (failurePolicy raise))) := by
  have hschemas : ((Document.loadSchemas files schemasPath).mapError CommandError.load).Alike
      (.done schemas) :=
    ((Document.onlyNotes_loadSchemas _ _).alike_done h.schemas_eq).mapError _
  have harguments : (Run.ofExcept ((Document.loadArguments files argumentsPath).mapError
      CommandError.load)).Alike (.done arguments) := by
    rw [h.arguments_eq]
    exact .refl _
  exact (hschemas.andThen _).trans (harguments.andThen _)

/-- What cannot be loaded is the error of the command. -/
theorem runGuard_unloaded (raise : Bool) (failWith : Option String)
    (h : ∀ schemas arguments, ¬ Loads files schemasPath argumentsPath schemas arguments) :
    ∃ e, (runGuard files schemasPath argumentsPath raise failWith).Alike (.fail (.load e)) := by
  have hnotes := Document.onlyNotes_loadSchemas files schemasPath
  cases hs : (Document.loadSchemas files schemasPath).outcome with
  | error e => exact ⟨e, ((hnotes.alike_fail hs).mapError _).andThen _⟩
  | ok schemas =>
    cases ha : Document.loadArguments files argumentsPath with
    | ok arguments => exact absurd ⟨hs, ha⟩ (h schemas arguments)
    | error e =>
      have harguments : (Run.ofExcept ((Document.loadArguments files argumentsPath).mapError
          CommandError.load)).Alike (.fail (.load e)) := by
        rw [ha]
        exact .refl _
      exact ⟨e, (((hnotes.alike_done hs).mapError _).andThen _).trans (harguments.andThen _)⟩

/-- Admitted arguments are printed, unless there is a message to fail with. -/
theorem runGuard_passed (raise : Bool)
    (h : Loads files schemasPath argumentsPath schemas arguments)
    (hadm : Guard.Admits schemas arguments) :
    (runGuard files schemasPath argumentsPath raise none).Alike
      ⟨[.print ((Json.array arguments).indentedText ++ "\n")], .ok success⟩ := by
  have hecho : Operation.echoOrFail none arguments = .ok (.array arguments) := rfl
  refine (runGuard_loaded raise h).trans ?_
  rw [guardedEcho, Guard.call_completed hadm hecho]
  exact ⟨rfl, rfl⟩

/-- A failing call is like what the policy makes of the failure. -/
theorem guardedEcho_failed {e : GuardError String}
    (h : Guard.Fails schemas arguments (Operation.echoOrFail failWith) e) (policy : Policy) :
    (guardedEcho schemas arguments failWith policy).Alike (policy.handle e) := by
  unfold guardedEcho
  cases h with
  | rejected hr =>
    have hnotice : (Guard.notice e).filter Effect.shows = [] := by cases e <;> rfl
    rw [Guard.call_rejected hr]
    exact Run.alike_append hnotice
  | execution hadm hx =>
    have hcall : [Effect.call arguments].filter Effect.shows = [] := rfl
    rw [Guard.call_execution hadm hx]
    exact Run.alike_append hcall

/-- A failure is the error of the command, or a line on standard error and a code. -/
theorem runGuard_failed (raise : Bool)
    (h : Loads files schemasPath argumentsPath schemas arguments) {e : GuardError String}
    (hfail : Guard.Fails schemas arguments (Operation.echoOrFail failWith) e) :
    (runGuard files schemasPath argumentsPath raise failWith).Alike
      (if raise then .fail (.guard e) else ⟨[.report .standardError e.message], .ok failure⟩) := by
  have hcall := guardedEcho_failed hfail (failurePolicy raise)
  refine (runGuard_loaded raise h).trans (((hcall.mapError _).andThen _).trans ?_)
  cases raise with
  | true => exact ⟨rfl, rfl⟩
  | false => exact ⟨rfl, rfl⟩

/-! ### Two ends -/

/-- The guarded command has its arguments to print: both files can be loaded, the arguments are
admitted, and there is no message to fail with. -/
def Passes (files : Files) (schemasPath argumentsPath : String) (failWith : Option String)
    (arguments : List Json) : Prop :=
  ∃ schemas, Loads files schemasPath argumentsPath schemas arguments ∧
    Guard.Admits schemas arguments ∧ failWith = none

theorem exists_passes_iff :
    (∃ arguments, Passes files schemasPath argumentsPath failWith arguments) ↔
    ∃ literals schemas arguments,
      Document.load files schemasPath = .ok (.array literals) ∧
      Document.DecodeTo literals schemas ∧
      Document.load files argumentsPath = .ok (.array arguments) ∧
      schemas.length = arguments.length ∧ (∀ i, Guard.Fits schemas arguments i) ∧
      failWith = none := by
  constructor
  · rintro ⟨arguments, schemas, ⟨hs, ha⟩, hadm, hnone⟩
    obtain ⟨literals, hload, hdecode⟩ := Document.outcome_loadSchemas_eq_ok_iff.mp hs
    exact ⟨literals, schemas, arguments, hload, hdecode, Document.loadArguments_eq_ok_iff.mp ha,
      hadm.length_eq, hadm.fits, hnone⟩
  · rintro ⟨literals, schemas, arguments, hload, hdecode, ha, hlen, hfits, hnone⟩
    exact ⟨arguments, schemas,
      ⟨Document.outcome_loadSchemas_eq_ok_iff.mpr ⟨literals, hload, hdecode⟩,
        Document.loadArguments_eq_ok_iff.mpr ha⟩, ⟨hlen, hfits⟩, hnone⟩

/-- A guarded call of the echo fails unless the arguments are admitted and no message is given. -/
theorem exists_fails (h : ¬ (Guard.Admits schemas arguments ∧ failWith = none)) :
    ∃ e, Guard.Fails schemas arguments (Operation.echoOrFail failWith) e := by
  by_contra hno
  obtain ⟨y, hadm, hy⟩ := Guard.no_failure_iff.mp (not_exists.mp hno)
  cases failWith with
  | none => exact h ⟨hadm, rfl⟩
  | some message => cases hy

theorem Passes.load_eq (h : Passes files schemasPath argumentsPath failWith arguments) :
    Document.load files argumentsPath = .ok (.array arguments) := by
  obtain ⟨schemas, hload, -, -⟩ := h
  exact Document.loadArguments_eq_ok_iff.mp hload.arguments_eq

theorem output_of_passes (h : Passes files schemasPath argumentsPath failWith arguments)
    (verbosity : Nat) (raise : Bool) :
    let out := outputOf verbosity (runGuard files schemasPath argumentsPath raise failWith)
    out.code = 0 ∧ out.standardOutput = (Json.array arguments).indentedText ++ "\n" := by
  obtain ⟨schemas, hload, hadm, rfl⟩ := h
  obtain ⟨hcode, hout, -⟩ := outputOf_of_alike (runGuard_passed raise hload hadm) verbosity
  exact ⟨hcode, hout.trans (String.join_cons.trans String.append_empty)⟩

/-- **Every failure ends alike**, whether it is one of loading or of the call, and whether it is
handed on or reported. -/
theorem output_of_not_passes
    (h : ¬ ∃ arguments, Passes files schemasPath argumentsPath failWith arguments)
    (verbosity : Nat) (raise : Bool) :
    let out := outputOf verbosity (runGuard files schemasPath argumentsPath raise failWith)
    out.code = 1 ∧ out.standardOutput = "" := by
  by_cases hload : ∃ schemas arguments, Loads files schemasPath argumentsPath schemas arguments
  · obtain ⟨schemas, arguments, hload⟩ := hload
    obtain ⟨e, he⟩ := exists_fails fun hpass => h ⟨arguments, schemas, hload, hpass⟩
    obtain ⟨hcode, hout, -⟩ := outputOf_of_alike (runGuard_failed raise hload he) verbosity
    cases raise with
    | true => exact ⟨hcode, hout⟩
    | false => exact ⟨hcode, hout⟩
  · obtain ⟨e, he⟩ := runGuard_unloaded raise failWith
      fun schemas arguments hl => hload ⟨schemas, arguments, hl⟩
    obtain ⟨hcode, hout, -⟩ := outputOf_of_alike he verbosity
    exact ⟨hcode, hout⟩

theorem output_code_eq_zero_iff (verbosity : Nat) (raise : Bool) :
    (outputOf verbosity (runGuard files schemasPath argumentsPath raise failWith)).code = 0 ↔
      ∃ arguments, Passes files schemasPath argumentsPath failWith arguments := by
  constructor
  · intro hcode
    by_contra h
    rw [(output_of_not_passes h verbosity raise).1] at hcode
    cases hcode
  · rintro ⟨arguments, h⟩
    exact (output_of_passes h verbosity raise).1

end Guard

/-! ### Command lines -/

/-- A command line that asks for the guarded command. -/
def guardLine (verbosity : Nat) (schemasPath argumentsPath : String) (raise : Bool)
    (failWith : Option String) : List String :=
  List.replicate verbosity "-v" ++
    ("guard" :: ("--schemas=" ++ schemasPath) :: ("--args=" ++ argumentsPath) ::
      ((failWith.map fun message => "--fail-with=" ++ message).toList ++
        if raise then ["--raise"] else []))

theorem readFrom_replicate (n : Nat) : ∀ (before : Nat) (rest : List String),
    readFrom before (List.replicate n "-v" ++ rest) = readFrom (before + n) rest := by
  induction n with
  | zero => exact fun before rest => rfl
  | succ n ih =>
    intro before rest
    have hform : Argument.ofString "-v" = .short ['v'] := rfl
    rw [List.replicate_succ, List.cons_append, readFrom, hform]
    simp only [readLetters, Option.map_some, ih]
    rw [show before + (0 + 1) + n = before + (n + 1) by omega]

/-- Any two files can be given, with any verbosity, with and without the flag and with any
message. -/
theorem ofArguments?_guardLine {schemasPath argumentsPath : String} (hs : schemasPath ≠ "")
    (ha : argumentsPath ≠ "") (verbosity : Nat) (raise : Bool) (failWith : Option String) :
    Request.ofArguments? (guardLine verbosity schemasPath argumentsPath raise failWith) =
      some (.run verbosity (.guard schemasPath argumentsPath raise failWith)) := by
  have hguard : Argument.ofString "guard" = .plain "guard" := rfl
  have hschemas : Argument.ofString ("--schemas=" ++ schemasPath) =
      .long "schemas" (some schemasPath) := by
    simp [Argument.ofString]
  have hargs : Argument.ofString ("--args=" ++ argumentsPath) =
      .long "args" (some argumentsPath) := by
    simp [Argument.ofString]
  have hfail : ∀ message, Argument.ofString ("--fail-with=" ++ message) =
      .long "fail-with" (some message) := by
    simp [Argument.ofString]
  have hraise : Argument.ofString "--raise" = .long "raise" none := rfl
  rw [Request.ofArguments?, guardLine, readFrom_replicate, Nat.zero_add, readFrom, hguard]
  cases failWith <;> cases raise <;>
    simp [readGuard, readOptions, hschemas, hargs, hfail, hraise, guardOptions, Given.add, hs, ha,
      List.lookup_cons, List.lookup_nil, CommandLine.verbosity]

/-- **How a failure is reported does not change how the process ends.**  A command line that asks
for the guarded command ends in code 0 exactly when the first file holds literals that all decode,
the second an array of as many arguments, every argument has the shape of its schema and no message
to fail with is given; otherwise it ends in code 1.  With code 0 the output is the indented text of
the arguments in a line of its own, and with code 1 there is none.  Two such command lines that
differ in the flag and the verbosity alone have the same code and the same output; and there are
command lines for every choice of the two. -/
theorem guard_ends_alike (files : Files) (schemasPath argumentsPath : String)
    (failWith : Option String) :
    (∀ line verbosity raise, Request.ofArguments? line =
        some (.run verbosity (.guard schemasPath argumentsPath raise failWith)) →
      let out := execute files line
      (out.code = 0 ↔ ∃ literals schemas arguments,
        Document.load files schemasPath = .ok (.array literals) ∧
        Document.DecodeTo literals schemas ∧
        Document.load files argumentsPath = .ok (.array arguments) ∧
        schemas.length = arguments.length ∧ (∀ i, Guard.Fits schemas arguments i) ∧
        failWith = none) ∧
      (out.code ≠ 0 → out.code = 1) ∧
      (out.code = 0 → ∃ arguments, Document.load files argumentsPath = .ok (.array arguments) ∧
        out.standardOutput = (Json.array arguments).indentedText ++ "\n") ∧
      (out.code = 1 → out.standardOutput = "")) ∧
    (∀ line line' verbosity verbosity' raise raise',
      Request.ofArguments? line =
        some (.run verbosity (.guard schemasPath argumentsPath raise failWith)) →
      Request.ofArguments? line' =
        some (.run verbosity' (.guard schemasPath argumentsPath raise' failWith)) →
      (execute files line).code = (execute files line').code ∧
        (execute files line).standardOutput = (execute files line').standardOutput) ∧
    (schemasPath ≠ "" → argumentsPath ≠ "" → ∀ verbosity raise, ∃ line,
      Request.ofArguments? line =
        some (.run verbosity (.guard schemasPath argumentsPath raise failWith))) := by
  refine ⟨?_, ?_, fun hs ha verbosity raise => ⟨_, ofArguments?_guardLine hs ha verbosity raise _⟩⟩
  · intro line verbosity raise hline
    rw [← exists_passes_iff, execute_of_run hline, Command.run]
    dsimp only
    by_cases hpass : ∃ arguments, Passes files schemasPath argumentsPath failWith arguments
    · obtain ⟨arguments, harguments⟩ := id hpass
      obtain ⟨hcode, hout⟩ := output_of_passes harguments verbosity raise
      rw [hcode, hout]
      exact ⟨iff_of_true rfl hpass, fun h => absurd rfl h,
        fun _ => ⟨arguments, harguments.load_eq, rfl⟩, fun h => absurd h Nat.zero_ne_one⟩
    · obtain ⟨hcode, hout⟩ := output_of_not_passes hpass verbosity raise
      rw [hcode, hout]
      exact ⟨iff_of_false Nat.one_ne_zero hpass, fun _ => rfl,
        fun h => absurd h Nat.one_ne_zero, fun _ => rfl⟩
  · intro line line' verbosity verbosity' raise raise' hline hline'
    rw [execute_of_run hline, execute_of_run hline', Command.run, Command.run]
    by_cases hpass : ∃ arguments, Passes files schemasPath argumentsPath failWith arguments
    · obtain ⟨arguments, harguments⟩ := hpass
      obtain ⟨hcode, hout⟩ := output_of_passes harguments verbosity raise
      obtain ⟨hcode', hout'⟩ := output_of_passes harguments verbosity' raise'
      exact ⟨hcode.trans hcode'.symm, hout.trans hout'.symm⟩
    · obtain ⟨hcode, hout⟩ := output_of_not_passes hpass verbosity raise
      obtain ⟨hcode', hout'⟩ := output_of_not_passes hpass verbosity' raise'
      exact ⟨hcode.trans hcode'.symm, hout.trans hout'.symm⟩

end CommandLine

end ShapeContract
