import Mathlib.Order.Bounds.Defs
import ShapeContract.Proofs.CommandLine.Outcome
import ShapeContract.Proofs.Guard.FirstFailure
import ShapeContract.Proofs.Json.ReadBack

/-!
# The two commands agree

One command checks a single document, the other a list of arguments before it makes a call with
them.  They load their schemas in different ways, and say what is wrong in different words;
nevertheless the second does what the first would do for one argument after the other
(`commands_agree`).

What a check comes to is settled by its schema and its value alone (`ChecksOver.result`), whatever
files they are in.  For a list of checks this is whether the argument at a position fits
(`ChecksEach.result`), and then the failure of the guarded call, which is about the first argument
that does not fit, is about the first check that fails.
-/

namespace ShapeContract.CommandLine

open Run (Alike)
open Guard (Fits Admits Rejects)

/-! ### Checking one document -/

section Check

variable {files : Files} {schemaPath valuePath : String} {line : List String}
  {literal value : Json} {s : Schema}

/-- What has been loaded is compared, and the result is printed. -/
theorem runCheck_loaded (hs : (Document.loadSchema files schemaPath).outcome = .ok s)
    (hv : Document.load files valuePath = .ok value) :
    (runCheck files schemaPath valuePath).Alike
      ⟨[.print (reportLine (s.mismatch? value) ++ "\n")],
        .ok (if (s.mismatch? value).isNone then success else failure)⟩ := by
  have hschema : ((Document.loadSchema files schemaPath).mapError CommandError.load).Alike
      (.done s) :=
    ((Document.onlyNotes_loadSchema _ _).alike_done hs).mapError _
  have hvalue : (Run.ofExcept ((Document.load files valuePath).mapError CommandError.load)).Alike
      (.done value) := by
    rw [hv]
    exact .refl _
  exact (hschema.andThen _).trans ((hvalue.andThen _).trans ⟨rfl, rfl⟩)

/-- A schema that cannot be loaded is the error of the command. -/
theorem runCheck_unloaded (valuePath : String)
    (h : ∀ s, (Document.loadSchema files schemaPath).outcome ≠ .ok s) :
    ∃ e, (runCheck files schemaPath valuePath).Alike (.fail (.load e)) := by
  cases hs : (Document.loadSchema files schemaPath).outcome with
  | ok s => exact absurd hs (h s)
  | error e =>
    have hschema := (Document.onlyNotes_loadSchema files schemaPath).alike_fail hs
    exact ⟨e, (hschema.mapError _).andThen _⟩

/-- A command line asks for a check, and the files it is about hold a literal and a value. -/
def ChecksOver (files : Files) (line : List String) (literal value : Json) : Prop :=
  ∃ verbosity schemaPath valuePath,
    Request.ofArguments? line = some (.run verbosity (.check schemaPath valuePath)) ∧
    Document.load files schemaPath = .ok literal ∧ Document.load files valuePath = .ok value

/-- **A check either finds the value right or prints its mismatch**, and the code tells which. -/
theorem ChecksOver.result (h : ChecksOver files line literal value)
    (hs : (Schema.decode literal).outcome = .ok s) :
    (s.accepts value = true ∧ (execute files line).code = 0 ∧
      (execute files line).standardOutput = "ok\n") ∨
    ∃ m, s.accepts value = false ∧ s.mismatch? value = some m ∧ (execute files line).code = 1 ∧
      (execute files line).standardOutput = "mismatch at " ++ m.message ++ "\n" := by
  obtain ⟨verbosity, schemaPath, valuePath, hline, hliteral, hvalue⟩ := h
  have hrun := runCheck_loaded
    (Document.outcome_loadSchema_eq_ok_iff.mpr ⟨literal, hliteral, hs⟩) hvalue
  obtain ⟨hcode, hout, -⟩ := outputOf_of_alike hrun verbosity
  rw [execute_of_run hline, Command.run, hcode, hout]
  cases hm : s.mismatch? value with
  | none => exact .inl ⟨Schema.mismatch?_eq_none_iff.mp hm, rfl, rfl⟩
  | some m =>
    have hrejects : s.accepts value = false := by
      rw [← Bool.not_eq_true, ← Schema.mismatch?_eq_none_iff, hm]
      exact Option.some_ne_none m
    exact .inr ⟨m, hrejects, rfl, rfl, String.join_cons.trans String.append_empty⟩

/-- A check against something that is no literal fails. -/
theorem ChecksOver.code_eq_one (h : ChecksOver files line literal value)
    (hs : ∀ s, (Schema.decode literal).outcome ≠ .ok s) : (execute files line).code = 1 := by
  obtain ⟨verbosity, schemaPath, valuePath, hline, hliteral, -⟩ := h
  have hunloaded : ∀ s, (Document.loadSchema files schemaPath).outcome ≠ .ok s := by
    intro s hloaded
    obtain ⟨l, hl, hdecode⟩ := Document.outcome_loadSchema_eq_ok_iff.mp hloaded
    rw [hliteral] at hl
    cases hl
    exact hs s hdecode
  obtain ⟨e, he⟩ := runCheck_unloaded valuePath hunloaded
  rw [execute_of_run hline, Command.run, (outputOf_of_alike he verbosity).1]
  rfl

theorem ChecksOver.fails_iff (h : ChecksOver files line literal value)
    (hs : (Schema.decode literal).outcome = .ok s) :
    ((execute files line).code = 1 ∧
      ∃ m : Mismatch,
        (execute files line).standardOutput = "mismatch at " ++ m.message ++ "\n") ↔
    s.accepts value = false := by
  rcases h.result hs with ⟨hacc, hcode, -⟩ | ⟨m, hrej, -, hcode, hout⟩
  · rw [hacc, hcode]
    exact iff_of_false (fun hfail => absurd hfail.1 Nat.zero_ne_one) (by decide)
  · exact iff_of_true ⟨hcode, m, hout⟩ hrej

end Check

/-! ### Checking one document after the other -/

section Each

variable {literals arguments : List Json} {schemas : List Schema} {single : Nat → Files}
  {checkLine : Nat → List String}

/-- The literal and the argument at each position are checked against one another. -/
def ChecksEach (single : Nat → Files) (checkLine : Nat → List String)
    (literals arguments : List Json) : Prop :=
  ∀ i l v, literals[i]? = some l → arguments[i]? = some v →
    ChecksOver (single i) (checkLine i) l v

/-- **The check at a position succeeds or fails as the argument there fits or not.** -/
theorem ChecksEach.result (h : ChecksEach single checkLine literals arguments)
    (hdecode : Document.DecodeTo literals schemas) (hlen : literals.length = arguments.length)
    {i : Nat} (hi : i < literals.length) :
    (Fits schemas arguments i ∧ (execute (single i) (checkLine i)).code = 0 ∧
      (execute (single i) (checkLine i)).standardOutput = "ok\n") ∨
    ∃ s v m, schemas[i]? = some s ∧ arguments[i]? = some v ∧ s.accepts v = false ∧
      s.mismatch? v = some m ∧ (execute (single i) (checkLine i)).code = 1 ∧
      (execute (single i) (checkLine i)).standardOutput = "mismatch at " ++ m.message ++ "\n" := by
  have hi' : i < arguments.length := hlen ▸ hi
  have hl : literals[i]? = some literals[i] := List.getElem?_eq_getElem hi
  have hv : arguments[i]? = some arguments[i] := List.getElem?_eq_getElem hi'
  obtain ⟨s, hs, hliteral⟩ := hdecode.getElem? hl
  rcases (h i _ _ hl hv).result hliteral with ⟨hacc, hok⟩ | ⟨m, hrej, hm, hfail⟩
  · refine .inl ⟨fun s' v' hs' hv' => ?_, hok⟩
    rw [hs] at hs'
    rw [hv] at hv'
    cases hs'
    cases hv'
    exact hacc
  · exact .inr ⟨s, _, m, hs, hv, hrej, hm, hfail⟩

theorem ChecksEach.code_eq_zero_iff (h : ChecksEach single checkLine literals arguments)
    (hdecode : Document.DecodeTo literals schemas) (hlen : literals.length = arguments.length)
    {i : Nat} (hi : i < literals.length) :
    ((execute (single i) (checkLine i)).code = 0 ∧
      (execute (single i) (checkLine i)).standardOutput = "ok\n") ↔ Fits schemas arguments i := by
  rcases h.result hdecode hlen hi with ⟨hfits, hok⟩ | ⟨s, v, m, hs, hv, hrej, -, hcode, -⟩
  · exact iff_of_true hok hfits
  · refine iff_of_false (fun hok => ?_) fun hfits => ?_
    · rw [hcode] at hok
      exact absurd hok.1 Nat.one_ne_zero
    · rw [hfits s v hs hv] at hrej
      cases hrej

/-- The literals decode if every check succeeds. -/
theorem ChecksEach.exists_decodeTo (h : ChecksEach single checkLine literals arguments)
    (hlen : literals.length = arguments.length)
    (hok : ∀ i < literals.length, (execute (single i) (checkLine i)).code = 0) :
    ∃ schemas, Document.DecodeTo literals schemas := by
  refine Document.exists_decodeTo fun l hl => ?_
  obtain ⟨i, hi, rfl⟩ := List.mem_iff_getElem.mp hl
  by_contra hno
  have hcheck := h i _ _ (List.getElem?_eq_getElem hi) (List.getElem?_eq_getElem (hlen ▸ hi))
  have hcode := hcheck.code_eq_one (not_exists.mp hno)
  rw [hok i hi] at hcode
  cases hcode

/-- **All checks succeed exactly when the literals decode to schemas that admit the arguments.** -/
theorem ChecksEach.all_succeed_iff (h : ChecksEach single checkLine literals arguments) :
    (literals.length = arguments.length ∧ ∀ i < literals.length,
      (execute (single i) (checkLine i)).code = 0 ∧
        (execute (single i) (checkLine i)).standardOutput = "ok\n") ↔
    ∃ schemas, Document.DecodeTo literals schemas ∧ Admits schemas arguments := by
  constructor
  · rintro ⟨hlen, hok⟩
    obtain ⟨schemas, hdecode⟩ := h.exists_decodeTo hlen fun i hi => (hok i hi).1
    refine ⟨schemas, hdecode, hdecode.length_eq.symm.trans hlen, fun i s v hs hv => ?_⟩
    have hi : i < literals.length :=
      hdecode.length_eq ▸ (List.getElem?_eq_some_iff.mp hs).1
    exact (h.code_eq_zero_iff hdecode hlen hi).mp (hok i hi) s v hs hv
  · rintro ⟨schemas, hdecode, hadm⟩
    have hlen := hdecode.length_eq.trans hadm.length_eq
    exact ⟨hlen, fun i hi => (h.code_eq_zero_iff hdecode hlen hi).mpr (hadm.fits i)⟩

/-- **The argument that is rejected is the one of the first check that fails.** -/
theorem ChecksEach.isLeast_of_rejects {ε : Type} {i : Nat} {v : Json} {m : Mismatch}
    (h : ChecksEach single checkLine literals arguments)
    (hdecode : Document.DecodeTo literals schemas)
    (hr : Rejects schemas arguments (.argument i v m : GuardError ε)) :
    IsLeast {i | i < literals.length ∧ (execute (single i) (checkLine i)).code = 1} i ∧
      (execute (single i) (checkLine i)).standardOutput = "mismatch at " ++ m.message ++ "\n" := by
  obtain ⟨hlen', hv, hbefore, s, hs, hrej, hm⟩ := Guard.rejects_argument_iff.mp hr
  have hlen := hdecode.length_eq.trans hlen'
  have hi : i < literals.length := hdecode.length_eq ▸ (List.getElem?_eq_some_iff.mp hs).1
  rcases h.result hdecode hlen hi with ⟨hfits, -⟩ | ⟨s', v', m', hs', hv', -, hm', hcode, hout⟩
  · rw [hfits s v hs hv] at hrej
    cases hrej
  · rw [hs] at hs'
    rw [hv] at hv'
    cases hs'
    cases hv'
    rw [hm] at hm'
    cases hm'
    refine ⟨⟨⟨hi, hcode⟩, fun j hj => ?_⟩, hout⟩
    by_contra hlt
    have hfits := hbefore j (Nat.lt_of_not_le hlt)
    have hcode' := ((h.code_eq_zero_iff hdecode hlen hj.1).mpr hfits).1
    rw [hj.2] at hcode'
    cases hcode'

end Each

/-! ### The guarded command -/

section Guard

variable {files : Files} {schemasPath argumentsPath : String} {literals arguments : List Json}
  {schemas : List Schema}

theorem guard_code_eq_zero_iff (hliterals : Document.load files schemasPath = .ok (.array literals))
    (harguments : Document.load files argumentsPath = .ok (.array arguments)) (verbosity : Nat)
    (raise : Bool) :
    (outputOf verbosity (runGuard files schemasPath argumentsPath raise none)).code = 0 ↔
      ∃ schemas, Document.DecodeTo literals schemas ∧ Admits schemas arguments := by
  rw [output_code_eq_zero_iff, exists_passes_iff]
  constructor
  · rintro ⟨ls, schemas, vs, hls, hdecode, hvs, hlen, hfits, -⟩
    rw [hliterals] at hls
    rw [harguments] at hvs
    cases hls
    cases hvs
    exact ⟨schemas, hdecode, hlen, hfits⟩
  · rintro ⟨schemas, hdecode, hadm⟩
    exact ⟨literals, schemas, arguments, hliterals, hdecode, harguments, hadm.length_eq, hadm.fits,
      rfl⟩

/-- What a failing guarded call writes to standard error if no notes are asked for: its message, or
the log line of it, without time stamp and colours, if failures are raised. -/
theorem standardError_of_fails (hload : Loads files schemasPath argumentsPath schemas arguments)
    {failWith : Option String} {e : GuardError String}
    (hfail : Guard.Fails schemas arguments (Operation.echoOrFail failWith) e)
    {verbosity : Nat} (hquiet : verbosity < 2) (raise : Bool) :
    (outputOf verbosity (runGuard files schemasPath argumentsPath raise failWith)).standardError =
      (if raise then logLine ⟨.error, e.message, []⟩ else e.message) ++ "\n" := by
  rw [(outputOf_of_alike (runGuard_failed raise hload hfail) verbosity).2.2 hquiet]
  cases raise with
  | false => exact String.join_cons.trans String.append_empty
  | true =>
    have hrank : Level.error.rank ≤ (threshold verbosity).rank := Nat.zero_le _
    have hchain : ": ".intercalate (CommandError.guard e).chain = e.message := rfl
    have hwritten : errorText (some (threshold verbosity))
        (.event ⟨.error, ": ".intercalate (CommandError.guard e).chain, []⟩) =
          logLine ⟨.error, e.message, []⟩ ++ "\n" := by
      rw [errorText, if_pos hrank, hchain]
    exact String.join_cons.trans ((congrArg (· ++ _) hwritten).trans String.append_empty)

end Guard

/-- **The two commands agree.**  Let a guarded call without a message to fail with be asked for,
with literals and arguments from two files, and for every position a check of the literal and the
argument there, with files that hold nothing else.  The guarded command ends in code 0 exactly when
there are as many arguments as literals and every check ends in code 0 and prints that all is well.

If there are as many arguments as literals, all of which decode, and the guarded command ends in
code 1, its failure is about the first position whose check ends in code 1, and has the mismatch
that this check prints.  It is the error of the command if failures are raised, and otherwise its
message, which begins with the position, goes to standard error.  If no notes are asked for, nothing
else is written there; a failure that is raised is written as a line of the log, which is given here
without its time stamp and colours.

A check of a value against a literal that decodes ends in code 1 and prints a mismatch exactly when
the value does not have the shape. -/
theorem commands_agree {files : Files} {line : List String} {verbosity : Nat}
    {schemasPath argumentsPath : String} {raise : Bool} {literals arguments : List Json}
    {single : Nat → Files} {checkLine : Nat → List String}
    (hline : Request.ofArguments? line =
      some (.run verbosity (.guard schemasPath argumentsPath raise none)))
    (hliterals : Document.load files schemasPath = .ok (.array literals))
    (harguments : Document.load files argumentsPath = .ok (.array arguments))
    (hsingle : ChecksEach single checkLine literals arguments) :
    let guarded := execute files line
    let checked := fun i => execute (single i) (checkLine i)
    (guarded.code = 0 ↔ literals.length = arguments.length ∧
      ∀ i < literals.length, (checked i).code = 0 ∧ (checked i).standardOutput = "ok\n") ∧
    (∀ schemas, Document.DecodeTo literals schemas → literals.length = arguments.length →
      guarded.code = 1 →
      ∃ (i : Nat) (v : Json) (m : Mismatch),
        IsLeast {i | i < literals.length ∧ (checked i).code = 1} i ∧
        arguments[i]? = some v ∧
        (checked i).standardOutput = "mismatch at " ++ m.message ++ "\n" ∧
        (runGuard files schemasPath argumentsPath true none).outcome =
          .error (.guard (.argument i v m)) ∧
        let message := "Argument at position index: " ++ Nat.repr i ++ ", value: " ++ v.render ++
          " does not match the expected type or structure."
        (runGuard files schemasPath argumentsPath false none).received .standardError =
          [message] ∧
        (verbosity < 2 → guarded.standardError =
          (if raise then logLine ⟨.error, message, []⟩ else message) ++ "\n")) ∧
    ∀ files line literal value, ChecksOver files line literal value →
      ∀ s, (Schema.decode literal).outcome = .ok s →
      (((execute files line).code = 1 ∧ ∃ m : Mismatch,
          (execute files line).standardOutput = "mismatch at " ++ m.message ++ "\n") ↔
        s.accepts value = false) := by
  intro guarded checked
  have hguarded : guarded =
      outputOf verbosity (runGuard files schemasPath argumentsPath raise none) :=
    execute_of_run hline files
  have hzero := guard_code_eq_zero_iff hliterals harguments verbosity raise
  refine ⟨?_, ?_, fun files line literal value h s hs => h.fails_iff hs⟩
  · rw [hguarded, hzero]
    exact hsingle.all_succeed_iff.symm
  · intro schemas hdecode hlen hcode
    have hnot : ¬ Admits schemas arguments := by
      intro hadm
      rw [hguarded, hzero.mpr ⟨schemas, hdecode, hadm⟩] at hcode
      cases hcode
    obtain ⟨i, v, m, hr⟩ := Guard.exists_rejects_argument (ε := String)
      (hdecode.length_eq.symm.trans hlen) hnot
    obtain ⟨hleast, hout⟩ := hsingle.isLeast_of_rejects hdecode hr
    have hload : Loads files schemasPath argumentsPath schemas arguments :=
      ⟨Document.outcome_loadSchemas_eq_ok_iff.mpr ⟨literals, hliterals, hdecode⟩,
        Document.loadArguments_eq_ok_iff.mpr harguments⟩
    have hfail : Guard.Fails schemas arguments (Operation.echoOrFail none) (.argument i v m) :=
      .rejected hr
    refine ⟨i, v, m, hleast, (Guard.rejects_argument_iff.mp hr).2.1, hout,
      (runGuard_failed true hload hfail).outcome,
      (runGuard_failed false hload hfail).received_eq .standardError, fun hquiet => ?_⟩
    rw [hguarded]
    exact standardError_of_fails hload hfail hquiet raise

/-- Files that hold a document at one path and another one everywhere else. -/
def holding (document other : Json) : Files := fun path =>
  .ok (if path = "s" then document.text else other.text)

theorem splitOn_plain : ∀ path ∈ ["s", "a"], path.splitOn "/" = [path] := by
  rw [List.forall_mem_cons, List.forall_mem_singleton]
  constructor <;>
    rw [String.splitOn, if_neg (by decide), String.splitOnAux, if_neg (by decide),
      if_neg (by decide), String.splitOnAux, if_pos (by decide)] <;> rfl

theorem ofPath_plain : ∀ path ∈ ["s", "a"], Format.ofPath path = .json := by
  have hsplit := splitOn_plain
  rw [List.forall_mem_cons, List.forall_mem_singleton] at hsplit ⊢
  simp only [Format.ofPath, Format.fileName?, FileTree.steps, hsplit.1, hsplit.2]
  decide +kernel

theorem load_holding {v w : Json} (hv : Json.ReadsBack .compact v)
    (hw : Json.ReadsBack .compact w) (hv' : v.nesting ≤ Json.nestingLimit)
    (hw' : w.nesting ≤ Json.nestingLimit) :
    Document.load (holding v w) "s" = .ok v ∧ Document.load (holding v w) "a" = .ok w := by
  have hs := ofPath_plain "s" (by decide)
  have ha := ofPath_plain "a" (by decide)
  constructor
  · simp only [Document.load, holding, hs, if_pos, Format.parse, (Json.read_text hv).1 hv',
      Except.mapError]
  · simp only [Document.load, holding, ha, if_neg (show "a" ≠ "s" by decide), Format.parse,
      (Json.read_text hw).1 hw', Except.mapError]

/-- The second of two arguments is not the number that it should be. -/
theorem commands_agree_on_second_argument :
    let text := Json.string "string"
    let number := Json.string "number"
    let value := Json.string "x"
    let guarded := execute (holding (.array [text, number]) (.array [value, value]))
      ["guard", "--schemas=s", "--args=a"]
    let checked := fun literal => execute (holding literal value)
      ["check", "--schema=s", "--value=a"]
    (checked text).code = 0 ∧ (checked number).code = 1 ∧ guarded.code = 1 ∧
      guarded.standardError = "Argument at position index: 1, value: x does not match " ++
        "the expected type or structure.\n" := by
  intro text number value guarded checked
  have hstring : ∀ t, Json.ReadsBack .compact (Json.string t) := fun t => .string t
  have harray : ∀ t u, Json.ReadsBack .compact (.array [Json.string t, Json.string u]) :=
    fun t u => .array Json.Layout.blank_compact (by simp [hstring])
  have hload := load_holding (harray "string" "number") (harray "x" "x") (by decide) (by decide)
  have hline : Request.ofArguments? ["guard", "--schemas=s", "--args=a"] =
      some (.run 0 (.guard "s" "a" false none)) := by decide +kernel
  have hcheck : ∀ t, ChecksOver (holding (Json.string t) value)
      ["check", "--schema=s", "--value=a"] (Json.string t) value := fun t =>
    ⟨0, "s", "a", by decide +kernel,
      load_holding (hstring t) (hstring "x") (Nat.zero_le _) (Nat.zero_le _)⟩
  have hsingle : ChecksEach (fun i => holding ([text, number].getD i text) value)
      (fun _ => ["check", "--schema=s", "--value=a"]) [text, number] [value, value] := by
    intro i l v hl hv
    match i with
    | 0 =>
      cases hl
      cases hv
      exact hcheck "string"
    | 1 =>
      cases hl
      cases hv
      exact hcheck "number"
    | i + 2 => cases hl
  obtain ⟨hzero, hone, hfails⟩ := commands_agree hline hload.1 hload.2 hsingle
  have hpass : (checked text).code = 0 := by
    have hresult := (hcheck "string").result (s := .primitive .string) rfl
    rcases hresult with ⟨-, hcode, -⟩ | ⟨m, hrej, -⟩
    · exact hcode
    · cases hrej
  have hfail : (checked number).code = 1 :=
    ((hfails _ _ _ _ (hcheck "number") (.primitive .number) rfl).mpr rfl).1
  have hcode : guarded.code = 1 := by
    have hne : guarded.code ≠ 0 := fun h =>
      Nat.one_ne_zero (hfail.symm.trans ((hzero.mp h).2 1 (by decide)).1)
    have hrun : guarded = outputOf 0 (runGuard _ "s" "a" false none) := execute_of_run hline _
    rw [hrun] at hne ⊢
    exact (output_of_not_passes (fun h => hne ((output_code_eq_zero_iff 0 false).mpr h)) 0 false).1
  have hdecode : Document.DecodeTo [text, number] [.primitive .string, .primitive .number] :=
    .cons rfl (.cons rfl .nil)
  obtain ⟨i, v, m, hleast, hv, -, -, -, herror⟩ := hone _ hdecode rfl hcode
  have hne : i ≠ 0 := by
    rintro rfl
    exact Nat.zero_ne_one (hpass.symm.trans hleast.1.2)
  have hlt : i < 2 := hleast.1.1
  obtain rfl : i = 1 := by omega
  obtain rfl : value = v := Option.some.inj hv
  have htext : "Argument at position index: " ++ Nat.repr 1 ++ ", value: " ++
      (Json.string "x").render ++ " does not match the expected type or structure." ++ "\n" =
        "Argument at position index: 1, value: x does not match " ++
          "the expected type or structure.\n" := by decide +kernel
  exact ⟨hpass, hfail, hcode, (herror (by decide)).trans htext⟩

end ShapeContract.CommandLine
