import ShapeContract.Proofs.CommandLine.Agreement
import ShapeContract.Proofs.Json.WholeNumbers

/-!
# The echo of the guarded command is its own input

The guarded command prints the arguments it admits as an indented document.  If no number among them
is a double, the document is read as the same arguments: they were nested within the reader's limit
when they were loaded, so they still are.  Hence the command prints the same bytes again when it is
given its own output (`echo_can_be_fed_back`).

Only the brackets could stop the reader.  This is why the arguments have to come from a JSON file:
a YAML document may be nested one deeper.
-/

namespace ShapeContract

namespace Document

variable {files : Files} {path : String} {v : Json}

/-- **A JSON document is loaded exactly from a text that is read as it.** -/
theorem load_json_eq_ok_iff (hformat : Format.ofPath path = .json) :
    load files path = .ok v ↔ ∃ text, files path = .ok text ∧ Json.read text = .ok v := by
  cases hfile : files path with
  | error e => simp [load, hfile]
  | ok text => cases hread : Json.read text <;>
      simp [load, hfile, hformat, Format.parse, Except.mapError, hread]

theorem nesting_le_of_load (hformat : Format.ofPath path = .json) (h : load files path = .ok v) :
    v.nesting ≤ Json.nestingLimit := by
  obtain ⟨text, -, hread⟩ := (load_json_eq_ok_iff hformat).mp h
  exact Json.nesting_le_of_read hread

end Document

/-- The indented text of a value in a line of its own is read as the value. -/
theorem Json.read_indentedText {v : Json} (h : v.NoDoubles) (hlimit : v.nesting ≤ nestingLimit) :
    read (v.indentedText ++ "\n") = .ok v := by
  have htext : v.indentedText ++ "\n" = String.ofList (v.write .indented 0 ++ ['\n']) := by
    rw [String.ofList_append]
    rfl
  rw [htext]
  exact read_write (readsBack_of_noDoubles Layout.blank_indented h) hlimit rfl

namespace CommandLine

section Echo

variable {files : Files} {line : List String} {verbosity : Nat} {schemasPath argumentsPath : String}
  {raise : Bool} {schemas : List Schema} {arguments : List Json}

/-- What is printed depends on the arguments alone. -/
theorem execute_of_admits
    (hline : Request.ofArguments? line =
      some (.run verbosity (.guard schemasPath argumentsPath raise none)))
    (hschemas : (Document.loadSchemas files schemasPath).outcome = .ok schemas)
    (harguments : Document.load files argumentsPath = .ok (.array arguments))
    (hadm : Guard.Admits schemas arguments) :
    (execute files line).code = 0 ∧
      (execute files line).standardOutput = (Json.array arguments).indentedText ++ "\n" := by
  have hpasses : Passes files schemasPath argumentsPath none arguments :=
    ⟨schemas, ⟨hschemas, Document.loadArguments_eq_ok_iff.mpr harguments⟩, hadm, rfl⟩
  rw [execute_of_run hline]
  exact output_of_passes hpasses verbosity raise

/-- **The echoed output can be fed back.**  Let the guarded command be asked for, without a message
to fail with, and let the schemas that it loads admit the arguments that it loads from a JSON file,
where no number is a double.  It ends in code 0, and the text it prints is read as the arguments.
Whenever the command is asked for with files that hold the same schemas and, as the JSON file of the
arguments, the text that was printed, it ends in code 0 and prints the same text. -/
theorem echo_can_be_fed_back
    (hline : Request.ofArguments? line =
      some (.run verbosity (.guard schemasPath argumentsPath raise none)))
    (hformat : Format.ofPath argumentsPath = .json)
    (hschemas : (Document.loadSchemas files schemasPath).outcome = .ok schemas)
    (harguments : Document.load files argumentsPath = .ok (.array arguments))
    (hwhole : (Json.array arguments).NoDoubles) (hadm : Guard.Admits schemas arguments) :
    let out := execute files line
    out.code = 0 ∧ Json.read out.standardOutput = .ok (.array arguments) ∧
    ∀ (files' : Files) (line' : List String) (verbosity' : Nat)
      (schemasPath' argumentsPath' : String) (raise' : Bool),
      Request.ofArguments? line' =
        some (.run verbosity' (.guard schemasPath' argumentsPath' raise' none)) →
      (Document.loadSchemas files' schemasPath').outcome = .ok schemas →
      Format.ofPath argumentsPath' = .json →
      files' argumentsPath' = .ok out.standardOutput →
      (execute files' line').code = 0 ∧
        (execute files' line').standardOutput = out.standardOutput := by
  intro out
  obtain ⟨hcode, hout⟩ := execute_of_admits hline hschemas harguments hadm
  have hread : Json.read out.standardOutput = .ok (.array arguments) := by
    rw [hout]
    exact Json.read_indentedText hwhole (Document.nesting_le_of_load hformat harguments)
  refine ⟨hcode, hread, ?_⟩
  intro files' line' verbosity' schemasPath' argumentsPath' raise' hline' hschemas' hformat' hfile'
  have harguments' : Document.load files' argumentsPath' = .ok (.array arguments) :=
    (Document.load_json_eq_ok_iff hformat').mpr ⟨_, hfile', hread⟩
  obtain ⟨hcode', hout'⟩ := execute_of_admits hline' hschemas' harguments' hadm
  exact ⟨hcode', hout'.trans hout.symm⟩

end Echo

/-- Integers of both signs, a string with escapes and empty containers are echoed, and echoed once
more from the output. -/
theorem echo_of_escapes_and_empty_containers :
    let literals := [.string "number", .string "number", .string "string",
      .array [.string "null"], .object (.cons "k" trivial (.string "null") .nil)]
    let arguments := [.number (.unsigned 10 (by decide)), .number (.negative 2 (by decide)),
      .string "a\n\"", .array [], .object (.cons "k" trivial .null .nil)]
    let line := ["guard", "--schemas=s", "--args=a"]
    let out := execute (holding (.array literals) (.array arguments)) line
    let again := execute (fun path => .ok (if path = "s" then (Json.array literals).text else
      out.standardOutput)) line
    out.code = 0 ∧ Json.read out.standardOutput = .ok (.array arguments) ∧ again.code = 0 ∧
      again.standardOutput = out.standardOutput := by
  intro literals arguments line out again
  have hwhole : (Json.array arguments).NoDoubles := by
    refine .array ?_
    simp only [arguments, List.forall_mem_cons, List.not_mem_nil, false_imp_iff, implies_true,
      and_true]
    refine ⟨.number (by simp), .number (by simp), .string _, .array (by simp), .object ?_⟩
    simpa [Fields.toList] using Json.NoDoubles.null
  have hliterals : (Json.array literals).NoDoubles := by
    refine .array ?_
    simp only [literals, List.forall_mem_cons, List.not_mem_nil, false_imp_iff, implies_true,
      and_true]
    refine ⟨.string _, .string _, .string _, .array ?_, .object ?_⟩
    · simpa using Json.NoDoubles.string "null"
    · simpa [Fields.toList] using Json.NoDoubles.string "null"
  have hback := Json.readsBack_of_noDoubles Json.Layout.blank_compact hliterals
  have hload := load_holding hback (Json.readsBack_of_noDoubles Json.Layout.blank_compact hwhole)
    (by decide) (by decide)
  have hline : Request.ofArguments? line = some (.run 0 (.guard "s" "a" false none)) := by
    decide +kernel
  have hformat := ofPath_plain
  let schemas : List Schema := [.primitive .number, .primitive .number, .primitive .string,
    .sequence (.primitive .null), .record (.cons "k" trivial (.primitive .null) .nil)]
  have hdecode : Document.DecodeTo literals schemas :=
    .cons rfl (.cons rfl (.cons rfl (.cons rfl (.cons rfl .nil))))
  have hadm : Guard.Admits schemas arguments := by
    refine ⟨rfl, fun i s v hs hv => ?_⟩
    rcases i with _ | _ | _ | _ | _ | i
    iterate 5
      cases hs
      cases hv
      rfl
    cases hs
  have hschemas := Document.outcome_loadSchemas_eq_ok_iff.mpr ⟨literals, hload.1, hdecode⟩
  obtain ⟨hcode, hread, hagain⟩ := echo_can_be_fed_back hline (hformat "a" (by decide)) hschemas
    hload.2 hwhole hadm
  refine ⟨hcode, hread, hagain _ line 0 "s" "a" false hline ?_ (hformat "a" (by decide))
    (congrArg Except.ok (if_neg (by decide)))⟩
  refine Document.outcome_loadSchemas_eq_ok_iff.mpr ⟨literals, ?_, hdecode⟩
  exact (Document.load_json_eq_ok_iff (hformat "s" (by decide))).mpr
    ⟨_, congrArg Except.ok (if_pos rfl), (Json.read_text hback).1 (by decide)⟩

end CommandLine

end ShapeContract
