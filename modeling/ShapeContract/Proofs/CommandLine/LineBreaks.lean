import ShapeContract.Proofs.CommandLine.Agreement
import ShapeContract.Proofs.CommandLine.MismatchLine
import ShapeContract.Proofs.Rendering.Array

/-!
# Line breaks in messages

The result of a check is printed as a line, and so is the failure of a guarded call that is reported
on standard error.  A message is not always one line, however.  The literal in it is written with
escapes, and the fixed words, numbers and positions have no control characters; but the names on the
way to a mismatch and the strings of an argument are taken over as they are.  A control character of
a message comes from one of these, and every control character of these is in the message
(`Schema.control_mem_message_iff`, `Json.control_mem_render_iff`).  So there is one line exactly
when no name and no string breaks it (`lines_break_with_names_and_strings`).
-/

namespace ShapeContract

open Pointer (Token)

/-! ### Texts without control characters -/

/-- A control character below U+0020, such as a line break. -/
def IsControl (c : Char) : Prop := c.toNat < 32

/-- The text has no control character. -/
def Unbroken (text : String) : Prop := ∀ c ∈ text.toList, ¬ IsControl c

instance (c : Char) : Decidable (IsControl c) := inferInstanceAs (Decidable (_ < _))

instance (text : String) : Decidable (Unbroken text) :=
  List.decidableBAll (fun c => ¬ IsControl c) text.toList

theorem Unbroken.not_mem {text : String} (h : Unbroken text) {c : Char} (hc : IsControl c) :
    c ∉ text.toList := fun hmem => h c hmem hc

theorem unbroken_of_isNumeral {text : String} (h : IsNumeral text) : Unbroken text :=
  fun c hmem => Nat.not_lt.mpr (Nat.le_of_lt (h c hmem).toNat_gt)

theorem unbroken_foundAt (o : Option Json) : Unbroken (Schema.foundAt o) :=
  fun _ hmem => Nat.not_lt.mpr (Nat.le_of_lt (Schema.toNat_gt_of_mem_foundAt hmem))

theorem Schema.unbroken_text (s : Schema) : Unbroken s.text := by
  intro c hmem
  rw [Schema.text, Json.text, String.toList_ofList] at hmem
  exact Nat.not_lt.mpr (Json.toNat_ge_of_mem_write_compact hmem)

section Control

variable {c : Char}

/-! ### Mismatches -/

/-- The texts of the steps that lead to the place of a mismatch. -/
def Mismatch.steps (m : Mismatch) : List String := (Pointer.tokens? m.path).getD []

/-- Escapes have no control characters of their own, and neither have positions. -/
theorem Pointer.control_mem_written_iff (hc : IsControl c) (t : Token) :
    c ∈ t.written ↔ c ∈ t.text.toList := by
  cases t with
  | position i => exact Iff.rfl
  | name k =>
    have hne : ∀ d, ¬ IsControl d → c ≠ d := by
      rintro d hd rfl
      exact hd hc
    have hchar : ∀ d, c ∈ escapeChar d ↔ c = d := by
      intro d
      unfold escapeChar
      split
      · simp [hne '~' (by decide), hne '0' (by decide)]
      · simp [hne '~' (by decide), hne '1' (by decide), hne '/' (by decide)]
      · exact List.mem_singleton
    simp [Token.written, Token.text, escape, hchar]

theorem Pointer.control_mem_shown_iff (hc : IsControl c) (tokens : List Token) :
    c ∈ (shown (along "" tokens)).toList ↔ ∃ t ∈ tokens, c ∈ t.text.toList := by
  by_cases htokens : tokens = []
  · subst htokens
    have hnot : c ∉ "(root)".toList := Unbroken.not_mem (by decide) hc
    exact iff_of_false hnot (by rintro ⟨t, ht, -⟩; cases ht)
  · have hslash : c ≠ '/' := by
      rintro rfl
      exact absurd hc (by decide)
    rw [shown, if_neg (mt along_eq_empty_iff.mp htokens), toList_along]
    simp [hslash, control_mem_written_iff hc]

/-- **A control character of a message is one of a step to the place.** -/
theorem Schema.control_mem_message_iff (hc : IsControl c) {s : Schema} {v : Json} {m : Mismatch}
    (h : s.mismatch? v = some m) :
    c ∈ m.message.toList ↔ ∃ step ∈ m.steps, c ∈ step.toList := by
  obtain ⟨q, rfl⟩ := exists_report_of_mismatch? h
  have hexpected : c ∉ ": expected ".toList := Unbroken.not_mem (by decide) hc
  have hfound : c ∉ ", found ".toList := Unbroken.not_mem (by decide) hc
  have hsteps : (report "" q).steps = q.path.map Token.text := by
    rw [Mismatch.steps, report, mismatchAt, Pointer.tokens?_along, Option.getD_some]
  have hpath := Pointer.control_mem_shown_iff hc q.path
  simp only [hsteps, List.mem_map, exists_exists_and_eq_and, ← hpath, Mismatch.message]
  simp only [String.toList_append, List.mem_append, hexpected, hfound, report, mismatchAt,
    q.shape.unbroken_text.not_mem hc, (unbroken_foundAt q.node).not_mem hc, or_false]

/-! ### Arguments -/

namespace Json

mutual

/-- The strings that are shown of a value: those that are in no object. -/
def shownStrings : Json → List String
  | string s => [s]
  | array xs => shownStringsOfElements xs
  | _ => []

/-- The strings that are shown of elements, from left to right. -/
def shownStringsOfElements : List Json → List String
  | [] => []
  | x :: xs => x.shownStrings ++ shownStringsOfElements xs

end

theorem shownStringsOfElements_eq (xs : List Json) :
    shownStringsOfElements xs = xs.flatMap shownStrings := by
  induction xs with
  | nil => rfl
  | cons x xs ih => rw [shownStringsOfElements, ih, List.flatMap_cons]

theorem control_mem_intercalate_iff (hc : IsControl c) (texts : List String) :
    c ∈ (",".intercalate texts).toList ↔ ∃ text ∈ texts, c ∈ text.toList := by
  have hcomma : c ∉ ",".toList := Unbroken.not_mem (by decide) hc
  induction texts with
  | nil => simp
  | cons text texts ih =>
    cases texts with
    | nil => simp
    | cons text' texts =>
      simp only [String.intercalate_cons_cons, String.toList_append, List.mem_append, hcomma,
        or_false, ih, List.mem_cons, exists_eq_or_imp]

theorem control_mem_elementText_iff (hc : IsControl c) (v : Json) :
    c ∈ v.elementText.toList ↔ c ∈ v.render.toList := by
  cases v with
  | null =>
    have hnull : c ∉ "null".toList := Unbroken.not_mem (by decide) hc
    exact iff_of_false List.not_mem_nil hnull
  | _ => exact Iff.rfl

/-- **A control character of a rendering is one of a string that is shown.** -/
theorem control_mem_render_iff (hc : IsControl c) (v : Json) :
    c ∈ v.render.toList ↔ ∃ text ∈ v.shownStrings, c ∈ text.toList := by
  induction v using Json.induction with
  | onNull => exact iff_of_false (Unbroken.not_mem (by decide) hc) (by simp [shownStrings])
  | onBoolean b =>
    refine iff_of_false ?_ (by simp [shownStrings])
    cases b with
    | false => exact Unbroken.not_mem (by decide) hc
    | true => exact Unbroken.not_mem (by decide) hc
  | onNumber n =>
    have hnumber := (unbroken_of_isNumeral n.isNumeral_render).not_mem hc
    exact iff_of_false hnumber (by simp [shownStrings])
  | onString s => simp [render, shownStrings]
  | onObject ms =>
    have hobject : c ∉ objectRendering.toList := Unbroken.not_mem (by decide) hc
    exact iff_of_false hobject (by simp [shownStrings])
  | onArray xs ih =>
    rw [render, renderElements_eq, control_mem_intercalate_iff hc, shownStrings,
      shownStringsOfElements_eq]
    calc (∃ text ∈ xs.map elementText, c ∈ text.toList)
        ↔ ∃ x ∈ xs, c ∈ x.elementText.toList := by
          simp only [List.mem_map, exists_exists_and_eq_and]
      _ ↔ ∃ x ∈ xs, ∃ text ∈ x.shownStrings, c ∈ text.toList := by
          refine exists_congr fun x => and_congr_right fun hx => ?_
          rw [control_mem_elementText_iff hc, ih x hx]
      _ ↔ ∃ text ∈ xs.flatMap shownStrings, c ∈ text.toList := by
          simp only [List.mem_flatMap]
          constructor
          · rintro ⟨x, hx, text, htext, hmem⟩
            exact ⟨text, ⟨x, hx, htext⟩, hmem⟩
          · rintro ⟨text, ⟨x, hx, htext⟩, hmem⟩
            exact ⟨x, hx, text, htext, hmem⟩

end Json

/-- The strings that are shown of the argument that a failure is about. -/
def GuardError.shownStrings {ε : Type} : GuardError ε → List String
  | argument _ v _ => v.shownStrings
  | _ => []

/-- **A control character of a failure is one of a string that is shown of the argument.** -/
theorem Guard.Rejects.control_mem_message_iff {ε : Type} [ToString ε] {schemas : List Schema}
    {arguments : List Json} {e : GuardError ε} (h : Rejects schemas arguments e)
    (hc : IsControl c) : c ∈ e.message.toList ↔ ∃ text ∈ e.shownStrings, c ∈ text.toList := by
  cases h with
  | arity _ =>
    have hnot : c ∉ "Invalid number of arguments".toList := Unbroken.not_mem (by decide) hc
    exact iff_of_false hnot (by simp [GuardError.shownStrings])
  | @argument i s v m =>
    have hindex : c ∉ "Argument at position index: ".toList := Unbroken.not_mem (by decide) hc
    have hvalue : c ∉ ", value: ".toList := Unbroken.not_mem (by decide) hc
    have hend : c ∉ " does not match the expected type or structure.".toList :=
      Unbroken.not_mem (by decide) hc
    have hposition := (unbroken_of_isNumeral (isNumeral_repr i)).not_mem hc
    rw [GuardError.message_argument, GuardError.shownStrings, ← Json.control_mem_render_iff hc]
    simp only [String.toList_append, List.mem_append, hindex, hvalue, hend, hposition, or_false,
      false_or]

end Control

/-! ### Lines -/

namespace CommandLine

open Guard (checkArguments)

theorem control_mem_reportLine_iff {c : Char} (hc : IsControl c) (s : Schema) (v : Json) :
    c ∈ (reportLine (s.mismatch? v)).toList ↔
      ∃ m, s.mismatch? v = some m ∧ ∃ step ∈ m.steps, c ∈ step.toList := by
  cases hm : s.mismatch? v with
  | none =>
    have hnot : c ∉ (reportLine none).toList := Unbroken.not_mem (by decide) hc
    exact iff_of_false hnot (by rintro ⟨m, ⟨⟩, -⟩)
  | some m =>
    have hlead : c ∉ "mismatch at ".toList := Unbroken.not_mem (by decide) hc
    simp only [reportLine, String.toList_append, List.mem_append, hlead, false_or,
      Schema.control_mem_message_iff hc hm, Option.some.injEq, exists_eq_left']

/-- A text that is one line, with the line break at its end. -/
def IsLine (text : String) : Prop := ∃ line, text = line ++ "\n" ∧ '\n' ∉ line.toList

theorem isLine_append_iff {line : String} : IsLine (line ++ "\n") ↔ '\n' ∉ line.toList := by
  constructor
  · rintro ⟨line', heq, hline'⟩
    have hchars := congrArg String.toList heq
    rw [String.toList_append, String.toList_append] at hchars
    rwa [List.append_cancel_right hchars]
  · exact fun h => ⟨line, rfl, h⟩

/-- **Lines break exactly with the names and strings that are shown in them.**  A control character,
such as a line break, is in the line of a check exactly if it is in a step to the place of the
mismatch, and in the message of rejected arguments exactly if it is in a string that is shown of the
argument.  So a check prints one line exactly when no step has a line break, and a rejection that is
reported is one line on standard error, if no notes are asked for, exactly when no string has. -/
theorem lines_break_with_names_and_strings (s : Schema) (v : Json) (schemas : List Schema)
    (arguments : List Json) :
    (∀ c, IsControl c → (c ∈ (reportLine (s.mismatch? v)).toList ↔
      ∃ m, s.mismatch? v = some m ∧ ∃ step ∈ m.steps, c ∈ step.toList)) ∧
    (∀ {ε : Type} [ToString ε] (e : GuardError ε),
      (checkArguments schemas arguments).outcome = .error e →
      ∀ c, IsControl c → (c ∈ e.message.toList ↔ ∃ text ∈ e.shownStrings, c ∈ text.toList)) ∧
    (∀ (files : Files) (line : List String) (verbosity : Nat) (schemaPath valuePath : String),
      Request.ofArguments? line = some (.run verbosity (.check schemaPath valuePath)) →
      (Document.loadSchema files schemaPath).outcome = .ok s →
      Document.load files valuePath = .ok v →
      (IsLine (execute files line).standardOutput ↔
        ∀ m, s.mismatch? v = some m → ∀ step ∈ m.steps, '\n' ∉ step.toList)) ∧
    ∀ (files : Files) (line : List String) (verbosity : Nat) (schemasPath argumentsPath : String)
      (failWith : Option String) (e : GuardError String),
      Request.ofArguments? line =
        some (.run verbosity (.guard schemasPath argumentsPath false failWith)) →
      verbosity < 2 → Loads files schemasPath argumentsPath schemas arguments →
      (checkArguments schemas arguments).outcome = .error e →
      (IsLine (execute files line).standardError ↔
        ∀ text ∈ e.shownStrings, '\n' ∉ text.toList) := by
  have hbreak : IsControl '\n' := by decide
  refine ⟨fun c hc => control_mem_reportLine_iff hc s v, ?_, ?_, ?_⟩
  · intro ε _ e he c hc
    exact (Guard.outcome_checkArguments_eq_error_iff.mp he).control_mem_message_iff hc
  · intro files line verbosity schemaPath valuePath hline hs hv
    obtain ⟨-, hout, -⟩ := outputOf_of_alike (runCheck_loaded hs hv) verbosity
    have hprinted : (execute files line).standardOutput = reportLine (s.mismatch? v) ++ "\n" := by
      rw [execute_of_run hline]
      exact hout.trans (String.join_cons.trans String.append_empty)
    rw [hprinted, isLine_append_iff, control_mem_reportLine_iff hbreak]
    simp only [not_exists, not_and]
  · intro files line verbosity schemasPath argumentsPath failWith e hline hquiet hload he
    have hr := Guard.outcome_checkArguments_eq_error_iff.mp he
    have hfail : Guard.Fails schemas arguments (Operation.echoOrFail failWith) e := .rejected hr
    have hreported : (execute files line).standardError = e.message ++ "\n" := by
      rw [execute_of_run hline]
      exact standardError_of_fails hload hfail hquiet false
    rw [hreported, isLine_append_iff, hr.control_mem_message_iff hbreak]
    simp only [not_exists, not_and]

/-- A line break in the name of a field breaks the line of a check, and one in a string the message
of a rejected argument. -/
theorem lines_with_line_breaks :
    '\n' ∈ (reportLine ((Schema.record (.cons "a\nb" trivial (.primitive .number) .nil)).mismatch?
      (.object .nil))).toList ∧
    ∃ e : GuardError String,
      (checkArguments [.primitive .number] [.string "a\nb"]).outcome = .error e ∧
        '\n' ∈ e.message.toList :=
  ⟨by decide, _, rfl, by decide⟩

end CommandLine

end ShapeContract
