import Mathlib.Data.List.Forall2
import ShapeContract.Document.Load
import ShapeContract.Proofs.Json.Height

/-!
# What loading gives, and what it shows

Schemas and arguments are loaded exactly when their files hold documents of the right kind and every
literal can be decoded (`outcome_loadSchema_eq_ok_iff`, `outcome_loadSchemas_eq_ok_iff`,
`loadArguments_eq_ok_iff`).

Whatever loading comes to, all that can be seen of it are notes in the log
(`onlyNotes_loadSchema`, `onlyNotes_loadSchemas`): it prints nothing, reports nothing and calls
nothing.  `Run.OnlyNotes` is kept by putting runs together, so it follows the decoder through its
recursion.
-/

namespace ShapeContract

namespace Run

variable {ε δ α β : Type}

/-! ### Notes -/

/-- An effect that only shows in the log, as a debug event. -/
def IsNote (e : Effect) : Prop := ∃ message fields, e = .event ⟨.debug, message, fields⟩

/-- All the effects of the run are notes. -/
def OnlyNotes (r : Run ε α) : Prop := ∀ e ∈ r.effects, IsNote e

theorem onlyNotes_done (a : α) : (done a : Run ε α).OnlyNotes :=
  fun _ h => absurd h List.not_mem_nil

theorem onlyNotes_fail (e : ε) : (fail e : Run ε α).OnlyNotes :=
  fun _ h => absurd h List.not_mem_nil

theorem onlyNotes_ofExcept (r : Except ε α) : (ofExcept r).OnlyNotes :=
  fun _ h => absurd h List.not_mem_nil

theorem onlyNotes_debug (message : String) (fields : List (String × String)) :
    (debug message fields : Run ε Unit).OnlyNotes :=
  fun _ h => ⟨message, fields, List.mem_singleton.mp h⟩

theorem OnlyNotes.mapError {r : Run ε α} (h : r.OnlyNotes) (f : ε → δ) :
    (r.mapError f).OnlyNotes := h

theorem OnlyNotes.andThen {r : Run ε α} {f : α → Run ε β} (hr : r.OnlyNotes)
    (hf : ∀ a, (f a).OnlyNotes) : (r.andThen f).OnlyNotes := by
  unfold Run.andThen
  cases r.outcome with
  | error e => exact hr
  | ok a =>
    intro e he
    rcases List.mem_append.mp he with he | he
    · exact hr e he
    · exact hf a e he

/-! ### Outcomes -/

theorem outcome_mapError_eq_ok_iff {r : Run ε α} {f : ε → δ} {a : α} :
    (r.mapError f).outcome = .ok a ↔ r.outcome = .ok a := by
  unfold mapError
  cases r.outcome <;> simp [Except.mapError]

theorem outcome_andThen_eq_ok_iff {r : Run ε α} {f : α → Run ε β} {b : β} :
    (r.andThen f).outcome = .ok b ↔ ∃ a, r.outcome = .ok a ∧ (f a).outcome = .ok b := by
  rw [outcome_andThen]
  cases r.outcome with
  | ok a =>
    constructor
    · intro h
      exact ⟨a, rfl, h⟩
    · rintro ⟨_, ⟨⟩, h⟩
      exact h
  | error e => exact ⟨by rintro ⟨⟩, by rintro ⟨_, ⟨⟩, -⟩⟩

end Run

/-! ### Decoding -/

namespace Schema

theorem onlyNotes_decodeFields {b : Option String} {ms : Fields Json b}
    (h : ∀ m ∈ ms.toList, ∀ path, (decodeAt path m.2).OnlyNotes) :
    ∀ path, (decodeFields path ms).OnlyNotes := by
  intro path
  induction ms with
  | nil => exact Run.onlyNotes_done _
  | cons k above v rest ih =>
    rw [Fields.toList, List.forall_mem_cons] at h
    rw [decodeFields]
    exact (h.1 _).andThen fun s => (ih h.2).andThen fun fs => Run.onlyNotes_done _

theorem onlyNotes_decodeAt (l : Json) : ∀ path, (decodeAt path l).OnlyNotes := by
  induction l using Json.induction with
  | onNull => exact fun path => Run.onlyNotes_fail _
  | onBoolean b => exact fun path => Run.onlyNotes_fail _
  | onNumber n => exact fun path => Run.onlyNotes_fail _
  | onString t =>
    intro path
    rw [decodeAt]
    cases Kind.ofTag? t with
    | none => exact Run.onlyNotes_fail _
    | some k => exact Run.onlyNotes_done _
  | onArray xs ih =>
    intro path
    match xs with
    | [] => exact Run.onlyNotes_fail _
    | [x] =>
      rw [decodeAt]
      exact (ih x List.mem_cons_self _).andThen fun e => Run.onlyNotes_done _
    | x :: y :: ys =>
      rw [decodeAt]
      exact (Run.onlyNotes_debug _ _).andThen fun _ =>
        (ih x List.mem_cons_self _).andThen fun e => Run.onlyNotes_done _
  | onObject ms ih =>
    intro path
    rw [decodeAt]
    exact (onlyNotes_decodeFields ih path).andThen fun fs => Run.onlyNotes_done _

theorem onlyNotes_decode (l : Json) : (decode l).OnlyNotes := onlyNotes_decodeAt l ""

end Schema

/-! ### Loading -/

namespace Document

variable {files : Files} {path : String}

theorem onlyNotes_decodeFrom (path : String) (literals : List Json) :
    ∀ position, (decodeFrom path position literals).OnlyNotes := by
  induction literals with
  | nil => exact fun position => Run.onlyNotes_done _
  | cons l ls ih =>
    intro position
    rw [decodeFrom]
    exact ((Schema.onlyNotes_decode l).mapError _).andThen fun s =>
      (ih _).andThen fun ss => Run.onlyNotes_done _

theorem onlyNotes_loadSchemas (files : Files) (path : String) :
    (loadSchemas files path).OnlyNotes :=
  (Run.onlyNotes_ofExcept _).andThen fun literals => onlyNotes_decodeFrom path literals 0

theorem onlyNotes_loadSchema (files : Files) (path : String) : (loadSchema files path).OnlyNotes :=
  (Run.onlyNotes_ofExcept _).andThen fun l => (Schema.onlyNotes_decode l).mapError _

/-- The literals decode one by one to the schemas. -/
def DecodeTo (literals : List Json) (schemas : List Schema) : Prop :=
  List.Forall₂ (fun l s => (Schema.decode l).outcome = .ok s) literals schemas

/-- Literals decode as soon as each of them does. -/
theorem exists_decodeTo {literals : List Json}
    (h : ∀ l ∈ literals, ∃ s, (Schema.decode l).outcome = .ok s) :
    ∃ schemas, DecodeTo literals schemas := by
  induction literals with
  | nil => exact ⟨[], .nil⟩
  | cons l ls ih =>
    rw [List.forall_mem_cons] at h
    obtain ⟨s, hs⟩ := h.1
    obtain ⟨ss, hss⟩ := ih h.2
    exact ⟨s :: ss, .cons hs hss⟩

/-- The schema of a literal is at its position. -/
theorem DecodeTo.getElem? {literals : List Json} {schemas : List Schema}
    (h : DecodeTo literals schemas) {i : Nat} {l : Json} (hl : literals[i]? = some l) :
    ∃ s, schemas[i]? = some s ∧ (Schema.decode l).outcome = .ok s := by
  obtain ⟨hi, rfl⟩ := List.getElem?_eq_some_iff.mp hl
  have hi' : i < schemas.length := h.length_eq ▸ hi
  exact ⟨schemas[i], List.getElem?_eq_getElem hi', h.get hi hi'⟩

/-- **Literals are decoded one by one**, and all of them have to be. -/
theorem outcome_decodeFrom_eq_ok_iff {literals : List Json} : ∀ {position : Nat}
    {schemas : List Schema},
    (decodeFrom path position literals).outcome = .ok schemas ↔ DecodeTo literals schemas := by
  induction literals with
  | nil =>
    intro position schemas
    rw [DecodeTo, List.forall₂_nil_left_iff]
    constructor
    · rintro ⟨⟩
      rfl
    · rintro rfl
      rfl
  | cons l ls ih =>
    intro position schemas
    rw [decodeFrom, Run.outcome_andThen_eq_ok_iff, DecodeTo, List.forall₂_cons_left_iff]
    refine exists_congr fun s => ?_
    rw [Run.outcome_mapError_eq_ok_iff, Run.outcome_andThen_eq_ok_iff]
    constructor
    · rintro ⟨hs, ss, hss, ⟨⟩⟩
      exact ⟨ss, hs, ih.mp hss, rfl⟩
    · rintro ⟨ss, hs, hss, rfl⟩
      exact ⟨hs, ss, ih.mpr hss, rfl⟩

theorem loadArray_eq_ok_iff {xs : List Json} :
    loadArray files path = .ok xs ↔ load files path = .ok (.array xs) := by
  unfold loadArray
  cases h : load files path with
  | error e => simp
  | ok v => cases v <;> simp

/-- **Arguments are loaded exactly from a document that is an array.** -/
theorem loadArguments_eq_ok_iff {arguments : List Json} :
    loadArguments files path = .ok arguments ↔ load files path = .ok (.array arguments) :=
  loadArray_eq_ok_iff

/-- **Schemas are loaded exactly from a document that is an array of literals.** -/
theorem outcome_loadSchemas_eq_ok_iff {schemas : List Schema} :
    (loadSchemas files path).outcome = .ok schemas ↔
      ∃ literals, load files path = .ok (.array literals) ∧ DecodeTo literals schemas := by
  rw [loadSchemas, Run.outcome_andThen_eq_ok_iff]
  refine exists_congr fun literals => ?_
  rw [outcome_decodeFrom_eq_ok_iff, ← loadArray_eq_ok_iff]
  exact Iff.rfl

/-- **A schema is loaded exactly from a document that is a literal.** -/
theorem outcome_loadSchema_eq_ok_iff {schema : Schema} :
    (loadSchema files path).outcome = .ok schema ↔
      ∃ literal, load files path = .ok literal ∧ (Schema.decode literal).outcome = .ok schema := by
  rw [loadSchema, Run.outcome_andThen_eq_ok_iff]
  refine exists_congr fun literal => ?_
  rw [Run.outcome_mapError_eq_ok_iff]
  exact Iff.rfl

end Document

end ShapeContract
