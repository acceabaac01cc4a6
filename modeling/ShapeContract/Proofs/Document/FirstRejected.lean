import Mathlib.Order.Bounds.Defs
import ShapeContract.Proofs.Document.Loading

/-!
# All the schemas of a file, or none

The literals of a file are decoded from the left, and the first one that is rejected ends it.  So a
list of literals is either decoded whole, with the notes of all of them, or it is cut at a rejected
one: those before it are decoded, and what is behind it is not looked at
(`decodeFrom_of_decodeTo`, `decodeFrom_of_rejected`).  One of the two is always the case
(`decodeTo_or_rejected`).

`loading_is_all_or_nothing` says the same of loading, in terms of positions.
-/

namespace ShapeContract

namespace Run

variable {ε α β : Type} {r : Run ε α}

theorem andThen_of_ok {a : α} (h : r.outcome = .ok a) (f : α → Run ε β) :
    r.andThen f = ⟨r.effects ++ (f a).effects, (f a).outcome⟩ := by
  simp only [andThen, h]

theorem andThen_of_error {e : ε} (h : r.outcome = .error e) (f : α → Run ε β) :
    r.andThen f = ⟨r.effects, .error e⟩ := by
  simp only [andThen, h]

end Run

namespace Document

variable {path : String} {literals : List Json}

/-- What is noted when literals are decoded one after the other. -/
def notesOf (literals : List Json) : List Effect :=
  literals.flatMap fun l => (Schema.decode l).effects

theorem notesOf_cons (l : Json) (ls : List Json) :
    notesOf (l :: ls) = (Schema.decode l).effects ++ notesOf ls := List.flatMap_cons

/-- A literal that is decoded is passed, and the others are decoded from the next position on. -/
theorem decodeFrom_cons_of_ok {l : Json} {s : Schema} (h : (Schema.decode l).outcome = .ok s)
    (position : Nat) (ls : List Json) :
    decodeFrom path position (l :: ls) =
      ⟨(Schema.decode l).effects ++ (decodeFrom path (position + 1) ls).effects,
        (decodeFrom path (position + 1) ls).outcome.map (s :: ·)⟩ := by
  have hl : ((Schema.decode l).mapError (LoadError.invalidSchemaAt path position)).outcome =
      .ok s := Run.outcome_mapError_eq_ok_iff.mpr h
  rw [decodeFrom, Run.andThen_of_ok hl]
  cases hls : (decodeFrom path (position + 1) ls).outcome with
  | error e =>
    rw [Run.andThen_of_error hls]
    rfl
  | ok ss =>
    rw [Run.andThen_of_ok hls]
    simp only [Run.done, List.append_nil]
    rfl

theorem decodeFrom_cons_of_error {l : Json} {e : SchemaError}
    (h : (Schema.decode l).outcome = .error e) (position : Nat) (ls : List Json) :
    decodeFrom path position (l :: ls) =
      ⟨(Schema.decode l).effects, .error (.invalidSchemaAt path position e)⟩ := by
  have hl : ((Schema.decode l).mapError (LoadError.invalidSchemaAt path position)).outcome =
      .error (.invalidSchemaAt path position e) := by
    rw [Run.mapError, h]
    rfl
  rw [decodeFrom, Run.andThen_of_error hl]
  rfl

/-- **Literals that all decode are decoded whole**, and all of them are noted. -/
theorem decodeFrom_of_decodeTo {schemas : List Schema} (h : DecodeTo literals schemas) :
    ∀ position, decodeFrom path position literals = ⟨notesOf literals, .ok schemas⟩ := by
  induction h with
  | nil => exact fun position => rfl
  | @cons l s ls ss hl _ ih =>
    intro position
    rw [decodeFrom_cons_of_ok hl, ih, notesOf_cons]
    rfl

/-- **The first literal that is rejected ends decoding**, whatever is behind it. -/
theorem decodeFrom_of_rejected {before : List Json} {schemas : List Schema}
    (h : DecodeTo before schemas) {l : Json} {e : SchemaError}
    (hl : (Schema.decode l).outcome = .error e) (after : List Json) :
    ∀ position, decodeFrom path position (before ++ l :: after) =
      ⟨notesOf (before ++ [l]), .error (.invalidSchemaAt path (position + before.length) e)⟩ := by
  induction h with
  | nil =>
    intro position
    rw [List.nil_append, decodeFrom_cons_of_error hl, List.nil_append, notesOf_cons]
    exact congrArg (Run.mk · _) (List.append_nil _).symm
  | @cons b s before ss hb _ ih =>
    intro position
    rw [List.cons_append, decodeFrom_cons_of_ok hb, ih, List.cons_append, notesOf_cons,
      List.length_cons, show position + 1 + before.length = position + (before.length + 1) by omega]
    rfl

/-- Literals decode, or the first of them that does not is behind others that do. -/
theorem decodeTo_or_rejected (literals : List Json) :
    (∃ schemas, DecodeTo literals schemas) ∨
    ∃ before l after schemas e, literals = before ++ l :: after ∧ DecodeTo before schemas ∧
      (Schema.decode l).outcome = .error e := by
  induction literals with
  | nil => exact Or.inl ⟨[], .nil⟩
  | cons l ls ih =>
    cases hl : (Schema.decode l).outcome with
    | error e => exact Or.inr ⟨[], l, ls, [], e, rfl, .nil, hl⟩
    | ok s =>
      rcases ih with ⟨ss, hss⟩ | ⟨before, b, after, ss, e, rfl, hbefore, hb⟩
      · exact Or.inl ⟨s :: ss, .cons hl hss⟩
      · exact Or.inr ⟨l :: before, b, after, s :: ss, e, rfl, .cons hl hbefore, hb⟩

/-! ### Positions -/

/-- The literal at a position is rejected with an error. -/
def RejectedAt (literals : List Json) (i : Nat) (e : SchemaError) : Prop :=
  ∃ l, literals[i]? = some l ∧ (Schema.decode l).outcome = .error e

/-- Schemas belong to literals position by position. -/
theorem decodeTo_iff {schemas : List Schema} :
    DecodeTo literals schemas ↔ schemas.length = literals.length ∧
      ∀ (i : Nat) (l : Json) (s : Schema), literals[i]? = some l → schemas[i]? = some s →
        (Schema.decode l).outcome = .ok s := by
  constructor
  · intro h
    refine ⟨h.length_eq.symm, fun i l s hl hs => ?_⟩
    obtain ⟨t, ht, hdecode⟩ := h.getElem? hl
    rw [hs] at ht
    cases ht
    exact hdecode
  · rintro ⟨hlen, h⟩
    refine List.forall₂_iff_get.mpr ⟨hlen.symm, fun i hi hi' => ?_⟩
    exact h i _ _ (List.getElem?_eq_getElem hi) (List.getElem?_eq_getElem hi')

/-- None of the literals that decode is rejected. -/
theorem DecodeTo.not_rejectedAt {schemas : List Schema} (h : DecodeTo literals schemas) {i : Nat}
    {e : SchemaError} : ¬ RejectedAt literals i e := by
  rintro ⟨l, hl, he⟩
  obtain ⟨s, -, hs⟩ := h.getElem? hl
  rw [hs] at he
  cases he

/-- The rejected literal behind those that decode is at the least position. -/
theorem isLeast_rejected {before : List Json} {schemas : List Schema}
    (h : DecodeTo before schemas) {l : Json} {e : SchemaError}
    (hl : (Schema.decode l).outcome = .error e) (after : List Json) :
    IsLeast {i | ∃ e, RejectedAt (before ++ l :: after) i e} before.length := by
  refine ⟨⟨e, l, ?_, hl⟩, ?_⟩
  · rw [List.getElem?_append_right (Nat.le_refl _), Nat.sub_self, List.getElem?_cons_zero]
  · rintro j ⟨e', l', hl', he'⟩
    by_contra hlt
    rw [List.getElem?_append_left (by omega)] at hl'
    exact h.not_rejectedAt ⟨l', hl', he'⟩

variable {files : Files}

theorem loadSchemas_of_array (h : load files path = .ok (.array literals)) :
    loadSchemas files path = decodeFrom path 0 literals := by
  rw [loadSchemas, loadArray_eq_ok_iff.mpr h]
  rfl

theorem loadSchemas_of_not_array {v : Json} (h : load files path = .ok v)
    (hkind : v.kind ≠ .array) : loadSchemas files path = .fail (.notArray path v.kind) := by
  have harray : loadArray files path = .error (.notArray path v.kind) := by
    unfold loadArray
    rw [h]
    cases v with
    | array xs => exact absurd rfl hkind
    | _ => rfl
  rw [loadSchemas, harray]
  rfl

/-- **A list of schemas is loaded whole or not at all.**  It is loaded exactly from a document that
is an array of literals that all decode.  Then the schemas belong to the literals position by
position, and what has been noted are the notes of all the literals.  If the document is an array
with a literal that is rejected, the error names the least position of one and has the error of the
literal there, as it is decoded by itself.  What has been noted then are the notes of the literals
up to that position, and nothing in the document behind it changes anything.  A document that is no
array is named by its kind, and nothing is decoded. -/
theorem loading_is_all_or_nothing (files : Files) (path : String) :
    (∀ schemas, (loadSchemas files path).outcome = .ok schemas ↔
      ∃ literals, load files path = .ok (.array literals) ∧
        schemas.length = literals.length ∧
        ∀ (i : Nat) (l : Json) (s : Schema), literals[i]? = some l → schemas[i]? = some s →
          (Schema.decode l).outcome = .ok s) ∧
    (∀ literals, load files path = .ok (.array literals) →
      ((∃ schemas, (loadSchemas files path).outcome = .ok schemas) ↔
        ∀ l ∈ literals, ∃ s, (Schema.decode l).outcome = .ok s)) ∧
    (∀ literals schemas, load files path = .ok (.array literals) →
      (loadSchemas files path).outcome = .ok schemas →
      (loadSchemas files path).effects = notesOf literals) ∧
    (∀ literals, load files path = .ok (.array literals) →
      (∃ l ∈ literals, ∀ s, (Schema.decode l).outcome ≠ .ok s) →
      ∃ i e, IsLeast {i | ∃ e, RejectedAt literals i e} i ∧ RejectedAt literals i e ∧
        loadSchemas files path =
          ⟨notesOf (literals.take (i + 1)), .error (.invalidSchemaAt path i e)⟩ ∧
        (LoadError.invalidSchemaAt path i e).chain =
          ["invalid schema at position " ++ Nat.repr i ++ " in " ++ path, e.message] ∧
        ∀ files' after, load files' path = .ok (.array (literals.take (i + 1) ++ after)) →
          loadSchemas files' path = loadSchemas files path) ∧
    ∀ v, load files path = .ok v → v.kind ≠ .array →
      loadSchemas files path = .fail (.notArray path v.kind) ∧
      (LoadError.notArray path v.kind).chain =
        [path ++ " must contain an array, found " ++ v.kind.tag] := by
  refine ⟨fun schemas => ?_, fun literals h => ?_, fun literals schemas h hs => ?_,
    fun literals h hbad => ?_, fun v h hkind => ⟨loadSchemas_of_not_array h hkind, rfl⟩⟩
  · rw [outcome_loadSchemas_eq_ok_iff]
    exact exists_congr fun literals => and_congr_right fun _ => decodeTo_iff
  · rw [loadSchemas_of_array h]
    constructor
    · rintro ⟨schemas, hs⟩ l hl
      obtain ⟨i, hi⟩ := List.mem_iff_getElem?.mp hl
      obtain ⟨s, -, hs⟩ := (outcome_decodeFrom_eq_ok_iff.mp hs).getElem? hi
      exact ⟨s, hs⟩
    · intro hall
      obtain ⟨schemas, hs⟩ := exists_decodeTo hall
      exact ⟨schemas, outcome_decodeFrom_eq_ok_iff.mpr hs⟩
  · rw [loadSchemas_of_array h] at hs ⊢
    rw [decodeFrom_of_decodeTo (outcome_decodeFrom_eq_ok_iff.mp hs)]
  · rcases decodeTo_or_rejected literals with
      ⟨schemas, hall⟩ | ⟨before, l, rest, ss, e, rfl, hss, hl⟩
    · obtain ⟨l, hl, hno⟩ := hbad
      obtain ⟨i, hi⟩ := List.mem_iff_getElem?.mp hl
      obtain ⟨s, -, hs⟩ := hall.getElem? hi
      exact absurd hs (hno s)
    · have hleast := isLeast_rejected hss hl rest
      have htake : (before ++ l :: rest).take (before.length + 1) = before ++ [l] := by
        rw [List.take_length_add_append]
        rfl
      have hrun : ∀ after, decodeFrom path 0 (before ++ l :: after) =
          ⟨notesOf (before ++ [l]), .error (.invalidSchemaAt path before.length e)⟩ := by
        intro after
        rw [decodeFrom_of_rejected hss hl after 0, Nat.zero_add]
      refine ⟨before.length, e, hleast, ?_, ?_, rfl, fun files' after h' => ?_⟩
      · exact ⟨l, by simp, hl⟩
      · rw [loadSchemas_of_array h, hrun, htake]
      · rw [htake, List.append_assoc, List.singleton_append] at h'
        rw [loadSchemas_of_array h, loadSchemas_of_array h', hrun, hrun]

end Document

end ShapeContract
