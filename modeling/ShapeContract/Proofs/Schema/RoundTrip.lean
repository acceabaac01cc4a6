import ShapeContract.Proofs.Json.Limit
import ShapeContract.Proofs.Json.ReadBack
import ShapeContract.Proofs.Schema.NormalForm

/-!
# Schemas as texts

The text of a schema is parsed as that schema if its literal keeps within the reader's limit on
nested brackets, and is no JSON document for the reader if it does not (`encoding_loses_nothing`).
So the limit bounds every schema that is parsed: decoding does not add a bracket
(`Json.height_norm_le`), and a schema has at most one level more than its literal has brackets
(`depth_le_nesting`), the level of a kind, which needs none.
-/

namespace ShapeContract

namespace Json

/-- Dropping elements makes no value higher. -/
theorem height_norm_le (scalar : Nat) (v : Json) : v.norm.height scalar ≤ v.height scalar := by
  induction v using Json.induction with
  | onArray xs ih =>
    cases xs with
    | nil => exact Nat.le_refl _
    | cons x xs =>
      have hx := ih x List.mem_cons_self
      rw [norm, height, height, heightOfElements, heightOfElements, heightOfElements]
      omega
  | onObject ms ih =>
    rw [norm, height, height, Nat.add_le_add_iff_left, heightOfMembers_le, toList_normMembers,
      List.forall_mem_map]
    intro m hm
    exact Nat.le_trans (ih m hm) (heightOfMembers_le.mp (Nat.le_refl _) m hm)
  | _ => exact Nat.le_refl _

end Json

namespace Schema

theorem toList_literalOfFields {b : Option String} (fs : Fields Schema b) :
    (literalOfFields fs).toList = fs.toList.map fun f => (f.1, f.2.literal) := by
  induction fs with
  | nil => rfl
  | cons k above s rest ih =>
    rw [literalOfFields, Fields.toList, Fields.toList, ih, List.map_cons]

/-- A kind has a level and no bracket; any other schema has a bracket for its own level. -/
theorem depth_le_nesting (s : Schema) : s.depth ≤ s.literal.nesting + 1 := by
  induction s using Schema.induction with
  | onPrimitive k => exact Nat.le_refl 1
  | onSequence e ih =>
    have hnesting : (sequence e).literal.nesting = 1 + max e.literal.nesting 0 := rfl
    rw [depth, hnesting]
    omega
  | onRecord fs ih =>
    have hnesting : (record fs).literal.nesting =
        1 + Json.heightOfMembers 0 (literalOfFields fs) := rfl
    have hmembers : ∀ f ∈ fs.toList,
        f.2.literal.nesting ≤ Json.heightOfMembers 0 (literalOfFields fs) := by
      have hall := Json.heightOfMembers_le.mp
        (Nat.le_refl (Json.heightOfMembers 0 (literalOfFields fs)))
      rw [toList_literalOfFields, List.forall_mem_map] at hall
      exact hall
    rw [depth, hnesting, Nat.add_comm 1 (depthOfFields fs), Nat.add_le_add_iff_right,
      depthOfFields_le]
    intro f hf
    have := ih f hf
    have := hmembers f hf
    omega

example : (primitive .number).depth = 1 ∧ (primitive .number).literal.nesting = 0 ∧
    (record .nil).depth = 1 ∧ (record .nil).literal.nesting = 1 := by decide

/-- The literal of a schema is read back from its text, in any layout. -/
theorem readsBack_literal {l : Json.Layout} (hl : l.Blank) (s : Schema) :
    Json.ReadsBack l s.literal := by
  induction s using Schema.induction with
  | onPrimitive k => exact .string k.tag
  | onSequence e ih => exact .array hl (List.forall_mem_singleton.mpr ih)
  | onRecord fs ih =>
    refine .object hl ?_
    rw [toList_literalOfFields, List.forall_mem_map]
    exact ih

theorem decode_of_parse {text : String} {s : Schema} (h : (parse text).outcome = .ok s) :
    ∃ l, Json.read text = .ok l ∧ (decode l).outcome = .ok s := by
  rw [parse, Run.outcome_andThen] at h
  cases hl : Json.read text with
  | error e =>
    rw [hl] at h
    cases h
  | ok l =>
    rw [hl] at h
    exact ⟨l, rfl, h⟩

/-- **Encoding a schema loses nothing.**  Its literal is decoded as the schema, without an event.
Its text is parsed as the schema if the literal has at most 127 arrays and objects in one another,
and otherwise the reader gives up on the text.  So no schema that is parsed from a text has a
literal with more of them, or more than 128 levels. -/
theorem encoding_loses_nothing :
    (∀ s : Schema, decode s.literal = .done s) ∧
    (∀ s : Schema, s.literal.nesting ≤ 127 → parse s.text = .done s) ∧
    (∀ s : Schema, 127 < s.literal.nesting →
      ∃ e, parse s.text = .fail (.invalidJson e) ∧ e.cause = .nestedTooDeeply) ∧
    ∀ (text : String) (s : Schema), (parse text).outcome = .ok s →
      s.literal.nesting ≤ 127 ∧ s.depth ≤ 128 := by
  have hread := fun s : Schema => Json.read_text (readsBack_literal Json.Layout.blank_compact s)
  refine ⟨fun s => decodeAt_literal s "", ?_, ?_, ?_⟩
  · intro s hs
    rw [parse, text, (hread s).1 hs]
    exact decodeAt_literal s ""
  · intro s hs
    obtain ⟨e, he, hcause⟩ := (hread s).2 hs
    refine ⟨e, ?_, hcause⟩
    rw [parse, text, he]
    rfl
  · intro text s hs
    obtain ⟨l, hl, hdecode⟩ := decode_of_parse hs
    have hlimit : l.nesting ≤ 127 := Json.nesting_le_of_read hl
    have hnorm : s.literal.nesting ≤ l.nesting := by
      rw [literal_of_decodeAt l "" s hdecode]
      exact Json.height_norm_le 0 l
    have hdepth := depth_le_nesting s
    exact ⟨by omega, by omega⟩

end Schema

end ShapeContract
