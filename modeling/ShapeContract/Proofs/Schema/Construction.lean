import Mathlib.Data.List.Forall2
import ShapeContract.Proofs.Json.ObjectText
import ShapeContract.Proofs.Schema.Meaning
import ShapeContract.Proofs.Schema.NormalForm

/-!
# Records from lists of fields

A record may be made from a list of fields, from the object of their literals or from a text of that
object, and names may come in any order and more than once.  `Decoded pairs fields` says that the
literals are decoded, one by one, as the shapes of the fields; then the three ways give one schema
(`decode_ofList`, `parse_objectText`).  What a list says about a name is found by looking it up from
the end (`get?_ofList`), so the schema depends on nothing but the last shape for each name
(`construction_agrees`).
-/

namespace ShapeContract

/-! ### The last value for a name -/

namespace Dict

variable {α : Type}

/-- **In a table the last value given for a name is found.** -/
theorem get?_ofList (pairs : List (String × α)) (k : String) :
    (ofList pairs).get? k = pairs.reverse.lookup k := by
  induction pairs using List.reverseRecOn with
  | nil => rfl
  | append_singleton pairs p ih =>
    rw [ofList_concat, List.reverse_append, List.reverse_singleton, List.singleton_append,
      List.lookup_cons, ← ih]
    by_cases hk : k = p.1
    · rw [hk, get?_put_self, beq_self_eq_true]
    · rw [get?_put_of_ne hk, beq_false_of_ne hk]

/-- The last value for a name depends on the pairs with that name only. -/
theorem lookup_reverse_eq (pairs : List (String × α)) (k : String) :
    pairs.reverse.lookup k = (pairs.filter (·.1 = k)).getLast?.map Prod.snd := by
  induction pairs using List.reverseRecOn with
  | nil => rfl
  | append_singleton pairs p ih =>
    rw [List.reverse_append, List.reverse_singleton, List.singleton_append, List.lookup_cons,
      List.filter_append]
    by_cases hk : k = p.1
    · rw [hk, beq_self_eq_true, List.filter_cons_of_pos (by simp), List.filter_nil,
        List.getLast?_concat]
      rfl
    · rw [beq_false_of_ne hk, List.filter_cons_of_neg (by simpa using Ne.symm hk), List.filter_nil,
        List.append_nil]
      exact ih

/-- Pairs in another order make the same table, if those of each name stay in order. -/
theorem ofList_eq_of_filter {pairs pairs' : List (String × α)}
    (h : ∀ k, pairs'.filter (·.1 = k) = pairs.filter (·.1 = k)) : ofList pairs' = ofList pairs := by
  refine Fields.ext_get? fun k => ?_
  rw [get?_ofList, get?_ofList, lookup_reverse_eq, lookup_reverse_eq, h]

end Dict

namespace Schema

/-! ### Literals that are decoded one by one -/

/-- A literal is decoded as a schema. -/
def Decodes (l : Json) (s : Schema) : Prop := (decode l).outcome = .ok s

/-- The fields have the names of the pairs, and as shapes what their literals are decoded as. -/
def Decoded (pairs : List (String × Json)) (fields : List (String × Schema)) : Prop :=
  pairs.Forall₂ (fun p f => p.1 = f.1 ∧ Decodes p.2 f.2) fields

theorem Decodes.unique {l : Json} {s t : Schema} (hs : Decodes l s) (ht : Decodes l t) : s = t :=
  Except.ok.inj (hs.symm.trans ht)

/-- The place of a literal does not matter for what it is decoded as. -/
theorem Decodes.outcome_decodeAt {l : Json} {s : Schema} (h : Decodes l s) (path : String) :
    (decodeAt path l).outcome = .ok s := by
  rcases settles_decodeAt l path with ⟨-, t, ht⟩ | ⟨q, rest, hcons, -⟩
  · have hsame : t.literal = s.literal := by
      rw [literal_of_decodeAt l path t ht, literal_of_decodeAt l "" s h]
    rw [ht, literal_injective hsame]
  · rw [Decodes, outcome_decode_of_cons hcons] at h
    cases h

theorem eq_of_rel_decodes {o : Option Json} {p q : Option Schema} (hp : Option.Rel Decodes o p)
    (hq : Option.Rel Decodes o q) : p = q := by
  cases hp with
  | none =>
    cases hq
    rfl
  | some hs =>
    cases hq with
    | some ht => rw [hs.unique ht]

theorem lookup_decoded {pairs : List (String × Json)} {fields : List (String × Schema)}
    (h : Decoded pairs fields) (k : String) :
    Option.Rel Decodes (pairs.lookup k) (fields.lookup k) := by
  induction h with
  | nil => exact .none
  | @cons p f pairs fields hpf _ ih =>
    rw [List.lookup_cons, List.lookup_cons, hpf.1]
    split
    · exact .some hpf.2
    · exact ih

/-- Members that are decoded one by one are decoded together. -/
theorem exists_decodeFields (path : String) {b : Option String} {ms : Fields Json b}
    (h : ∀ m ∈ ms.toList, ∃ s, Decodes m.2 s) :
    ∃ fs : Fields Schema b, (decodeFields path ms).outcome = .ok fs ∧
      ∀ k, Option.Rel Decodes (ms.get? k) (fs.get? k) := by
  induction ms with
  | nil => exact ⟨.nil, rfl, fun k => .none⟩
  | cons k above v rest ih =>
    rw [Fields.toList, List.forall_mem_cons] at h
    obtain ⟨s, hs⟩ := h.1
    obtain ⟨fs, hfs, hget⟩ := ih h.2
    refine ⟨.cons k above s fs, ?_, fun key => ?_⟩
    · rw [outcome_decodeFields_cons, hs.outcome_decodeAt, hfs]
      rfl
    · rw [Fields.get?, Fields.get?]
      split
      · exact .some hs
      · exact hget key

/-- **The object of the literals is decoded as the record of the shapes.** -/
theorem decode_ofList {pairs : List (String × Json)} {fields : List (String × Schema)}
    (h : Decoded pairs fields) :
    (decode (.object (Dict.ofList pairs))).outcome = .ok (ofFields fields) := by
  have hlast : ∀ k,
      Option.Rel Decodes ((Dict.ofList pairs).get? k) ((Dict.ofList fields).get? k) := by
    intro k
    rw [Dict.get?_ofList, Dict.get?_ofList]
    exact lookup_decoded (List.forall₂_reverse_iff.mpr h) k
  have hdecoded : ∀ m ∈ (Dict.ofList pairs).toList, ∃ s, Decodes m.2 s := by
    intro m hm
    have hrel := hlast m.1
    rw [Fields.mem_toList_iff.mp (show (m.1, m.2) ∈ _ from hm)] at hrel
    generalize (Dict.ofList fields).get? m.1 = o at hrel
    cases hrel with
    | some hs => exact ⟨_, hs⟩
  obtain ⟨fs, hfs, hget⟩ := exists_decodeFields "" hdecoded
  have hsame : fs = Dict.ofList fields :=
    Fields.ext_get? fun k => eq_of_rel_decodes (hget k) (hlast k)
  rw [decode, outcome_decodeAt_object, hfs, hsame]
  rfl

/-- **A text of the object is parsed as the record of the shapes.** -/
theorem parse_objectText {pairs : List (String × Json)} {fields : List (String × Schema)}
    (h : Decoded pairs fields) {text : String} (htext : Json.ObjectText text pairs) :
    (parse text).outcome = .ok (ofFields fields) := by
  rw [parse, Json.read_objectText htext, Run.outcome_andThen]
  exact decode_ofList h

/-! ### What a record accepts -/

theorem accepts_ofFields_iff {fields : List (String × Schema)} {v : Json} :
    (ofFields fields).accepts v = true ↔
      ∃ ms, v = .object ms ∧ ∀ k s, fields.reverse.lookup k = some s →
        ∃ w, ms.get? k = some w ∧ s.accepts w = true := by
  have hfield : ∀ (s : Schema) (o : Option Json),
      s.acceptsField o = true ↔ ∃ w, o = some w ∧ s.accepts w = true := by
    intro s o
    cases o with
    | none => simp [acceptsField]
    | some w => simp [acceptsField]
  have hrecord : ∀ ms : Dict Json, (ofFields fields).accepts (.object ms) = true ↔
      ∀ k s, fields.reverse.lookup k = some s → ∃ w, ms.get? k = some w ∧ s.accepts w = true := by
    intro ms
    rw [ofFields, accepts_record_iff]
    simp only [Dict.get?_ofList, hfield]
  cases v with
  | object ms =>
    rw [hrecord]
    constructor
    · intro h
      exact ⟨ms, rfl, h⟩
    · rintro ⟨_, ⟨⟩, h⟩
      exact h
  | _ =>
    constructor
    · rintro ⟨⟩
    · rintro ⟨_, ⟨⟩, _⟩

/-- **The three ways to make a record agree**, whatever the order of the fields is and however often
a name is given.  The fields of the record ascend strictly by the bytes of their names, and each has
the shape that was given last for its name; pairs in another order make the same schema if those of
each name stay in order.  A value has the shape of the record if it is an object with a member of
the last shape for every name. -/
theorem construction_agrees {pairs : List (String × Json)} {fields : List (String × Schema)}
    (h : Decoded pairs fields) :
    (decode (.object (Dict.ofList pairs))).outcome = .ok (ofFields fields) ∧
    (∀ text, Json.ObjectText text pairs → (parse text).outcome = .ok (ofFields fields)) ∧
    (∃ fs : Fields Schema none, ofFields fields = .record fs ∧
      (fs.toList.Pairwise fun f g => Text.bytes f.1 < Text.bytes g.1) ∧
      ∀ k, fs.get? k = fields.reverse.lookup k) ∧
    (∀ pairs' fields', Decoded pairs' fields' →
      (∀ k, pairs'.filter (·.1 = k) = pairs.filter (·.1 = k)) →
      ofFields fields' = ofFields fields) ∧
    ∀ v, (ofFields fields).accepts v = true ↔
      ∃ ms, v = .object ms ∧ ∀ k s, fields.reverse.lookup k = some s →
        ∃ w, ms.get? k = some w ∧ s.accepts w = true := by
  refine ⟨decode_ofList h, fun text => parse_objectText h, ⟨Dict.ofList fields, rfl, ?_, ?_⟩, ?_,
    fun v => accepts_ofFields_iff⟩
  · exact (Fields.pairwise_toList _).imp fun hlt => Text.lt_iff_bytes_lt.mp hlt
  · exact Dict.get?_ofList fields
  · intro pairs' fields' h' hsame
    have hobject := decode_ofList h'
    rw [Dict.ofList_eq_of_filter hsame, decode_ofList h] at hobject
    exact (Except.ok.inj hobject).symm

/-- A record in which a name is given twice, with an array of one literal, and a text of it with
blanks and with an escape in a name. -/
theorem construction_of_repeated_name :
    Decoded [("b", .string "number"), ("a", .array [.string "string"]), ("b", .string "boolean")]
      [("b", number), ("a", .sequence string), ("b", boolean)] ∧
    Json.ObjectText " \x7b\"b\":\"number\", \"\\u0061\" : [\"string\"],\"b\":\"boolean\"\x7d"
      [("b", .string "number"), ("a", .array [.string "string"]), ("b", .string "boolean")] ∧
    (parse " \x7b\"b\":\"number\", \"\\u0061\" : [\"string\"],\"b\":\"boolean\"\x7d").outcome =
      .ok (ofFields [("b", number), ("a", .sequence string), ("b", boolean)]) := by
  have hdecoded : Decoded
      [("b", .string "number"), ("a", .array [.string "string"]), ("b", .string "boolean")]
      [("b", number), ("a", .sequence string), ("b", boolean)] :=
    .cons ⟨rfl, rfl⟩ (.cons ⟨rfl, rfl⟩ (.cons ⟨rfl, rfl⟩ .nil))
  have htext : Json.ObjectText
      " \x7b\"b\":\"number\", \"\\u0061\" : [\"string\"],\"b\":\"boolean\"\x7d"
      [("b", .string "number"), ("a", .array [.string "string"]), ("b", .string "boolean")] := by
    refine ⟨" ", "", "", [⟨"\"b\"", "\"number\""⟩, ⟨" \"\\u0061\" ", " [\"string\"]"⟩,
      ⟨"\"b\"", "\"boolean\""⟩], by decide, by decide, by decide, ?_, by decide⟩
    refine .cons ⟨⟨[], ?_, rfl⟩, ⟨[], ?_, rfl⟩⟩ (.cons ⟨⟨[' '], ?_, rfl⟩, ⟨[], ?_, rfl⟩⟩
      (.cons ⟨⟨[], ?_, rfl⟩, ⟨[], ?_, rfl⟩⟩ .nil))
    all_goals with_unfolding_all rfl
  exact ⟨hdecoded, htext, (construction_agrees hdecoded).2.1 _ htext⟩

end Schema

end ShapeContract
