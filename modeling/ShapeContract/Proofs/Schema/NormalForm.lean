import Mathlib.Data.List.Basic
import ShapeContract.Proofs.Schema.Defects

/-!
# Normal literals

Decoding passes over all elements of an array but the first.  `Json.norm` drops them, at every
depth, and leaves everything else alone; a literal in normal form is the literal of its schema.

* `decodeAt_literal`: the literal of a schema is decoded as that schema, and nothing is logged;
* `literal_of_decodeAt`: a schema that has been decoded has the normal form as its literal;
* `defects_norm`: the normal form has the same defects.

So the outcome for a literal is that for its normal form, be it a schema or an error
(`decoding_normalises`).
-/

namespace ShapeContract

namespace Json

mutual

/-- The value with every array that is not empty cut down to its first element. -/
def norm : Json → Json
  | .array (x :: _) => .array [x.norm]
  | .object ms => .object (normMembers ms)
  | v => v

def normMembers : {b : Option String} → Fields Json b → Fields Json b
  | _, .nil => .nil
  | _, .cons k above v rest => .cons k above v.norm (normMembers rest)

end

theorem toList_normMembers {b : Option String} (ms : Fields Json b) :
    (normMembers ms).toList = ms.toList.map fun m => (m.1, m.2.norm) := by
  induction ms with
  | nil => rfl
  | cons k above v rest ih => rw [normMembers, Fields.toList, Fields.toList, ih, List.map_cons]

theorem get?_normMembers {b : Option String} (ms : Fields Json b) (key : String) :
    (normMembers ms).get? key = (ms.get? key).map norm := by
  induction ms with
  | nil => rfl
  | cons k above v rest ih =>
    rw [normMembers, Fields.get?, Fields.get?, ih]
    split <;> rfl

/-- **The normal form has the same defects**, at the same places. -/
theorem defects_norm (l : Json) : l.norm.defects = l.defects := by
  induction l using Json.induction with
  | onArray xs ih =>
    cases xs with
    | nil => rfl
    | cons x xs => rw [norm, defects, defects, ih x List.mem_cons_self]
  | onObject ms ih =>
    rw [norm, defects, defects, defectsOfMembers_eq, defectsOfMembers_eq, toList_normMembers,
      List.flatMap_map]
    exact List.flatMap_congr fun m hm => by rw [ih m hm]
  | _ => rfl

/-- Two values differ in elements that are not used: somewhere an array has the same first element
and any others behind it. -/
inductive SiblingsDiffer : Json → Json → Prop
  | here {x : Json} (xs ys : List Json) : SiblingsDiffer (.array (x :: xs)) (.array (x :: ys))
  | first {x y : Json} (xs : List Json) :
      SiblingsDiffer x y → SiblingsDiffer (.array (x :: xs)) (.array (y :: xs))
  | member {ms : Dict Json} {k : String} {v w : Json} :
      ms.get? k = some v → SiblingsDiffer v w →
      SiblingsDiffer (.object ms) (.object (Dict.put k w ms))

theorem SiblingsDiffer.norm_eq {l l' : Json} (h : SiblingsDiffer l l') : l.norm = l'.norm := by
  induction h with
  | here xs ys => rfl
  | first xs _ ih => rw [norm, norm, ih]
  | @member ms k v w hk _ ih =>
    have hsame : normMembers ms = normMembers (Dict.put k w ms) := by
      refine Fields.ext_get? fun key => ?_
      rw [get?_normMembers, get?_normMembers]
      by_cases hkey : key = k
      · rw [hkey, Dict.get?_put_self, hk, Option.map_some, Option.map_some, ih]
      · rw [Dict.get?_put_of_ne hkey]
    rw [norm, norm, hsame]

end Json

namespace Schema

/-! ### Literals of schemas -/

theorem decodeFields_literalOfFields {b : Option String} {fs : Fields Schema b}
    (h : ∀ f ∈ fs.toList, ∀ path, decodeAt path f.2.literal = .done f.2) :
    ∀ path, decodeFields path (literalOfFields fs) = .done fs := by
  intro path
  induction fs with
  | nil => rfl
  | cons k above s rest ih =>
    rw [Fields.toList, List.forall_mem_cons] at h
    rw [literalOfFields, decodeFields, show decodeAt _ s.literal = .done s from h.1 _,
      Run.done_andThen, ih h.2, Run.done_andThen]

/-- **The literal of a schema is decoded as the schema**, and nothing is logged. -/
theorem decodeAt_literal (s : Schema) : ∀ path, decodeAt path s.literal = .done s := by
  induction s using Schema.induction with
  | onPrimitive k =>
    intro path
    rw [literal, decodeAt, Kind.ofTag?_tag]
  | onSequence e ih =>
    intro path
    rw [literal, decodeAt, ih, Run.done_andThen]
  | onRecord fs ih =>
    intro path
    rw [literal, decodeAt, decodeFields_literalOfFields ih, Run.done_andThen]

theorem literal_injective {s t : Schema} (h : s.literal = t.literal) : s = t := by
  have hs := decodeAt_literal s ""
  rw [h, decodeAt_literal t ""] at hs
  exact (Except.ok.inj (congrArg Run.outcome hs)).symm

/-! ### Literals that are decoded -/

theorem map_eq_ok {ε α β : Type} {r : Except ε α} {g : α → β} {b : β} :
    r.map g = .ok b ↔ ∃ a, r = .ok a ∧ g a = b := by
  cases r with
  | error e => exact ⟨fun h => (nomatch h), fun ⟨a, h, _⟩ => (nomatch h)⟩
  | ok a =>
    constructor
    · exact fun h => ⟨a, rfl, Except.ok.inj h⟩
    · rintro ⟨_, ⟨⟩, rfl⟩
      rfl

theorem literalOfFields_of_decodeFields {b : Option String} {ms : Fields Json b}
    (h : ∀ m ∈ ms.toList, ∀ path s, (decodeAt path m.2).outcome = .ok s → s.literal = m.2.norm) :
    ∀ path fs, (decodeFields path ms).outcome = .ok fs →
      literalOfFields fs = Json.normMembers ms := by
  intro path
  induction ms with
  | nil =>
    rintro fs ⟨⟩
    rfl
  | cons k above v rest ih =>
    intro fs hfs
    rw [Fields.toList, List.forall_mem_cons] at h
    rw [outcome_decodeFields_cons] at hfs
    cases hv : (decodeAt (Pointer.child path k) v).outcome with
    | error e =>
      rw [hv] at hfs
      cases hfs
    | ok s =>
      rw [hv] at hfs
      obtain ⟨gs, hgs, rfl⟩ := map_eq_ok.mp hfs
      rw [literalOfFields, Json.normMembers, h.1 _ s hv, ih h.2 gs hgs]

/-- **A schema that has been decoded has the normal form as its literal.** -/
theorem literal_of_decodeAt (l : Json) :
    ∀ path s, (decodeAt path l).outcome = .ok s → s.literal = l.norm := by
  induction l using Json.induction with
  | onNull => rintro path s ⟨⟩
  | onBoolean b => rintro path s ⟨⟩
  | onNumber n => rintro path s ⟨⟩
  | onString t =>
    intro path s hs
    rw [decodeAt] at hs
    cases hk : Kind.ofTag? t with
    | none =>
      rw [hk] at hs
      cases hs
    | some k =>
      rw [hk] at hs
      cases hs
      exact congrArg Json.string (Kind.tag_of_ofTag? hk)
  | onArray xs ih =>
    intro path s hs
    cases xs with
    | nil => cases hs
    | cons x xs =>
      rw [outcome_decodeAt_array] at hs
      obtain ⟨e, he, rfl⟩ := map_eq_ok.mp hs
      rw [literal, Json.norm, ih x List.mem_cons_self _ e he]
  | onObject ms ih =>
    intro path s hs
    rw [outcome_decodeAt_object] at hs
    obtain ⟨fs, hfs, rfl⟩ := map_eq_ok.mp hs
    rw [literal, Json.norm, literalOfFields_of_decodeFields ih path fs hfs]

/-- **The normal form has the same outcome**: the same schema or the same error. -/
theorem outcome_decode_norm (l : Json) : (decode l.norm).outcome = (decode l).outcome := by
  cases hl : l.defects with
  | nil =>
    obtain ⟨s, hs⟩ := outcome_decode_of_nil hl
    rw [hs, ← literal_of_decodeAt l "" s hs, decode, decodeAt_literal, Run.done]
  | cons q rest =>
    have hnorm : l.norm.defects = q :: rest := by rw [Json.defects_norm, hl]
    rw [outcome_decode_of_cons hl, outcome_decode_of_cons hnorm]

/-- **Decoding normalises literals and nothing else.**  The outcome for a literal is that for its
normal form; elements that are not used change neither the schema nor the error.  The literal of the
schema is the normal form, so two literals that are accepted give one schema exactly when they have
one normal form. -/
theorem decoding_normalises :
    (∀ l : Json, (decode l).outcome = (decode l.norm).outcome) ∧
    (∀ l l' : Json, l.SiblingsDiffer l' → (decode l).outcome = (decode l').outcome) ∧
    (∀ (l : Json) (s : Schema), (decode l).outcome = .ok s → s.literal = l.norm) ∧
    ∀ (l l' : Json) (s s' : Schema), (decode l).outcome = .ok s → (decode l').outcome = .ok s' →
      (s = s' ↔ l.norm = l'.norm) := by
  refine ⟨fun l => (outcome_decode_norm l).symm, ?_, fun l => literal_of_decodeAt l "", ?_⟩
  · intro l l' h
    rw [← outcome_decode_norm l, h.norm_eq, outcome_decode_norm l']
  · intro l l' s s' hs hs'
    rw [← literal_of_decodeAt l "" s hs, ← literal_of_decodeAt l' "" s' hs']
    exact ⟨congrArg literal, literal_injective⟩

end Schema

end ShapeContract
