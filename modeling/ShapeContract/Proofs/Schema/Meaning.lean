import ShapeContract.Proofs.Schema.Pruning

/-!
# Schemas that mean the same

Two schemas mean the same if they accept the same values.  A record without fields asks for an
object and nothing more, so it means the same as the kind `object`; `Schema.reduced` puts the kind
in its place at every depth.

* `accepts_reduced`: the reduced schema accepts the same values.
* `reduced_eq_of_meansSame`: schemas that mean the same are equal once they are reduced.

The second is shown with values made for the purpose.  `Schema.sample` is accepted, and the sample
of a record has its fields and no other member, so it tells records with different names apart.
Where the names are the same, any value may stand in the sample under one of them, and the object is
accepted exactly when that value is (`accepts_put_sample`).  `Schema.offender` is refused; as an
element it tells a sequence from the kind `array`.
-/

namespace ShapeContract.Schema

/-! ### Reduced schemas -/

mutual

/-- The schema with the kind `object` in the place of every record without fields. -/
def reduced : Schema → Schema
  | primitive k => primitive k
  | sequence e => sequence e.reduced
  | record .nil => primitive .object
  | record (.cons k above s rest) => record (.cons k above s.reduced (reducedFields rest))

def reducedFields : {b : Option String} → Fields Schema b → Fields Schema b
  | _, .nil => .nil
  | _, .cons k above s rest => .cons k above s.reduced (reducedFields rest)

end

example : (sequence (ofFields [])).reduced = sequence (primitive .object) := rfl

theorem get?_reducedFields {b : Option String} (fs : Fields Schema b) (key : String) :
    (reducedFields fs).get? key = (fs.get? key).map reduced := by
  induction fs with
  | nil => rfl
  | cons k above s rest ih =>
    rw [reducedFields, Fields.get?, Fields.get?, ih]
    split <;> rfl

/-- A record that has a field is reduced field by field. -/
theorem reduced_record {fs : Fields Schema none} (h : fs ≠ .nil) :
    (record fs).reduced = record (reducedFields fs) := by
  cases fs with
  | nil => exact absurd rfl h
  | cons k above s rest => rfl

/-! ### What a record asks for -/

/-- An object has the shape of a record if it has a member of the right shape for every field. -/
theorem accepts_record_iff {fs : Fields Schema none} {ms : Dict Json} :
    (record fs).accepts (.object ms) = true ↔
      ∀ k t, fs.get? k = some t → t.acceptsField (ms.get? k) = true := by
  rw [accepts, acceptsFields_eq, List.all_eq_true]
  constructor
  · intro h k t ht
    exact h (k, t) (Fields.mem_toList_iff.mpr ht)
  · rintro h ⟨k, t⟩ hf
    exact h k t (Fields.mem_toList_iff.mp hf)

/-- A record accepts the same values if its fields do. -/
theorem accepts_reducedFields {fs : Fields Schema none}
    (h : ∀ f ∈ fs.toList, ∀ v, f.2.reduced.accepts v = f.2.accepts v) (v : Json) :
    (record (reducedFields fs)).accepts v = (record fs).accepts v := by
  have hfield : ∀ k t, fs.get? k = some t → ∀ o, t.reduced.acceptsField o = t.acceptsField o := by
    intro k t ht o
    cases o with
    | none => rfl
    | some v => exact h (k, t) (Fields.mem_toList_iff.mpr ht) v
  cases v with
  | object ms =>
    rw [Bool.eq_iff_iff, accepts_record_iff, accepts_record_iff]
    constructor
    · intro hms k t ht
      rw [← hfield k t ht]
      exact hms k t.reduced (by rw [get?_reducedFields, ht]; rfl)
    · intro hms k t' ht'
      rw [get?_reducedFields] at ht'
      obtain ⟨t, ht, rfl⟩ := Option.map_eq_some_iff.mp ht'
      rw [hfield k t ht]
      exact hms k t ht
  | _ => rfl

/-- **The reduced schema accepts the same values.** -/
theorem accepts_reduced (s : Schema) : ∀ v, s.reduced.accepts v = s.accepts v := by
  induction s using Schema.induction with
  | onPrimitive k => exact fun v => rfl
  | onSequence e ih =>
    intro v
    cases v with
    | array xs => rw [reduced, accepts, accepts, funext ih]
    | _ => rfl
  | onRecord fs ih =>
    intro v
    by_cases hfs : fs = .nil
    · subst hfs
      cases v <;> rfl
    · rw [reduced_record hfs]
      exact accepts_reducedFields ih v

/-! ### Values that are accepted and values that are refused -/

mutual

/-- A value that has the shape; an object has the fields of its record and no other member. -/
def sample : Schema → Json
  | primitive k => k.sample
  | sequence _ => .array []
  | record fs => .object (sampleFields fs)

def sampleFields : {b : Option String} → Fields Schema b → Fields Json b
  | _, .nil => .nil
  | _, .cons k above s rest => .cons k above s.sample (sampleFields rest)

end

/-- A value that does not have the shape. -/
def offender : Schema → Json
  | primitive .null => .boolean false
  | _ => .null

theorem get?_sampleFields {b : Option String} (fs : Fields Schema b) (key : String) :
    (sampleFields fs).get? key = (fs.get? key).map sample := by
  induction fs with
  | nil => rfl
  | cons k above s rest ih =>
    rw [sampleFields, Fields.get?, Fields.get?, ih]
    split <;> rfl

theorem accepts_sample (s : Schema) : s.accepts s.sample = true := by
  induction s using Schema.induction with
  | onPrimitive k => exact beq_iff_eq.mpr (Kind.kind_sample k)
  | onSequence e ih => rfl
  | onRecord fs ih =>
    refine accepts_record_iff.mpr fun k t ht => ?_
    rw [get?_sampleFields, ht]
    exact ih (k, t) (Fields.mem_toList_iff.mpr ht)

theorem accepts_offender (s : Schema) : s.accepts s.offender = false := by
  cases s with
  | primitive k => cases k <;> rfl
  | sequence e => rfl
  | record fs => rfl

/-- In the sample of a record one member may be any value, and decides. -/
theorem accepts_put_sample {fs : Fields Schema none} {key : String} {t : Schema}
    (h : fs.get? key = some t) (v : Json) :
    (record fs).accepts (.object (Dict.put key v (sampleFields fs))) = t.accepts v := by
  rw [Bool.eq_iff_iff, accepts_record_iff]
  constructor
  · intro hms
    have := hms key t h
    rwa [Dict.get?_put_self] at this
  · intro hv k t' ht'
    by_cases hk : k = key
    · subst hk
      rw [h] at ht'
      cases ht'
      rw [Dict.get?_put_self]
      exact hv
    · rw [Dict.get?_put_of_ne hk, get?_sampleFields, ht']
      exact accepts_sample t'

/-! ### Schemas that mean the same -/

/-- Two schemas accept the same values. -/
def MeansSame (s t : Schema) : Prop := ∀ v, s.accepts v = t.accepts v

theorem MeansSame.symm {s t : Schema} (h : s.MeansSame t) : t.MeansSame s := fun v => (h v).symm

/-- The kind of the values that have the shape. -/
def kind : Schema → Kind
  | primitive k => k
  | sequence _ => .array
  | record _ => .object

theorem kind_of_accepts {s : Schema} {v : Json} (h : s.accepts v = true) : v.kind = s.kind := by
  cases s with
  | primitive k => exact beq_iff_eq.mp h
  | sequence e =>
    cases v with
    | array xs => rfl
    | _ => cases h
  | record fs =>
    cases v with
    | object ms => rfl
    | _ => cases h

theorem MeansSame.kind_eq {s t : Schema} (h : s.MeansSame t) : s.kind = t.kind := by
  have ht : t.accepts s.sample = true := by rw [← h, accepts_sample]
  rw [← kind_of_accepts (accepts_sample s), kind_of_accepts ht]

/-- A kind means the same as no schema but the kind itself, or a record without fields. -/
theorem MeansSame.reduced_primitive {k : Kind} {t : Schema} (h : (primitive k).MeansSame t) :
    (primitive k).reduced = t.reduced := by
  have hkind : k = t.kind := h.kind_eq
  subst hkind
  cases t with
  | primitive l => rfl
  | sequence e =>
    have hv := h (.array [e.offender])
    rw [accepts, accepts, List.all_cons, accepts_offender] at hv
    cases hv
  | record fs =>
    cases fs with
    | nil => rfl
    | cons l above s rest => cases h (.object .nil)

/-- A sequence accepts an array with one element exactly when the element has its shape. -/
theorem MeansSame.element {e e' : Schema} (h : (sequence e).MeansSame (sequence e')) :
    e.MeansSame e' := by
  intro v
  have hv := h (.array [v])
  rwa [accepts, accepts, List.all_cons, List.all_cons, List.all_nil, List.all_nil, Bool.and_true,
    Bool.and_true] at hv

/-- Of records that mean the same, one has every field of the other. -/
theorem MeansSame.exists_field {fs gs : Fields Schema none} (h : (record fs).MeansSame (record gs))
    {k : String} {t : Schema} (ht : fs.get? k = some t) : ∃ t', gs.get? k = some t' := by
  have hsample : (record fs).accepts (.object (sampleFields gs)) = true :=
    (h _).trans (accepts_sample (record gs))
  have hfield := accepts_record_iff.mp hsample k t ht
  rw [get?_sampleFields] at hfield
  cases hk : gs.get? k with
  | some t' => exact ⟨t', rfl⟩
  | none =>
    rw [hk] at hfield
    cases hfield

/-- Of records that mean the same, the fields of one name mean the same. -/
theorem MeansSame.field {fs gs : Fields Schema none} (h : (record fs).MeansSame (record gs))
    {k : String} {t t' : Schema} (ht : fs.get? k = some t) (ht' : gs.get? k = some t') :
    t.MeansSame t' := by
  -- a value in the sample of one record is accepted by both, and so has the shape in the other
  have himp : ∀ {fs gs : Fields Schema none}, (record fs).MeansSame (record gs) →
      ∀ {t t'}, fs.get? k = some t → gs.get? k = some t' →
      ∀ v, t.accepts v = true → t'.accepts v = true := by
    intro fs gs h t t' ht ht' v hv
    have hgs : (record gs).accepts (.object (Dict.put k v (sampleFields fs))) = true := by
      rw [← h, accepts_put_sample ht, hv]
    have hfield := accepts_record_iff.mp hgs k t' ht'
    rwa [Dict.get?_put_self] at hfield
  intro v
  rw [Bool.eq_iff_iff]
  exact ⟨himp h ht ht' v, himp h.symm ht' ht v⟩

/-- **Schemas that mean the same are equal once they are reduced.** -/
theorem reduced_eq_of_meansSame (s : Schema) : ∀ t, s.MeansSame t → s.reduced = t.reduced := by
  induction s using Schema.induction with
  | onPrimitive k => exact fun t h => h.reduced_primitive
  | onSequence e ih =>
    intro t h
    cases t with
    | primitive k => exact h.symm.reduced_primitive.symm
    | sequence e' => rw [reduced, reduced, ih e' h.element]
    | record fs => cases h.kind_eq
  | onRecord fs ih =>
    intro t h
    cases t with
    | primitive k => exact h.symm.reduced_primitive.symm
    | sequence e => cases h.kind_eq
    | record gs =>
      have hfields : reducedFields fs = reducedFields gs := by
        refine Fields.ext_get? fun k => ?_
        rw [get?_reducedFields, get?_reducedFields]
        cases ht : fs.get? k with
        | some t =>
          obtain ⟨t', ht'⟩ := h.exists_field ht
          rw [ht', Option.map_some, Option.map_some,
            ih (k, t) (Fields.mem_toList_iff.mpr ht) t' (h.field ht ht')]
        | none =>
          cases ht' : gs.get? k with
          | none => rfl
          | some t' =>
            obtain ⟨t, ht''⟩ := h.symm.exists_field ht'
            rw [ht] at ht''
            cases ht''
      cases fs with
      | nil =>
        cases gs with
        | nil => rfl
        | cons k above s rest => cases hfields
      | cons k above s rest =>
        cases gs with
        | nil => cases hfields
        | cons l above' s' rest' =>
          rw [reduced_record (by rintro ⟨⟩), reduced_record (by rintro ⟨⟩), hfields]

/-- **Equal schemas and schemas that mean the same.**  Two schemas accept the same values exactly
when they are equal once every record without fields has given way to the kind `object`; and no
schema accepts all values, or none. -/
theorem same_meaning_iff_reduced_eq :
    (∀ s t : Schema, (∀ v, s.accepts v = t.accepts v) ↔ s.reduced = t.reduced) ∧
    ∀ s : Schema, (∃ v, s.accepts v = true) ∧ ∃ v, s.accepts v = false := by
  constructor
  · intro s t
    constructor
    · exact reduced_eq_of_meansSame s t
    · intro h v
      rw [← accepts_reduced s, h, accepts_reduced]
  · exact fun s => ⟨⟨s.sample, accepts_sample s⟩, s.offender, accepts_offender s⟩

end ShapeContract.Schema
