import ShapeContract.Proofs.Fields
import ShapeContract.Schema.Match

/-!
# The parts of a value under a schema

Matching and locating both go down a value and a schema together.  Where the node has the kind the
schema asks for, they go on with its *parts*: the elements of an array, each with the schema of the
elements, or the members a record asks for, each with the schema of its field.  Otherwise the node
is a *misfit* and nothing below it is looked at.

`acceptsField_eq` and `locate_eq` say so for the two traversals, and `Schema.inductionOnParts` is
the induction that goes with it: what follows for a node from its parts holds of every node.  The
two traversals agree (`locating_agrees_with_matching`) because they stop at the same misfits and go
on with the same parts.
-/

namespace ShapeContract

open Pointer (Token)

/-- A part of a node: the token that leads to it, the part itself, which may be missing, and the
schema it should have. -/
structure Part where
  token : Token
  node : Option Json
  shape : Schema

namespace Schema

/-! ### Induction on schemas -/

/-- Induction on a schema, with the hypothesis for every field of a record. -/
@[elab_as_elim]
theorem induction {P : Schema → Prop} (onPrimitive : ∀ k, P (.primitive k))
    (onSequence : ∀ e, P e → P (.sequence e))
    (onRecord : ∀ fs : Fields Schema none, (∀ f ∈ fs.toList, P f.2) → P (.record fs)) :
    ∀ s, P s :=
  @Schema.rec P (fun _ fs => ∀ f ∈ fs.toList, P f.2) onPrimitive onSequence onRecord
    (fun _ h => absurd h List.not_mem_nil)
    (fun _ _ _ _ ht hrest f h => by
      rcases List.mem_cons.mp h with rfl | h
      · exact ht
      · exact hrest f h)

theorem depthOfFields_le {b : Option String} {fs : Fields Schema b} {n : Nat} :
    depthOfFields fs ≤ n ↔ ∀ f ∈ fs.toList, f.2.depth ≤ n := by
  induction fs with
  | nil => exact ⟨fun _ f hf => absurd hf List.not_mem_nil, fun _ => Nat.zero_le n⟩
  | cons k above s rest ih =>
    rw [depthOfFields, Nat.max_le, ih, Fields.toList, List.forall_mem_cons]

/-! ### Misfits and parts -/

/-- A node fails a schema at its own top level: it is missing, or not of the kind of a primitive
schema, not an array under a sequence, or not an object under a record. -/
def Misfit : Schema → Option Json → Prop
  | _, none => True
  | primitive k, some v => v.kind ≠ k
  | sequence _, some v => v.kind ≠ .array
  | record _, some v => v.kind ≠ .object

instance : (s : Schema) → (o : Option Json) → Decidable (s.Misfit o)
  | primitive _, none | sequence _, none | record _, none => isTrue trivial
  | primitive k, some v => inferInstanceAs (Decidable (v.kind ≠ k))
  | sequence _, some v => inferInstanceAs (Decidable (v.kind ≠ .array))
  | record _, some v => inferInstanceAs (Decidable (v.kind ≠ .object))

/-- The parts of a node, in the order in which they are visited. -/
def parts : Schema → Option Json → List Part
  | sequence e, some (.array xs) => xs.zipIdx.map fun (x, i) => ⟨.position i, some x, e⟩
  | record fs, some (.object ms) => fs.toList.map fun (k, t) => ⟨.name k, ms.get? k, t⟩
  | _, _ => []

theorem misfit_none (s : Schema) : s.Misfit none := by
  cases s <;> trivial

@[simp] theorem parts_primitive (k : Kind) (o : Option Json) : (primitive k).parts o = [] := by
  cases o <;> rfl

/-- A part of a node under a sequence is an element of an array. -/
theorem mem_parts_sequence {e : Schema} {o : Option Json} {c : Part} :
    c ∈ (sequence e).parts o ↔
      ∃ xs i x, o = some (.array xs) ∧ xs[i]? = some x ∧ c = ⟨.position i, some x, e⟩ := by
  constructor
  · intro hc
    cases o with
    | none => exact absurd hc List.not_mem_nil
    | some v =>
      cases v with
      | array xs =>
        obtain ⟨⟨x, i⟩, hx, rfl⟩ := List.mem_map.mp hc
        exact ⟨xs, i, x, rfl, List.mem_zipIdx_iff_getElem?.mp hx, rfl⟩
      | _ => exact absurd hc List.not_mem_nil
  · rintro ⟨xs, i, x, rfl, hx, rfl⟩
    exact List.mem_map.mpr ⟨(x, i), List.mem_zipIdx_iff_getElem?.mpr hx, rfl⟩

/-- A part of a node under a record is the member of an object for one of the fields. -/
theorem mem_parts_record {fs : Fields Schema none} {o : Option Json} {c : Part} :
    c ∈ (record fs).parts o ↔
      ∃ ms k t, o = some (.object ms) ∧ fs.get? k = some t ∧ c = ⟨.name k, ms.get? k, t⟩ := by
  constructor
  · intro hc
    cases o with
    | none => exact absurd hc List.not_mem_nil
    | some v =>
      cases v with
      | object ms =>
        obtain ⟨⟨k, t⟩, ht, rfl⟩ := List.mem_map.mp hc
        exact ⟨ms, k, t, rfl, Fields.mem_toList_iff.mp ht, rfl⟩
      | _ => exact absurd hc List.not_mem_nil
  · rintro ⟨ms, k, t, rfl, ht, rfl⟩
    exact List.mem_map.mpr ⟨(k, t), Fields.mem_toList_iff.mpr ht, rfl⟩

/-- Induction along the parts of a value under a schema. -/
@[elab_as_elim]
theorem inductionOnParts {P : Schema → Option Json → Prop}
    (step : ∀ s o, (∀ c ∈ s.parts o, P c.shape c.node) → P s o) : ∀ s o, P s o := by
  intro s
  induction s using Schema.induction with
  | onPrimitive k => exact fun o => step _ _ fun c hc => by simp at hc
  | onSequence e ih =>
    refine fun o => step _ _ fun c hc => ?_
    obtain ⟨xs, i, x, rfl, -, rfl⟩ := mem_parts_sequence.mp hc
    exact ih _
  | onRecord fs ih =>
    refine fun o => step _ _ fun c hc => ?_
    obtain ⟨ms, k, t, rfl, ht, rfl⟩ := mem_parts_record.mp hc
    exact ih (k, t) (Fields.mem_toList_iff.mpr ht) _

/-- Nothing below a misfit is visited. -/
theorem parts_of_misfit {s : Schema} {o : Option Json} (h : s.Misfit o) : s.parts o = [] := by
  rw [List.eq_nil_iff_forall_not_mem]
  intro c hc
  cases s with
  | primitive k => simp at hc
  | sequence e =>
    obtain ⟨xs, i, x, rfl, -, -⟩ := mem_parts_sequence.mp hc
    exact h rfl
  | record fs =>
    obtain ⟨ms, k, t, rfl, -, -⟩ := mem_parts_record.mp hc
    exact h rfl

/-! ### The two traversals -/

theorem acceptsFields_eq {b : Option String} (fs : Fields Schema b) (ms : Dict Json) :
    acceptsFields fs ms = fs.toList.all fun f => f.2.acceptsField (ms.get? f.1) := by
  induction fs with
  | nil => rfl
  | cons k above t rest ih =>
    rw [acceptsFields, ih, Fields.toList, List.all_cons]
    cases ms.get? k <;> rfl

theorem locateFields_eq {b : Option String} (path : String) (fs : Fields Schema b)
    (ms : Dict Json) :
    locateFields path fs ms =
      fs.toList.findSome? fun f => f.2.locate (Pointer.child path f.1) (ms.get? f.1) := by
  induction fs with
  | nil => rfl
  | cons k above t rest ih =>
    rw [locateFields, ih, Fields.toList, List.findSome?_cons]
    cases t.locate (Pointer.child path k) (ms.get? k) <;> rfl

/-- **Matching**: a node has the shape of a schema if it is no misfit and its parts have theirs. -/
theorem acceptsField_eq (s : Schema) (o : Option Json) :
    s.acceptsField o =
      if s.Misfit o then false else (s.parts o).all fun c => c.shape.acceptsField c.node := by
  cases o with
  | none => rw [acceptsField, if_pos (misfit_none s)]
  | some v =>
    cases s with
    | primitive k =>
      rw [acceptsField, accepts, parts_primitive, List.all_nil]
      by_cases h : v.kind = k
      · rw [if_neg (fun hm => hm h), beq_iff_eq]
        exact h
      · rw [if_pos (show (primitive k).Misfit (some v) from h), beq_eq_false_iff_ne]
        exact h
    | sequence e =>
      cases v with
      | array xs =>
        rw [acceptsField, accepts, if_neg (fun h => h rfl), parts, List.all_map]
        calc (xs.all fun x => e.accepts x)
            = (xs.zipIdx.map Prod.fst).all fun x => e.accepts x := by rw [List.zipIdx_map_fst]
          _ = xs.zipIdx.all fun p => e.accepts p.1 := by rw [List.all_map]; rfl
      | _ => exact (if_pos (by rintro ⟨⟩)).symm
    | record fs =>
      cases v with
      | object ms =>
        rw [acceptsField, accepts, if_neg (fun h => h rfl), parts, List.all_map, acceptsFields_eq]
        rfl
      | _ => exact (if_pos (by rintro ⟨⟩)).symm

/-- **Locating**: a misfit is where a value fails; any other node fails where the first of its parts
that fails at all does. -/
theorem locate_eq (s : Schema) (o : Option Json) (path : String) :
    s.locate path o =
      if s.Misfit o then some (s.mismatchAt o path)
      else (s.parts o).findSome? fun c => c.shape.locate (Pointer.extend path c.token) c.node := by
  cases o with
  | none => rw [locate, if_pos (misfit_none s)]
  | some v =>
    cases s with
    | primitive k =>
      rw [locate, parts_primitive]
      by_cases h : v.kind = k
      · rw [if_pos h, if_neg (fun hm => hm h)]
        rfl
      · rw [if_neg h, if_pos (show (primitive k).Misfit (some v) from h)]
    | sequence e =>
      cases v with
      | array xs =>
        rw [locate, if_neg (fun h => h rfl), parts, List.findSome?_map]
        rfl
      | _ => exact (if_pos (by rintro ⟨⟩)).symm
    | record fs =>
      cases v with
      | object ms =>
        rw [locate, if_neg (fun h => h rfl), parts, List.findSome?_map, locateFields_eq]
        rfl
      | _ => exact (if_pos (by rintro ⟨⟩)).symm

/-- A value that may be missing is located nowhere exactly when it has the shape. -/
theorem isNone_locate (s : Schema) (o : Option Json) :
    ∀ path, (s.locate path o).isNone = s.acceptsField o := by
  induction s, o using inductionOnParts with
  | step s o ih =>
    intro path
    rw [locate_eq, acceptsField_eq]
    by_cases h : s.Misfit o
    · rw [if_pos h, if_pos h]
      rfl
    · rw [if_neg h, if_neg h, Bool.eq_iff_iff, Option.isNone_iff_eq_none,
        List.findSome?_eq_none_iff, List.all_eq_true]
      refine forall_congr' fun c => forall_congr' fun hc => ?_
      rw [← ih c hc, Option.isNone_iff_eq_none]

theorem mismatch?_eq_none_iff {s : Schema} {v : Json} :
    s.mismatch? v = none ↔ s.accepts v = true := by
  rw [mismatch?, ← Option.isNone_iff_eq_none, isNone_locate]
  rfl

/-- **Locating and matching agree**, for a value and for one that may be missing, from any base. -/
theorem locating_agrees_with_matching :
    (∀ (v : Json) (s : Schema), (s.mismatch? v).isNone = s.accepts v) ∧
    ∀ (o : Option Json) (s : Schema) (base : String),
      s.locate base o = none ↔ s.acceptsField o = true := by
  constructor
  · intro v s
    exact isNone_locate s (some v) ""
  · intro o s base
    rw [← isNone_locate s o base, Option.isNone_iff_eq_none]

end Schema

end ShapeContract
