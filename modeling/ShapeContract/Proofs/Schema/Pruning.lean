import ShapeContract.Proofs.Json.Height
import ShapeContract.Proofs.Schema.Resolution

/-!
# What matching looks at

`Schema.prune` cuts a value down to what a schema describes: under a sequence the elements of an
array, under a record the members of an object for the fields, and of any other node the kind alone,
for which one value stands (`Kind.sample`).

The parts of the pruned node are the pruned parts (`parts_prune`), and a node is a misfit exactly
when the pruned one is; so nothing changes for matching and locating (`locate_prune`).  What is left
of a value has no more levels than the schema (`levels_prune_le`), and no place that is reached is
more steps away (`Reaches.length_lt_depth`).
-/

namespace ShapeContract

open Pointer (Token)

/-- The value that stands for a kind. -/
def Kind.sample : Kind → Json
  | null => .null
  | boolean => .boolean false
  | number => .ofNatural 0 (by decide)
  | string => .string ""
  | array => .array []
  | object => .object .nil

theorem Kind.kind_sample (k : Kind) : k.sample.kind = k := by
  cases k <;> rfl

theorem Kind.levels_sample (k : Kind) : k.sample.levels = 1 := by
  cases k <;> rfl

namespace Schema

mutual

/-- What a schema describes of a value; all else is cut away. -/
def prune : Schema → Json → Json
  | sequence e, .array xs => .array (xs.map fun x => e.prune x)
  | record fs, .object ms => .object (Dict.ofList (pruneFields fs ms))
  | _, v => v.kind.sample

def pruneFields : {b : Option String} → Fields Schema b → Dict Json → List (String × Json)
  | _, .nil, _ => []
  | _, .cons k _ s rest, ms =>
    match ms.get? k with
    | some v => (k, s.prune v) :: pruneFields rest ms
    | none => pruneFields rest ms

end

theorem prune_primitive (k : Kind) (v : Json) : (primitive k).prune v = v.kind.sample := by
  cases v <;> rfl

theorem prune_of_misfit {s : Schema} {v : Json} (h : s.Misfit (some v)) :
    s.prune v = v.kind.sample := by
  cases s with
  | primitive k => exact prune_primitive k v
  | sequence e =>
    cases v with
    | array xs => exact absurd rfl h
    | _ => rfl
  | record fs =>
    cases v with
    | object ms => exact absurd rfl h
    | _ => rfl

theorem pruneFields_eq {b : Option String} (fs : Fields Schema b) (ms : Dict Json) :
    pruneFields fs ms =
      fs.toList.filterMap fun f => (ms.get? f.1).map fun v => (f.1, f.2.prune v) := by
  induction fs with
  | nil => rfl
  | cons k above s rest ih =>
    rw [pruneFields, ih, Fields.toList, List.filterMap_cons]
    cases ms.get? k <;> rfl

theorem mem_pruneFields {fs : Fields Schema none} {ms : Dict Json} {k : String} {w : Json} :
    (k, w) ∈ pruneFields fs ms ↔
      ∃ t v, fs.get? k = some t ∧ ms.get? k = some v ∧ t.prune v = w := by
  rw [pruneFields_eq, List.mem_filterMap]
  constructor
  · rintro ⟨⟨k', t⟩, ht, hw⟩
    obtain ⟨v, hv, he⟩ := Option.map_eq_some_iff.mp hw
    cases he
    exact ⟨t, v, Fields.mem_toList_iff.mp ht, hv, rfl⟩
  · rintro ⟨t, v, ht, hv, rfl⟩
    exact ⟨(k, t), Fields.mem_toList_iff.mpr ht, Option.map_eq_some_iff.mpr ⟨v, hv, rfl⟩⟩

theorem pairwise_pruneFields (fs : Fields Schema none) (ms : Dict Json) :
    (pruneFields fs ms).Pairwise fun p q => p.1 ≠ q.1 := by
  rw [pruneFields_eq, List.pairwise_filterMap]
  refine (Fields.pairwise_toList fs).imp ?_
  intro f g hfg p hp q hq heq
  obtain ⟨_, -, rfl⟩ := Option.map_eq_some_iff.mp hp
  obtain ⟨_, -, rfl⟩ := Option.map_eq_some_iff.mp hq
  have hlt : f.1 < g.1 := hfg
  rw [show f.1 = g.1 from heq] at hlt
  exact String.lt_irrefl _ hlt

/-- A pruned object has the members for the fields, each of them pruned. -/
theorem get?_pruneFields (fs : Fields Schema none) (ms : Dict Json) (k : String) :
    (Dict.ofList (pruneFields fs ms)).get? k =
      (fs.get? k).bind fun t => (ms.get? k).map t.prune := by
  refine Option.ext fun w => ?_
  have hmem : (Dict.ofList (pruneFields fs ms)).get? k = some w ↔ (k, w) ∈ pruneFields fs ms :=
    ⟨Dict.mem_of_get?_ofList, Dict.get?_ofList_of_mem (pairwise_pruneFields fs ms)⟩
  rw [hmem, mem_pruneFields]
  constructor
  · rintro ⟨t, v, ht, hv, rfl⟩
    rw [ht, hv]
    rfl
  · intro h
    obtain ⟨t, ht, hw⟩ := Option.bind_eq_some_iff.mp h
    obtain ⟨v, hv, rfl⟩ := Option.map_eq_some_iff.mp hw
    exact ⟨t, v, ht, hv, rfl⟩

/-! ### The same misfits and the same parts -/

theorem kind_prune (s : Schema) (v : Json) : (s.prune v).kind = v.kind := by
  unfold prune
  split
  · rfl
  · rfl
  · exact Kind.kind_sample v.kind

theorem foundAt_prune (s : Schema) (o : Option Json) : foundAt (o.map s.prune) = foundAt o := by
  cases o with
  | none => rfl
  | some v => exact congrArg Kind.tag (kind_prune s v)

theorem misfit_congr {s : Schema} {v w : Json} (h : v.kind = w.kind) :
    s.Misfit (some v) ↔ s.Misfit (some w) := by
  cases s <;> simp only [Misfit, h]

theorem misfit_prune {s : Schema} {o : Option Json} : s.Misfit (o.map s.prune) ↔ s.Misfit o := by
  cases o with
  | none => exact Iff.rfl
  | some v => exact misfit_congr (kind_prune s v)

/-- **The parts of a pruned node are the pruned parts.** -/
theorem parts_prune (s : Schema) (o : Option Json) :
    s.parts (o.map s.prune) =
      (s.parts o).map fun c => ⟨c.token, c.node.map c.shape.prune, c.shape⟩ := by
  by_cases h : s.Misfit o
  · rw [parts_of_misfit h, parts_of_misfit (misfit_prune.mpr h), List.map_nil]
  cases s with
  | primitive k => rw [parts_primitive, parts_primitive, List.map_nil]
  | sequence e =>
    cases o with
    | none => exact absurd trivial h
    | some v =>
      cases v with
      | array xs =>
        rw [Option.map_some, prune, parts, parts, List.zipIdx_map, List.map_map, List.map_map]
        rfl
      | _ => exact absurd (by rintro ⟨⟩) h
  | record fs =>
    cases o with
    | none => exact absurd trivial h
    | some v =>
      cases v with
      | object ms =>
        rw [Option.map_some, prune, parts, parts, List.map_map]
        refine List.map_congr_left ?_
        rintro ⟨k, t⟩ hf
        simp only [get?_pruneFields, Fields.mem_toList_iff.mp hf]
        rfl
      | _ => exact absurd (by rintro ⟨⟩) h

theorem findSome?_congr {α β : Type} {f g : α → Option β} {xs : List α}
    (h : ∀ x ∈ xs, f x = g x) : xs.findSome? f = xs.findSome? g := by
  induction xs with
  | nil => rfl
  | cons x xs ih =>
    rw [List.forall_mem_cons] at h
    rw [List.findSome?_cons, List.findSome?_cons, h.1, ih h.2]

/-- **Locating finds the same in a pruned value.** -/
theorem locate_prune (s : Schema) (o : Option Json) :
    ∀ path, s.locate path (o.map s.prune) = s.locate path o := by
  induction s, o using inductionOnParts with
  | step s o ih =>
    intro path
    rw [locate_eq, locate_eq]
    by_cases h : s.Misfit o
    · rw [if_pos h, if_pos (misfit_prune.mpr h), mismatchAt, mismatchAt, foundAt_prune]
    · -- the path to a part is made of its token alone, which pruning keeps
      rw [if_neg h, if_neg (fun hm => h (misfit_prune.mp hm)), parts_prune, List.findSome?_map]
      exact findSome?_congr fun c hc => ih c hc _

theorem mismatch?_prune (s : Schema) (v : Json) : s.mismatch? (s.prune v) = s.mismatch? v :=
  locate_prune s (some v) ""

theorem accepts_prune (s : Schema) (v : Json) : s.accepts (s.prune v) = s.accepts v := by
  rw [Bool.eq_iff_iff, ← mismatch?_eq_none_iff, ← mismatch?_eq_none_iff, mismatch?_prune]

/-! ### What is left -/

theorem one_le_depth (s : Schema) : 1 ≤ s.depth := by
  cases s with
  | primitive k => exact Nat.le_refl 1
  | sequence e => exact Nat.le_add_right 1 _
  | record fs => exact Nat.le_add_right 1 _

/-- **A pruned value has no more levels than the schema.** -/
theorem levels_prune_le (s : Schema) : ∀ v, (s.prune v).levels ≤ s.depth := by
  have hsample : ∀ (s : Schema) (v : Json), v.kind.sample.levels ≤ s.depth := fun s v => by
    rw [Kind.levels_sample]
    exact one_le_depth s
  induction s using Schema.induction with
  | onPrimitive k =>
    intro v
    rw [prune_primitive]
    exact hsample _ _
  | onSequence e ih =>
    intro v
    cases v with
    | array xs =>
      rw [prune, depth, Nat.add_comm]
      refine Json.height_array_le.mpr (List.forall_mem_map.mpr ?_)
      exact fun x _ => ih x
    | _ => exact hsample _ _
  | onRecord fs ih =>
    intro v
    cases v with
    | object ms =>
      rw [prune, depth, Nat.add_comm]
      refine Json.height_object_le.mpr ?_
      rintro ⟨k, w⟩ hm
      obtain ⟨t, v, ht, -, rfl⟩ :=
        mem_pruneFields.mp (Dict.mem_of_get?_ofList (Fields.mem_toList_iff.mp hm))
      have hfield : (k, t) ∈ fs.toList := Fields.mem_toList_iff.mpr ht
      exact Nat.le_trans (ih _ hfield v) (depthOfFields_le.mp (Nat.le_refl _) _ hfield)
    | _ => exact hsample _ _

/-- A step leads to a schema with a level less. -/
theorem Reaches.length_lt_depth {s : Schema} {o : Option Json} {p : List Token} {n : Option Json}
    {t : Schema} (h : s.Reaches o p n t) : p.length + t.depth ≤ s.depth := by
  induction h with
  | root => exact Nat.le_of_eq (Nat.zero_add _)
  | element _ _ ih =>
    rw [depth] at ih
    rw [List.length_append, List.length_singleton]
    omega
  | @member p ms fs k t _ ht ih =>
    have hfield : t.depth ≤ depthOfFields fs :=
      depthOfFields_le.mp (Nat.le_refl _) (k, t) (Fields.mem_toList_iff.mpr ht)
    rw [depth] at ih
    rw [List.length_append, List.length_singleton]
    omega

/-! ### Differences that are not seen -/

/-- Two values differ where a schema does not look: in what a node holds that is asked for its kind
alone, in a member that no field asks for, or in this way in a part. -/
inductive DifferUnseen : Schema → Json → Json → Prop
  | shallow {k : Kind} {v w : Json} : v.kind = w.kind → DifferUnseen (primitive k) v w
  | misfit {s : Schema} {v w : Json} : s.Misfit (some v) → v.kind = w.kind → DifferUnseen s v w
  | stray {fs : Fields Schema none} {ms : Dict Json} {k : String} (w : Json) :
      fs.get? k = none → DifferUnseen (record fs) (.object ms) (.object (Dict.put k w ms))
  | element {e : Schema} {x y : Json} (before after : List Json) : DifferUnseen e x y →
      DifferUnseen (sequence e) (.array (before ++ x :: after)) (.array (before ++ y :: after))
  | member {fs : Fields Schema none} {ms : Dict Json} {k : String} {t : Schema} {v w : Json} :
      fs.get? k = some t → ms.get? k = some v → DifferUnseen t v w →
      DifferUnseen (record fs) (.object ms) (.object (Dict.put k w ms))

theorem prune_object_congr {fs : Fields Schema none} {ms ns : Dict Json}
    (h : ∀ k t, fs.get? k = some t → (ms.get? k).map t.prune = (ns.get? k).map t.prune) :
    (record fs).prune (.object ms) = (record fs).prune (.object ns) := by
  have hsame : Dict.ofList (pruneFields fs ms) = Dict.ofList (pruneFields fs ns) := by
    refine Fields.ext_get? fun k => ?_
    rw [get?_pruneFields, get?_pruneFields]
    cases ht : fs.get? k with
    | none => rfl
    | some t => exact h k t ht
  rw [prune, prune, hsame]

theorem DifferUnseen.prune_eq {s : Schema} {v w : Json} (h : s.DifferUnseen v w) :
    s.prune v = s.prune w := by
  induction h with
  | @shallow k v w hkind => rw [prune_primitive, prune_primitive, hkind]
  | @misfit s v w hv hkind =>
    rw [prune_of_misfit hv, prune_of_misfit ((misfit_congr hkind).mp hv), hkind]
  | @stray fs ms k w hk =>
    refine prune_object_congr fun key t ht => ?_
    have hne : key ≠ k := by
      rintro rfl
      rw [hk] at ht
      cases ht
    rw [Dict.get?_put_of_ne hne]
  | element before after _ ih =>
    rw [prune, prune, List.map_append, List.map_append, List.map_cons, List.map_cons, ih]
  | @member fs ms k t v w ht hv _ ih =>
    refine prune_object_congr fun key t' ht' => ?_
    by_cases hkey : key = k
    · subst hkey
      rw [ht] at ht'
      cases ht'
      rw [Dict.get?_put_self, hv, Option.map_some, Option.map_some, ih]
    · rw [Dict.get?_put_of_ne hkey]

/-- **Matching looks only at what the schema describes.**  The answer and the mismatch for a value
are those for the pruned value, so values that differ where the schema does not look have the same.
What is left of a value has no more levels than the schema, and the pointer of a mismatch has fewer
tokens. -/
theorem matching_looks_only_at_what_is_described (s : Schema) (v : Json) :
    s.accepts (s.prune v) = s.accepts v ∧
    s.mismatch? (s.prune v) = s.mismatch? v ∧
    (∀ w, s.DifferUnseen v w → s.accepts v = s.accepts w ∧ s.mismatch? v = s.mismatch? w) ∧
    (s.prune v).levels ≤ s.depth ∧
    ∀ m, s.mismatch? v = some m →
      ∃ tokens, Pointer.tokens? m.path = some tokens ∧ tokens.length + 1 ≤ s.depth := by
  refine ⟨accepts_prune s v, mismatch?_prune s v, ?_, levels_prune_le s v, ?_⟩
  · intro w h
    rw [← accepts_prune s v, ← mismatch?_prune s v, h.prune_eq, accepts_prune, mismatch?_prune]
    exact ⟨rfl, rfl⟩
  · intro m hm
    rw [mismatch?, locate_eq_head?] at hm
    obtain ⟨q, hq, rfl⟩ := Option.map_eq_some_iff.mp hm
    obtain ⟨hr, -⟩ := (mem_failures_iff s (some v) q).mp (List.mem_of_head? hq)
    refine ⟨q.path.map Token.text, Pointer.tokens?_along q.path, ?_⟩
    have hlength := hr.length_lt_depth
    have hlevel := one_le_depth q.shape
    rw [List.length_map]
    omega

end Schema

end ShapeContract
