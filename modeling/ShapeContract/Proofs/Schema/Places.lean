import ShapeContract.Proofs.Pointer.Tokens
import ShapeContract.Proofs.Schema.Parts

/-!
# The places where a value fails a schema

`Schema.Reaches s o p n t`: from the node `o` under the schema `s`, the tokens `p` lead to the node
`n` under the schema `t`.  A place fails if its node is a misfit.  `Schema.failures` lists the
failing places in the order in which a traversal meets them, and this file shows that it lists what
it should:

* `mem_failures_iff`: a place is listed exactly when it is reached and its node is a misfit;
* `pairwise_failures`: along the list the tokens ascend strictly in lexicographic order, positions
  being compared as numbers and names by their bytes;
* `locate_eq_head?`: locating reports the first place listed, if there is any.

So what `mismatch?` reports is the least failing place (`first_failing_place`).
-/

namespace ShapeContract

open Pointer (Token)

/-- A place of a value: the tokens that lead to it, the node that stands there, which may be
missing, and the schema it should have. -/
structure Place where
  path : List Token
  node : Option Json
  shape : Schema

/-- The same place seen from one step further up. -/
def Place.under (token : Token) (q : Place) : Place := { q with path := token :: q.path }

namespace Schema

/-! ### Places that are reached -/

/-- The tokens lead from the root to a node and the schema it should have. -/
inductive Reaches (s : Schema) (o : Option Json) : List Token → Option Json → Schema → Prop
  | root : Reaches s o [] o s
  | element {p : List Token} {xs : List Json} {e : Schema} {i : Nat} {x : Json} :
      Reaches s o p (some (.array xs)) (.sequence e) → xs[i]? = some x →
      Reaches s o (p ++ [.position i]) (some x) e
  | member {p : List Token} {ms : Dict Json} {fs : Fields Schema none} {k : String} {t : Schema} :
      Reaches s o p (some (.object ms)) (.record fs) → fs.get? k = some t →
      Reaches s o (p ++ [.name k]) (ms.get? k) t

/-- The last step to a place is a step to a part. -/
theorem Reaches.part {s : Schema} {o : Option Json} {p : List Token} {n : Option Json} {t : Schema}
    (h : s.Reaches o p n t) {c : Part} (hc : c ∈ t.parts n) :
    s.Reaches o (p ++ [c.token]) c.node c.shape := by
  cases t with
  | primitive k => simp at hc
  | sequence e =>
    obtain ⟨xs, i, x, rfl, hx, rfl⟩ := mem_parts_sequence.mp hc
    exact .element h hx
  | record fs =>
    obtain ⟨ms, k, t, rfl, ht, rfl⟩ := mem_parts_record.mp hc
    exact .member h ht

/-- What is reached from a part is reached from the node. -/
theorem Reaches.cons {s : Schema} {o : Option Json} {c : Part} (hc : c ∈ s.parts o)
    {p : List Token} {n : Option Json} {t : Schema} (h : c.shape.Reaches c.node p n t) :
    s.Reaches o (c.token :: p) n t := by
  induction h with
  | root => exact Reaches.root.part hc
  | element _ hx ih => exact .element ih hx
  | member _ ht ih => exact .member ih ht

/-- The first step to a place other than the root is a step to a part. -/
theorem reaches_iff {s : Schema} {o : Option Json} {p : List Token} {n : Option Json} {t : Schema} :
    s.Reaches o p n t ↔ (p = [] ∧ n = o ∧ t = s) ∨
      ∃ c ∈ s.parts o, ∃ q, p = c.token :: q ∧ c.shape.Reaches c.node q n t := by
  constructor
  · intro h
    induction h with
    | root => exact Or.inl ⟨rfl, rfl, rfl⟩
    | @element p xs e i x _ hx ih =>
      have hd : (⟨.position i, some x, e⟩ : Part) ∈ (sequence e).parts (some (.array xs)) :=
        mem_parts_sequence.mpr ⟨xs, i, x, rfl, hx, rfl⟩
      rcases ih with ⟨rfl, rfl, rfl⟩ | ⟨c, hc, q, rfl, hq⟩
      · exact Or.inr ⟨_, hd, [], rfl, .root⟩
      · exact Or.inr ⟨c, hc, q ++ [.position i], rfl, .element hq hx⟩
    | @member p ms fs k t _ ht ih =>
      have hd : (⟨.name k, ms.get? k, t⟩ : Part) ∈ (record fs).parts (some (.object ms)) :=
        mem_parts_record.mpr ⟨ms, k, t, rfl, ht, rfl⟩
      rcases ih with ⟨rfl, rfl, rfl⟩ | ⟨c, hc, q, rfl, hq⟩
      · exact Or.inr ⟨_, hd, [], rfl, .root⟩
      · exact Or.inr ⟨c, hc, q ++ [.name k], rfl, .member hq ht⟩
  · rintro (⟨rfl, rfl, rfl⟩ | ⟨c, hc, q, rfl, hq⟩)
    · exact .root
    · exact hq.cons hc

/-! ### The places that fail, in order -/

mutual

/-- The failing places of a value that may be missing, in the order of a traversal that does not
stop at the first one. -/
def failures : Schema → Option Json → List Place
  | s, none => [⟨[], none, s⟩]
  | primitive k, some v => if v.kind = k then [] else [⟨[], some v, primitive k⟩]
  | sequence e, some (.array xs) =>
    xs.zipIdx.flatMap fun (x, i) => (e.failures (some x)).map (.under (.position i))
  | sequence e, some v => [⟨[], some v, sequence e⟩]
  | record fs, some (.object ms) => failuresOfFields fs ms
  | record fs, some v => [⟨[], some v, record fs⟩]

/-- The failing places among the members for the fields. -/
def failuresOfFields : {b : Option String} → Fields Schema b → Dict Json → List Place
  | _, .nil, _ => []
  | _, .cons k _ t rest, ms =>
    (t.failures (ms.get? k)).map (.under (.name k)) ++ failuresOfFields rest ms

end

theorem failuresOfFields_eq {b : Option String} (fs : Fields Schema b) (ms : Dict Json) :
    failuresOfFields fs ms =
      fs.toList.flatMap fun f => (f.2.failures (ms.get? f.1)).map (.under (.name f.1)) := by
  induction fs with
  | nil => rfl
  | cons k above t rest ih => rw [failuresOfFields, ih, Fields.toList, List.flatMap_cons]

/-- A misfit is the only failing place of its node; any other node has those of its parts. -/
theorem failures_eq (s : Schema) (o : Option Json) :
    s.failures o =
      if s.Misfit o then [⟨[], o, s⟩]
      else (s.parts o).flatMap fun c => (c.shape.failures c.node).map (.under c.token) := by
  cases o with
  | none => rw [failures, if_pos (misfit_none s)]
  | some v =>
    cases s with
    | primitive k =>
      rw [failures, parts_primitive]
      by_cases h : v.kind = k
      · rw [if_pos h, if_neg (fun hm => hm h)]
        rfl
      · rw [if_neg h, if_pos (show (primitive k).Misfit (some v) from h)]
    | sequence e =>
      cases v with
      | array xs =>
        rw [failures, if_neg (fun h => h rfl), parts, List.flatMap_map]
      | _ => exact (if_pos (by rintro ⟨⟩)).symm
    | record fs =>
      cases v with
      | object ms =>
        rw [failures, if_neg (fun h => h rfl), parts, List.flatMap_map, failuresOfFields_eq]
      | _ => exact (if_pos (by rintro ⟨⟩)).symm

/-- The mismatch to report for a place, seen from a base. -/
def report (path : String) (q : Place) : Mismatch :=
  q.shape.mismatchAt q.node (Pointer.along path q.path)

/-- **Locating reports the first failing place.** -/
theorem locate_eq_head? (s : Schema) (o : Option Json) :
    ∀ path, s.locate path o = (s.failures o).head?.map (report path) := by
  induction s, o using inductionOnParts with
  | step s o ih =>
    intro path
    rw [locate_eq, failures_eq]
    by_cases h : s.Misfit o
    · rw [if_pos h, if_pos h]
      rfl
    · rw [if_neg h, if_neg h]
      have hparts : ∀ c ∈ s.parts o,
          c.shape.locate (Pointer.extend path c.token) c.node =
            ((c.shape.failures c.node).map (.under c.token)).head?.map (report path) := by
        intro c hc
        rw [ih c hc, List.head?_map, Option.map_map]
        rfl
      rw [List.head?_flatMap, List.map_findSome?]
      calc (s.parts o).findSome? (fun c => c.shape.locate (Pointer.extend path c.token) c.node)
          = ((s.parts o).map fun c =>
              c.shape.locate (Pointer.extend path c.token) c.node).findSome? id := by
            rw [List.findSome?_map]
            rfl
        _ = ((s.parts o).map fun c =>
              ((c.shape.failures c.node).map (.under c.token)).head?.map (report path)).findSome?
                id := by rw [List.map_congr_left hparts]
        _ = _ := by
            rw [List.findSome?_map]
            rfl

/-- **The list has exactly the places that are reached and whose node is a misfit.** -/
theorem mem_failures_iff (s : Schema) (o : Option Json) :
    ∀ q : Place, q ∈ s.failures o ↔ s.Reaches o q.path q.node q.shape ∧ q.shape.Misfit q.node := by
  induction s, o using inductionOnParts with
  | step s o ih =>
    rintro ⟨p, n, t⟩
    rw [failures_eq, reaches_iff]
    by_cases h : s.Misfit o
    · rw [if_pos h, parts_of_misfit h, List.mem_singleton, Place.mk.injEq]
      constructor
      · rintro ⟨rfl, rfl, rfl⟩
        exact ⟨Or.inl ⟨rfl, rfl, rfl⟩, h⟩
      · rintro ⟨he | ⟨c, hc, -⟩, -⟩
        · exact he
        · exact absurd hc List.not_mem_nil
    · rw [if_neg h, List.mem_flatMap]
      constructor
      · rintro ⟨c, hc, hq⟩
        obtain ⟨r, hr, he⟩ := List.mem_map.mp hq
        cases he
        obtain ⟨hreach, hm⟩ := (ih c hc r).mp hr
        exact ⟨Or.inr ⟨c, hc, r.path, rfl, hreach⟩, hm⟩
      · rintro ⟨⟨rfl, rfl, rfl⟩ | ⟨c, hc, q, rfl, hq⟩, hm⟩
        · exact absurd hm h
        · exact ⟨c, hc, List.mem_map.mpr ⟨⟨q, n, t⟩, (ih c hc _).mpr ⟨hq, hm⟩, rfl⟩⟩

/-! ### The order of the places -/

/-- The tokens of the parts ascend strictly. -/
theorem pairwise_parts (s : Schema) (o : Option Json) :
    (s.parts o).Pairwise fun c d => c.token.Before d.token := by
  unfold parts
  split
  · rename_i e xs
    rw [List.pairwise_map, List.pairwise_iff_getElem]
    intro i j hi hj hij
    simpa [Token.Before] using hij
  · rename_i fs ms
    rw [List.pairwise_map]
    refine (Fields.pairwise_toList fs).imp ?_
    intro f g hfg
    exact Text.lt_iff_bytes_lt.mp hfg
  · exact List.Pairwise.nil

/-- **The failing places are listed in the order of their tokens.** -/
theorem pairwise_failures (s : Schema) (o : Option Json) :
    (s.failures o).Pairwise fun q r => Pointer.Earlier q.path r.path := by
  induction s, o using inductionOnParts with
  | step s o ih =>
    rw [failures_eq]
    by_cases h : s.Misfit o
    · rw [if_pos h]
      exact List.pairwise_singleton _ _
    · rw [if_neg h]
      exact Pointer.pairwise_flatMap_under (fun _ _ => rfl) (pairwise_parts s o) ih

/-! ### The least failing place -/

theorem failures_eq_nil_iff {s : Schema} {o : Option Json} :
    s.failures o = [] ↔ ∀ p n t, s.Reaches o p n t → ¬ t.Misfit n := by
  rw [List.eq_nil_iff_forall_not_mem]
  constructor
  · intro h p n t hr hm
    exact h ⟨p, n, t⟩ ((mem_failures_iff s o _).mpr ⟨hr, hm⟩)
  · intro h q hq
    obtain ⟨hr, hm⟩ := (mem_failures_iff s o q).mp hq
    exact h _ _ _ hr hm

/-- The first place listed fails, and every other place that fails comes later. -/
theorem head_failures_least {s : Schema} {o : Option Json} {q : Place} {rest : List Place}
    (h : s.failures o = q :: rest) :
    s.Reaches o q.path q.node q.shape ∧ q.shape.Misfit q.node ∧
      ∀ p n t, s.Reaches o p n t → t.Misfit n →
        (p, n, t) = (q.path, q.node, q.shape) ∨ Pointer.Earlier q.path p := by
  have hmem := mem_failures_iff s o
  have hsorted := pairwise_failures s o
  rw [h] at hmem hsorted
  obtain ⟨hr, hm⟩ := (hmem q).mp List.mem_cons_self
  refine ⟨hr, hm, ?_⟩
  intro p n t hr' hm'
  rcases List.mem_cons.mp ((hmem ⟨p, n, t⟩).mpr ⟨hr', hm'⟩) with he | hrest
  · exact Or.inl (by rw [← he])
  · exact Or.inr ((List.pairwise_cons.mp hsorted).1 _ hrest)

/-- **Locating finds the least failing place**, in lexicographic order of the tokens that lead to
it.  Nothing is located exactly when no place that is reached is a misfit. -/
theorem first_failing_place (v : Json) (s : Schema) :
    (s.mismatch? v = none ↔ ∀ p n t, s.Reaches (some v) p n t → ¬ t.Misfit n) ∧
    ∀ m, s.mismatch? v = some m ↔
      ∃ p n t, s.Reaches (some v) p n t ∧ t.Misfit n ∧
        (∀ p' n' t', s.Reaches (some v) p' n' t' → t'.Misfit n' →
          (p', n', t') = (p, n, t) ∨ Pointer.Earlier p p') ∧
        m = ⟨Pointer.along "" p, t.text, foundAt n⟩ := by
  rw [mismatch?, locate_eq_head?, ← failures_eq_nil_iff]
  cases hf : s.failures (some v) with
  | nil =>
    refine ⟨⟨fun _ => rfl, fun _ => rfl⟩, fun m => ⟨?_, ?_⟩⟩
    · intro h
      cases h
    · rintro ⟨p, n, t, hr, hm, -⟩
      exact absurd hm (failures_eq_nil_iff.mp hf p n t hr)
  | cons q rest =>
    obtain ⟨hr, hm, hleast⟩ := head_failures_least hf
    refine ⟨⟨?_, ?_⟩, fun m => ⟨?_, ?_⟩⟩
    · intro h
      cases h
    · intro h
      cases h
    · intro h
      exact ⟨q.path, q.node, q.shape, hr, hm, hleast, (Option.some.inj h).symm⟩
    · -- two least places cannot differ: each would come before the other
      rintro ⟨p, n, t, hr', hm', hleast', rfl⟩
      rcases hleast p n t hr' hm' with he | hlt
      · cases he
        rfl
      · rcases hleast' q.path q.node q.shape hr hm with he | hlt'
        · cases he
          rfl
        · exact absurd hlt' (Pointer.Earlier.asymm hlt)

end Schema

end ShapeContract
