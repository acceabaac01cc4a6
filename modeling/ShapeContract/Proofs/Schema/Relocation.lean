import ShapeContract.Proofs.Schema.Siblings

/-!
# Moving the base

Locating and decoding are handed the pointer of the node where they start, and build all other
pointers from it.  They never look into it: from any base they find what they find from the root,
with the base put in front of every pointer.  `under` puts it there, in a mismatch, in the error of
a literal and in the notes of a run.

Both traversals are known to come by certain ways and to write each of them out from the base
(`locate_eq_head?`, `settles_decodeAt`, `follows_decodeAt`).  So the base matters in one place only,
where a way is written out, and there it comes first (`Pointer.along_eq_append`).

* `locate_eq_under`, `decodeAt_eq_under`: moving the base moves what is found, and changes nothing
  else;
* `locate_eq_of_parts`, `error?_decodeAt_of_parts`: what is found below a node is what is found in
  the first of its parts where there is anything, taken by itself and moved under its pointer.
-/

namespace ShapeContract

/-! ### Under a base -/

/-- The same mismatch seen from further up, where a base leads to the value. -/
def Mismatch.under (base : String) (m : Mismatch) : Mismatch := { m with path := base ++ m.path }

/-- The same error seen from further up; an error of the reader is about no place of a literal. -/
def SchemaError.under (base : String) : SchemaError → SchemaError
  | .unknownKind tag path => .unknownKind tag (base ++ path)
  | .emptySequence path => .emptySequence (base ++ path)
  | .unrecognizedShape path found => .unrecognizedShape (base ++ path) found
  | .invalidJson inner => .invalidJson inner

/-- The same event seen from further up: the base comes before the value that is named `path`. -/
def Event.under (base : String) (e : Event) : Event :=
  { e with fields := e.fields.map fun (name, value) =>
      (name, if name = "path" then base ++ value else value) }

/-- The same effect seen from further up. -/
def Effect.under (base : String) : Effect → Effect
  | .event e => .event (e.under base)
  | e => e

namespace Run

variable {ε α : Type}

/-- The same run seen from further up. -/
def under (base : String) (r : Run SchemaError α) : Run SchemaError α :=
  (r.mapEffects (.under base)).mapError (.under base)

/-- The error of a run, if it has one. -/
def error? (r : Run ε α) : Option ε :=
  match r.outcome with
  | .ok _ => none
  | .error e => some e

theorem outcome_under (base : String) (r : Run SchemaError α) :
    (r.under base).outcome = r.outcome.mapError (SchemaError.under base) := rfl

theorem effects_under (base : String) (r : Run SchemaError α) :
    (r.under base).effects = r.effects.map (Effect.under base) := rfl

end Run

/-- **A way is written out behind its base.** -/
theorem Pointer.along_eq_append (base : String) (tokens : List Pointer.Token) :
    along base tokens = base ++ along "" tokens := by
  apply String.toList_inj.mp
  rw [String.toList_append, toList_along, toList_along, String.toList_empty, List.nil_append]

namespace Schema

open Json (Located)

/-! ### Locating -/

theorem report_eq_under (base : String) (q : Place) : report base q = (report "" q).under base := by
  rw [report, Pointer.along_eq_append]
  rfl

/-- **From any base the mismatch of the root is located**, under the base. -/
theorem locate_eq_under (base : String) (s : Schema) (o : Option Json) :
    s.locate base o = (s.locate "" o).map (.under base) := by
  have hreport : report base = Mismatch.under base ∘ report "" := funext (report_eq_under base)
  rw [locate_eq_head?, locate_eq_head?, Option.map_map, hreport]

example :
    let s := sequence (ofFields [("a/b", number)])
    let o := some (Json.array [.object .nil])
    s.locate "" o = some ⟨"/0/a~1b", "\"number\"", "absent"⟩ ∧
      s.locate "base" o = some ⟨"base/0/a~1b", "\"number\"", "absent"⟩ := by decide +kernel

/-- The mismatch below a node is that of the first part that has one. -/
theorem locate_eq_of_parts (base : String) (s : Schema) (o : Option Json) :
    s.locate base o =
      if s.Misfit o then some (s.mismatchAt o base)
      else (s.parts o).findSome? fun c =>
        (c.shape.locate "" c.node).map (.under (Pointer.extend base c.token)) := by
  rw [locate_eq]
  simp only [← locate_eq_under]

/-! ### Decoding -/

theorem errorAt_eq_under (base : String) (q : Located) :
    errorAt base q = (errorAt "" q).under base := by
  rw [errorAt, errorAt, Pointer.along_eq_append]
  cases q.node <;> rfl

theorem siblingsNote_eq_under (base : String) (q : Located) :
    siblingsNote base q = (siblingsNote "" q).under base := by
  rw [siblingsNote, siblingsNote, Pointer.along_eq_append]
  rfl

/-- Decoding fails with the error for the first defect. -/
theorem error?_decodeAt (base : String) (l : Json) :
    (decodeAt base l).error? = l.defects.head?.map (errorAt base) := by
  rcases settles_decodeAt l base with ⟨hnil, s, hs⟩ | ⟨q, rest, hcons, he⟩
  · rw [Run.error?, hs, hnil]
    rfl
  · rw [Run.error?, he, hcons]
    rfl

/-- Two results that are settled by one list are both there, or are errors for one node. -/
theorem Settles.agree {α : Type} {path path' : String} {found : List Located}
    {r r' : Except SchemaError α} (h : Settles path found r) (h' : Settles path' found r') :
    (∃ a a', r = .ok a ∧ r' = .ok a') ∨
      ∃ q, r = .error (errorAt path q) ∧ r' = .error (errorAt path' q) := by
  rcases h with ⟨rfl, a, ha⟩ | ⟨q, rest, rfl, he⟩
  · rcases h' with ⟨-, a', ha'⟩ | ⟨q', rest', hcons, -⟩
    · exact Or.inl ⟨a, a', ha, ha'⟩
    · cases hcons
  · rcases h' with ⟨hnil, -⟩ | ⟨q', rest', hcons, he'⟩
    · cases hnil
    · cases hcons
      exact Or.inr ⟨q, he, he'⟩

/-- A literal gives one schema, whatever base it is decoded from. -/
theorem outcome_decodeAt_eq_under (base : String) (l : Json) :
    (decodeAt base l).outcome = ((decodeAt "" l).under base).outcome := by
  rw [Run.outcome_under]
  rcases (settles_decodeAt l base).agree (settles_decodeAt l "") with ⟨s, t, hs, ht⟩ | ⟨q, he, he'⟩
  · -- settling leaves open which schema it is, but both have the normal form of the literal
    have hst : s = t := literal_injective
      ((literal_of_decodeAt l base s hs).trans (literal_of_decodeAt l "" t ht).symm)
    rw [hs, ht, hst]
    rfl
  · rw [he, he', errorAt_eq_under]
    rfl

/-- The same nodes are noted, whatever base a literal is decoded from. -/
theorem effects_decodeAt_eq_under (base : String) (l : Json) :
    (decodeAt base l).effects = ((decodeAt "" l).under base).effects := by
  rw [Run.effects_under, (follows_decodeAt l base).effects_eq, (follows_decodeAt l "").effects_eq,
    List.map_map]
  exact List.map_congr_left fun q _ => siblingsNote_eq_under base q

/-- **From any base a literal is decoded as from the root**, with every pointer under the base. -/
theorem decodeAt_eq_under (base : String) (l : Json) :
    decodeAt base l = (decodeAt "" l).under base :=
  congrArg₂ Run.mk (effects_decodeAt_eq_under base l) (outcome_decodeAt_eq_under base l)

/-- The error below a node is that of the first part that has one. -/
theorem error?_decodeAt_of_parts (base : String) (l : Json) :
    (decodeAt base l).error? =
      if l.Defective then some (l.defectAt base)
      else l.readParts.findSome? fun c =>
        (decodeAt "" c.2).error?.map (.under (Pointer.extend base c.1)) := by
  -- the error for a defect of a part, seen from the base, is the part's own seen from further up
  have hpart : ∀ c : Pointer.Token × Json,
      (c.2.defects.map (.under c.1)).head?.map (errorAt base) =
        (decodeAt "" c.2).error?.map (.under (Pointer.extend base c.1)) := by
    intro c
    have herror : errorAt base ∘ Located.under c.1 =
        SchemaError.under (Pointer.extend base c.1) ∘ errorAt "" :=
      funext (errorAt_eq_under (Pointer.extend base c.1))
    rw [error?_decodeAt, List.head?_map, Option.map_map, Option.map_map, herror]
  rw [error?_decodeAt, Json.defects_eq]
  by_cases h : l.Defective
  · rw [if_pos h, if_pos h]
    rfl
  · rw [if_neg h, if_neg h, List.head?_flatMap, List.map_findSome?]
    exact congrArg l.readParts.findSome? (funext hpart)

/-- **What is found moves with the base.**  From any base, be it a pointer or another text, the same
mismatch is located as from the root, and a literal gives the same schema or the same error and the
same notes; only the base comes before each pointer.  So the mismatch of a node that is no misfit,
and the error of one that is not defective, is what the first of its parts that has one has by
itself, under the pointer of the part. -/
theorem findings_move_with_base (base : String) :
    (∀ (s : Schema) (o : Option Json), s.locate base o = (s.locate "" o).map (.under base)) ∧
    (∀ l : Json, decodeAt base l = (decodeAt "" l).under base) ∧
    (∀ (s : Schema) (o : Option Json), s.locate base o =
      if s.Misfit o then some (s.mismatchAt o base)
      else (s.parts o).findSome? fun c =>
        (c.shape.locate "" c.node).map (.under (Pointer.extend base c.token))) ∧
    ∀ l : Json, (decodeAt base l).error? =
      if l.Defective then some (l.defectAt base)
      else l.readParts.findSome? fun c =>
        (decode c.2).error?.map (.under (Pointer.extend base c.1)) := by
  refine ⟨?_, ?_, ?_, ?_⟩
  · exact locate_eq_under base
  · exact decodeAt_eq_under base
  · exact locate_eq_of_parts base
  · exact error?_decodeAt_of_parts base

end Schema

end ShapeContract
