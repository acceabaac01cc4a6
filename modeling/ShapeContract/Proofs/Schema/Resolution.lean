import ShapeContract.Proofs.Schema.Places

/-!
# Following a reported pointer

The pointer of a mismatch is a text, and whoever receives it splits it, unescapes its tokens and
walks down from the root.  `Json.resolve?` and `Schema.resolve?` are such walks, of a value and of a
schema; they see tokens as texts only, and tell a name from a position by the node they stand at.

`Reaches.resolve` says that the walks follow every way that a traversal goes: along a place's own
tokens the schema leads to its schema and the value to its node, or, where the node is missing, to
the object that lacks it.  With `Pointer.tokens?_along` this carries over to the pointers that are
reported (`mismatch_resolves`).
-/

namespace ShapeContract

open Pointer (Token)

/-- One step down a value: to a member of an object or an element of an array. -/
def Json.child? : Json → String → Option Json
  | .object ms, token => ms.get? token
  | .array xs, token => (Pointer.position? token).bind fun i => xs[i]?
  | _, _ => none

/-- The node of a value that tokens lead to. -/
def Json.resolve? (v : Json) (tokens : List String) : Option Json := tokens.foldlM Json.child? v

namespace Schema

/-- One step down a schema: to a field of a record, or from a sequence to the schema of its elements
by any position. -/
def child? : Schema → String → Option Schema
  | record fs, token => fs.get? token
  | sequence e, token => (Pointer.position? token).map fun _ => e
  | primitive _, _ => none

/-- The part of a schema that tokens lead to. -/
def resolve? (s : Schema) (tokens : List String) : Option Schema := tokens.foldlM child? s

theorem resolve?_concat (s : Schema) (tokens : List String) (token : String) :
    s.resolve? (tokens ++ [token]) = (s.resolve? tokens).bind fun t => t.child? token := by
  simp [resolve?, List.foldlM_append]

end Schema

theorem Json.resolve?_concat (v : Json) (tokens : List String) (token : String) :
    v.resolve? (tokens ++ [token]) = (v.resolve? tokens).bind fun n => n.child? token := by
  simp [resolve?, List.foldlM_append]

/-- What the tokens of a place lead to in a value: the node there, or else an object without it. -/
def Json.Leads (v : Json) (tokens : List String) : Option Json → Prop
  | some n => v.resolve? tokens = some n
  | none => ∃ init last ms, tokens = init ++ [last] ∧
      v.resolve? init = some (.object ms) ∧ ms.get? last = none

namespace Schema

/-- **The tokens of a place lead to it**, in the schema and in the value. -/
theorem Reaches.resolve {s : Schema} {v : Json} {p : List Token} {n : Option Json} {t : Schema}
    (h : s.Reaches (some v) p n t) :
    s.resolve? (p.map Token.text) = some t ∧ v.Leads (p.map Token.text) n := by
  induction h with
  | root => exact ⟨rfl, rfl⟩
  | @element p xs e i x _ hx ih =>
    obtain ⟨hs, hv⟩ := ih
    have hv : v.resolve? (p.map Token.text) = some (.array xs) := hv
    have hi : Pointer.position? (Token.position i).text = some i := Pointer.position?_repr i
    rw [List.map_append, List.map_singleton]
    constructor
    · rw [resolve?_concat, hs, Option.bind_some, child?, hi]
      rfl
    · rw [Json.Leads, Json.resolve?_concat, hv, Option.bind_some, Json.child?, hi, Option.bind_some,
        hx]
  | @member p ms fs k t _ ht ih =>
    obtain ⟨hs, hv⟩ := ih
    have hv : v.resolve? (p.map Token.text) = some (.object ms) := hv
    rw [List.map_append, List.map_singleton]
    constructor
    · rw [resolve?_concat, hs, Option.bind_some, child?]
      exact ht
    · cases hk : ms.get? k with
      | some w =>
        rw [Json.Leads, Json.resolve?_concat, hv, Option.bind_some, Json.child?]
        exact hk
      | none => exact ⟨_, _, ms, rfl, hv, hk⟩

theorem foundAt_eq_absent_iff {n : Option Json} : foundAt n = "absent" ↔ n = none := by
  cases n with
  | none => exact ⟨fun _ => rfl, fun _ => rfl⟩
  | some w =>
    refine ⟨fun h => ?_, by rintro ⟨⟩⟩
    have hne : ∀ k : Kind, k.tag ≠ "absent" := by
      intro k
      cases k <;> decide
    exact absurd h (hne w.kind)

/-- **A reported pointer leads back to the defect.**  Its tokens lead the schema to the part whose
text was expected.  In the value they lead to a node of the kind that was found, which is a misfit
for that part; if nothing was found, all but the last lead to an object that lacks the last. -/
theorem mismatch_resolves {v : Json} {s : Schema} {m : Mismatch} (h : s.mismatch? v = some m) :
    ∃ tokens t, Pointer.tokens? m.path = some tokens ∧ s.resolve? tokens = some t ∧
      t.text = m.expected ∧
      (m.found = "absent" → ∃ init last ms, tokens = init ++ [last] ∧
        v.resolve? init = some (.object ms) ∧ ms.get? last = none) ∧
      (m.found ≠ "absent" → ∃ n, v.resolve? tokens = some n ∧ n.kind.tag = m.found ∧
        t.Misfit (some n)) := by
  rw [mismatch?, locate_eq_head?] at h
  obtain ⟨q, hq, rfl⟩ := Option.map_eq_some_iff.mp h
  obtain ⟨hr, hm⟩ := (mem_failures_iff s (some v) q).mp (List.mem_of_head? hq)
  obtain ⟨hs, hv⟩ := hr.resolve
  refine ⟨q.path.map Token.text, q.shape, Pointer.tokens?_along q.path, hs, rfl, ?_, ?_⟩
  · intro hf
    rw [foundAt_eq_absent_iff.mp hf] at hv
    exact hv
  · intro hf
    cases hn : q.node with
    | none => exact absurd (foundAt_eq_absent_iff.mpr hn) hf
    | some n =>
      rw [hn] at hv hm
      refine ⟨n, hv, ?_, hm⟩
      show n.kind.tag = foundAt q.node
      rw [hn]
      rfl

/-- The name `~1` is written `~01`, and the position `0` is not taken for the name `0` below it. -/
theorem mismatch_resolves_escaped_names :
    let s := ofFields [("~1", sequence (ofFields [("0", boolean), ("a/b", number)]))]
    let v := Json.object (Dict.ofList [("~1", .array
      [.object (Dict.ofList [("0", .boolean true), ("a/b", .null)])])])
    let m : Mismatch := ⟨"/~01/0/a~1b", "\"number\"", "null"⟩
    s.mismatch? v = some m ∧
      ∃ tokens t, Pointer.tokens? m.path = some tokens ∧ s.resolve? tokens = some t ∧
        t.text = m.expected ∧
        (m.found = "absent" → ∃ init last ms, tokens = init ++ [last] ∧
          v.resolve? init = some (.object ms) ∧ ms.get? last = none) ∧
        (m.found ≠ "absent" → ∃ n, v.resolve? tokens = some n ∧ n.kind.tag = m.found ∧
          t.Misfit (some n)) := by
  intro s v m
  have h : s.mismatch? v = some m := by decide +kernel
  exact ⟨h, mismatch_resolves h⟩

end Schema

end ShapeContract
