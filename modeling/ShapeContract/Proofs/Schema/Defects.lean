import ShapeContract.Proofs.Json.Height
import ShapeContract.Proofs.Schema.Resolution
import ShapeContract.Schema.Decode

/-!
# The first defect of a literal

Decoding reads the first element of an array and every member of an object, and goes on from there.
`Json.Reads l p n` says that the tokens `p` lead to the node `n` in this way; `Json.Defective` says
that a node is no literal of a schema at its own top level.  `Json.defects` lists the defective
nodes that are read, in the order in which decoding comes by them:

* `mem_defects_iff`: a node is listed exactly when it is read and defective;
* `pairwise_defects`: along the list the tokens ascend strictly;
* `settles_decodeAt`: the outcome is a schema if the list is empty, and else the error of its head.

So a literal is rejected for the least defect that is read (`first_defect`).
-/

namespace ShapeContract

open Pointer (Token)

namespace Json

/-! ### Nodes that are read -/

/-- A node that is read: the tokens that lead to it, and the node. -/
structure Located where
  path : List Token
  node : Json

/-- The same node seen from one step further up. -/
def Located.under (token : Token) (q : Located) : Located := { q with path := token :: q.path }

/-- Decoding follows the tokens from the root to a node: to the first element of an array, and to
any member of an object. -/
inductive Reads (l : Json) : List Token → Json → Prop
  | root : Reads l [] l
  | first {p : List Token} {x : Json} {xs : List Json} :
      Reads l p (.array (x :: xs)) → Reads l (p ++ [.position 0]) x
  | member {p : List Token} {ms : Dict Json} {k : String} {v : Json} :
      Reads l p (.object ms) → ms.get? k = some v → Reads l (p ++ [.name k]) v

/-- The parts of a node that are read, with the tokens that lead to them. -/
def readParts : Json → List (Token × Json)
  | .array (x :: _) => [(.position 0, x)]
  | .object ms => ms.toList.map fun (k, v) => (.name k, v)
  | _ => []

theorem mem_readParts_object {ms : Dict Json} {c : Token × Json} :
    c ∈ (object ms).readParts ↔ ∃ k v, ms.get? k = some v ∧ c = (.name k, v) := by
  rw [readParts, List.mem_map]
  constructor
  · rintro ⟨⟨k, v⟩, hm, rfl⟩
    exact ⟨k, v, Fields.mem_toList_iff.mp hm, rfl⟩
  · rintro ⟨k, v, hm, rfl⟩
    exact ⟨(k, v), Fields.mem_toList_iff.mpr hm, rfl⟩

theorem Reads.part {l : Json} {p : List Token} {n : Json} (h : l.Reads p n) {c : Token × Json}
    (hc : c ∈ n.readParts) : l.Reads (p ++ [c.1]) c.2 := by
  cases n with
  | array xs =>
    cases xs with
    | nil => exact absurd hc List.not_mem_nil
    | cons x xs =>
      rw [List.mem_singleton.mp hc]
      exact h.first
  | object ms =>
    obtain ⟨k, v, hm, rfl⟩ := mem_readParts_object.mp hc
    exact h.member hm
  | _ => exact absurd hc List.not_mem_nil

theorem Reads.cons {l : Json} {c : Token × Json} (hc : c ∈ l.readParts) {p : List Token} {n : Json}
    (h : c.2.Reads p n) : l.Reads (c.1 :: p) n := by
  induction h with
  | root => exact Reads.root.part hc
  | first _ ih => exact ih.first
  | member _ hm ih => exact ih.member hm

/-- The first step to a node other than the root is a step to a part. -/
theorem reads_iff {l : Json} {p : List Token} {n : Json} :
    l.Reads p n ↔ (p = [] ∧ n = l) ∨ ∃ c ∈ l.readParts, ∃ q, p = c.1 :: q ∧ c.2.Reads q n := by
  constructor
  · intro h
    induction h with
    | root => exact Or.inl ⟨rfl, rfl⟩
    | @first p x xs _ ih =>
      rcases ih with ⟨rfl, rfl⟩ | ⟨c, hc, q, rfl, hq⟩
      · exact Or.inr ⟨_, List.mem_cons_self, [], rfl, .root⟩
      · exact Or.inr ⟨c, hc, q ++ [.position 0], rfl, hq.first⟩
    | @member p ms k v _ hm ih =>
      rcases ih with ⟨rfl, rfl⟩ | ⟨c, hc, q, rfl, hq⟩
      · exact Or.inr ⟨_, mem_readParts_object.mpr ⟨k, v, hm, rfl⟩, [], rfl, .root⟩
      · exact Or.inr ⟨c, hc, q ++ [.name k], rfl, hq.member hm⟩
  · rintro (⟨rfl, rfl⟩ | ⟨c, hc, q, rfl, hq⟩)
    · exact .root
    · exact hq.cons hc

theorem Reads.resolve {l : Json} {p : List Token} {n : Json} (h : l.Reads p n) :
    l.resolve? (p.map Token.text) = some n := by
  induction h with
  | root => rfl
  | @first p x xs _ ih =>
    have hzero : Pointer.position? (Token.position 0).text = some 0 := Pointer.position?_repr 0
    rw [List.map_append, List.map_singleton, resolve?_concat, ih, Option.bind_some, child?, hzero]
    rfl
  | @member p ms k v _ hm ih =>
    rw [List.map_append, List.map_singleton, resolve?_concat, ih, Option.bind_some, child?]
    exact hm

/-! ### Defects -/

/-- A node is no literal at its own top level: a string that is no tag, an array without elements,
or a scalar that is no string. -/
def Defective : Json → Prop
  | .string t => ∀ k : Kind, k.tag ≠ t
  | .array xs => xs = []
  | .object _ => False
  | .null | .boolean _ | .number _ => True

instance : (n : Json) → Decidable n.Defective
  | .string _ => decidable_of_iff _ Kind.ofTag?_eq_none_iff
  | .array [] => isTrue rfl
  | .array (_ :: _) => isFalse (by rintro ⟨⟩)
  | .object _ => isFalse id
  | .null | .boolean _ | .number _ => isTrue trivial

/-- The error for a defective node at a path. -/
def defectAt (path : String) : Json → SchemaError
  | .string t => .unknownKind t path
  | .array _ => .emptySequence path
  | n => .unrecognizedShape path n.text

mutual

/-- The defective nodes that are read, in the order of a traversal that does not stop at the first
one. -/
def defects : Json → List Located
  | .string t => if Kind.ofTag? t = none then [⟨[], .string t⟩] else []
  | .array [] => [⟨[], .array []⟩]
  | .array (x :: _) => x.defects.map (.under (.position 0))
  | .object ms => defectsOfMembers ms
  | .null => [⟨[], .null⟩]
  | .boolean b => [⟨[], .boolean b⟩]
  | .number n => [⟨[], .number n⟩]

/-- The defective nodes below the members of an object. -/
def defectsOfMembers : {b : Option String} → Fields Json b → List Located
  | _, .nil => []
  | _, .cons k _ v rest => v.defects.map (.under (.name k)) ++ defectsOfMembers rest

end

theorem defectsOfMembers_eq {b : Option String} (ms : Fields Json b) :
    defectsOfMembers ms = ms.toList.flatMap fun m => m.2.defects.map (.under (.name m.1)) := by
  induction ms with
  | nil => rfl
  | cons k above v rest ih => rw [defectsOfMembers, ih, Fields.toList, List.flatMap_cons]

/-- A defective node is the only defect of its own; any other node has those of its parts. -/
theorem defects_eq (l : Json) :
    l.defects =
      if l.Defective then [⟨[], l⟩]
      else l.readParts.flatMap fun c => c.2.defects.map (.under c.1) := by
  cases l with
  | string t =>
    rw [defects]
    by_cases h : Kind.ofTag? t = none
    · rw [if_pos h, if_pos (show (string t).Defective from Kind.ofTag?_eq_none_iff.mp h)]
    · rw [if_neg h, if_neg (fun hd : (string t).Defective => h (Kind.ofTag?_eq_none_iff.mpr hd))]
      rfl
  | array xs =>
    cases xs with
    | nil => exact (if_pos rfl).symm
    | cons x xs =>
      rw [defects, if_neg (by rintro ⟨⟩), readParts, List.flatMap_singleton]
  | object ms =>
    rw [defects, if_neg (fun hd : (object ms).Defective => hd), readParts, List.flatMap_map,
      defectsOfMembers_eq]
  | _ => exact (if_pos trivial).symm

theorem readParts_of_defective {l : Json} (h : l.Defective) : l.readParts = [] := by
  cases l with
  | array xs =>
    cases xs with
    | nil => rfl
    | cons x xs => cases h
  | object ms => exact absurd h id
  | _ => rfl

@[elab_as_elim]
theorem inductionOnReadParts {P : Json → Prop} (step : ∀ l, (∀ c ∈ l.readParts, P c.2) → P l) :
    ∀ l, P l := by
  intro l
  induction l using Json.induction with
  | onArray xs ih =>
    refine step _ fun c hc => ?_
    cases xs with
    | nil => exact absurd hc List.not_mem_nil
    | cons x xs =>
      rw [List.mem_singleton.mp hc]
      exact ih x List.mem_cons_self
  | onObject ms ih =>
    refine step _ fun c hc => ?_
    obtain ⟨k, v, hm, rfl⟩ := mem_readParts_object.mp hc
    exact ih (k, v) (Fields.mem_toList_iff.mpr hm)
  | _ => exact step _ fun c hc => absurd hc List.not_mem_nil

/-- **The list has exactly the nodes that are read and defective.** -/
theorem mem_defects_iff (l : Json) :
    ∀ q : Located, q ∈ l.defects ↔ l.Reads q.path q.node ∧ q.node.Defective := by
  induction l using inductionOnReadParts with
  | step l ih =>
    rintro ⟨p, n⟩
    rw [defects_eq, reads_iff]
    by_cases h : l.Defective
    · rw [if_pos h, readParts_of_defective h, List.mem_singleton, Located.mk.injEq]
      constructor
      · rintro ⟨rfl, rfl⟩
        exact ⟨Or.inl ⟨rfl, rfl⟩, h⟩
      · rintro ⟨he | ⟨c, hc, -⟩, -⟩
        · exact he
        · exact absurd hc List.not_mem_nil
    · rw [if_neg h, List.mem_flatMap]
      constructor
      · rintro ⟨c, hc, hq⟩
        obtain ⟨r, hr, he⟩ := List.mem_map.mp hq
        cases he
        obtain ⟨hread, hd⟩ := (ih c hc r).mp hr
        exact ⟨Or.inr ⟨c, hc, r.path, rfl, hread⟩, hd⟩
      · rintro ⟨⟨rfl, rfl⟩ | ⟨c, hc, q, rfl, hq⟩, hd⟩
        · exact absurd hd h
        · exact ⟨c, hc, List.mem_map.mpr ⟨⟨q, n⟩, (ih c hc _).mpr ⟨hq, hd⟩, rfl⟩⟩

theorem pairwise_readParts (l : Json) :
    l.readParts.Pairwise fun c d => c.1.Before d.1 := by
  unfold readParts
  split
  · exact List.pairwise_singleton _ _
  · rename_i ms
    rw [List.pairwise_map]
    exact (Fields.pairwise_toList ms).imp fun h => Text.lt_iff_bytes_lt.mp h
  · exact List.Pairwise.nil

/-- **The defects are listed in the order of their tokens.** -/
theorem pairwise_defects (l : Json) :
    l.defects.Pairwise fun q r => Pointer.Earlier q.path r.path := by
  induction l using inductionOnReadParts with
  | step l ih =>
    rw [defects_eq]
    by_cases h : l.Defective
    · rw [if_pos h]
      exact List.pairwise_singleton _ _
    · rw [if_neg h]
      exact Pointer.pairwise_flatMap_under (fun _ _ => rfl) (pairwise_readParts l) ih

end Json

/-! ### Decoding -/

namespace Schema

open Json (Located)

/-- The error for a node, seen from a base. -/
def errorAt (path : String) (q : Located) : SchemaError :=
  q.node.defectAt (Pointer.along path q.path)

/-- The outcome is a result if nothing is listed, and otherwise the error for the first node. -/
def Settles {α : Type} (path : String) (found : List Located) (r : Except SchemaError α) : Prop :=
  (found = [] ∧ ∃ a, r = .ok a) ∨ ∃ q rest, found = q :: rest ∧ r = .error (errorAt path q)

section Settles

variable {α β : Type} {path : String} {found found' : List Located} {r : Except SchemaError α}

theorem Settles.map (h : Settles path found r) (g : α → β) : Settles path found (r.map g) := by
  rcases h with ⟨hnil, a, rfl⟩ | ⟨q, rest, hcons, rfl⟩
  · exact Or.inl ⟨hnil, g a, rfl⟩
  · exact Or.inr ⟨q, rest, hcons, rfl⟩

theorem Settles.bind {k : α → Except SchemaError β} (h : Settles path found r)
    (hk : ∀ a, Settles path found' (k a)) : Settles path (found ++ found') (r.bind k) := by
  rcases h with ⟨rfl, a, rfl⟩ | ⟨q, rest, rfl, rfl⟩
  · exact hk a
  · exact Or.inr ⟨q, rest ++ found', rfl, rfl⟩

theorem Settles.under {token : Token} (h : Settles (Pointer.extend path token) found r) :
    Settles path (found.map (.under token)) r := by
  rcases h with ⟨rfl, a, rfl⟩ | ⟨q, rest, rfl, rfl⟩
  · exact Or.inl ⟨rfl, a, rfl⟩
  · exact Or.inr ⟨q.under token, rest.map (.under token), rfl, rfl⟩

end Settles

/-- Elements that are not used do not change the outcome. -/
theorem outcome_decodeAt_array (path : String) (x : Json) (xs : List Json) :
    (decodeAt path (.array (x :: xs))).outcome =
      (decodeAt (Pointer.index path 0) x).outcome.map .sequence := by
  cases xs with
  | nil =>
    rw [decodeAt, Run.outcome_andThen]
    cases (decodeAt (Pointer.index path 0) x).outcome <;> rfl
  | cons y ys =>
    have hnote : (noteSiblings path (y :: ys).length).outcome = .ok () := rfl
    rw [decodeAt, Run.outcome_andThen, hnote, Except.bind, Run.outcome_andThen]
    cases (decodeAt (Pointer.index path 0) x).outcome <;> rfl

theorem outcome_decodeAt_object (path : String) (ms : Dict Json) :
    (decodeAt path (.object ms)).outcome = (decodeFields path ms).outcome.map .record := by
  rw [decodeAt, Run.outcome_andThen]
  cases (decodeFields path ms).outcome <;> rfl

theorem outcome_decodeFields_cons (path : String) {b : Option String} (k : String)
    (above : Below b k) (v : Json) (rest : Fields Json (some k)) :
    (decodeFields path (.cons k above v rest)).outcome =
      (decodeAt (Pointer.child path k) v).outcome.bind fun s =>
        (decodeFields path rest).outcome.map (.cons k above s) := by
  rw [decodeFields, Run.outcome_andThen]
  congr 1
  funext s
  rw [Run.outcome_andThen]
  cases (decodeFields path rest).outcome <;> rfl

theorem settles_decodeFields {b : Option String} {ms : Fields Json b}
    (h : ∀ m ∈ ms.toList, ∀ path, Settles path m.2.defects (decodeAt path m.2).outcome) :
    ∀ path, Settles path (Json.defectsOfMembers ms) (decodeFields path ms).outcome := by
  intro path
  induction ms with
  | nil => exact Or.inl ⟨rfl, _, rfl⟩
  | cons k above v rest ih =>
    rw [Fields.toList, List.forall_mem_cons] at h
    -- the defects of this member come first, as its error does
    rw [Json.defectsOfMembers, outcome_decodeFields_cons]
    have hv : Settles (Pointer.extend path (.name k)) v.defects
        (decodeAt (Pointer.child path k) v).outcome := h.1 _
    exact hv.under.bind fun s => (ih h.2).map (Fields.cons k above s)

/-- **Decoding gives a schema if there is no defect, and otherwise the error for the first one.** -/
theorem settles_decodeAt (l : Json) :
    ∀ path, Settles path l.defects (decodeAt path l).outcome := by
  induction l using Json.induction with
  | onNull => exact fun path => Or.inr ⟨_, _, rfl, rfl⟩
  | onBoolean b => exact fun path => Or.inr ⟨_, _, rfl, rfl⟩
  | onNumber n => exact fun path => Or.inr ⟨_, _, rfl, rfl⟩
  | onString t =>
    intro path
    rw [Json.defects, decodeAt]
    cases h : Kind.ofTag? t with
    | none => exact Or.inr ⟨_, _, if_pos rfl, rfl⟩
    | some k => exact Or.inl ⟨if_neg (by rintro ⟨⟩), _, rfl⟩
  | onArray xs ih =>
    intro path
    cases xs with
    | nil => exact Or.inr ⟨_, _, rfl, rfl⟩
    | cons x xs =>
      rw [Json.defects, outcome_decodeAt_array]
      have hx : Settles (Pointer.extend path (.position 0)) x.defects
          (decodeAt (Pointer.index path 0) x).outcome := ih x List.mem_cons_self _
      exact hx.under.map Schema.sequence
  | onObject ms ih =>
    intro path
    rw [Json.defects, outcome_decodeAt_object]
    exact (settles_decodeFields ih path).map Schema.record

theorem outcome_decode_of_nil {l : Json} (h : l.defects = []) :
    ∃ s, (decode l).outcome = .ok s := by
  rcases settles_decodeAt l "" with ⟨-, hs⟩ | ⟨q, rest, hcons, -⟩
  · exact hs
  · rw [h] at hcons
    cases hcons

theorem outcome_decode_of_cons {l : Json} {q : Located} {rest : List Located}
    (h : l.defects = q :: rest) : (decode l).outcome = .error (errorAt "" q) := by
  rcases settles_decodeAt l "" with ⟨hnil, -⟩ | ⟨q', rest', hcons, herr⟩
  · rw [h] at hnil
    cases hnil
  · rw [h] at hcons
    cases hcons
    exact herr

theorem defects_eq_nil_iff {l : Json} :
    l.defects = [] ↔ ∀ p n, l.Reads p n → ¬ n.Defective := by
  rw [List.eq_nil_iff_forall_not_mem]
  constructor
  · intro h p n hr hd
    exact h ⟨p, n⟩ ((Json.mem_defects_iff l _).mpr ⟨hr, hd⟩)
  · intro h q hq
    obtain ⟨hr, hd⟩ := (Json.mem_defects_iff l q).mp hq
    exact h _ _ hr hd

theorem head_defects_least {l : Json} {q : Located} {rest : List Located}
    (h : l.defects = q :: rest) :
    l.Reads q.path q.node ∧ q.node.Defective ∧
      ∀ p n, l.Reads p n → n.Defective →
        (p, n) = (q.path, q.node) ∨ Pointer.Earlier q.path p := by
  have hmem := Json.mem_defects_iff l
  have hsorted := Json.pairwise_defects l
  rw [h] at hmem hsorted
  obtain ⟨hr, hd⟩ := (hmem q).mp List.mem_cons_self
  refine ⟨hr, hd, ?_⟩
  intro p n hr' hd'
  rcases List.mem_cons.mp ((hmem ⟨p, n⟩).mpr ⟨hr', hd'⟩) with he | hrest
  · exact Or.inl (by rw [← he])
  · exact Or.inr ((List.pairwise_cons.mp hsorted).1 _ hrest)

/-- **A literal is rejected for the first defect that is read**, and for nothing else.  It is
decoded exactly when no node that is read is defective.  The error is about the defective node whose
tokens are least, and the pointer in it leads there; it is never an error of the reader. -/
theorem first_defect (l : Json) :
    ((∃ s, (decode l).outcome = .ok s) ↔ ∀ p n, l.Reads p n → ¬ n.Defective) ∧
    (∀ e, (decode l).outcome = .error e ↔
      ∃ p n, l.Reads p n ∧ n.Defective ∧
        (∀ p' n', l.Reads p' n' → n'.Defective → (p', n') = (p, n) ∨ Pointer.Earlier p p') ∧
        (∃ tokens, Pointer.tokens? (Pointer.along "" p) = some tokens ∧
          l.resolve? tokens = some n) ∧
        e = n.defectAt (Pointer.along "" p)) ∧
    ∀ inner, (decode l).outcome ≠ .error (.invalidJson inner) := by
  rw [← defects_eq_nil_iff]
  cases hl : l.defects with
  | nil =>
    obtain ⟨s, hs⟩ := outcome_decode_of_nil hl
    rw [hs]
    refine ⟨⟨fun _ => rfl, fun _ => ⟨s, rfl⟩⟩, fun e => ⟨?_, ?_⟩, ?_⟩
    · rintro ⟨⟩
    · rintro ⟨p, n, hr, hd, -⟩
      exact absurd hd (defects_eq_nil_iff.mp hl p n hr)
    · rintro inner ⟨⟩
  | cons q rest =>
    obtain ⟨hr, hd, hleast⟩ := head_defects_least hl
    rw [outcome_decode_of_cons hl]
    refine ⟨⟨?_, ?_⟩, fun e => ⟨?_, ?_⟩, ?_⟩
    · rintro ⟨s, ⟨⟩⟩
    · rintro ⟨⟩
    · rintro ⟨⟩
      exact ⟨q.path, q.node, hr, hd, hleast, ⟨_, Pointer.tokens?_along q.path, hr.resolve⟩, rfl⟩
    · -- two least nodes cannot differ: each would come before the other
      rintro ⟨p, n, hr', hd', hleast', -, rfl⟩
      rcases hleast p n hr' hd' with he | hlt
      · cases he
        rfl
      · rcases hleast' q.path q.node hr hd with he | hlt'
        · cases he
          rfl
        · exact absurd hlt' (Pointer.Earlier.asymm hlt)
    · intro inner h
      have herr : errorAt "" q = .invalidJson inner := Except.error.inj h
      unfold errorAt Json.defectAt at herr
      split at herr <;> cases herr

end Schema

end ShapeContract
