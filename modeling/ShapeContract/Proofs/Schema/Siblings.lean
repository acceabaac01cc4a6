import ShapeContract.Proofs.Schema.NormalForm

/-!
# Elements that are passed over

When decoding comes to an array with more than one element it notes how many it passes over, and
goes on with the first.  `Json.visited` lists all nodes that are read, a node before its parts, and
`Json.noted` those among them that have siblings to note: the ones before the first defective node,
where decoding stops.

* `mem_visited_iff`, `pairwise_visited`: the list has exactly the nodes that are read, in ascending
  order of their tokens;
* `mem_noted_iff`: of these the crowded ones that come before every defect are noted;
* `follows_decodeAt`: the effects of decoding are the notes of those nodes, in that order.

So every such node is noted once, and no other is (`siblings_are_noted`).  Nothing is noted on the
way to a schema exactly when the literal is the schema's own.
-/

namespace ShapeContract

open Pointer (Token)

namespace Json

/-! ### The nodes in the order of a traversal -/

mutual

/-- All nodes that are read, a node before its parts. -/
def visited : Json → List Located
  | .array [] => [⟨[], .array []⟩]
  | .array (x :: xs) => ⟨[], .array (x :: xs)⟩ :: x.visited.map (.under (.position 0))
  | .object ms => ⟨[], .object ms⟩ :: visitedOfMembers ms
  | v => [⟨[], v⟩]

/-- The nodes that are read below the members of an object. -/
def visitedOfMembers : {b : Option String} → Fields Json b → List Located
  | _, .nil => []
  | _, .cons k _ v rest => v.visited.map (.under (.name k)) ++ visitedOfMembers rest

end

theorem visitedOfMembers_eq {b : Option String} (ms : Fields Json b) :
    visitedOfMembers ms = ms.toList.flatMap fun m => m.2.visited.map (.under (.name m.1)) := by
  induction ms with
  | nil => rfl
  | cons k above v rest ih => rw [visitedOfMembers, ih, Fields.toList, List.flatMap_cons]

theorem visited_eq (l : Json) :
    l.visited = ⟨[], l⟩ :: l.readParts.flatMap fun c => c.2.visited.map (.under c.1) := by
  cases l with
  | array xs =>
    cases xs with
    | nil => rfl
    | cons x xs => rw [visited, readParts, List.flatMap_singleton]
  | object ms => rw [visited, readParts, List.flatMap_map, visitedOfMembers_eq]
  | _ => rfl

/-- **The list has exactly the nodes that are read.** -/
theorem mem_visited_iff (l : Json) : ∀ q : Located, q ∈ l.visited ↔ l.Reads q.path q.node := by
  induction l using inductionOnReadParts with
  | step l ih =>
    rintro ⟨p, n⟩
    rw [visited_eq, reads_iff, List.mem_cons, List.mem_flatMap, Located.mk.injEq]
    refine or_congr Iff.rfl ⟨?_, ?_⟩
    · rintro ⟨c, hc, hq⟩
      obtain ⟨r, hr, he⟩ := List.mem_map.mp hq
      cases he
      exact ⟨c, hc, r.path, rfl, (ih c hc r).mp hr⟩
    · rintro ⟨c, hc, q, rfl, hq⟩
      exact ⟨c, hc, List.mem_map.mpr ⟨⟨q, n⟩, (ih c hc _).mpr hq, rfl⟩⟩

/-- **The nodes are listed in the order of their tokens.** -/
theorem pairwise_visited (l : Json) :
    l.visited.Pairwise fun q r => Pointer.Earlier q.path r.path := by
  induction l using inductionOnReadParts with
  | step l ih =>
    rw [visited_eq, List.pairwise_cons]
    refine ⟨?_, Pointer.pairwise_flatMap_under (fun _ _ => rfl) (pairwise_readParts l) ih⟩
    -- the way to the root is the start of every other
    intro q hq
    obtain ⟨c, -, hq⟩ := List.mem_flatMap.mp hq
    obtain ⟨r, -, rfl⟩ := List.mem_map.mp hq
    exact List.Lex.nil

/-! ### Siblings -/

/-- The number of elements that decoding passes over at a node: all but the first. -/
def siblings : Json → Nat
  | .array xs => xs.length - 1
  | _ => 0

theorem siblings_pos_iff {n : Json} : 0 < n.siblings ↔ ∃ xs, n = .array xs ∧ 2 ≤ xs.length := by
  constructor
  · intro h
    cases n with
    | array xs => exact ⟨xs, rfl, by rw [siblings] at h; omega⟩
    | _ => exact absurd h (Nat.lt_irrefl 0)
  · rintro ⟨xs, rfl, h⟩
    rw [siblings]
    omega

theorem not_defective_of_siblings_pos {n : Json} (h : 0 < n.siblings) : ¬ n.Defective := by
  obtain ⟨xs, rfl, hlen⟩ := siblings_pos_iff.mp h
  intro hnil
  rw [show xs = [] from hnil] at hlen
  cases hlen

/-- Of a list of nodes the crowded ones, up to the first defective node. -/
def crowded (nodes : List Located) : List Located :=
  (nodes.takeWhile fun q => ¬ q.node.Defective).filter fun q => 0 < q.node.siblings

theorem crowded_cons (q : Located) (nodes : List Located) :
    crowded (q :: nodes) =
      if q.node.Defective then []
      else if 0 < q.node.siblings then q :: crowded nodes else crowded nodes := by
  by_cases hd : q.node.Defective
  · rw [if_pos hd, crowded, List.takeWhile_cons_of_neg (by simpa using hd)]
    rfl
  · rw [if_neg hd, crowded, List.takeWhile_cons_of_pos (by simpa using hd), List.filter_cons]
    simp only [decide_eq_true_eq]
    rfl

theorem crowded_append_of_forall {nodes : List Located} (h : ∀ q ∈ nodes, ¬ q.node.Defective)
    (nodes' : List Located) : crowded (nodes ++ nodes') = crowded nodes ++ crowded nodes' := by
  induction nodes with
  | nil => rfl
  | cons q nodes ih =>
    rw [List.forall_mem_cons] at h
    rw [List.cons_append, crowded_cons, crowded_cons, if_neg h.1, if_neg h.1, ih h.2]
    split <;> rfl

/-- What comes after a defective node does not count. -/
theorem crowded_append_of_exists {nodes : List Located} (h : ∃ q ∈ nodes, q.node.Defective)
    (nodes' : List Located) : crowded (nodes ++ nodes') = crowded nodes := by
  induction nodes with
  | nil =>
    obtain ⟨q, hq, -⟩ := h
    exact absurd hq List.not_mem_nil
  | cons q nodes ih =>
    rw [List.cons_append, crowded_cons, crowded_cons]
    by_cases hq : q.node.Defective
    · rw [if_pos hq, if_pos hq]
    · obtain ⟨r, hr, hd⟩ := h
      rcases List.mem_cons.mp hr with rfl | hr
      · exact absurd hd hq
      · rw [ih ⟨r, hr, hd⟩]

theorem crowded_map_under (token : Token) (nodes : List Located) :
    crowded (nodes.map (.under token)) = (crowded nodes).map (.under token) := by
  rw [crowded, List.takeWhile_map, List.filter_map]
  rfl

/-- In an ordered list the crowded nodes that come before every defective one are found. -/
theorem mem_crowded_iff {nodes : List Located}
    (hsorted : nodes.Pairwise fun q r => Pointer.Earlier q.path r.path) (q : Located) :
    q ∈ crowded nodes ↔ q ∈ nodes ∧ 0 < q.node.siblings ∧
      ∀ r ∈ nodes, r.node.Defective → Pointer.Earlier q.path r.path := by
  induction nodes with
  | nil => exact ⟨fun h => absurd h List.not_mem_nil, fun h => absurd h.1 List.not_mem_nil⟩
  | cons a nodes ih =>
    obtain ⟨hfirst, hrest⟩ := List.pairwise_cons.mp hsorted
    rw [crowded_cons, List.mem_cons, List.forall_mem_cons]
    by_cases hd : a.node.Defective
    · rw [if_pos hd]
      refine ⟨fun h => absurd h List.not_mem_nil, ?_⟩
      -- the defective node itself is not crowded, and it comes before all others
      rintro ⟨rfl | hq, hpos, hbefore, -⟩
      · exact absurd hd (not_defective_of_siblings_pos hpos)
      · exact absurd (hfirst q hq) (hbefore hd).asymm
    · have hall : (∀ r ∈ a :: nodes, r.node.Defective → Pointer.Earlier a.path r.path) := by
        rw [List.forall_mem_cons]
        exact ⟨fun h => absurd h hd, fun r hr _ => hfirst r hr⟩
      have hmem : q ∈ (if 0 < a.node.siblings then a :: crowded nodes else crowded nodes) ↔
          (q = a ∧ 0 < a.node.siblings) ∨ q ∈ crowded nodes := by
        split
        · rename_i hpos
          rw [List.mem_cons, and_iff_left hpos]
        · rename_i hpos
          exact ⟨Or.inr, fun h => h.resolve_left fun h => hpos h.2⟩
      rw [if_neg hd, hmem, ih hrest]
      constructor
      · rintro (⟨rfl, hpos⟩ | ⟨hq, hpos, hbefore⟩)
        · exact ⟨Or.inl rfl, hpos, List.forall_mem_cons.mp hall⟩
        · exact ⟨Or.inr hq, hpos, fun h => absurd h hd, hbefore⟩
      · rintro ⟨rfl | hq, hpos, -, hbefore⟩
        · exact Or.inl ⟨rfl, hpos⟩
        · exact Or.inr ⟨hq, hpos, hbefore⟩

/-- The nodes of a literal whose siblings are noted. -/
def noted (l : Json) : List Located := crowded l.visited

/-- **The crowded nodes that come before every defect are noted.** -/
theorem mem_noted_iff (l : Json) (q : Located) :
    q ∈ l.noted ↔ l.Reads q.path q.node ∧ 0 < q.node.siblings ∧
      ∀ p n, l.Reads p n → n.Defective → Pointer.Earlier q.path p := by
  rw [noted, mem_crowded_iff l.pairwise_visited, mem_visited_iff]
  refine and_congr_right fun _ => and_congr_right fun _ => ?_
  constructor
  · intro h p n hr
    exact h ⟨p, n⟩ ((l.mem_visited_iff _).mpr hr)
  · intro h r hr
    exact h r.path r.node ((l.mem_visited_iff r).mp hr)

theorem pairwise_noted (l : Json) :
    l.noted.Pairwise fun q r => Pointer.Earlier q.path r.path :=
  (l.pairwise_visited.sublist (List.takeWhile_sublist _)).filter _

/-- A value is in normal form if no array that is read has more than one element. -/
theorem norm_eq_self {l : Json} (h : ∀ p n, l.Reads p n → n.siblings = 0) : l.norm = l := by
  induction l using inductionOnReadParts with
  | step l ih =>
    have hpart : ∀ c ∈ l.readParts, c.2.norm = c.2 := fun c hc =>
      ih c hc fun p n hr => h (c.1 :: p) n (hr.cons hc)
    cases l with
    | array xs =>
      cases xs with
      | nil => rfl
      | cons x xs =>
        cases xs with
        | nil => rw [norm, hpart _ (List.mem_singleton.mpr rfl)]
        | cons y ys => cases h [] _ .root
    | object ms =>
      have hsame : normMembers ms = ms := by
        refine Fields.ext_get? fun key => ?_
        rw [get?_normMembers]
        cases hk : ms.get? key with
        | none => rfl
        | some v => exact congrArg some (hpart _ (mem_readParts_object.mpr ⟨key, v, hk, rfl⟩))
      rw [norm, hsame]
    | _ => rfl

end Json

namespace Schema

open Json (Located)

/-- The effect of coming to a crowded node. -/
def siblingsNote (path : String) (q : Located) : Effect :=
  .event ⟨.debug, "sequence schema has sibling elements; only the first is used",
    [("path", Pointer.along path q.path), ("ignored", Nat.repr q.node.siblings)]⟩

/-- A run goes along nodes: it notes the crowded ones up to the first defective node, and gives a
result if there is no defective one. -/
structure Follows {α : Type} (path : String) (nodes : List Located) (r : Run SchemaError α) :
    Prop where
  effects_eq : r.effects = (Json.crowded nodes).map (siblingsNote path)
  isOk_iff : (∃ a, r.outcome = .ok a) ↔ ∀ q ∈ nodes, ¬ q.node.Defective

section Follows

variable {α β : Type} {path : String} {nodes nodes' : List Located} {r : Run SchemaError α}

theorem Follows.done (path : String) (a : α) : Follows path [] (.done a) :=
  ⟨rfl, fun _ _ hq => absurd hq List.not_mem_nil, fun _ => ⟨a, rfl⟩⟩

/-- A run fails at a defective node. -/
theorem Follows.fail {l : Json} (h : l.Defective) (e : SchemaError) :
    Follows path [⟨[], l⟩] (.fail e : Run SchemaError α) := by
  refine ⟨?_, ?_, ?_⟩
  · rw [Json.crowded_cons, if_pos h]
    rfl
  · rintro ⟨a, ⟨⟩⟩
  · intro hall
    exact absurd h (hall _ List.mem_cons_self)

/-- Nothing happens at a node that is neither defective nor crowded. -/
theorem Follows.skip {l : Json} (hd : ¬ l.Defective) (hs : l.siblings = 0)
    (h : Follows path nodes r) : Follows path (⟨[], l⟩ :: nodes) r := by
  refine ⟨?_, ?_⟩
  · rw [Json.crowded_cons, if_neg hd, if_neg (Nat.not_lt.mpr (Nat.le_of_eq hs)), h.effects_eq]
  · rw [h.isOk_iff, List.forall_mem_cons, and_iff_right hd]

theorem Follows.note {l : Json} (h : 0 < l.siblings) :
    Follows path [⟨[], l⟩] (noteSiblings path l.siblings) := by
  have hd := Json.not_defective_of_siblings_pos h
  refine ⟨?_, ?_⟩
  · rw [Json.crowded_cons, if_neg hd, if_pos h]
    rfl
  · rw [List.forall_mem_singleton]
    exact ⟨fun _ => hd, fun _ => ⟨(), rfl⟩⟩

theorem Follows.andThen {k : α → Run SchemaError β} (h : Follows path nodes r)
    (hk : ∀ a, Follows path nodes' (k a)) : Follows path (nodes ++ nodes') (r.andThen k) := by
  rw [Run.andThen]
  cases ho : r.outcome with
  | ok a =>
    have hsound := h.isOk_iff.mp ⟨a, ho⟩
    refine ⟨?_, ?_⟩
    · rw [Json.crowded_append_of_forall hsound, List.map_append, ← h.effects_eq,
        ← (hk a).effects_eq]
    · rw [List.forall_mem_append, and_iff_right hsound]
      exact (hk a).isOk_iff
  | error e =>
    have hfail : ¬ ∀ q ∈ nodes, ¬ q.node.Defective := by
      rw [← h.isOk_iff, ho]
      rintro ⟨a, ⟨⟩⟩
    refine ⟨?_, ?_, ?_⟩
    · rw [Json.crowded_append_of_exists (by simpa using hfail), ← h.effects_eq]
    · rintro ⟨a, ⟨⟩⟩
    · intro hall
      exact absurd (List.forall_mem_append.mp hall).1 hfail

theorem Follows.map (h : Follows path nodes r) (g : α → β) :
    Follows path nodes (r.andThen fun a => .done (g a)) := by
  have := h.andThen fun a => Follows.done path (g a)
  rwa [List.append_nil] at this

theorem Follows.under {token : Token} (h : Follows (Pointer.extend path token) nodes r) :
    Follows path (nodes.map (.under token)) r := by
  refine ⟨?_, ?_⟩
  · rw [Json.crowded_map_under, List.map_map, h.effects_eq]
    rfl
  · rw [h.isOk_iff, List.forall_mem_map]
    rfl

end Follows

theorem follows_decodeFields {b : Option String} {ms : Fields Json b}
    (h : ∀ m ∈ ms.toList, ∀ path, Follows path m.2.visited (decodeAt path m.2)) :
    ∀ path, Follows path (Json.visitedOfMembers ms) (decodeFields path ms) := by
  intro path
  induction ms with
  | nil => exact .done path _
  | cons k above v rest ih =>
    rw [Fields.toList, List.forall_mem_cons] at h
    rw [Json.visitedOfMembers, decodeFields]
    have hv : Follows (Pointer.extend path (.name k)) v.visited
        (decodeAt (Pointer.child path k) v) := h.1 _
    exact hv.under.andThen fun s => (ih h.2).map (Fields.cons k above s)

/-- **Decoding goes along the nodes that are read.** -/
theorem follows_decodeAt (l : Json) : ∀ path, Follows path l.visited (decodeAt path l) := by
  induction l using Json.induction with
  | onNull => exact fun path => Follows.fail (l := .null) trivial _
  | onBoolean b => exact fun path => Follows.fail (l := .boolean b) trivial _
  | onNumber n => exact fun path => Follows.fail (l := .number n) trivial _
  | onString t =>
    intro path
    rw [decodeAt]
    cases h : Kind.ofTag? t with
    | none => exact Follows.fail (l := .string t) (Kind.ofTag?_eq_none_iff.mp h) _
    | some k =>
      refine (Follows.done path _).skip (fun hd => ?_) rfl
      rw [Kind.ofTag?_eq_none_iff.mpr hd] at h
      cases h
  | onArray xs ih =>
    intro path
    cases xs with
    | nil => exact Follows.fail (l := .array []) rfl _
    | cons x xs =>
      have hx : Follows (Pointer.extend path (.position 0)) x.visited
          (decodeAt (Pointer.index path 0) x) := ih x List.mem_cons_self _
      have hfirst := hx.under.map Schema.sequence
      cases xs with
      | nil =>
        rw [Json.visited, decodeAt]
        exact hfirst.skip (by rintro ⟨⟩) rfl
      | cons y ys =>
        have hnote : Follows path [⟨[], .array (x :: y :: ys)⟩]
            (noteSiblings path (y :: ys).length) := Follows.note (Nat.succ_pos ys.length)
        rw [Json.visited, decodeAt]
        exact hnote.andThen fun _ => hfirst
  | onObject ms ih =>
    intro path
    rw [Json.visited, decodeAt]
    exact ((follows_decodeFields ih path).map Schema.record).skip id rfl

/-- A literal is decoded without a note exactly when it is the literal of the schema. -/
theorem decode_silently_iff {l : Json} {s : Schema} :
    ((decode l).outcome = .ok s ∧ (decode l).effects = []) ↔ s.literal = l := by
  constructor
  · rintro ⟨hs, hsilent⟩
    have hfollows := follows_decodeAt l ""
    have hsound := hfollows.isOk_iff.mp ⟨s, hs⟩
    rw [decode, hfollows.effects_eq, List.map_eq_nil_iff] at hsilent
    have hnone : ∀ p n, l.Reads p n → n.siblings = 0 := by
      intro p n hr
      by_contra hpos
      have hq : (⟨p, n⟩ : Located) ∈ l.noted := by
        refine (l.mem_noted_iff _).mpr ⟨hr, Nat.pos_of_ne_zero hpos, fun p' n' hr' hd => ?_⟩
        exact absurd hd (hsound _ ((l.mem_visited_iff ⟨p', n'⟩).mpr hr'))
      rw [Json.noted, hsilent] at hq
      exact absurd hq List.not_mem_nil
    rw [literal_of_decodeAt l "" s hs, Json.norm_eq_self hnone]
  · rintro rfl
    rw [decode, decodeAt_literal]
    exact ⟨rfl, rfl⟩

/-- **Siblings are noted completely and only once.**  The effects of decoding are one note for each
array with more than one element that is read and comes before every defect, in the ascending order
of the tokens that lead there; a note has the pointer to the array and the number of elements that
are passed over.  A literal is decoded as a schema without a note exactly when it is the literal of
that schema. -/
theorem siblings_are_noted (l : Json) :
    ((decode l).effects = l.noted.map fun q =>
      .event ⟨.debug, "sequence schema has sibling elements; only the first is used",
        [("path", Pointer.along "" q.path), ("ignored", Nat.repr q.node.siblings)]⟩) ∧
    (∀ q : Located, q ∈ l.noted ↔
      l.Reads q.path q.node ∧
      (∃ xs, q.node = .array xs ∧ 2 ≤ xs.length ∧ q.node.siblings = xs.length - 1) ∧
      ∀ p n, l.Reads p n → n.Defective → Pointer.Earlier q.path p) ∧
    (l.noted.Pairwise fun q r => Pointer.Earlier q.path r.path) ∧
    (∀ q ∈ l.noted, ∃ tokens, Pointer.tokens? (Pointer.along "" q.path) = some tokens ∧
      l.resolve? tokens = some q.node) ∧
    ∀ s, ((decode l).outcome = .ok s ∧ (decode l).effects = []) ↔ s.literal = l := by
  refine ⟨(follows_decodeAt l "").effects_eq, ?_, l.pairwise_noted, ?_,
    fun s => decode_silently_iff⟩
  · intro q
    rw [l.mem_noted_iff q, Json.siblings_pos_iff]
    refine and_congr_right fun _ => and_congr_left fun _ => exists_congr fun xs => ?_
    refine and_congr_right fun hq => ?_
    rw [hq, Json.siblings, and_iff_left rfl]
  · intro q hq
    exact ⟨_, Pointer.tokens?_along q.path, ((l.mem_noted_iff q).mp hq).1.resolve⟩

end Schema

end ShapeContract
