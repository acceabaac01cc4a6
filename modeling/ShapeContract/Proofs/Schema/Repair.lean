import Mathlib.Data.Set.Card
import ShapeContract.Proofs.Schema.Meaning

/-!
# Repairing a value

A value that does not have its shape can be repaired step by step: put a value that has the shape in
the place of the first mismatch, and look again.  `Json.replace?` puts a value in the place that the
tokens of a pointer lead to, where a member that is missing is added to its object.

Such a step changes one part of every node on the way and no other (`parts_of_putIn`), and the nodes
on the way stay what they are.  So of the places that fail only the first one goes away:

* `failures_putIn`: after the step, what is left of the list of failing places is its tail;
* `Repairs.failures`, `RepairedIn.failures`: the same for one repair and, by induction, for any
  number of them.

The list is finite and ordered, so the next mismatch comes later, and the value has its shape after
as many repairs as there were failing places (`repairing_makes_progress`).
-/

namespace ShapeContract

open Pointer (Token)

namespace Json

/-! ### Replacing a node -/

/-- Put a value where tokens lead to from a node that may be missing.  The last token may name a
member that its object lacks; any other step has to lead to a node. -/
def putIn (w : Json) : Option Json → List String → Option Json
  | _, [] => some w
  | some (.object ms), token :: rest =>
    (putIn w (ms.get? token) rest).map fun x => .object (Dict.put token x ms)
  | some (.array xs), token :: rest =>
    (Pointer.position? token).bind fun i => (xs[i]?).bind fun x =>
      (putIn w (some x) rest).map fun y => .array (xs.set i y)
  | _, _ :: _ => none

/-- A value with another in the place that tokens lead to. -/
def replace? (v : Json) (tokens : List String) (w : Json) : Option Json := putIn w (some v) tokens

/-- **What has been put in a place is found there.** -/
theorem resolve?_of_putIn {w v' : Json} {tokens : List String} :
    ∀ {o : Option Json}, putIn w o tokens = some v' → v'.resolve? tokens = some w := by
  induction tokens generalizing v' with
  | nil =>
    intro o h
    cases h
    rfl
  | cons token rest ih =>
    intro o h
    cases o with
    | none => cases h
    | some v =>
      cases v with
      | object ms =>
        obtain ⟨x, hx, rfl⟩ := Option.map_eq_some_iff.mp h
        rw [resolve?, List.foldlM_cons, child?, Dict.get?_put_self]
        exact ih hx
      | array xs =>
        obtain ⟨i, hi, h⟩ := Option.bind_eq_some_iff.mp h
        obtain ⟨x, hx, h⟩ := Option.bind_eq_some_iff.mp h
        obtain ⟨y, hy, rfl⟩ := Option.map_eq_some_iff.mp h
        have hlt : i < xs.length := (List.getElem?_eq_some_iff.mp hx).1
        rw [resolve?, List.foldlM_cons, child?, hi, Option.bind_some, List.getElem?_set_self hlt]
        exact ih hy
      | _ => cases h

end Json

namespace Schema

/-! ### One part of a node -/

/-- **Putting a value in a part changes that part and no other**, and the node stays of the kind it
is. -/
theorem parts_of_putIn {s : Schema} {o : Option Json} {c : Part} (hc : c ∈ s.parts o) {w x : Json}
    {tokens : List String} (hx : Json.putIn w c.node tokens = some x) :
    ∃ v', Json.putIn w o (c.token.text :: tokens) = some v' ∧ ¬ s.Misfit (some v') ∧
      s.parts (some v') =
        (s.parts o).map fun d => if d.token = c.token then { d with node := some x } else d := by
  cases s with
  | primitive k => simp at hc
  | sequence e =>
    obtain ⟨xs, i, y, rfl, hy, rfl⟩ := mem_parts_sequence.mp hc
    have hi : Pointer.position? (Token.position i).text = some i := Pointer.position?_repr i
    have hput : Json.putIn w (some (.array xs)) ((Token.position i).text :: tokens) =
        some (.array (xs.set i x)) := by
      rw [Json.putIn, hi, Option.bind_some, hy, Option.bind_some, hx, Option.map_some]
    refine ⟨_, hput, fun h => h rfl, ?_⟩
    rw [parts, parts]
    refine List.ext_getElem (by simp) fun j h₁ h₂ => ?_
    have hj : j < xs.length := by simpa using h₂
    by_cases hij : i = j
    · subst hij
      simp
    · simp [hij, Ne.symm hij]
  | record fs =>
    obtain ⟨ms, k, t, rfl, ht, rfl⟩ := mem_parts_record.mp hc
    have hput : Json.putIn w (some (.object ms)) ((Token.name k).text :: tokens) =
        some (.object (Dict.put k x ms)) := by
      rw [Json.putIn, show (Token.name k).text = k from rfl, hx, Option.map_some]
    refine ⟨_, hput, fun h => h rfl, ?_⟩
    rw [parts, parts, List.map_map]
    refine List.map_congr_left ?_
    rintro ⟨l, u⟩ -
    by_cases hl : l = k
    · subst hl
      simp
    · simp [hl, Dict.get?_put_of_ne hl]

/-- With the part spelled out, the others stand where they stood: no two parts have one token. -/
theorem parts_of_putIn_split {s : Schema} {o : Option Json} {before after : List Part} {c : Part}
    (hparts : s.parts o = before ++ c :: after) {w x : Json} {tokens : List String}
    (hx : Json.putIn w c.node tokens = some x) :
    ∃ v', Json.putIn w o (c.token.text :: tokens) = some v' ∧ ¬ s.Misfit (some v') ∧
      s.parts (some v') = before ++ { c with node := some x } :: after := by
  have hc : c ∈ s.parts o := by simp [hparts]
  obtain ⟨v', hput, hfit, hnew⟩ := parts_of_putIn hc hx
  have hsorted := pairwise_parts s o
  rw [hparts, List.pairwise_append, List.pairwise_cons] at hsorted
  obtain ⟨-, ⟨hafter, -⟩, hbefore⟩ := hsorted
  have hkeep : ∀ ds : List Part, (∀ d ∈ ds, d.token ≠ c.token) →
      (ds.map fun d => if d.token = c.token then { d with node := some x } else d) = ds := by
    intro ds hds
    conv_rhs => rw [← List.map_id ds]
    exact List.map_congr_left fun d hd => if_neg (hds d hd)
  have hlow : ∀ d ∈ before, d.token ≠ c.token := by
    intro d hd heq
    have hlt := hbefore d hd c List.mem_cons_self
    rw [heq] at hlt
    exact hlt.asymm hlt
  have hhigh : ∀ d ∈ after, d.token ≠ c.token := by
    intro d hd heq
    have hlt := hafter d hd
    rw [heq] at hlt
    exact hlt.asymm hlt
  refine ⟨v', hput, hfit, ?_⟩
  rw [hnew, hparts, List.map_append, List.map_cons, hkeep before hlow, hkeep after hhigh,
    if_pos rfl]

/-! ### The first failing place -/

/-- A value has its shape exactly when no place of it fails. -/
theorem failures_eq_nil_iff_accepts {s : Schema} {v : Json} :
    s.failures (some v) = [] ↔ s.accepts v = true := by
  rw [← mismatch?_eq_none_iff, mismatch?, locate_eq_head?, Option.map_eq_none_iff,
    List.head?_eq_none_iff]

/-- The first of several lists that are joined and not all empty gives the first element. -/
theorem flatMap_eq_cons {α β : Type} {f : α → List β} {xs : List α} {y : β} {ys : List β}
    (h : xs.flatMap f = y :: ys) :
    ∃ before a after zs, xs = before ++ a :: after ∧ (∀ b ∈ before, f b = []) ∧ f a = y :: zs ∧
      ys = zs ++ after.flatMap f := by
  rw [List.flatMap_def] at h
  obtain ⟨_, zs, _, hmap, hempty, rfl⟩ := List.flatten_eq_cons_iff.mp h
  obtain ⟨before, tail, rfl, rfl, htail⟩ := List.map_eq_append_iff.mp hmap
  obtain ⟨a, after, rfl, ha, rfl⟩ := List.map_eq_cons_iff.mp htail
  exact ⟨before, a, after, zs, rfl, List.forall_mem_map.mp hempty, ha, by rw [List.flatMap_def]⟩

/-- **Repairing the first failing place leaves the others, and adds none.** -/
theorem failures_putIn (s : Schema) (o : Option Json) :
    ∀ {q : Place} {rest : List Place} {w : Json}, s.failures o = q :: rest →
      q.shape.accepts w = true →
      ∃ v', Json.putIn w o (q.path.map Token.text) = some v' ∧ s.failures (some v') = rest := by
  induction s, o using inductionOnParts with
  | step s o ih =>
    intro q rest w h hw
    rw [failures_eq] at h
    by_cases hm : s.Misfit o
    · rw [if_pos hm] at h
      cases h
      exact ⟨w, rfl, failures_eq_nil_iff_accepts.mpr hw⟩
    · rw [if_neg hm] at h
      obtain ⟨before, c, after, below, hparts, hempty, hc, rfl⟩ := flatMap_eq_cons h
      obtain ⟨r, others, hfirst, rfl, rfl⟩ := List.map_eq_cons_iff.mp hc
      have hmem : c ∈ s.parts o := by simp [hparts]
      obtain ⟨x, hx, hleft⟩ := ih c hmem hfirst hw
      obtain ⟨v', hput, hfit, hnew⟩ := parts_of_putIn_split hparts hx
      refine ⟨v', hput, ?_⟩
      rw [failures_eq, if_neg hfit, hnew, List.flatMap_append, List.flatMap_cons,
        List.flatMap_eq_nil_iff.mpr hempty, hleft]
      rfl

/-! ### The locations that fail -/

/-- The locations at which a value fails: the tokens of every place that is reached and whose node
is a misfit. -/
def failing (s : Schema) (v : Json) : Set (List Token) :=
  {p | ∃ n t, s.Reaches (some v) p n t ∧ t.Misfit n}

theorem path_mem_failing {s : Schema} {v : Json} {q : Place} (h : q ∈ s.failures (some v)) :
    q.path ∈ s.failing v := by
  obtain ⟨hr, hm⟩ := (mem_failures_iff s _ q).mp h
  exact ⟨q.node, q.shape, hr, hm⟩

/-- Each failing place is at a location of its own. -/
theorem nodup_paths_failures (s : Schema) (o : Option Json) :
    ((s.failures o).map Place.path).Nodup := by
  rw [List.Nodup, List.pairwise_map]
  refine (pairwise_failures s o).imp ?_
  intro q r hqr heq
  rw [heq] at hqr
  exact hqr.asymm hqr

theorem failing_eq (s : Schema) (v : Json) :
    s.failing v = ((s.failures (some v)).map Place.path).toFinset := by
  ext p
  rw [List.coe_toFinset, Set.mem_ofPred_eq, List.mem_map]
  constructor
  · rintro ⟨n, t, hr, hm⟩
    exact ⟨⟨p, n, t⟩, (mem_failures_iff s _ _).mpr ⟨hr, hm⟩, rfl⟩
  · rintro ⟨q, hq, rfl⟩
    exact path_mem_failing hq

theorem finite_failing (s : Schema) (v : Json) : (s.failing v).Finite := by
  rw [failing_eq]
  exact Finset.finite_toSet _

theorem ncard_failing (s : Schema) (v : Json) :
    (s.failing v).ncard = (s.failures (some v)).length := by
  rw [failing_eq, Set.ncard_coe_finset, List.toFinset_card_of_nodup (nodup_paths_failures s _),
    List.length_map]

/-- If the list of failing places loses its head, the set of locations loses that one. -/
theorem failing_of_failures_cons {s : Schema} {v v' : Json} {q : Place}
    (h : s.failures (some v) = q :: s.failures (some v')) :
    s.failing v' = s.failing v \ {q.path} := by
  have hnodup := nodup_paths_failures s (some v)
  rw [h, List.map_cons, List.nodup_cons] at hnodup
  rw [failing_eq, failing_eq, h, List.map_cons]
  ext p
  simp only [List.coe_toFinset, Set.mem_ofPred_eq, Set.mem_sdiff, Set.mem_singleton_iff,
    List.mem_cons]
  constructor
  · intro hp
    refine ⟨Or.inr hp, ?_⟩
    rintro rfl
    exact hnodup.1 hp
  · rintro ⟨hp, hne⟩
    exact hp.resolve_left hne

/-! ### Repairs -/

/-- A value has been repaired at its first mismatch: a value with the shape that was expected there
is in the place that the pointer leads to. -/
def Repairs (s : Schema) (v v' : Json) : Prop :=
  ∃ m tokens t w, s.mismatch? v = some m ∧ Pointer.tokens? m.path = some tokens ∧
    s.resolve? tokens = some t ∧ t.accepts w = true ∧ v.replace? tokens w = some v'

/-- A value has been repaired so many times. -/
inductive RepairedIn (s : Schema) (v : Json) : Nat → Json → Prop
  | start : RepairedIn s v 0 v
  | again {n : Nat} {u u' : Json} : RepairedIn s v n u → s.Repairs u u' → RepairedIn s v (n + 1) u'

/-- The mismatch of a value is that of its first failing place, whose tokens lead there. -/
theorem mismatch?_of_failures_cons {s : Schema} {v : Json} {q : Place} {rest : List Place}
    (h : s.failures (some v) = q :: rest) :
    s.mismatch? v = some (report "" q) ∧
      Pointer.tokens? (report "" q).path = some (q.path.map Token.text) ∧
      s.resolve? (q.path.map Token.text) = some q.shape := by
  have hq : q ∈ s.failures (some v) := by rw [h]; exact List.mem_cons_self
  refine ⟨?_, Pointer.tokens?_along q.path, ((mem_failures_iff s _ q).mp hq).1.resolve.1⟩
  rw [mismatch?, locate_eq_head?, h]
  rfl

/-- **A repair takes the first failing place away** and changes nothing about the others. -/
theorem Repairs.failures {s : Schema} {v v' : Json} (h : s.Repairs v v') :
    ∃ q, s.failures (some v) = q :: s.failures (some v') := by
  obtain ⟨m, tokens, t, w, hm, htokens, ht, hw, hput⟩ := h
  cases hf : s.failures (some v) with
  | nil =>
    rw [mismatch?_eq_none_iff.mpr (failures_eq_nil_iff_accepts.mp hf)] at hm
    cases hm
  | cons q rest =>
    obtain ⟨hm', htokens', ht'⟩ := mismatch?_of_failures_cons hf
    rw [hm] at hm'
    cases hm'
    rw [htokens] at htokens'
    cases htokens'
    rw [ht] at ht'
    cases ht'
    obtain ⟨u, hu, hrest⟩ := failures_putIn s (some v) hf hw
    rw [show Json.putIn w (some v) _ = some v' from hput] at hu
    cases hu
    exact ⟨q, by rw [hrest]⟩

/-- A value with a failing place can be repaired: every schema has a value. -/
theorem exists_repairs {s : Schema} {v : Json} (h : s.failures (some v) ≠ []) :
    ∃ v', s.Repairs v v' := by
  obtain ⟨q, rest, hf⟩ := List.exists_cons_of_ne_nil h
  obtain ⟨hm, htokens, ht⟩ := mismatch?_of_failures_cons hf
  obtain ⟨v', hput, -⟩ := failures_putIn s (some v) hf (accepts_sample q.shape)
  exact ⟨v', _, _, _, _, hm, htokens, ht, accepts_sample q.shape, hput⟩

/-- **So many repairs take so many failing places away**, from the front of the list. -/
theorem RepairedIn.failures {s : Schema} {v u : Json} {n : Nat} (h : s.RepairedIn v n u) :
    ∃ done, done.length = n ∧ s.failures (some v) = done ++ s.failures (some u) := by
  induction h with
  | start => exact ⟨[], rfl, rfl⟩
  | again _ hstep ih =>
    obtain ⟨done, hlength, hdone⟩ := ih
    obtain ⟨q, hq⟩ := hstep.failures
    refine ⟨done ++ [q], by rw [List.length_append, hlength, List.length_singleton], ?_⟩
    rw [hdone, hq, List.append_assoc, List.singleton_append]

/-- Repairing goes on until no place fails. -/
theorem exists_repairedIn {s : Schema} {v : Json} :
    ∀ n ≤ (s.failures (some v)).length, ∃ u, s.RepairedIn v n u := by
  intro n
  induction n with
  | zero => exact fun _ => ⟨v, .start⟩
  | succ n ih =>
    intro hn
    obtain ⟨u, hu⟩ := ih (by omega)
    obtain ⟨done, hlength, hdone⟩ := hu.failures
    have hleft : s.failures (some u) ≠ [] := by
      intro hnil
      rw [hdone, hnil, List.append_nil, hlength] at hn
      omega
    obtain ⟨u', hu'⟩ := exists_repairs hleft
    exact ⟨u', hu.again hu'⟩

/-- **Repairing the reported node makes progress.**  The pointer of a mismatch leads to a location
that fails and to the schema expected there.  Whatever value with that shape is put in its place, it
stands there afterwards, the locations that fail are those of before without this one, and the next
mismatch, if there is one, is at a location that comes later.  The locations that fail are finite in
number.  Repairing can go on as long as there are any, and the value has its shape after as many
repairs as there were at the start, and not before. -/
theorem repairing_makes_progress (s : Schema) (v : Json) :
    (∀ m, s.mismatch? v = some m → ∃ p tokens t,
      p ∈ s.failing v ∧ m.path = Pointer.along "" p ∧
      Pointer.tokens? m.path = some tokens ∧ s.resolve? tokens = some t ∧
      ∀ w, t.accepts w = true → ∃ v', v.replace? tokens w = some v' ∧
        v'.resolve? tokens = some w ∧
        s.failing v' = s.failing v \ {p} ∧
        (s.mismatch? v' = none ∨ ∃ m' p', s.mismatch? v' = some m' ∧ p' ∈ s.failing v' ∧
          m'.path = Pointer.along "" p' ∧ Pointer.Earlier p p')) ∧
    (s.failing v).Finite ∧
    (∀ n u, s.RepairedIn v n u →
      n ≤ (s.failing v).ncard ∧
      (s.accepts u = true ↔ n = (s.failing v).ncard) ∧
      (n < (s.failing v).ncard → ∃ u', s.Repairs u u')) ∧
    ∃ u, s.RepairedIn v (s.failing v).ncard u ∧ s.accepts u = true := by
  have hrun : ∀ n u, s.RepairedIn v n u →
      n ≤ (s.failing v).ncard ∧
      (s.accepts u = true ↔ n = (s.failing v).ncard) ∧
      (n < (s.failing v).ncard → ∃ u', s.Repairs u u') := by
    intro n u hu
    obtain ⟨done, hlength, hdone⟩ := hu.failures
    have hcount : (s.failing v).ncard = n + (s.failures (some u)).length := by
      rw [ncard_failing, hdone, List.length_append, hlength]
    refine ⟨by omega, ?_, fun hn => exists_repairs ?_⟩
    · rw [← failures_eq_nil_iff_accepts, ← List.length_eq_zero_iff]
      omega
    · rw [Ne, ← List.length_eq_zero_iff]
      omega
  refine ⟨?_, finite_failing s v, hrun, ?_⟩
  · intro m hm
    cases hf : s.failures (some v) with
    | nil =>
      rw [mismatch?_eq_none_iff.mpr (failures_eq_nil_iff_accepts.mp hf)] at hm
      cases hm
    | cons q rest =>
      obtain ⟨hm', htokens, ht⟩ := mismatch?_of_failures_cons hf
      rw [hm] at hm'
      cases hm'
      have hq : q ∈ s.failures (some v) := by rw [hf]; exact List.mem_cons_self
      refine ⟨q.path, _, q.shape, path_mem_failing hq, rfl, htokens, ht,
        fun w hw => ?_⟩
      obtain ⟨v', hput, hrest⟩ := failures_putIn s (some v) hf hw
      refine ⟨v', hput, Json.resolve?_of_putIn hput,
        failing_of_failures_cons (by rw [hf, hrest]), ?_⟩
      cases hf' : s.failures (some v') with
      | nil => exact Or.inl (mismatch?_eq_none_iff.mpr (failures_eq_nil_iff_accepts.mp hf'))
      | cons q' rest' =>
        -- what is left of the list comes after its head
        have hsorted := pairwise_failures s (some v)
        rw [hf, ← hrest, hf'] at hsorted
        exact Or.inr ⟨_, q'.path, (mismatch?_of_failures_cons hf').1,
          path_mem_failing (by rw [hf']; exact List.mem_cons_self), rfl,
          (List.pairwise_cons.mp hsorted).1 q' List.mem_cons_self⟩
  · obtain ⟨u, hu⟩ := exists_repairedIn (s := s) (v := v) _ (Nat.le_of_eq (ncard_failing s v))
    exact ⟨u, hu, (hrun _ u hu).2.1.mpr rfl⟩

end Schema

end ShapeContract
