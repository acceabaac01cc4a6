import ShapeContract.Json.Basic
import ShapeContract.Proofs.Fields

/-!
# How deep a value is nested

`height scalar` counts the arrays and objects that stand in one another, and `scalar` more for a
scalar below them.  With nothing for a scalar this is the number of open brackets, `nesting`; with
one it is the number of levels, `levels`, in which an empty array is as high as a scalar.

`height_array_le` and `height_object_le` are all that is used of the definition, and
`Json.induction` is the induction on values with a hypothesis for each element or member.
-/

namespace ShapeContract.Json

/-- Induction on a value, with the hypothesis for every element of an array and for every member of
an object. -/
@[elab_as_elim]
theorem induction {P : Json → Prop} (onNull : P null) (onBoolean : ∀ b, P (boolean b))
    (onNumber : ∀ n, P (number n)) (onString : ∀ s, P (string s))
    (onArray : ∀ xs, (∀ x ∈ xs, P x) → P (array xs))
    (onObject : ∀ ms : Fields Json none, (∀ m ∈ ms.toList, P m.2) → P (object ms)) :
    ∀ v, P v :=
  @Json.rec P (fun xs => ∀ x ∈ xs, P x) (fun _ ms => ∀ m ∈ ms.toList, P m.2)
    onNull onBoolean onNumber onString onArray onObject
    (fun _ h => absurd h List.not_mem_nil)
    (fun _ _ hx hxs y h => by
      rcases List.mem_cons.mp h with rfl | h
      · exact hx
      · exact hxs y h)
    (fun _ h => absurd h List.not_mem_nil)
    (fun _ _ _ _ hv hrest m h => by
      rcases List.mem_cons.mp h with rfl | h
      · exact hv
      · exact hrest m h)

mutual

/-- The number of arrays and objects in one another, and `scalar` for a scalar inside them. -/
def height (scalar : Nat) : Json → Nat
  | array xs => 1 + heightOfElements scalar xs
  | object ms => 1 + heightOfMembers scalar ms
  | _ => scalar

/-- The height of the highest element. -/
def heightOfElements (scalar : Nat) : List Json → Nat
  | [] => 0
  | x :: xs => max (x.height scalar) (heightOfElements scalar xs)

/-- The height of the highest member. -/
def heightOfMembers (scalar : Nat) : {b : Option String} → Fields Json b → Nat
  | _, .nil => 0
  | _, .cons _ _ v rest => max (v.height scalar) (heightOfMembers scalar rest)

end

/-- How many arrays and objects stand in one another. -/
def nesting (v : Json) : Nat := v.height 0

/-- The number of levels of a value; a scalar and an empty array or object are one level. -/
def levels (v : Json) : Nat := v.height 1

variable {scalar n : Nat}

theorem heightOfElements_le {xs : List Json} :
    heightOfElements scalar xs ≤ n ↔ ∀ x ∈ xs, x.height scalar ≤ n := by
  induction xs with
  | nil => exact ⟨fun _ x hx => absurd hx List.not_mem_nil, fun _ => Nat.zero_le n⟩
  | cons x xs ih => rw [heightOfElements, Nat.max_le, ih, List.forall_mem_cons]

theorem heightOfMembers_le {b : Option String} {ms : Fields Json b} :
    heightOfMembers scalar ms ≤ n ↔ ∀ m ∈ ms.toList, m.2.height scalar ≤ n := by
  induction ms with
  | nil => exact ⟨fun _ m hm => absurd hm List.not_mem_nil, fun _ => Nat.zero_le n⟩
  | cons k above v rest ih =>
    rw [heightOfMembers, Nat.max_le, ih, Fields.toList, List.forall_mem_cons]

theorem height_array_le {xs : List Json} :
    (array xs).height scalar ≤ n + 1 ↔ ∀ x ∈ xs, x.height scalar ≤ n := by
  rw [height, Nat.add_comm, Nat.add_le_add_iff_right, heightOfElements_le]

theorem height_object_le {ms : Fields Json none} :
    (object ms).height scalar ≤ n + 1 ↔ ∀ m ∈ ms.toList, m.2.height scalar ≤ n := by
  rw [height, Nat.add_comm, Nat.add_le_add_iff_right, heightOfMembers_le]

example : (array []).nesting = 1 ∧ (array []).levels = 1 ∧
    (string "array").nesting = 0 ∧ (string "array").levels = 1 := by decide

end ShapeContract.Json
