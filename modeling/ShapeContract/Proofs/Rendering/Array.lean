import ShapeContract.Guard.Failure
import ShapeContract.Proofs.Json.Height
import Mathlib.Data.List.Basic

/-!
# How arrays are shown

An array is shown without brackets, so its nesting does not show: its text is that of its leaves,
with commas between them (`render_array`).  The leaves of an element are what is shown of it, an
element at a time; an element without any, null or an empty array, still counts as one empty leaf,
and so every element has leaves (`leaves_ne_nil`) and no comma is lost.

What is in an object does not show at all: a value is shown like the one in which every object has
been emptied (`render_bare`).  Together they say what of a value shows (`arrays_are_shown_flat`).
-/

namespace ShapeContract

/-- Texts that are joined already may be joined all at once, if there is at least one in each. -/
theorem intercalate_map_eq_flatMap {α : Type} {separator : String} {f : α → String}
    {g : α → List String} {xs : List α} (hne : ∀ x ∈ xs, g x ≠ [])
    (hjoin : ∀ x ∈ xs, f x = separator.intercalate (g x)) :
    separator.intercalate (xs.map f) = separator.intercalate (xs.flatMap g) := by
  induction xs with
  | nil => rfl
  | cons x xs ih =>
    rw [List.forall_mem_cons] at hne hjoin
    have hrest := ih hne.2 hjoin.2
    rw [List.map_cons, List.flatMap_cons]
    cases xs with
    | nil =>
      rw [List.map_nil, List.flatMap_nil, List.append_nil, String.intercalate_singleton]
      exact hjoin.1
    | cons y ys =>
      have hmap : (y :: ys).map f ≠ [] := List.cons_ne_nil _ _
      have hmore : (y :: ys).flatMap g ≠ [] := by
        rw [List.flatMap_cons]
        exact List.append_ne_nil_of_left_ne_nil (hne.2 y List.mem_cons_self) _
      rw [String.intercalate_cons_of_ne_nil hmap, hrest, hjoin.1,
        String.intercalate_append_of_ne_nil hne.1 hmore]

theorem GuardError.message_argument {ε : Type} [ToString ε] (i : Nat) (v : Json) (m : Mismatch) :
    (GuardError.argument i v m : GuardError ε).message =
      "Argument at position index: " ++ Nat.repr i ++ ", value: " ++ v.render ++
        " does not match the expected type or structure." := rfl

namespace Json

/-! ### Leaves -/

mutual

/-- What is shown of an element of an array: the leaves of its own elements if it is an array, and
otherwise one text. Null and an empty array are empty, an object is the text of any object, and
another scalar is shown as it is on its own. -/
def leaves : Json → List String
  | null => [""]
  | array [] => [""]
  | array (x :: xs) => x.leaves ++ leavesOfElements xs
  | object _ => [objectRendering]
  | boolean b => [(boolean b).render]
  | number n => [(number n).render]
  | string s => [(string s).render]

/-- The leaves of elements, from left to right. -/
def leavesOfElements : List Json → List String
  | [] => []
  | x :: xs => x.leaves ++ leavesOfElements xs

end

theorem leavesOfElements_eq (xs : List Json) : leavesOfElements xs = xs.flatMap leaves := by
  induction xs with
  | nil => rfl
  | cons x xs ih => rw [leavesOfElements, ih, List.flatMap_cons]

theorem leaves_array_cons (x : Json) (xs : List Json) :
    (array (x :: xs)).leaves = (x :: xs).flatMap leaves := by
  rw [leaves, leavesOfElements_eq, List.flatMap_cons]

/-- **Every element has a leaf.** -/
theorem leaves_ne_nil (v : Json) : v.leaves ≠ [] := by
  induction v using Json.induction with
  | onArray xs ih =>
    cases xs with
    | nil => exact List.cons_ne_nil _ _
    | cons x xs =>
      rw [leaves]
      exact List.append_ne_nil_of_left_ne_nil (ih x List.mem_cons_self) _
  | _ => exact List.cons_ne_nil _ _

/-- The text of an element between its commas: null is empty. -/
def elementText : Json → String
  | null => ""
  | v => v.render

theorem renderElements_eq (xs : List Json) : renderElements xs = xs.map elementText := by
  induction xs with
  | nil => rfl
  | cons x xs ih =>
    rw [List.map_cons, ← ih]
    cases x <;> rfl

/-- **The text of an element is that of its leaves.** -/
theorem elementText_eq (v : Json) : v.elementText = ",".intercalate v.leaves := by
  induction v using Json.induction with
  | onArray xs ih =>
    cases xs with
    | nil => rfl
    | cons x xs =>
      rw [elementText, render, renderElements_eq, leaves_array_cons]
      · exact intercalate_map_eq_flatMap (fun x _ => x.leaves_ne_nil) ih
      · rintro ⟨⟩
  | _ => exact String.intercalate_singleton.symm

/-- **The text of an array is that of its leaves, joined by commas.** -/
theorem render_array (xs : List Json) :
    (array xs).render = ",".intercalate (xs.flatMap leaves) := by
  rw [render, renderElements_eq]
  exact intercalate_map_eq_flatMap (fun x _ => x.leaves_ne_nil) fun x _ => x.elementText_eq

/-! ### Arrays without nesting -/

mutual

/-- The elements that an element stands for once its brackets are gone: those of an array in its
place, null for an empty array, and any other value for itself. -/
def flattened : Json → List Json
  | array [] => [null]
  | array (x :: xs) => x.flattened ++ flattenedElements xs
  | v => [v]

/-- The elements of an array once all inner brackets are gone. -/
def flattenedElements : List Json → List Json
  | [] => []
  | x :: xs => x.flattened ++ flattenedElements xs

end

theorem flattenedElements_eq (xs : List Json) : flattenedElements xs = xs.flatMap flattened := by
  induction xs with
  | nil => rfl
  | cons x xs ih => rw [flattenedElements, ih, List.flatMap_cons]

theorem flattened_array_cons (x : Json) (xs : List Json) :
    (array (x :: xs)).flattened = (x :: xs).flatMap flattened := by
  rw [flattened, flattenedElements_eq, List.flatMap_cons]

theorem flatMap_leaves_flattened (v : Json) : v.flattened.flatMap leaves = v.leaves := by
  induction v using Json.induction with
  | onArray xs ih =>
    cases xs with
    | nil => rfl
    | cons x xs =>
      rw [flattened_array_cons, leaves_array_cons, List.flatMap_assoc]
      exact List.flatMap_congr ih
  | _ => exact List.flatMap_singleton _ _

theorem kind_of_mem_flattened (v : Json) : ∀ y ∈ v.flattened, y.kind ≠ .array := by
  induction v using Json.induction with
  | onArray xs ih =>
    cases xs with
    | nil =>
      intro y hy
      rw [List.mem_singleton.mp hy]
      rintro ⟨⟩
    | cons x xs =>
      intro y hy
      rw [flattened_array_cons, List.mem_flatMap] at hy
      obtain ⟨z, hz, hy⟩ := hy
      exact ih z hz y hy
  | _ =>
    intro y hy
    rw [List.mem_singleton.mp hy]
    rintro ⟨⟩

/-! ### Objects without contents -/

mutual

/-- The value with every object emptied. -/
def bare : Json → Json
  | object _ => object .nil
  | array xs => array (bareElements xs)
  | v => v

/-- The elements with every object emptied. -/
def bareElements : List Json → List Json
  | [] => []
  | x :: xs => x.bare :: bareElements xs

end

theorem bareElements_eq (xs : List Json) : bareElements xs = xs.map bare := by
  induction xs with
  | nil => rfl
  | cons x xs ih => rw [bareElements, ih, List.map_cons]

theorem leaves_bare (v : Json) : v.bare.leaves = v.leaves := by
  induction v using Json.induction with
  | onArray xs ih =>
    cases xs with
    | nil => rfl
    | cons x xs =>
      rw [bare, bareElements_eq, List.map_cons, leaves_array_cons, leaves_array_cons,
        ← List.map_cons, List.flatMap_map]
      exact List.flatMap_congr ih
  | _ => rfl

/-- **What is in the objects of a value does not show.** -/
theorem render_bare (v : Json) : v.bare.render = v.render := by
  cases v with
  | array xs =>
    rw [bare, render_array, render_array, bareElements_eq, List.flatMap_map]
    exact congrArg _ (List.flatMap_congr fun x _ => x.leaves_bare)
  | _ => rfl

/-- **Arrays are shown flat and objects unopened.**  The text of an array is that of its leaves,
joined by commas, so it is the text of the array with no array inside it.  Values that are the same
but for the contents of objects are shown alike, and so are the failures of an argument that name
them. -/
theorem arrays_are_shown_flat :
    (∀ xs : List Json, (array xs).render = ",".intercalate (leavesOfElements xs)) ∧
    (∀ xs : List Json, (array xs).render = (array (flattenedElements xs)).render ∧
      ∀ y ∈ flattenedElements xs, y.kind ≠ .array) ∧
    (∀ v w : Json, v.bare = w.bare → v.render = w.render) ∧
    ∀ {ε : Type} [ToString ε] (i : Nat) (v w : Json) (m m' : Mismatch), v.bare = w.bare →
      (GuardError.argument i v m : GuardError ε).message =
        (GuardError.argument i w m' : GuardError ε).message := by
  have hsame : ∀ v w : Json, v.bare = w.bare → v.render = w.render := by
    intro v w h
    rw [← render_bare v, h, render_bare w]
  refine ⟨?_, ?_, hsame, ?_⟩
  · intro xs
    rw [leavesOfElements_eq, render_array]
  · intro xs
    rw [flattenedElements_eq]
    constructor
    · rw [render_array, render_array, List.flatMap_assoc]
      exact congrArg _ (List.flatMap_congr fun x _ => (flatMap_leaves_flattened x).symm)
    · intro y hy
      obtain ⟨x, -, hy⟩ := List.mem_flatMap.mp hy
      exact kind_of_mem_flattened x y hy
  · intro ε _ i v w m m' h
    rw [GuardError.message_argument, GuardError.message_argument, hsame v w h]

end Json

end ShapeContract
