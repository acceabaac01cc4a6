import Mathlib.Data.List.Induction
import ShapeContract.Fields

/-!
# The entries of a table

What the list of entries of a table says about look-up, for proofs that go through a table entry
by entry.

* `mem_toList_iff`: an entry is listed exactly when its value is found under its name.
* `pairwise_toList`: the names ascend strictly along the list, so no name is listed twice.
* `ext_get?`: a table is determined by what is found in it.
* `Dict.mem_of_get?_ofList`, `Dict.get?_ofList_of_mem`: what is found in a table put together from
  pairs.
-/

namespace ShapeContract.Fields

variable {α : Type} {b : Option String}

/-- Every listed name lies above the bound of the table. -/
theorem below_of_mem {fs : Fields α b} {k : String} {v : α} (h : (k, v) ∈ fs.toList) :
    Below b k := by
  induction fs with
  | nil => simp [toList] at h
  | @cons b l above w rest ih =>
    rw [toList, List.mem_cons, Prod.mk.injEq] at h
    rcases h with ⟨rfl, rfl⟩ | h
    · exact above
    · have hlk : l < k := ih h
      cases b with
      | none => trivial
      | some a => exact String.lt_trans above hlk

theorem mem_toList_iff {fs : Fields α b} {k : String} {v : α} :
    (k, v) ∈ fs.toList ↔ fs.get? k = some v := by
  induction fs with
  | nil => simp [toList, get?]
  | @cons b l above w rest ih =>
    rw [toList, get?, List.mem_cons, Prod.mk.injEq]
    by_cases hk : k = l
    · subst hk
      have hrest : (k, v) ∉ rest.toList := fun h => String.lt_irrefl k (below_of_mem h)
      rw [if_pos rfl, Option.some.injEq]
      constructor
      · rintro (⟨-, rfl⟩ | h)
        · rfl
        · exact absurd h hrest
      · rintro rfl
        exact Or.inl ⟨rfl, rfl⟩
    · rw [if_neg hk, ← ih]
      exact ⟨fun h => h.resolve_left fun hl => hk hl.1, Or.inr⟩

theorem pairwise_toList (fs : Fields α b) : fs.toList.Pairwise fun p q => p.1 < q.1 := by
  induction fs with
  | nil => exact List.Pairwise.nil
  | cons k above v rest ih =>
    rw [toList, List.pairwise_cons]
    exact ⟨fun q hq => below_of_mem (show (q.1, q.2) ∈ rest.toList from hq), ih⟩

/-- Nothing is found under a name that all the listed names come after. -/
theorem get?_self_eq_none {k : String} (fs : Fields α (some k)) : fs.get? k = none := by
  cases h : fs.get? k with
  | none => rfl
  | some v => exact absurd (below_of_mem (mem_toList_iff.mpr h)) (String.lt_irrefl k)

/-- **Two tables in which the same is found under every name are the same table.** -/
theorem ext_get? {fs gs : Fields α b} (h : ∀ k, fs.get? k = gs.get? k) : fs = gs := by
  induction fs with
  | nil =>
    cases gs with
    | nil => rfl
    | cons l above w rest =>
      have hl := h l
      rw [get?, get?, if_pos rfl] at hl
      cases hl
  | cons k above v rest ih =>
    cases gs with
    | nil =>
      have hk := h k
      rw [get?, get?, if_pos rfl] at hk
      cases hk
    | cons l above' w rest' =>
      have hk := h k
      have hl := h l
      rw [get?, get?, if_pos rfl] at hk hl
      have hkl : k = l := by
        by_contra hne
        rw [if_neg hne] at hk
        rw [if_neg (Ne.symm hne)] at hl
        have hlk : l < k := below_of_mem (mem_toList_iff.mpr hk.symm)
        have hkl : k < l := below_of_mem (mem_toList_iff.mpr hl)
        exact String.lt_irrefl k (String.lt_trans hkl hlk)
      subst hkl
      rw [if_pos rfl] at hk
      cases hk
      have hrest : ∀ j, rest.get? j = rest'.get? j := by
        intro j
        by_cases hj : j = k
        · rw [hj, get?_self_eq_none, get?_self_eq_none]
        · have := h j
          rwa [get?, get?, if_neg hj, if_neg hj] at this
      rw [ih hrest]

end ShapeContract.Fields

namespace ShapeContract.Dict

variable {α : Type}

open Fields

@[simp] theorem get?_put_self (key : String) (value : α) (d : Dict α) :
    (put key value d).get? key = some value := get?_insert_self key value d trivial

theorem get?_put_of_ne {key other : String} (hne : other ≠ key) (value : α) (d : Dict α) :
    (put key value d).get? other = d.get? other := get?_insert_of_ne hne value d trivial

theorem ofList_concat (pairs : List (String × α)) (p : String × α) :
    ofList (pairs ++ [p]) = put p.1 p.2 (ofList pairs) := by
  rw [ofList, List.foldl_append]
  rfl

/-- What is found in a table is one of the pairs it was put together from. -/
theorem mem_of_get?_ofList {pairs : List (String × α)} {k : String} {v : α}
    (h : (ofList pairs).get? k = some v) : (k, v) ∈ pairs := by
  induction pairs using List.reverseRecOn with
  | nil => cases h
  | append_singleton pairs p ih =>
    rw [ofList_concat] at h
    rw [List.mem_append, List.mem_singleton]
    by_cases hk : k = p.1
    · subst hk
      rw [get?_put_self, Option.some.injEq] at h
      exact Or.inr (by rw [← h])
    · rw [get?_put_of_ne hk] at h
      exact Or.inl (ih h)

/-- Every pair is found, if no name is given twice. -/
theorem get?_ofList_of_mem {pairs : List (String × α)}
    (hne : pairs.Pairwise fun p q => p.1 ≠ q.1) {k : String} {v : α} (h : (k, v) ∈ pairs) :
    (ofList pairs).get? k = some v := by
  induction pairs using List.reverseRecOn with
  | nil => cases h
  | append_singleton pairs p ih =>
    rw [List.pairwise_append] at hne
    rw [ofList_concat]
    rcases List.mem_append.mp h with hmem | hlast
    · rw [get?_put_of_ne (hne.2.2 _ hmem p List.mem_cons_self)]
      exact ih hne.1 hmem
    · rw [← List.mem_singleton.mp hlast]
      exact get?_put_self k v _

/-- A table is put together again from its entries. -/
theorem ofList_toList (d : Dict α) : ofList d.toList = d := by
  have hne : d.toList.Pairwise fun p q => p.1 ≠ q.1 := by
    refine (pairwise_toList d).imp ?_
    intro p q hlt heq
    rw [heq] at hlt
    exact String.lt_irrefl _ hlt
  refine ext_get? fun k => Option.ext fun v => ?_
  exact ⟨fun h => mem_toList_iff.mp (mem_of_get?_ofList h),
    fun h => get?_ofList_of_mem hne (mem_toList_iff.mpr h)⟩

end ShapeContract.Dict
