/-!
# Fields in key order

A finite map from names to values whose entries are kept in ascending order of their names, each
name once. The order is part of the type: `Fields α b` lists entries whose names lie above the
bound `b`, and an entry's own name is the bound of the entries after it. So there is no unsorted
or repeating table to rule out, two tables with the same entries are equal, and recursion on a
table is recursion on its list of entries.

Names are compared by code point, which is the order of their UTF-8 bytes.
-/

namespace ShapeContract

/-- A name lies above a bound; every name lies above the missing bound. -/
def Below : Option String → String → Prop
  | none, _ => True
  | some l, k => l < k

/-- To lie above a given name is to come after it. -/
theorem Below.of_lt {l k : String} (h : l < k) : Below (some l) k := h

instance : (b : Option String) → (k : String) → Decidable (Below b k)
  | none, _ => isTrue trivial
  | some l, k => inferInstanceAs (Decidable (l < k))

/-- Entries in ascending order of their names, all above the bound. -/
inductive Fields (α : Type) : Option String → Type
  | nil {b : Option String} : Fields α b
  | cons {b : Option String} (key : String) (above : Below b key) (value : α)
      (rest : Fields α (some key)) : Fields α b

/-- A table with no bound on its names. -/
abbrev Dict (α : Type) := Fields α none

namespace Fields

variable {α β : Type} {b : Option String}

/-- A name that is neither equal to another nor before it comes after it. -/
theorem lt_of_not_lt_of_ne {k l : String} (hlt : ¬ k < l) (hne : k ≠ l) : l < k := by
  rcases String.le_total l k with h | h
  · exact String.not_le.1 fun hk => hne (String.le_antisymm hk h)
  · exact absurd (String.le_antisymm h (String.not_lt.1 hlt)) hne

/-- The entries as a list of pairs, in order. -/
def toList : {b : Option String} → Fields α b → List (String × α)
  | _, nil => []
  | _, cons k _ v rest => (k, v) :: rest.toList

/-- The names, in order. -/
def keys (fs : Fields α b) : List String := fs.toList.map Prod.fst

/-- The value stored under a name. -/
def get? (key : String) : {b : Option String} → Fields α b → Option α
  | _, nil => none
  | _, cons k _ v rest => if key = k then some v else rest.get? key

/-- A name occurs in the table. -/
def contains (key : String) (fs : Fields α b) : Bool := (fs.get? key).isSome

/-- Store a value under a name, in place of the value that was there. -/
def insert (key : String) (value : α) : {b : Option String} → Fields α b → Below b key → Fields α b
  | _, nil, above => cons key above value nil
  | _, cons k h v rest, above =>
    if lt : key < k then cons key above value (cons k (.of_lt lt) v rest)
    else if eq : key = k then cons k h value rest
    else cons k h v (rest.insert key value (.of_lt (lt_of_not_lt_of_ne lt eq)))

/-- Apply a function to every value. -/
def map (f : α → β) : {b : Option String} → Fields α b → Fields β b
  | _, nil => nil
  | _, cons k h v rest => cons k h (f v) (rest.map f)

end Fields

namespace Dict

variable {α : Type}

/-- Store a value under a name, in place of the value that was there. -/
def put (key : String) (value : α) (d : Dict α) : Dict α := d.insert key value trivial

/-- The table that results from storing the pairs one after the other, so that the last value
given for a name stays. -/
def ofList (pairs : List (String × α)) : Dict α :=
  pairs.foldl (fun d p => put p.1 p.2 d) .nil

end Dict

namespace Fields

variable {α : Type} {b : Option String}

/-- A stored value is found again. -/
theorem get?_insert_self (key : String) (value : α) :
    {b : Option String} → (fs : Fields α b) → (above : Below b key) →
      (fs.insert key value above).get? key = some value
  | _, nil, _ => by simp [insert, get?]
  | _, cons k h v rest, _ => by
    unfold insert
    split
    · simp [get?]
    · split
      · simp_all [get?]
      · rename_i hne
        simp [get?, hne, get?_insert_self key value rest]

/-- Storing under one name leaves every other name alone. -/
theorem get?_insert_of_ne {key other : String} (hne : other ≠ key) (value : α) :
    {b : Option String} → (fs : Fields α b) → (above : Below b key) →
      (fs.insert key value above).get? other = fs.get? other
  | _, nil, _ => by simp [insert, get?, hne]
  | _, cons k h v rest, _ => by
    unfold insert
    split
    · simp [get?, hne]
    · split
      · rename_i heq
        subst heq
        simp [get?, hne]
      · simp [get?, get?_insert_of_ne hne value rest]

/-- Two tables with the same list of entries are the same table. -/
theorem eq_of_toList_eq : {b : Option String} → {fs gs : Fields α b} →
    fs.toList = gs.toList → fs = gs
  | _, nil, nil, _ => rfl
  | _, nil, cons .., h => by simp [toList] at h
  | _, cons .., nil, h => by simp [toList] at h
  | _, cons k _ v rest, cons k' _ v' rest', h => by
    simp only [toList, List.cons.injEq, Prod.mk.injEq] at h
    obtain ⟨⟨rfl, rfl⟩, h⟩ := h
    rw [eq_of_toList_eq h]

end Fields

end ShapeContract
