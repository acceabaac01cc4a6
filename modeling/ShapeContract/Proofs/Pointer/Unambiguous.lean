import Mathlib.Data.List.Basic
import ShapeContract.Proofs.Pointer.Tokens

/-!
# Pointers are unambiguous

What a pointer looks like and what it gives away.

* `toList_extend`: a step adds a slash and a token without a slash of its own, and leaves the rest.
* `tildesEscaped_along`: every tilde of a pointer is followed by a zero or a one.
* `shown_along_eq_root_iff`: only the root is shown as `(root)`, since every other pointer begins
  with a slash.

Together with `tokens?_along`, which reads the tokens back, this makes pointers an unambiguous way
of writing lists of tokens (`pointers_are_unambiguous`).
-/

namespace ShapeContract.Pointer

/-! ### Tildes -/

/-- Every tilde is followed by a zero or a one. -/
def TildesEscaped (cs : List Char) : Prop :=
  ∀ i : Nat, cs[i]? = some '~' → cs[i + 1]? = some '0' ∨ cs[i + 1]? = some '1'

theorem TildesEscaped.of_not_mem {cs : List Char} (h : '~' ∉ cs) : TildesEscaped cs :=
  fun _ hi => absurd (List.mem_of_getElem? hi) h

theorem TildesEscaped.append {as bs : List Char} (ha : TildesEscaped as) (hb : TildesEscaped bs) :
    TildesEscaped (as ++ bs) := by
  intro i h
  by_cases hi : i < as.length
  · rw [List.getElem?_append_left hi] at h
    have hnext := ha i h
    have hlt : i + 1 < as.length := by
      rcases hnext with h | h
      · exact (List.getElem?_eq_some_iff.mp h).1
      · exact (List.getElem?_eq_some_iff.mp h).1
    rwa [List.getElem?_append_left hlt]
  · rw [List.getElem?_append_right (by omega)] at h
    rw [List.getElem?_append_right (by omega), show i + 1 - as.length = i - as.length + 1 by omega]
    exact hb _ h

theorem TildesEscaped.flatMap {α : Type} {f : α → List Char} {xs : List α}
    (h : ∀ x ∈ xs, TildesEscaped (f x)) : TildesEscaped (xs.flatMap f) := by
  induction xs with
  | nil => exact .of_not_mem List.not_mem_nil
  | cons x xs ih =>
    rw [List.forall_mem_cons] at h
    rw [List.flatMap_cons]
    exact h.1.append (ih h.2)

theorem tildesEscaped_escapeChar (c : Char) : TildesEscaped (escapeChar c) := by
  intro i hi
  unfold escapeChar at hi ⊢
  split at hi
  · match i with
    | 0 => exact Or.inl rfl
    | 1 => cases hi
  · match i with
    | 0 => exact Or.inr rfl
    | 1 => cases hi
  · rename_i htilde _
    exact absurd (List.mem_singleton.mp (List.mem_of_getElem? hi)).symm htilde

theorem tildesEscaped_written (t : Token) : TildesEscaped t.written := by
  cases t with
  | name k =>
    rw [Token.written, escape, String.toList_ofList]
    exact .flatMap fun c _ => tildesEscaped_escapeChar c
  | position i => exact .of_not_mem fun h => absurd (isDigit_of_mem_repr h) (by decide)

theorem tildesEscaped_along (tokens : List Token) : TildesEscaped (along "" tokens).toList := by
  rw [toList_along]
  refine .append (.of_not_mem List.not_mem_nil) (.flatMap fun t _ => ?_)
  have hslash : TildesEscaped ['/'] := .of_not_mem (by decide)
  exact hslash.append (tildesEscaped_written t)

/-! ### Steps -/

/-- **A step adds one token and leaves the base as it is.** -/
theorem toList_extend (base : String) (t : Token) :
    (extend base t).toList = base.toList ++ '/' :: t.written := by
  have h := toList_along [t] base
  rwa [List.flatMap_singleton] at h

theorem splitOn_extend (base : String) (t : Token) :
    (extend base t).toList.splitOn '/' = base.toList.splitOn '/' ++ [t.written] := by
  rw [toList_extend, List.splitOn_append_cons_self,
    List.splitOn_eq_singleton (slash_not_mem_written t)]

/-- A pointer other than that of the root begins with a slash. -/
theorem head?_along {tokens : List Token} (h : tokens ≠ []) :
    (along "" tokens).toList.head? = some '/' := by
  cases tokens with
  | nil => exact absurd rfl h
  | cons t tokens =>
    rw [toList_along]
    rfl

theorem along_eq_empty_iff {tokens : List Token} : along "" tokens = "" ↔ tokens = [] := by
  cases tokens with
  | nil => exact ⟨fun _ => rfl, fun _ => rfl⟩
  | cons t tokens =>
    have hhead := head?_along (List.cons_ne_nil t tokens)
    constructor
    · intro h
      rw [h] at hhead
      cases hhead
    · rintro ⟨⟩

/-- **Only the root is shown as the root.** -/
theorem shown_along_eq_root_iff {tokens : List Token} :
    shown (along "" tokens) = "(root)" ↔ tokens = [] := by
  cases tokens with
  | nil => exact ⟨fun _ => rfl, fun _ => rfl⟩
  | cons t tokens =>
    have hne : along "" (t :: tokens) ≠ "" := fun h => by cases along_eq_empty_iff.mp h
    have hhead := head?_along (List.cons_ne_nil t tokens)
    rw [shown, if_neg hne]
    constructor
    · intro h
      rw [h] at hhead
      exact absurd hhead (by decide)
    · rintro ⟨⟩

/-! ### Equal pointers -/

/-- Two pointers that are shown alike are equal. -/
theorem along_eq_of_shown_eq {ts us : List Token}
    (h : shown (along "" ts) = shown (along "" us)) : along "" ts = along "" us := by
  by_cases hts : ts = []
  · have hus : us = [] := shown_along_eq_root_iff.mp (h ▸ shown_along_eq_root_iff.mpr hts)
    rw [hts, hus]
  · have hus : us ≠ [] := fun hus =>
      hts (shown_along_eq_root_iff.mp (h.trans (shown_along_eq_root_iff.mpr hus)))
    rwa [shown, shown, if_neg (mt along_eq_empty_iff.mp hts),
      if_neg (mt along_eq_empty_iff.mp hus)] at h

/-- A token is written as its text is: nothing in a position has to be escaped. -/
theorem written_eq_escape_text (t : Token) : t.written = (escape t.text).toList := by
  cases t with
  | name k => rfl
  | position i =>
    have hplain : ∀ c ∈ (Nat.repr i).toList, escapeChar c = [c] := by
      intro c hc
      have hdigit := isDigit_of_mem_repr hc
      unfold escapeChar
      split
      · exact absurd hdigit (by decide)
      · exact absurd hdigit (by decide)
      · rfl
    rw [Token.written, Token.text, escape, String.toList_ofList, List.flatMap_congr hplain,
      List.flatMap_singleton']

/-- **Two ways have one pointer exactly when their tokens have the same texts.** -/
theorem along_eq_along_iff {ts us : List Token} :
    along "" ts = along "" us ↔ ts.map Token.text = us.map Token.text := by
  constructor
  · intro h
    have ht := tokens?_along ts
    rw [h, tokens?_along us] at ht
    exact (Option.some.inj ht).symm
  · intro h
    have hwritten : ∀ ts : List Token, ts.map Token.written =
        (ts.map Token.text).map fun text => (escape text).toList := by
      intro ts
      rw [List.map_map]
      exact List.map_congr_left fun t _ => written_eq_escape_text t
    have hsame : ts.map Token.written = us.map Token.written := by rw [hwritten, hwritten, h]
    apply String.toList_inj.mp
    calc (along "" ts).toList = (ts.map Token.written).flatMap (List.cons '/') := by
          rw [toList_along, List.flatMap_map]; rfl
      _ = (us.map Token.written).flatMap (List.cons '/') := by rw [hsame]
      _ = (along "" us).toList := by rw [toList_along, List.flatMap_map]; rfl

/-- **Pointers are an unambiguous way of writing lists of tokens.**  The pointer of a list is empty
if the list is, and begins with a slash otherwise; every tilde in it is followed by a zero or a one;
cut at its slashes and unescaped it gives the tokens back; and it is shown as the root only if the
list is empty.  So two lists have one pointer exactly when they are equal, positions being written in
decimal.  A step from any base adds a slash and what is read as the token, and no other slash. -/
theorem pointers_are_unambiguous :
    (∀ tokens : List Token,
      (along "" tokens = "" ↔ tokens = []) ∧
      (tokens ≠ [] → (along "" tokens).toList.head? = some '/') ∧
      TildesEscaped (along "" tokens).toList ∧
      tokens? (along "" tokens) = some (tokens.map Token.text) ∧
      (shown (along "" tokens) = "(root)" ↔ tokens = [])) ∧
    (∀ ts us : List Token,
      along "" ts = along "" us ↔ ts.map Token.text = us.map Token.text) ∧
    ∀ (base : String) (t : Token), ∃ part : List Char,
      (extend base t).toList = base.toList ++ '/' :: part ∧
      (extend base t).toList.splitOn '/' = base.toList.splitOn '/' ++ [part] ∧
      unescape part = t.text := by
  refine ⟨fun tokens => ?_, fun ts us => along_eq_along_iff, fun base t => ?_⟩
  · exact ⟨along_eq_empty_iff, head?_along, tildesEscaped_along tokens, tokens?_along tokens,
      shown_along_eq_root_iff⟩
  · exact ⟨t.written, toList_extend base t, splitOn_extend base t, unescape_written t⟩

end ShapeContract.Pointer
