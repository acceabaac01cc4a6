import ShapeContract.Json.Reader
import ShapeContract.Proofs.Json.Height

/-!
# The limit on nested brackets

No value that is read has more arrays and objects in one another than the reader was allowed
(`nesting_le_of_read`).  An object keeps only the last member of a name, which can lower its height
but never raise it.
-/

namespace ShapeContract.Json

variable {α β : Type}

/-- Whatever is read has a property. -/
def Yields (P : α → Prop) (r : Except Fault (Taken α)) : Prop :=
  ∀ a rest, r = .ok (a, rest) → P a

theorem yields_error {P : α → Prop} {f : Fault} : Yields P (.error f) := by
  intro a rest h
  cases h

theorem yields_ok {P : α → Prop} {a : α} {rest : List Char} (h : P a) :
    Yields P (.ok (a, rest)) := by
  intro a' rest' he
  cases he
  exact h

theorem Yields.bind {P : α → Prop} {Q : β → Prop} {r : Except Fault (Taken α)}
    {k : Taken α → Except Fault (Taken β)} (hr : Yields P r)
    (hk : ∀ a rest, P a → Yields Q (k (a, rest))) : Yields Q (r >>= k) := by
  cases r with
  | error f => exact yields_error
  | ok t => exact hk t.1 t.2 (hr t.1 t.2 rfl)

theorem Yields.map {P : α → Prop} {Q : β → Prop} {r : Except Fault (Taken α)} (hr : Yields P r)
    {g : α → β} (hg : ∀ a, P a → Q (g a)) :
    Yields Q (r.map fun (a, rest) => (g a, rest)) := by
  cases r with
  | error f => exact yields_error
  | ok t => exact yields_ok (hg t.1 (hr t.1 t.2 rfl))

theorem yields_true (r : Except Fault (Taken α)) : Yields (fun _ => True) r :=
  fun _ _ _ => trivial

theorem yields_readLetters {P : Json → Prop} {v : Json} (h : P v) :
    ∀ letters cs, Yields P (readLetters v letters cs) := by
  intro letters
  induction letters with
  | nil => exact fun cs => yields_ok h
  | cons l ls ih =>
    intro cs
    cases cs with
    | nil => exact yields_error
    | cons c cs =>
      rw [readLetters]
      split
      · exact ih cs
      · exact yields_error

theorem yields_readNumber {P : Json → Prop} (h : ∀ n, P (number n)) (negative : Bool)
    (cs : List Char) : Yields P (readNumber negative cs) := by
  rw [readNumber]
  refine (yields_true _).bind fun whole cs _ => ?_
  refine (yields_true _).bind fun fraction cs _ => ?_
  refine (yields_true _).bind fun exponent cs _ => ?_
  dsimp only
  split
  · exact yields_ok (h _)
  · exact yields_error

/-- What the reader's functions yield with a number of nested calls. -/
structure WithinLimit (fuel : Nat) : Prop where
  value : ∀ limit cs, Yields (fun v => v.nesting ≤ limit) (readValue fuel limit cs)
  elements : ∀ limit first cs,
    Yields (fun xs => ∀ x ∈ xs, x.nesting ≤ limit) (readElements fuel limit first cs)
  element : ∀ limit cs,
    Yields (fun xs => ∀ x ∈ xs, x.nesting ≤ limit) (readElement fuel limit cs)
  members : ∀ limit first cs,
    Yields (fun ms => ∀ m ∈ ms, m.2.nesting ≤ limit) (readMembers fuel limit first cs)
  member : ∀ limit cs,
    Yields (fun ms => ∀ m ∈ ms, m.2.nesting ≤ limit) (readMember fuel limit cs)

variable {fuel : Nat}

theorem nesting_array_le {xs : List Json} {n : Nat} (h : ∀ x ∈ xs, x.nesting ≤ n) :
    (array xs).nesting ≤ n + 1 := height_array_le.mpr h

theorem nesting_ofList_le {ms : List (String × Json)} {n : Nat} (h : ∀ m ∈ ms, m.2.nesting ≤ n) :
    (object (Dict.ofList ms)).nesting ≤ n + 1 := by
  refine height_object_le.mpr ?_
  intro m hm
  exact h m (Dict.mem_of_get?_ofList (Fields.mem_toList_iff.mp hm))

theorem WithinLimit.value_succ (h : WithinLimit fuel) (limit : Nat) (cs : List Char) :
    Yields (fun v => v.nesting ≤ limit) (readValue (fuel + 1) limit cs) := by
  have hscalar : ∀ n, (number n).nesting ≤ limit := fun n => Nat.zero_le limit
  rw [readValue]
  -- a case for each character that begins a value, in the order of the reader
  split
  · exact yields_error
  rename_i c rest _
  by_cases hn : c = 'n'
  · rw [if_pos hn]
    exact yields_readLetters (Nat.zero_le limit) _ _
  by_cases ht : c = 't'
  · rw [if_neg hn, if_pos ht]
    exact yields_readLetters (Nat.zero_le limit) _ _
  by_cases hf : c = 'f'
  · rw [if_neg hn, if_neg ht, if_pos hf]
    exact yields_readLetters (Nat.zero_le limit) _ _
  rw [if_neg hn, if_neg ht, if_neg hf]
  split
  · exact yields_readNumber hscalar true rest
  split
  · exact yields_readNumber hscalar false (c :: rest)
  split
  · exact (yields_true _).map fun s _ => Nat.zero_le limit
  split
  · cases limit with
    | zero => exact yields_error
    | succ limit => exact (h.elements limit true rest).map fun xs hxs => nesting_array_le hxs
  split
  · cases limit with
    | zero => exact yields_error
    | succ limit =>
      exact (h.members limit true rest).map (g := fun ms => object (Dict.ofList ms))
        fun ms hms => nesting_ofList_le hms
  · exact yields_error

theorem WithinLimit.elements_succ (h : WithinLimit fuel) (limit : Nat) (first : Bool)
    (cs : List Char) :
    Yields (fun xs => ∀ x ∈ xs, x.nesting ≤ limit) (readElements (fuel + 1) limit first cs) := by
  rw [readElements]
  split
  · exact yields_error
  · exact yields_ok fun x hx => absurd hx List.not_mem_nil
  split
  · exact h.element limit _
  split
  · split
    · exact yields_error
    · exact h.element limit _
  · exact yields_error

theorem WithinLimit.element_succ (h : WithinLimit fuel) (limit : Nat) (cs : List Char) :
    Yields (fun xs => ∀ x ∈ xs, x.nesting ≤ limit) (readElement (fuel + 1) limit cs) := by
  rw [readElement]
  refine (h.value limit cs).bind fun x cs hx => ?_
  refine (h.elements limit false cs).bind fun xs cs hxs => ?_
  exact yields_ok (List.forall_mem_cons.mpr ⟨hx, hxs⟩)

theorem WithinLimit.members_succ (h : WithinLimit fuel) (limit : Nat) (first : Bool)
    (cs : List Char) :
    Yields (fun ms => ∀ m ∈ ms, m.2.nesting ≤ limit) (readMembers (fuel + 1) limit first cs) := by
  rw [readMembers]
  split
  · exact yields_error
  · exact yields_ok fun m hm => absurd hm List.not_mem_nil
  split
  · exact h.member limit _
  split
  · split
    · exact yields_error
    · exact yields_error
    · exact h.member limit _
  · exact yields_error

theorem WithinLimit.member_succ (h : WithinLimit fuel) (limit : Nat) (cs : List Char) :
    Yields (fun ms => ∀ m ∈ ms, m.2.nesting ≤ limit) (readMember (fuel + 1) limit cs) := by
  unfold readMember
  split
  · refine (yields_true _).bind fun k cs _ => ?_
    dsimp only
    split
    · exact yields_error
    · refine (h.value limit _).bind fun v cs hv => ?_
      refine (h.members limit false cs).bind fun ms cs hms => ?_
      exact yields_ok (List.forall_mem_cons.mpr ⟨hv, hms⟩)
    · exact yields_error
  · exact yields_error

theorem withinLimit (fuel : Nat) : WithinLimit fuel := by
  induction fuel with
  | zero =>
    refine ⟨fun limit cs => ?_, fun limit first cs => ?_, fun limit cs => ?_,
      fun limit first cs => ?_, fun limit cs => ?_⟩
    · rw [readValue]
      exact yields_error
    · rw [readElements]
      exact yields_error
    · rw [readElement]
      exact yields_error
    · rw [readMembers]
      exact yields_error
    · unfold readMember
      exact yields_error
  | succ fuel ih =>
    exact ⟨ih.value_succ, ih.elements_succ, ih.element_succ, ih.members_succ, ih.member_succ⟩

theorem readFront_of_readAll {cs : List Char} {v : Json} (h : readAll cs = .ok v) :
    ∃ rest, readFront cs = .ok (v, rest) := by
  rw [readAll] at h
  cases hfront : readFront cs with
  | error f =>
    rw [hfront] at h
    cases h
  | ok t =>
    obtain ⟨w, rest⟩ := t
    rw [hfront] at h
    have hend : (readEnd rest >>= fun _ => .ok w) = .ok v := h
    cases he : readEnd rest with
    | error f =>
      rw [he] at hend
      cases hend
    | ok u =>
      rw [he] at hend
      cases hend
      exact ⟨rest, rfl⟩

/-- **A value that is read is nested within the limit.** -/
theorem nesting_le_of_read {text : String} {v : Json} (h : read text = .ok v) :
    v.nesting ≤ nestingLimit := by
  cases hall : readAll text.toList with
  | error f =>
    rw [read, hall] at h
    cases h
  | ok w =>
    rw [read, hall] at h
    cases h
    obtain ⟨rest, hfront⟩ := readFront_of_readAll hall
    exact (withinLimit _).value nestingLimit _ _ rest hfront

end ShapeContract.Json
