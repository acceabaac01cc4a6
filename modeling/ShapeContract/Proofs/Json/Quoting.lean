import ShapeContract.Json.Writer
import ShapeContract.Proofs.Json.Height
import ShapeContract.Proofs.Rendering.Numerals

/-!
# Quotes in compact texts

`Quoting` is all that a reader has to know who only looks for the strings in a text: whether it
stands outside of them, in one of them, or behind a backslash in one.  A compact text takes such a
reader from outside to outside again (`closed_write_compact`); it has no blank and no backslash
outside of its strings, and no control character at all.

Readers that start in opposite places, one in a string and one outside, stay in opposite places, so
no text takes both of them outside (`Quoting.Opposite.scan`).  This is why a blank in a text tells
where its strings are, and with them where the text begins: behind a separator with a blank in it,
what can be a compact text in one way can be so in no other (`Separates.append_inj`).
-/

namespace ShapeContract

namespace Json

/-! ### Scanning -/

/-- Where a reader of a text stands. -/
inductive Quoting
  | outside
  | inside
  | escaped
  deriving DecidableEq

namespace Quoting

/-- The place behind a character. There is none behind a control character, and none behind a blank
or a backslash that is outside of strings. -/
def step (q : Quoting) (c : Char) : Option Quoting :=
  if c.toNat < 32 then none
  else
    match q with
    | outside => if c = '"' then some inside else if c = ' ' ∨ c = '\\' then none else some outside
    | inside => some (if c = '"' then outside else if c = '\\' then escaped else inside)
    | escaped => some inside

/-- The place behind a text. -/
def scan (q : Quoting) (cs : List Char) : Option Quoting := cs.foldlM step q

theorem scan_cons (q : Quoting) (c : Char) (cs : List Char) :
    q.scan (c :: cs) = (q.step c).bind fun r => r.scan cs := List.foldlM_cons

theorem scan_append (q : Quoting) (as bs : List Char) :
    q.scan (as ++ bs) = (q.scan as).bind fun r => r.scan bs := List.foldlM_append

theorem scan_cons_eq_some_iff {q r : Quoting} {c : Char} {cs : List Char} :
    q.scan (c :: cs) = some r ↔ ∃ p, q.step c = some p ∧ p.scan cs = some r := by
  rw [scan_cons, Option.bind_eq_some_iff]

theorem scan_append_eq_some_iff {q r : Quoting} {as bs : List Char} :
    q.scan (as ++ bs) = some r ↔ ∃ p, q.scan as = some p ∧ p.scan bs = some r := by
  rw [scan_append, Option.bind_eq_some_iff]

/-- A text that can be scanned has no control character. -/
theorem toNat_ge_of_scan {cs : List Char} : ∀ {q r : Quoting}, q.scan cs = some r →
    ∀ c ∈ cs, 32 ≤ c.toNat := by
  induction cs with
  | nil => exact fun _ c hc => absurd hc List.not_mem_nil
  | cons c cs ih =>
    intro q r h
    obtain ⟨p, hp, hr⟩ := scan_cons_eq_some_iff.mp h
    refine List.forall_mem_cons.mpr ⟨?_, ih hr⟩
    by_contra hlt
    unfold step at hp
    rw [if_pos (by omega)] at hp
    cases hp

/-- One of two readers is outside of strings and the other one in a string. -/
def Opposite (q r : Quoting) : Prop :=
  (q = outside ∧ r = inside) ∨ (q = inside ∧ r = outside)

theorem Opposite.symm {q r : Quoting} (h : q.Opposite r) : r.Opposite q := by
  rcases h with ⟨rfl, rfl⟩ | ⟨rfl, rfl⟩
  · exact Or.inr ⟨rfl, rfl⟩
  · exact Or.inl ⟨rfl, rfl⟩

/-- Both go on by a quote or by a character that is the same to both: the one outside does not let a
backslash pass. -/
theorem opposite_step {c : Char} {q r : Quoting} (hq : outside.step c = some q)
    (hr : inside.step c = some r) : q.Opposite r := by
  unfold step at hq hr
  by_cases hcontrol : c.toNat < 32
  · rw [if_pos hcontrol] at hq
    cases hq
  rw [if_neg hcontrol] at hq hr
  by_cases hquote : c = '"'
  · simp only [if_pos hquote, Option.some.injEq] at hq hr
    exact Or.inr ⟨hq.symm, hr.symm⟩
  by_cases hblank : c = ' ' ∨ c = '\\'
  · simp only [if_neg hquote, if_pos hblank] at hq
    cases hq
  · have hbackslash : c ≠ '\\' := fun h => hblank (Or.inr h)
    simp only [if_neg hquote, if_neg hblank, if_neg hbackslash, Option.some.injEq] at hq hr
    exact Or.inl ⟨hq.symm, hr.symm⟩

/-- **Opposite readers stay opposite**, as long as both can go on. -/
theorem Opposite.scan {cs : List Char} : ∀ {q r q' r' : Quoting}, q.Opposite r →
    q.scan cs = some q' → r.scan cs = some r' → q'.Opposite r' := by
  induction cs with
  | nil =>
    intro q r q' r' h hq hr
    cases hq
    cases hr
    exact h
  | cons c cs ih =>
    intro q r q' r' h hq hr
    obtain ⟨p, hp, hq⟩ := scan_cons_eq_some_iff.mp hq
    obtain ⟨p', hp', hr⟩ := scan_cons_eq_some_iff.mp hr
    have hnext : p.Opposite p' := by
      rcases h with ⟨rfl, rfl⟩ | ⟨rfl, rfl⟩
      · exact opposite_step hp hp'
      · exact (opposite_step hp' hp).symm
    exact ih hnext hq hr

end Quoting

/-! ### Compact texts -/

/-- The text leads from outside of strings to outside of strings. -/
def Closed (cs : List Char) : Prop := Quoting.outside.scan cs = some .outside

instance (cs : List Char) : Decidable (Closed cs) :=
  inferInstanceAs (Decidable (_ = _))

theorem closed_append {as bs : List Char} (ha : Closed as) (hb : Closed bs) :
    Closed (as ++ bs) := Quoting.scan_append_eq_some_iff.mpr ⟨_, ha, hb⟩

theorem closed_cons {c : Char} {cs : List Char} (hc : Closed [c]) (hcs : Closed cs) :
    Closed (c :: cs) := closed_append hc hcs

theorem not_closed_of_inside {cs : List Char} (h : Quoting.inside.scan cs = some .outside) :
    ¬ Closed cs := by
  intro hclosed
  have hopposite : Quoting.outside.Opposite .inside := Or.inl ⟨rfl, rfl⟩
  rcases hopposite.scan hclosed h with ⟨-, h⟩ | ⟨h, -⟩
  · cases h
  · cases h

theorem inside_step_hexDigit : ∀ n < 16, Quoting.inside.step (hexDigit n) = some .inside := by
  decide

/-- A written character is a part of its string. -/
theorem inside_scan_escapeChar (c : Char) :
    Quoting.inside.scan (escapeChar c) = some .inside := by
  unfold escapeChar
  split
  iterate 7 rfl
  rename_i hquote hbackslash _ _ _ _ _
  split
  · rename_i hcontrol
    have hhigh := inside_step_hexDigit (c.toNat / 16) (by omega)
    have hlow := inside_step_hexDigit (c.toNat % 16) (by omega)
    have hlead : Quoting.inside.scan ['\\', 'u', '0', '0'] = some .inside := by decide
    have hdigits : Quoting.inside.scan [hexDigit (c.toNat / 16), hexDigit (c.toNat % 16)] =
        some .inside := by
      rw [Quoting.scan_cons, hhigh, Option.bind_some, Quoting.scan_cons, hlow]
      rfl
    exact Quoting.scan_append_eq_some_iff.mpr ⟨_, hlead, hdigits⟩
  · rename_i hcontrol
    rw [Quoting.scan_cons, Quoting.step, if_neg hcontrol]
    simp only [if_neg hquote, if_neg hbackslash]
    rfl

theorem inside_scan_escaped (s : List Char) :
    Quoting.inside.scan (s.flatMap escapeChar) = some .inside := by
  induction s with
  | nil => rfl
  | cons c s ih =>
    rw [List.flatMap_cons]
    exact Quoting.scan_append_eq_some_iff.mpr ⟨_, inside_scan_escapeChar c, ih⟩

theorem closed_quoted (s : String) : Closed (quoted s) := by
  have hopen : Quoting.outside.scan ['"'] = some .inside := by decide
  have hclose : Quoting.inside.scan ['"'] = some .outside := by decide
  refine Quoting.scan_append_eq_some_iff.mpr ⟨_, ?_, hclose⟩
  exact Quoting.scan_append_eq_some_iff.mpr ⟨_, hopen, inside_scan_escaped s.toList⟩

theorem closed_of_forall {cs : List Char} (h : ∀ c ∈ cs, Closed [c]) : Closed cs := by
  induction cs with
  | nil => rfl
  | cons c cs ih =>
    rw [List.forall_mem_cons] at h
    exact closed_cons h.1 (ih h.2)

theorem closed_numeral {text : String} (h : IsNumeral text) : Closed text.toList := by
  refine closed_of_forall fun c hmem => ?_
  have hc := h c hmem
  have hge := hc.toNat_gt
  have hblank : ¬ (c = ' ' ∨ c = '\\') := not_or.mpr ⟨hc.ne (by decide), hc.ne (by decide)⟩
  rw [Closed, Quoting.scan_cons, Quoting.step, if_neg (by omega)]
  simp only [if_neg (hc.ne (show ¬ IsNumeralChar '"' by decide)), if_neg hblank]
  rfl

theorem closed_writeElements {d : Nat} {xs : List Json}
    (h : ∀ x ∈ xs, ∀ d, Closed (x.write .compact d)) : Closed (writeElements .compact d xs) := by
  induction xs with
  | nil => exact (by decide : Closed [']'])
  | cons x xs ih =>
    rw [List.forall_mem_cons] at h
    have hrest := closed_append (h.1 (d + 1)) (ih h.2)
    exact closed_cons (by decide : Closed [',']) hrest

theorem closed_member {k : String} {value rest : List Char} (hvalue : Closed value)
    (hrest : Closed rest) : Closed (quoted k ++ [':'] ++ (value ++ rest)) :=
  closed_append (closed_append (closed_quoted k) (by decide)) (closed_append hvalue hrest)

theorem closed_writeMembers {d : Nat} {b : Option String} {ms : Fields Json b}
    (h : ∀ m ∈ ms.toList, ∀ d, Closed (m.2.write .compact d)) :
    Closed (writeMembers .compact d ms) := by
  induction ms with
  | nil => exact (by decide : Closed ['}'])
  | cons k above v ms ih =>
    rw [Fields.toList, List.forall_mem_cons] at h
    have hrest := closed_member (k := k) (h.1 (d + 1)) (ih h.2)
    exact closed_cons (by decide : Closed [',']) hrest

/-- **Outside of its strings a compact text has neither a blank nor a backslash**, and it ends
outside of them. -/
theorem closed_write_compact (v : Json) : ∀ d, Closed (v.write .compact d) := by
  induction v using Json.induction with
  | onNull => exact fun d => (by decide : Closed "null".toList)
  | onBoolean b =>
    cases b with
    | false => exact fun d => (by decide : Closed "false".toList)
    | true => exact fun d => (by decide : Closed "true".toList)
  | onNumber n => exact fun d => closed_numeral n.isNumeral_text
  | onString s => exact fun d => closed_quoted s
  | onArray xs ih =>
    intro d
    cases xs with
    | nil => exact (by decide : Closed ['[', ']'])
    | cons x xs =>
      rw [List.forall_mem_cons] at ih
      have hrest := closed_append (ih.1 (d + 1)) (closed_writeElements (d := d) ih.2)
      exact closed_cons (by decide : Closed ['[']) hrest
  | onObject ms ih =>
    intro d
    cases ms with
    | nil => exact (by decide : Closed ['{', '}'])
    | cons k above v ms =>
      rw [Fields.toList, List.forall_mem_cons] at ih
      have hrest := closed_member (k := k) (ih.1 (d + 1)) (closed_writeMembers (d := d) ih.2)
      exact closed_cons (by decide : Closed ['{']) hrest

theorem toNat_ge_of_mem_write_compact {v : Json} {d : Nat} {c : Char}
    (h : c ∈ v.write .compact d) : 32 ≤ c.toNat :=
  Quoting.toNat_ge_of_scan (closed_write_compact v d) c h

/-! ### Separators -/

/-- A text that no reader passes without standing in a string behind it, and whose first character
does not come again. -/
structure Separates (sep : List Char) : Prop where
  scan : ∀ q : Quoting, q.scan sep = none ∨ q.scan sep = some .inside
  head : ∃ c rest, sep = c :: rest ∧ c ∉ rest

variable {sep as bs cs ds : List Char}

/-- Behind a separator in a compact text there is no compact text. -/
theorem Separates.not_closed_append (h : Separates sep) (hds : Closed ds) (cs : List Char) :
    ¬ Closed (cs ++ (sep ++ ds)) := by
  intro hclosed
  -- wherever the reader stands, the separator takes it into a string
  obtain ⟨p, -, hp⟩ := Quoting.scan_append_eq_some_iff.mp hclosed
  obtain ⟨r, hr, hrest⟩ := Quoting.scan_append_eq_some_iff.mp hp
  rcases h.scan p with hnone | hinside
  · rw [hnone] at hr
    cases hr
  · rw [hinside] at hr
    cases hr
    exact not_closed_of_inside hrest hds

/-- Nothing can stand before the second separator. -/
theorem Separates.eq_nil (h : Separates sep) (hbs : Closed bs) (hds : Closed ds)
    (heq : sep ++ bs = cs ++ (sep ++ ds)) : cs = [] := by
  obtain ⟨c, rest, hsep, hc⟩ := h.head
  rcases List.append_eq_append_iff.mp heq with ⟨es, hcs, he⟩ | ⟨es, hes, he⟩
  · exact absurd (he ▸ hbs) (h.not_closed_append hds es)
  · cases es with
    | nil =>
      rw [List.nil_append] at he
      exact absurd (he ▸ hbs) (h.not_closed_append hds [])
    | cons e es =>
      cases cs with
      | nil => rfl
      | cons c' cs =>
        -- the separator would begin once more within itself
        rw [hsep, List.cons_append, List.cons_append, List.cons.injEq] at he
        rw [hsep, List.cons_append, List.cons.injEq] at hes
        refine absurd ?_ hc
        rw [hes.2, he.1]
        exact List.mem_append_right cs List.mem_cons_self

/-- **A compact text behind a separator can be told from what stands before it**, whatever that
is. -/
theorem Separates.append_inj (h : Separates sep) (hbs : Closed bs) (hds : Closed ds)
    (heq : as ++ (sep ++ bs) = cs ++ (sep ++ ds)) : as = cs ∧ bs = ds := by
  have hsame : as = cs := by
    rcases List.append_eq_append_iff.mp heq with ⟨es, rfl, he⟩ | ⟨es, rfl, he⟩
    · rw [h.eq_nil hbs hds he, List.append_nil]
    · rw [h.eq_nil hds hbs he, List.append_nil]
  subst hsame
  exact ⟨rfl, List.append_cancel_left (List.append_cancel_left heq)⟩

end Json

end ShapeContract
