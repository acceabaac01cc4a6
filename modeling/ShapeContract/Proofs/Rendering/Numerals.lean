import ShapeContract.Proofs.Pointer.Tokens
import ShapeContract.Rendering

/-!
# The characters of number texts

However a number is written, with a point, with an exponent or in a message, its text is made of
digits, signs, points and the letter of the exponent (`Number.isNumeral_text`,
`Number.isNumeral_render`).  So it needs no quotes around it and has no blank in it.
-/

namespace ShapeContract

/-- A character of a number text. -/
def IsNumeralChar (c : Char) : Prop := c.isDigit = true ∨ c ∈ ['-', '+', '.', 'e']

/-- A text with no other characters than those of numbers. -/
def IsNumeral (text : String) : Prop := ∀ c ∈ text.toList, IsNumeralChar c

instance (c : Char) : Decidable (IsNumeralChar c) :=
  inferInstanceAs (Decidable (_ ∨ _))

instance (text : String) : Decidable (IsNumeral text) :=
  List.decidableBAll IsNumeralChar text.toList

theorem IsNumeralChar.toNat_gt {c : Char} (h : IsNumeralChar c) : 32 < c.toNat := by
  rcases h with h | h
  · have hdigit : '0'.val ≤ c.val ∧ c.val ≤ '9'.val := by simpa [Char.isDigit] using h
    have hge : '0'.toNat ≤ c.toNat := hdigit.1
    exact Nat.lt_of_lt_of_le (by decide) hge
  · simp only [List.mem_cons, List.not_mem_nil, or_false] at h
    rcases h with rfl | rfl | rfl | rfl <;> decide

theorem IsNumeralChar.ne {c d : Char} (hc : IsNumeralChar c) (hd : ¬ IsNumeralChar d) : c ≠ d := by
  rintro rfl
  exact hd hc

theorem isNumeral_append {s t : String} (hs : IsNumeral s) (ht : IsNumeral t) :
    IsNumeral (s ++ t) := by
  intro c hc
  rw [String.toList_append, List.mem_append] at hc
  exact hc.elim (hs c) (ht c)

theorem isNumeral_ofList {cs : List Char} (h : ∀ c ∈ cs, IsNumeralChar c) :
    IsNumeral (String.ofList cs) := by
  intro c hc
  rw [String.toList_ofList] at hc
  exact h c hc

theorem isNumeral_repr (n : Nat) : IsNumeral (Nat.repr n) :=
  fun _ hc => Or.inl (Pointer.isDigit_of_mem_repr hc)

theorem isNumeral_sign (negative : Bool) : IsNumeral (if negative then "-" else "") := by
  cases negative with
  | false => exact fun c hc => absurd hc List.not_mem_nil
  | true => exact fun c hc => Or.inr (List.mem_cons.mpr (Or.inl (List.mem_singleton.mp hc)))

namespace Decimal

variable (x : Decimal)

theorem isNumeral_zeros (count : Int) : IsNumeral (zeros count) := by
  refine isNumeral_ofList fun c hc => Or.inl ?_
  rw [List.eq_of_mem_replicate hc]
  rfl

theorem isNumeral_integerText : IsNumeral x.integerText :=
  isNumeral_append (isNumeral_repr _) (isNumeral_zeros _)

theorem isNumeral_plainText : IsNumeral x.plainText := by
  have hdigits := isNumeral_repr x.digits
  have hpoint : IsNumeral "." := by decide
  unfold plainText
  dsimp only
  split
  · exact isNumeral_append x.isNumeral_integerText (by decide)
  split
  · refine isNumeral_append (isNumeral_append (isNumeral_ofList ?_) hpoint) (isNumeral_ofList ?_)
    · exact fun c hc => hdigits c (List.mem_of_mem_take hc)
    · exact fun c hc => hdigits c (List.mem_of_mem_drop hc)
  · exact isNumeral_append (isNumeral_append (by decide) (isNumeral_zeros _)) hdigits

theorem isNumeral_scientificText : IsNumeral x.scientificText := by
  have hdigits := isNumeral_repr x.digits
  unfold scientificText
  dsimp only
  refine isNumeral_append (isNumeral_append ?_ (by decide)) ?_
  · split
    · exact fun c hc => absurd hc List.not_mem_nil
    · rename_i d hd
      rw [IsNumeral, hd] at hdigits
      exact isNumeral_ofList hdigits
    · rename_i d rest _ hd
      rw [IsNumeral, hd, List.forall_mem_cons] at hdigits
      refine isNumeral_append (isNumeral_append (isNumeral_ofList ?_) (by decide))
        (isNumeral_ofList hdigits.2)
      exact List.forall_mem_singleton.mpr hdigits.1
  · split
    · exact isNumeral_append (by decide) (isNumeral_repr _)
    · exact isNumeral_append (by decide) (isNumeral_repr _)

/-- **A decimal is made of digits, signs, a point and the letter of its exponent.** -/
theorem isNumeral_text (plain : PlainRange) : IsNumeral (x.text plain) := by
  unfold text
  split
  · exact x.isNumeral_plainText
  · exact x.isNumeral_scientificText

end Decimal

namespace Number

theorem isNumeral_text (n : Number) : IsNumeral n.text := by
  cases n with
  | unsigned n h => exact isNumeral_repr n
  | negative n h => exact isNumeral_append (isNumeral_sign true) (isNumeral_repr n)
  | double d => exact isNumeral_append (isNumeral_sign d.negative) (d.shortest.isNumeral_text plain)

theorem isNumeral_of_integralText? {d : Double} {text : String} (h : integralText? d = some text) :
    IsNumeral text := by
  unfold integralText? at h
  split at h
  · split at h
    · cases h
      exact isNumeral_repr 0
    split at h
    · cases h
      exact isNumeral_append (isNumeral_sign d.negative) d.shortest.isNumeral_integerText
    · cases h
  · cases h

theorem isNumeral_integralText?_getD (n : Number) (d : Double) :
    IsNumeral ((integralText? d).getD n.text) := by
  cases h : integralText? d with
  | none => exact n.isNumeral_text
  | some text => exact isNumeral_of_integralText? h

/-- **A number in a message is made of the same characters.** -/
theorem isNumeral_render (n : Number) : IsNumeral n.render := by
  unfold render
  split
  · split
    · exact isNumeral_repr _
    · exact isNumeral_integralText?_getD _ _
  · split
    · exact isNumeral_append (isNumeral_sign true) (isNumeral_repr _)
    · exact isNumeral_integralText?_getD _ _
  · exact isNumeral_integralText?_getD _ _

end Number

end ShapeContract
