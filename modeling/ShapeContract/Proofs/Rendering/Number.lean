import Mathlib
import ShapeContract.Proofs.Double.Rounding
import ShapeContract.Proofs.Double.Shortest
import ShapeContract.Proofs.Pointer.Tokens
import ShapeContract.Rendering

/-!
# How numbers are shown

A number whose nearest double is an integer below `10 ^ 21` is shown as a decimal integer that has
the same nearest double.  Up to `2 ^ 53 - 1` it is the number itself (`IsNearest.eq_of_value_eq`),
and beyond it is made of the shortest digits of the double, with zeros in place of an exponent.

Which integer that is depends on the double alone (`integralText?_toDouble`), be the number an
integer or a double.  So two such numbers are shown alike exactly when they have one nearest double,
and larger ones are shown as larger integers (`numbers_are_shown_faithfully`).

The zeros stand for the exponent.  `Decimal.padded?` puts them behind the digits of a decimal in its
form with an exponent, and finds every part of that form (`Decimal.padded?_exponentForm`): an
exponent, and one that asks for no fewer digits than there are.
-/

namespace ShapeContract

open Pointer (isDigit_of_mem_repr head?_toDigits_ne_zero)

/-! ### Texts of integers -/

/-- A text is that of an integer: a zero, or digits that do not begin with one, with or without a
minus sign. -/
def IsIntegerText (text : String) : Prop :=
  text = "0" ∨ ∃ sign digits : List Char, text.toList = sign ++ digits ∧
    (sign = [] ∨ sign = ['-']) ∧ digits ≠ [] ∧ digits.head? ≠ some '0' ∧
    ∀ c ∈ digits, c.isDigit = true

theorem isIntegerText_repr (z : Int) : IsIntegerText z.repr := by
  have hdigits : ∀ n c, c ∈ Nat.toDigits 10 n → c.isDigit = true :=
    fun n c hc => Nat.isDigit_of_mem_toDigits (by decide) (by decide) hc
  cases z with
  | ofNat n =>
    rcases Nat.eq_zero_or_pos n with rfl | hpos
    · exact Or.inl rfl
    · exact Or.inr ⟨[], Nat.toDigits 10 n, Nat.toList_repr, Or.inl rfl, Nat.toDigits_ne_nil,
        head?_toDigits_ne_zero n hpos, hdigits n⟩
  | negSucc n =>
    refine Or.inr ⟨['-'], Nat.toDigits 10 (n + 1), ?_, Or.inr rfl, Nat.toDigits_ne_nil,
      head?_toDigits_ne_zero (n + 1) (Nat.succ_pos n), hdigits (n + 1)⟩
    rw [Int.repr, String.toList_append, Nat.toList_repr]
    rfl

/-- A minus sign before a positive number is the sign of its negative. -/
theorem sign_append_repr (negative : Bool) {n : Nat} (hn : n ≠ 0) :
    (if negative then "-" else "") ++ n.repr =
      Int.repr (if negative then -(n : Int) else n) := by
  obtain ⟨k, rfl⟩ := Nat.exists_eq_succ_of_ne_zero hn
  cases negative with
  | false => exact String.empty_append
  | true => rfl

namespace Decimal

variable {x : Decimal}

/-! ### Zeros in place of an exponent -/

/-- Zeros behind the digits multiply by a power of ten. -/
theorem toDigits_append_zeros {n : Nat} (hn : n ≠ 0) (k : Nat) :
    Nat.toDigits 10 n ++ List.replicate k '0' = Nat.toDigits 10 (n * 10 ^ k) := by
  induction k with
  | zero => rw [List.replicate_zero, List.append_nil, pow_zero, Nat.mul_one]
  | succ k ih =>
    have hpos : 0 < n * 10 ^ k := Nat.mul_pos (Nat.pos_of_ne_zero hn) (by positivity)
    rw [List.replicate_succ', ← List.append_assoc, ih, pow_succ, ← Nat.mul_assoc,
      Nat.mul_comm _ 10]
    exact Nat.toDigits_append_toDigits (b := 10) (d := 0) (by decide) hpos (by decide)

/-- A decimal without a negative exponent is written as the natural number that it is. -/
theorem integerText_eq (hx : x.digits ≠ 0) :
    x.integerText = Nat.repr (x.digits * 10 ^ x.exponent.toNat) := by
  rw [integerText, zeros, Nat.repr_eq_ofList_toDigits, Nat.repr_eq_ofList_toDigits,
    ← String.ofList_append, toDigits_append_zeros hx]

/-- The digits with a point behind the first one, if there are others. -/
def pointed : List Char → List Char
  | d :: e :: rest => d :: '.' :: e :: rest
  | digits => digits

/-- The decimal with one digit before the point, the others behind it, and the exponent behind the
letter `e`. -/
def exponentForm (x : Decimal) : List Char :=
  pointed (Nat.toDigits 10 x.digits) ++ 'e' :: x.order.repr.toList

/-- The digits of a decimal in its form with an exponent, and zeros behind them up to the exponent.
There is no such text if there is no exponent to be read, or if it asks for fewer digits than there
are. -/
def padded? (text : List Char) : Option (List Char) :=
  match text.dropWhile (· ≠ 'e') with
  | [] => none
  | _ :: exponent =>
    let digits := (text.takeWhile (· ≠ 'e')).filter (· ≠ '.')
    match (String.ofList exponent).toNat? with
    | none => none
    | some order =>
      if digits.length ≤ order + 1 then
        some (digits ++ List.replicate (order + 1 - digits.length) '0')
      else none

theorem mem_of_mem_pointed {digits : List Char} {c : Char} (h : c ∈ pointed digits) :
    c ∈ digits ∨ c = '.' := by
  unfold pointed at h
  split at h
  · simp only [List.mem_cons] at h ⊢
    tauto
  · exact Or.inl h

/-- Without the point the digits are left. -/
theorem filter_pointed {digits : List Char} (h : '.' ∉ digits) :
    (pointed digits).filter (· ≠ '.') = digits := by
  have hkeep : digits.filter (· ≠ '.') = digits := by
    refine List.filter_eq_self.mpr fun c hc => decide_eq_true ?_
    rintro rfl
    exact h hc
  unfold pointed
  split
  · rename_i d e rest
    rw [List.filter_cons] at hkeep ⊢
    rw [List.filter_cons_of_neg (by decide)]
    exact hkeep
  · exact hkeep

/-- **Of a decimal without a negative exponent no part is missing**, and there are no more digits
than its exponent asks for. -/
theorem padded?_exponentForm (he : 0 ≤ x.exponent) :
    padded? x.exponentForm = some x.integerText.toList := by
  have hnot : ∀ {c : Char}, c.isDigit = false → c ∉ Nat.toDigits 10 x.digits := by
    intro c hc hmem
    rw [Nat.isDigit_of_mem_toDigits (by decide) (by decide) hmem] at hc
    cases hc
  have hmantissa : ∀ c ∈ pointed (Nat.toDigits 10 x.digits), decide (c ≠ 'e') = true := by
    intro c hc
    refine decide_eq_true ?_
    rintro rfl
    rcases mem_of_mem_pointed hc with hmem | hpoint
    · exact hnot rfl hmem
    · exact absurd hpoint (by decide)
  have htake : x.exponentForm.takeWhile (· ≠ 'e') = pointed (Nat.toDigits 10 x.digits) := by
    rw [exponentForm, List.takeWhile_append_of_pos hmantissa,
      List.takeWhile_cons_of_neg (by decide), List.append_nil]
  have hdrop : x.exponentForm.dropWhile (· ≠ 'e') = 'e' :: x.order.repr.toList := by
    rw [exponentForm, List.dropWhile_append_of_pos hmantissa,
      List.dropWhile_cons_of_neg (by decide)]
  -- the order is that of the last digit and the number of digits before it
  have horder : x.order = x.exponent + (Nat.toDigits 10 x.digits).length - 1 := by
    rw [order, digitCount_eq]
  have hcount : 0 < (Nat.toDigits 10 x.digits).length := by
    rw [← digitCount_eq]
    exact digitCount_pos _
  obtain ⟨n, hn⟩ := Int.eq_ofNat_of_zero_le (show 0 ≤ x.order by omega)
  have hread : (String.ofList x.order.repr.toList).toNat? = some n := by
    rw [String.ofList_toList, hn]
    exact Nat.toNat?_repr n
  have hzeros : n + 1 - (Nat.toDigits 10 x.digits).length = x.exponent.toNat := by omega
  rw [padded?, hdrop, htake, filter_pointed (hnot rfl)]
  dsimp only
  rw [hread]
  dsimp only
  rw [if_pos (by omega), hzeros, integerText, zeros, String.toList_append, String.toList_ofList,
    Nat.toList_repr]

end Decimal

namespace Number

variable {c d : Double}

/-! ### Integral doubles -/

/-- The nearest double has the sign of the integer. -/
theorem sign_value_eq {z : Int} (h : d.IsNearest (z : ℚ)) :
    SignType.sign z = SignType.sign d.value := by
  rcases lt_trichotomy z 0 with hneg | rfl | hpos
  · have hle := h.value_le (w := -1) (by norm_num) (by omega)
    push_cast at hle
    rw [sign_neg hneg, sign_neg (by linarith)]
  · have hzero : d.value = 0 := by
      have := h.value_eq (by norm_num)
      rwa [Int.cast_zero] at this
    rw [hzero, sign_zero, sign_zero]
  · have hle := h.le_value (w := 1) (by norm_num) (by omega)
    push_cast at hle
    rw [sign_pos hpos, sign_pos (by linarith)]

theorem abs_value (d : Double) : |d.value| = d.size := by
  rw [Double.value]
  cases d.negative with
  | false => exact abs_of_nonneg d.size_nonneg
  | true =>
    rw [Double.signed_true, abs_neg]
    exact abs_of_nonneg d.size_nonneg

/-- A double is an integer below `10 ^ 21` in magnitude. -/
def IsShortInteger (d : Double) : Prop := ∃ w : Int, d.value = w ∧ |w| < 10 ^ 21

theorem IsShortInteger.exists_size_eq (h : IsShortInteger d) :
    ∃ n : Nat, d.size = n ∧ n < renderLimit := by
  obtain ⟨w, hw, hlt⟩ := h
  refine ⟨w.natAbs, ?_, ?_⟩
  · rw [← abs_value, hw, Nat.cast_natAbs, Int.cast_abs]
  · rw [Int.abs_eq_natAbs] at hlt
    exact_mod_cast hlt

theorem integralText?_of_significand_eq_zero (h : d.significand = 0) :
    integralText? d = some "0" := by
  have hnatural : d.natural? = some 0 := by
    rw [Double.natural?_eq_some_iff, Double.size_eq_zero_iff.mpr h, Nat.cast_zero]
  rw [integralText?, hnatural]
  rfl

/-- The shortest digits of an integral double, with zeros behind them, are those of an integer to
which the double is nearest. -/
theorem exists_integerText_eq {n : Nat} (hn : d.size = n) (hd : d.significand ≠ 0) :
    ∃ m : Nat, m ≠ 0 ∧ d.shortest.integerText = m.repr ∧
      d.IsNearest (Double.signed d.negative m) := by
  have hcovers := Double.covers_shortest hd
  have hpos := hcovers.pos hd
  rw [Decimal.value_value] at hcovers hpos
  have hdigits : d.shortest.digits ≠ 0 := by
    intro hzero
    rw [hzero, Nat.cast_zero, zero_mul] at hpos
    exact lt_irrefl _ hpos
  have hshown : (d.shortest.digits : ℚ) * 10 ^ d.shortest.exponent =
      (d.shortest.digits * 10 ^ d.shortest.exponent.toNat : Nat) := by
    obtain ⟨k, hk⟩ := Int.eq_ofNat_of_zero_le (Double.exponent_shortest_nonneg hn hd)
    rw [hk, Int.toNat_natCast, zpow_natCast, Nat.cast_mul, Nat.cast_pow, Nat.cast_ofNat]
  refine ⟨_, Nat.mul_ne_zero hdigits (by positivity), Decimal.integerText_eq hdigits, ?_⟩
  rw [← hshown]
  exact hcovers.isNearest hpos

/-- **An integral double is shown as an integer to which it is nearest.** -/
theorem exists_integralText? (h : IsShortInteger d) :
    ∃ z : Int, integralText? d = some z.repr ∧ d.IsNearest z := by
  obtain ⟨n, hsize, hlt⟩ := h.exists_size_eq
  by_cases hd : d.significand = 0
  · refine ⟨0, integralText?_of_significand_eq_zero hd, ?_⟩
    have hzero : d.value = 0 := by
      rw [← abs_eq_zero, abs_value, Double.size_eq_zero_iff.mpr hd]
    have hself := d.isNearest_value
    rwa [hzero, ← Int.cast_zero] at hself
  · have hn : n ≠ 0 := by
      rwa [← Double.size_eq_zero_iff, hsize, Nat.cast_eq_zero] at hd
    obtain ⟨m, hm, htext, hnearest⟩ := exists_integerText_eq hsize hd
    refine ⟨if d.negative then -(m : Int) else m, ?_, ?_⟩
    · rw [integralText?, Double.natural?_eq_some_iff.mpr hsize]
      dsimp only
      rw [if_neg hn, if_pos hlt, htext, sign_append_repr _ hm]
    · cases hneg : d.negative with
      | false =>
        rw [hneg] at hnearest
        exact_mod_cast hnearest
      | true =>
        rw [hneg] at hnearest
        rw [if_pos rfl, Int.cast_neg]
        exact_mod_cast hnearest

/-- Doubles of one value are shown alike. -/
theorem integralText?_congr (h : c.value = d.value) : integralText? c = integralText? d := by
  have hsize : c.size = d.size := by rw [← abs_value, ← abs_value, h]
  obtain ⟨hsig, hexp⟩ := Double.parts_eq_of_size_eq hsize
  by_cases hd : d.significand = 0
  · rw [integralText?_of_significand_eq_zero hd,
      integralText?_of_significand_eq_zero (hsig.trans hd)]
  · have hneg : c.negative = d.negative := by
      by_contra hne
      have hpos := Double.size_pos hd
      have hfar := Double.abs_signed_sub_signed_not d.negative hpos.le hpos.le
      rw [Double.value, Double.value, hsize, Bool.eq_not_of_ne hne] at h
      rw [h, sub_self, abs_zero] at hfar
      linarith
    have heq : c = d := by
      cases c
      cases d
      dsimp only at hneg hsig hexp
      subst hneg hsig hexp
      rfl
    rw [heq]

/-! ### Numbers -/

variable {n m : Number} {x y : Double}

/-- An integer up to `2 ^ 53 - 1` is shown as its nearest double is, which it is itself. -/
theorem integralText?_of_small (hn : n.toDouble.IsNearest n.value)
    (h : IsShortInteger n.toDouble) {w : Int} (hw : n.value = w) (hsmall : |w| ≤ 2 ^ 53 - 1) :
    integralText? n.toDouble = some w.repr := by
  obtain ⟨z, htext, hz⟩ := exists_integralText? h
  rw [hw] at hn
  have hvalue : n.toDouble.value = w := hn.value_eq (by omega)
  rw [htext, hz.eq_of_value_eq hvalue hsmall]

/-- **A number is shown as its nearest double is**, whichever kind of number it is. -/
theorem integralText?_toDouble (h : IsShortInteger n.toDouble) :
    integralText? n.toDouble = some n.render := by
  have hn := n.isNearest_toDouble
  have hlarge : integralText? n.toDouble = some ((integralText? n.toDouble).getD n.text) := by
    obtain ⟨z, htext, -⟩ := exists_integralText? h
    rw [htext]
    rfl
  cases n with
  | unsigned k bound =>
    rw [render]
    split
    · rename_i hk
      refine integralText?_of_small hn h (w := k) rfl ?_
      unfold maxSafeInteger significandBound at hk
      rw [abs_of_nonneg (by omega)]
      omega
    · exact hlarge
  | negative k bound =>
    rw [render]
    split
    · rename_i hk
      have htext := integralText?_of_small hn h (w := -(k : Int)) (by
        rw [Int.cast_neg, value, Int.cast_natCast]) (by
        unfold maxSafeInteger significandBound at hk
        rw [abs_neg, abs_of_nonneg (by omega)]
        omega)
      rw [htext]
      exact congrArg some (sign_append_repr true (Nat.ne_of_gt bound.1)).symm
    · exact hlarge
  | double d => exact hlarge

/-- The double is the nearest one to a number, and an integer below `10 ^ 21` in magnitude. -/
def RoundsToInteger (n : Number) (x : Double) : Prop := x.IsNearest n.value ∧ IsShortInteger x

theorem RoundsToInteger.value_toDouble (h : n.RoundsToInteger x) : n.toDouble.value = x.value :=
  n.isNearest_toDouble.value_unique h.1

theorem RoundsToInteger.integralText?_eq (h : n.RoundsToInteger x) :
    integralText? x = some n.render := by
  have hvalue := h.value_toDouble
  obtain ⟨w, hw, hlt⟩ := h.2
  rw [← integralText?_congr hvalue]
  exact integralText?_toDouble ⟨w, hvalue.trans hw, hlt⟩

theorem RoundsToInteger.exists_render_eq (h : n.RoundsToInteger x) :
    ∃ z : Int, n.render = z.repr ∧ x.IsNearest z := by
  obtain ⟨z, htext, hz⟩ := exists_integralText? h.2
  rw [h.integralText?_eq] at htext
  exact ⟨z, Option.some.inj htext, hz⟩

theorem RoundsToInteger.render_eq_iff (hn : n.RoundsToInteger x) (hm : m.RoundsToInteger y) :
    n.render = m.render ↔ x.value = y.value := by
  constructor
  · intro h
    obtain ⟨z, hz, hzx⟩ := hn.exists_render_eq
    obtain ⟨w, hw, hwy⟩ := hm.exists_render_eq
    rw [hz, hw] at h
    rw [Int.repr_injective h] at hzx
    exact hzx.value_unique hwy
  · intro h
    have htext := integralText?_congr h
    rw [hn.integralText?_eq, hm.integralText?_eq] at htext
    exact Option.some.inj htext

/-- **Numbers are shown by their nearest doubles.**  Let the nearest double of a number be an integer
below `10 ^ 21` in magnitude.  Then the number is shown as a decimal integer.  That integer has the
sign of the double, the double is nearest to it, and it is the number itself if this is an integer
up to `2 ^ 53 - 1`.  So two numbers are shown alike exactly when they have one nearest double, and
the order of numbers is kept.  The text of a double other than zero comes from its shortest decimal
in the form with an exponent: every part of that form is there, and the exponent asks for at least
the digits there are. -/
theorem numbers_are_shown_faithfully :
    (∀ n : Number, n.toDouble.IsNearest n.value) ∧
    (∀ (n : Number) (x : Double), n.RoundsToInteger x →
      ∃ z : Int, IsIntegerText (Json.number n).render ∧
        (Json.number n).render.toInt? = some z ∧
        SignType.sign z = SignType.sign x.value ∧ x.IsNearest z ∧
        ∀ w : Int, n.value = w → |w| ≤ 2 ^ 53 - 1 → z = w) ∧
    (∀ (n m : Number) (x y : Double), n.RoundsToInteger x → m.RoundsToInteger y →
      ((Json.number n).render = (Json.number m).render ↔ x.value = y.value)) ∧
    (∀ (n m : Number) (x y : Double), n.RoundsToInteger x → m.RoundsToInteger y →
      n.value ≤ m.value → ∀ z w : Int, (Json.number n).render.toInt? = some z →
        (Json.number m).render.toInt? = some w → z ≤ w) ∧
    ∀ d : Double, IsShortInteger d → d.value ≠ 0 →
      Decimal.padded? d.shortest.exponentForm = some d.shortest.integerText.toList := by
  refine ⟨isNearest_toDouble, ?_, fun n m x y => RoundsToInteger.render_eq_iff, ?_, ?_⟩
  · intro n x h
    obtain ⟨z, hz, hnearest⟩ := h.exists_render_eq
    rw [Json.render, hz]
    refine ⟨z, isIntegerText_repr z, Int.toInt?_repr z, sign_value_eq hnearest, hnearest, ?_⟩
    intro w hw hsmall
    have hx := h.1
    rw [hw] at hx
    exact hnearest.eq_of_value_eq (hx.value_eq (by omega)) hsmall
  · intro n m x y hn hm hle z w hz hw
    obtain ⟨z', hz', hzx⟩ := hn.exists_render_eq
    obtain ⟨w', hw', hwy⟩ := hm.exists_render_eq
    have hmono := hn.1.value_mono hm.1 hle
    rw [Json.render, hz', Int.toInt?_repr, Option.some.injEq] at hz
    rw [Json.render, hw', Int.toInt?_repr, Option.some.injEq] at hw
    subst hz hw
    rcases eq_or_lt_of_le hmono with heq | hlt
    · -- one nearest double, one text
      have hsame := (hn.render_eq_iff hm).mpr heq
      rw [hz', hw'] at hsame
      exact le_of_eq (Int.repr_injective hsame)
    · by_contra hgt
      have hback := hwy.value_mono hzx (by exact_mod_cast (not_le.mp hgt).le)
      exact absurd hlt (not_lt.mpr hback)
  · intro d h hd
    obtain ⟨n, hsize, -⟩ := h.exists_size_eq
    refine Decimal.padded?_exponentForm (Double.exponent_shortest_nonneg hsize ?_)
    intro hzero
    rw [← abs_ne_zero, abs_value, Double.size_eq_zero_iff.mpr hzero] at hd
    exact hd rfl

example : (Json.number (.unsigned 0x1000000000000000 (by decide))).render =
    "1152921504606847000" := by decide +kernel

end Number

end ShapeContract
