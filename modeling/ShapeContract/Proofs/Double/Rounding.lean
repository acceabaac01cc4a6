import ShapeContract.Json.Number
import ShapeContract.Proofs.Double.Nearest

/-!
# Rounding to the nearest double

Rounding a quotient keeps 53 bits of it, or as many as the least exponent leaves, and the number
they make is rounded to the nearest natural number.  The double that results covers the quotient
(`covers_of_round`), so it is the nearest double, with a tie going to the even significand
(`isNearest_of_round`).  In particular the double of a JSON number is nearest to its value
(`Number.isNearest_toDouble`).

Integers up to `2 ^ 53` are doubles (`exists_size_eq`).  So rounding an integer does not take it past
one of them (`IsNearest.value_le`, `IsNearest.le_value`), and below that bound a double is nearest to
no other integer (`IsNearest.eq_of_value_eq`).
-/

namespace ShapeContract

namespace Double

variable {d : Double} {q : Ratio} {negative : Bool}

theorem ofParts?_eq_some {m : Nat} {e : Int} (h : ofParts? negative m e = some d) :
    d.negative = negative ∧ d.significand = m ∧ d.exponent = e := by
  unfold ofParts? at h
  split at h
  · cases h
    exact ⟨rfl, rfl, rfl⟩
  · cases h

/-- **A double covers the quotients that are rounded to it.** -/
theorem covers_of_round (hden : 0 < q.den) (hnum : q.num ≠ 0) (h : round negative q = some d) :
    d.negative = negative ∧ d.Covers q.value := by
  unfold round at h
  rw [if_neg hnum] at h
  dsimp only at h
  generalize he : max (q.log2 - 52) (-1074) = e at h
  generalize hm : (q.scale 2 (-e)).nearestEven = m at h
  have hnear : |q.value - m * 2 ^ e| ≤ 2 ^ e / 2 := by
    have := Ratio.multiple_near two_pos hden e
    rwa [hm, Nat.cast_ofNat] at this
  have htie : |q.value - m * 2 ^ e| = 2 ^ e / 2 → m % 2 = 0 := by
    have := Ratio.multiple_even two_pos hden (e := e)
    rwa [hm, Nat.cast_ofNat] at this
  split at h
  · -- the significand has been carried to the next power of two
    rename_i hcarry
    obtain ⟨hneg, hsig, hexp⟩ := ofParts?_eq_some h
    have hbelow : d.gapBelow = 2 ^ e := by
      rw [gapBelow, if_pos ⟨hsig, by omega⟩, hexp, add_sub_cancel_right]
    have habove : d.gapAbove = 2 * 2 ^ e := by
      rw [gapAbove, hexp, zpow_add_one₀ two_ne_zero, mul_comm]
    have hsize : d.size = m * 2 ^ e := by
      rw [size, hsig, hexp, hcarry, zpow_add_one₀ two_ne_zero]
      norm_num
      ring
    have heven : d.significand % 2 = 0 := by
      rw [hsig]
      rfl
    rw [← hsize, abs_le] at hnear
    exact ⟨hneg, covers_of_even heven (by linarith) (by linarith [d.gapAbove_pos])⟩
  · obtain ⟨hneg, hsig, hexp⟩ := ofParts?_eq_some h
    have habove : d.gapAbove = 2 ^ e := by rw [gapAbove, hexp]
    have hsize : d.size = m * 2 ^ e := by rw [size, hsig, hexp]
    refine ⟨hneg, ?_⟩
    rw [← hsize] at hnear htie
    by_cases hpower : d.significand = normalBound ∧ -1074 < d.exponent
    · -- a power of two is never above the quotient it comes from
      have hlog : q.log2 = 52 + e := by omega
      have hlow : d.size ≤ q.value := by
        calc d.size = 2 ^ q.log2 := by
              rw [hsize, hlog, zpow_add₀ two_ne_zero, ← hsig, hpower.1]
              norm_num
          _ ≤ q.value := (Ratio.log2_bounds hnum hden).1
      have heven : d.significand % 2 = 0 := by
        rw [hpower.1]
        rfl
      rw [abs_le] at hnear
      exact covers_of_even heven (by linarith [d.gapBelow_pos]) (by linarith)
    · have hbelow : d.gapBelow = d.gapAbove := by rw [gapBelow, if_neg hpower, gapAbove]
      refine covers_of_abs_le hbelow (by rwa [habove]) fun heq => ?_
      rw [hsig]
      exact htie (by rwa [habove] at heq)

/-- **Rounding gives the nearest double.** -/
theorem isNearest_of_round (hden : 0 < q.den) (h : round negative q = some d) :
    d.IsNearest (signed negative q.value) := by
  by_cases hnum : q.num = 0
  · unfold round at h
    rw [if_pos hnum] at h
    cases h
    have hvalue : (zero negative).value = signed negative q.value := by
      have hsize : (zero negative).size = 0 := size_eq_zero_iff.mpr rfl
      rw [value, hsize, Ratio.value, hnum, Nat.cast_zero, zero_div]
      rfl
    rw [← hvalue]
    exact isNearest_value _
  · obtain ⟨hneg, hcovers⟩ := covers_of_round hden hnum h
    have hpos : 0 < q.value := by
      have : (0 : ℚ) < q.num := Nat.cast_pos.mpr (Nat.pos_of_ne_zero hnum)
      have : (0 : ℚ) < q.den := Nat.cast_pos.mpr hden
      rw [Ratio.value]
      positivity
    rw [← hneg]
    exact hcovers.isNearest hpos

theorem isNearest_ofNatural (negative : Bool) {n : Nat} (h : n < wordBound) :
    (ofNatural negative n h).IsNearest (signed negative n) := by
  have hround : round negative ⟨n, 1⟩ = some (ofNatural negative n h) :=
    (Option.some_get (round_isSome negative h)).symm
  have hnearest := isNearest_of_round one_pos hround
  rwa [Ratio.value_natural] at hnearest

/-! ### Small integers -/

/-- **Every integer up to 2 ^ 53 is a double.** -/
theorem exists_size_eq {n : Nat} (h : n ≤ significandBound) (negative : Bool) :
    ∃ d : Double, d.negative = negative ∧ d.size = n := by
  unfold significandBound at h
  rcases Nat.eq_zero_or_pos n with rfl | hpos
  · exact ⟨zero negative, rfl, by rw [size_eq_zero_iff.mpr rfl, Nat.cast_zero]⟩
  · rcases Nat.eq_or_lt_of_le h with rfl | hlt
    · refine ⟨⟨negative, normalBound, 1, by decide⟩, rfl, ?_⟩
      rw [size]
      norm_num
    · have hlow : 2 ^ n.log2 ≤ n := Nat.log2_self_le (Nat.ne_of_gt hpos)
      have hhigh : n < 2 ^ (n.log2 + 1) := Nat.lt_log2_self
      have hlog : n.log2 < 53 := (Nat.log2_lt (Nat.ne_of_gt hpos)).mpr hlt
      -- the significand is filled up with zeros
      obtain ⟨k, hk⟩ : ∃ k, n.log2 + k = 52 := ⟨52 - n.log2, by omega⟩
      have hfull : normalBound ≤ n * 2 ^ k := by
        calc normalBound = 2 ^ n.log2 * 2 ^ k := by rw [← Nat.pow_add, hk]
          _ ≤ n * 2 ^ k := Nat.mul_le_mul_right _ hlow
      have hbound : n * 2 ^ k < significandBound := by
        calc n * 2 ^ k < 2 ^ (n.log2 + 1) * 2 ^ k :=
              Nat.mul_lt_mul_of_pos_right hhigh (Nat.two_pow_pos k)
          _ = significandBound := by rw [← Nat.pow_add, Nat.add_right_comm, hk]
      refine ⟨⟨negative, n * 2 ^ k, -k, hbound, by omega, by omega, Or.inl hfull⟩, rfl, ?_⟩
      rw [size, Nat.cast_mul, Nat.cast_pow, Nat.cast_ofNat, zpow_neg, zpow_natCast,
        mul_inv_cancel_right₀ (by positivity)]

theorem exists_value_eq {w : Int} (h : |w| ≤ 2 ^ 53) : ∃ d : Double, d.value = w := by
  have hbound : w.natAbs ≤ significandBound := by
    rw [Int.abs_eq_natAbs] at h
    exact_mod_cast h
  rcases le_total 0 w with hw | hw
  · obtain ⟨d, hneg, hsize⟩ := exists_size_eq hbound false
    refine ⟨d, ?_⟩
    rw [value, hneg, hsize, signed_false, Nat.cast_natAbs, abs_of_nonneg hw]
  · obtain ⟨d, hneg, hsize⟩ := exists_size_eq hbound true
    refine ⟨d, ?_⟩
    rw [value, hneg, hsize, signed_true, Nat.cast_natAbs, abs_of_nonpos hw, Int.cast_neg, neg_neg]

section Integers

variable {w z : Int}

/-- The double nearest to an integer that is one is that integer. -/
theorem IsNearest.value_eq (h : d.IsNearest (w : ℚ)) (hw : |w| ≤ 2 ^ 53) : d.value = w := by
  obtain ⟨c, hc⟩ := exists_value_eq hw
  have hself := c.isNearest_value
  rw [hc] at hself
  rw [h.value_unique hself, hc]

/-- Rounding does not take an integer past a larger one that is a double. -/
theorem IsNearest.value_le (h : d.IsNearest (z : ℚ)) (hw : |w| ≤ 2 ^ 53) (hle : z ≤ w) :
    d.value ≤ w := by
  obtain ⟨c, hc⟩ := exists_value_eq hw
  have hmono : d.value ≤ c.value := by
    refine h.value_mono c.isNearest_value ?_
    rw [hc]
    exact_mod_cast hle
  rwa [hc] at hmono

/-- Rounding does not take an integer past a smaller one that is a double. -/
theorem IsNearest.le_value (h : d.IsNearest (z : ℚ)) (hw : |w| ≤ 2 ^ 53) (hle : w ≤ z) :
    w ≤ d.value := by
  obtain ⟨c, hc⟩ := exists_value_eq hw
  have hmono : c.value ≤ d.value := by
    refine c.isNearest_value.value_mono h ?_
    rw [hc]
    exact_mod_cast hle
  rwa [hc] at hmono

/-- **Below 2 ^ 53 no other integer has the same nearest double.** -/
theorem IsNearest.eq_of_value_eq (h : d.IsNearest (z : ℚ)) (hw : d.value = w)
    (hsmall : |w| ≤ 2 ^ 53 - 1) : z = w := by
  rw [abs_le] at hsmall
  rcases lt_trichotomy z w with hlt | heq | hgt
  · have hle := h.value_le (w := w - 1) (by rw [abs_le]; omega) (by omega)
    rw [hw, Int.cast_le] at hle
    omega
  · exact heq
  · have hle := h.le_value (w := w + 1) (by rw [abs_le]; omega) (by omega)
    rw [hw, Int.cast_le] at hle
    omega

end Integers

end Double

namespace Number

open Double (signed)

/-- The value of a number. -/
def value : Number → ℚ
  | unsigned n _ => n
  | negative n _ => -n
  | double d => d.value

/-- **The double of a number is the nearest one.** -/
theorem isNearest_toDouble (n : Number) : n.toDouble.IsNearest n.value := by
  cases n with
  | unsigned n h => exact Double.isNearest_ofNatural false h
  | negative n h => exact Double.isNearest_ofNatural true (Nat.lt_of_le_of_lt h.2 (by decide))
  | double d => exact d.isNearest_value

end Number

end ShapeContract
