import Mathlib.Algebra.Order.Field.Power
import Mathlib.Tactic.FieldSimp
import Mathlib.Tactic.Linarith
import Mathlib.Tactic.Positivity
import Mathlib.Tactic.Ring
import ShapeContract.Double.Basic

/-!
# Quotients as rational numbers

A `Ratio` stands for the rational number `Ratio.value`.  What the operations on quotients do is said
of that number: scaling multiplies it by a power (`value_scale`), comparing compares
(`compare_eq_lt_iff`, `compare_ne_gt_iff`), the logarithm is that of the largest power of two below
(`log2_bounds`), and the nearest natural number is no further away than one half, and even if it is
just as far (`nearestEven_near`, `nearestEven_even`).
-/

namespace ShapeContract.Ratio

/-- The rational number that a quotient stands for. -/
def value (q : Ratio) : ℚ := q.num / q.den

theorem value_natural (n : Nat) : (⟨n, 1⟩ : Ratio).value = n := by
  rw [value, Nat.cast_one, div_one]

theorem den_scale_pos {q : Ratio} (h : 0 < q.den) {base : Nat} (hbase : 0 < base) (e : Int) :
    0 < (q.scale base e).den := by
  unfold scale
  split
  · exact h
  · exact Nat.mul_pos h (Nat.pow_pos hbase)

/-- **Scaling multiplies by a power.** -/
theorem value_scale {base : Nat} (hbase : 0 < base) (q : Ratio) (e : Int) :
    (q.scale base e).value = q.value * (base : ℚ) ^ e := by
  have hne : (base : ℚ) ≠ 0 := Nat.cast_ne_zero.mpr (Nat.ne_of_gt hbase)
  unfold scale
  by_cases he : 0 ≤ e
  · obtain ⟨k, rfl⟩ := Int.eq_ofNat_of_zero_le he
    rw [if_pos he, value, value, Int.toNat_natCast, zpow_natCast, Nat.pow_eq, Nat.cast_mul,
      Nat.cast_pow]
    ring
  · obtain ⟨k, rfl⟩ : ∃ k : Nat, e = -k := ⟨(-e).toNat, by omega⟩
    rw [if_neg he, value, value, Int.neg_neg, Int.toNat_natCast, zpow_neg, zpow_natCast,
      Nat.pow_eq, Nat.cast_mul, Nat.cast_pow, div_mul_eq_div_div, div_eq_mul_inv _ ((base : ℚ) ^ k)]

section Compare

variable {q r : Ratio}

theorem num_mul_den_lt_iff (hq : 0 < q.den) (hr : 0 < r.den) :
    q.num * r.den < r.num * q.den ↔ q.value < r.value := by
  have hq' : (0 : ℚ) < q.den := Nat.cast_pos.mpr hq
  have hr' : (0 : ℚ) < r.den := Nat.cast_pos.mpr hr
  rw [value, value, div_lt_div_iff₀ hq' hr', ← Nat.cast_mul, ← Nat.cast_mul, Nat.cast_lt]

theorem compare_eq_lt_iff (hq : 0 < q.den) (hr : 0 < r.den) :
    q.compare r = .lt ↔ q.value < r.value := by
  rw [compare, Nat.compare_eq_lt, num_mul_den_lt_iff hq hr]

theorem compare_ne_gt_iff (hq : 0 < q.den) (hr : 0 < r.den) :
    q.compare r ≠ .gt ↔ q.value ≤ r.value := by
  rw [compare, Ne, Nat.compare_eq_gt, num_mul_den_lt_iff hr hq, not_lt]

end Compare

theorem natCast_log2_bounds {n : Nat} (hn : n ≠ 0) :
    (2 : ℚ) ^ (n.log2 : Int) ≤ n ∧ (n : ℚ) < 2 ^ ((n.log2 : Int) + 1) := by
  constructor
  · rw [zpow_natCast]
    exact_mod_cast Nat.log2_self_le hn
  · exact_mod_cast Nat.lt_log2_self (n := n)

/-- **The logarithm is the exponent of the largest power of two that is no larger.** -/
theorem log2_bounds {q : Ratio} (hnum : q.num ≠ 0) (hden : 0 < q.den) :
    (2 : ℚ) ^ q.log2 ≤ q.value ∧ q.value < 2 ^ (q.log2 + 1) := by
  have hden' : (0 : ℚ) < q.den := Nat.cast_pos.mpr hden
  obtain ⟨hnumlow, hnumhigh⟩ := natCast_log2_bounds hnum
  obtain ⟨hdenlow, hdenhigh⟩ := natCast_log2_bounds (Nat.ne_of_gt hden)
  -- the difference of the two logarithms is right or one too large
  have hlow : (2 : ℚ) ^ ((q.num.log2 : Int) - q.den.log2 - 1) ≤ q.value := by
    rw [value, le_div_iff₀ hden']
    calc (2 : ℚ) ^ ((q.num.log2 : Int) - q.den.log2 - 1) * q.den
        ≤ 2 ^ ((q.num.log2 : Int) - q.den.log2 - 1) * 2 ^ ((q.den.log2 : Int) + 1) :=
          mul_le_mul_of_nonneg_left hdenhigh.le (zpow_nonneg zero_le_two _)
      _ = 2 ^ (q.num.log2 : Int) := by
          rw [← zpow_add₀ two_ne_zero]
          congr 1
          omega
      _ ≤ q.num := hnumlow
  have hhigh : q.value < 2 ^ ((q.num.log2 : Int) - q.den.log2 + 1) := by
    rw [value, div_lt_iff₀ hden']
    calc (q.num : ℚ) < 2 ^ ((q.num.log2 : Int) + 1) := hnumhigh
      _ = 2 ^ ((q.num.log2 : Int) - q.den.log2 + 1) * 2 ^ (q.den.log2 : Int) := by
          rw [← zpow_add₀ two_ne_zero]
          congr 1
          omega
      _ ≤ 2 ^ ((q.num.log2 : Int) - q.den.log2 + 1) * q.den :=
          mul_le_mul_of_nonneg_left hdenlow (zpow_nonneg zero_le_two _)
  have hpower : (scale ⟨1, 1⟩ 2 ((q.num.log2 : Int) - q.den.log2)).value =
      2 ^ ((q.num.log2 : Int) - q.den.log2) := by
    rw [value_scale two_pos, value_natural, Nat.cast_one, one_mul, Nat.cast_ofNat]
  have hpos : 0 < (scale ⟨1, 1⟩ 2 ((q.num.log2 : Int) - q.den.log2)).den :=
    den_scale_pos one_pos two_pos _
  unfold log2
  dsimp only
  split
  · rename_i hgt
    rw [compare, Nat.compare_eq_gt, num_mul_den_lt_iff hden hpos, hpower] at hgt
    rw [sub_add_cancel]
    exact ⟨hlow, hgt⟩
  · rename_i hle
    rw [← Ne, compare_ne_gt_iff hpos hden, hpower] at hle
    exact ⟨hle, hhigh⟩

/-! ### The nearest natural number -/

section NearestEven

variable {q : Ratio}

/-- A quotient is its whole part and the rest of the division. -/
theorem value_eq_floor_add (h : 0 < q.den) :
    q.value = (q.num / q.den : Nat) + (q.num % q.den : Nat) / (q.den : ℚ) := by
  have hne : (q.den : ℚ) ≠ 0 := Nat.cast_ne_zero.mpr (Nat.ne_of_gt h)
  have hnum : (q.num : ℚ) = q.den * (q.num / q.den : Nat) + (q.num % q.den : Nat) := by
    rw [← Nat.cast_mul, ← Nat.cast_add, Nat.div_add_mod]
  rw [value, div_eq_iff hne, add_mul, div_mul_cancel₀ _ hne, hnum]
  ring

theorem nearestEven_eq_floor_or :
    (q.nearestEven = q.num / q.den ∧ 2 * (q.num % q.den) ≤ q.den ∧
      (2 * (q.num % q.den) = q.den → q.num / q.den % 2 = 0)) ∨
    (q.nearestEven = q.num / q.den + 1 ∧ q.den ≤ 2 * (q.num % q.den) ∧
      (2 * (q.num % q.den) = q.den → (q.num / q.den + 1) % 2 = 0)) := by
  unfold nearestEven
  dsimp only
  split
  · right
    omega
  · left
    omega

/-- **The nearest natural number is at most one half away.** -/
theorem nearestEven_near (h : 0 < q.den) : |q.value - q.nearestEven| ≤ 1 / 2 := by
  have hden : (0 : ℚ) < q.den := Nat.cast_pos.mpr h
  have hlt : ((q.num % q.den : Nat) : ℚ) / q.den ≤ 1 := by
    rw [div_le_one hden]
    exact Nat.cast_le.mpr (Nat.le_of_lt (Nat.mod_lt _ h))
  have hnonneg : 0 ≤ ((q.num % q.den : Nat) : ℚ) / q.den := by positivity
  rw [value_eq_floor_add h, abs_le]
  rcases nearestEven_eq_floor_or (q := q) with ⟨heq, hrest, -⟩ | ⟨heq, hrest, -⟩
  · have hhalf : ((q.num % q.den : Nat) : ℚ) / q.den ≤ 1 / 2 := by
      rw [div_le_div_iff₀ hden two_pos, mul_comm, one_mul]
      exact_mod_cast hrest
    rw [heq]
    constructor <;> linarith
  · have hhalf : 1 / 2 ≤ ((q.num % q.den : Nat) : ℚ) / q.den := by
      rw [div_le_div_iff₀ two_pos hden, one_mul, mul_comm]
      exact_mod_cast hrest
    rw [heq, Nat.cast_add, Nat.cast_one]
    constructor <;> linarith

/-- **Of two that are as near, the nearest natural number is the even one.** -/
theorem nearestEven_even (h : 0 < q.den) (htie : |q.value - q.nearestEven| = 1 / 2) :
    q.nearestEven % 2 = 0 := by
  have hne : (q.den : ℚ) ≠ 0 := Nat.cast_ne_zero.mpr (Nat.ne_of_gt h)
  rw [value_eq_floor_add h] at htie
  rcases nearestEven_eq_floor_or (q := q) with ⟨heq, -, heven⟩ | ⟨heq, -, heven⟩
  all_goals
    rw [heq] at htie ⊢
    refine heven ?_
  · rw [add_sub_cancel_left, abs_of_nonneg (by positivity), div_eq_div_iff hne two_ne_zero,
      one_mul, mul_comm] at htie
    exact_mod_cast htie
  · have hle : ((q.num % q.den : Nat) : ℚ) / q.den ≤ 1 := by
      rw [div_le_one (Nat.cast_pos.mpr h)]
      exact Nat.cast_le.mpr (Nat.le_of_lt (Nat.mod_lt _ h))
    rw [Nat.cast_add, Nat.cast_one, add_sub_add_left_eq_sub, abs_sub_comm,
      abs_of_nonneg (by linarith)] at htie
    have hhalf : ((q.num % q.den : Nat) : ℚ) / q.den = 1 / 2 := by linarith
    rw [div_eq_div_iff hne two_ne_zero, one_mul, mul_comm] at hhalf
    exact_mod_cast hhalf

/-- A quotient that is a natural number is the nearest one to itself. -/
theorem nearestEven_of_value_eq (h : 0 < q.den) {n : Nat} (hn : q.value = n) :
    q.nearestEven = n := by
  have hnear := nearestEven_near h
  rw [hn, abs_le] at hnear
  have hlow : (n : ℚ) < (q.nearestEven : ℚ) + 1 := by linarith
  have hhigh : (q.nearestEven : ℚ) < (n : ℚ) + 1 := by linarith
  norm_cast at hlow hhigh
  omega

/-! ### The nearest multiple of a power -/

variable {base : Nat}

theorem abs_value_sub_multiple (hbase : 0 < base) (q : Ratio) (e : Int) (m : Nat) :
    |(q.scale base (-e)).value - m| * base ^ e = |q.value - m * base ^ e| := by
  have hpos : (0 : ℚ) < base ^ e := zpow_pos (Nat.cast_pos.mpr hbase) _
  have hscaled : (q.scale base (-e)).value * base ^ e = q.value := by
    rw [value_scale hbase, zpow_neg, inv_mul_cancel_right₀ (ne_of_gt hpos)]
  rw [← hscaled, ← sub_mul, abs_mul, abs_of_pos hpos]

/-- **The nearest multiple of a power is at most half of the power away.** -/
theorem multiple_near (hbase : 0 < base) (h : 0 < q.den) (e : Int) :
    |q.value - (q.scale base (-e)).nearestEven * base ^ e| ≤ base ^ e / 2 := by
  have hpos : (0 : ℚ) < base ^ e := zpow_pos (Nat.cast_pos.mpr hbase) _
  have hnear := mul_le_mul_of_nonneg_right (nearestEven_near (den_scale_pos h hbase (-e))) hpos.le
  rw [abs_value_sub_multiple hbase] at hnear
  linarith

/-- **Of two multiples of a power that are as near, the nearest one is the even one.** -/
theorem multiple_even (hbase : 0 < base) (h : 0 < q.den) {e : Int}
    (htie : |q.value - (q.scale base (-e)).nearestEven * base ^ e| = base ^ e / 2) :
    (q.scale base (-e)).nearestEven % 2 = 0 := by
  have hne : (base : ℚ) ^ e ≠ 0 := ne_of_gt (zpow_pos (Nat.cast_pos.mpr hbase) _)
  refine nearestEven_even (den_scale_pos h hbase _) (mul_right_cancel₀ hne ?_)
  rw [abs_value_sub_multiple hbase, htie]
  ring

end NearestEven

end ShapeContract.Ratio
