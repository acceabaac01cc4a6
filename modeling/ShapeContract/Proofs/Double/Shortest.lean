import ShapeContract.Double.Shortest
import ShapeContract.Proofs.Double.Nearest

/-!
# The shortest decimal of a double

The shortest decimal is found on the first grid of decimals that has one which the double covers.
Such a grid is always found: on that of the seventeenth digit the nearest decimal will do, because
17 digits tell any two doubles apart (`gapBelow_of_seventeen_digits`).  So the double covers its
shortest decimal (`covers_shortest`).

A natural number lies on the grid of the units.  The search for one that is a double ends there if
not before, and so its shortest decimal has no negative exponent (`exponent_shortest_nonneg`).
-/

namespace ShapeContract

namespace Decimal

variable {x : Decimal}

/-! ### Decimals as rational numbers -/

theorem value_value (x : Decimal) : x.value.value = x.digits * 10 ^ x.exponent := by
  rw [value, Ratio.value_scale (by decide), Ratio.value_natural, Nat.cast_ofNat]

theorem den_value_pos (x : Decimal) : 0 < x.value.den := Ratio.den_scale_pos one_pos (by decide) _

theorem digitCount_eq (n : Nat) : digitCount n = (Nat.toDigits 10 n).length := by
  rw [digitCount, Nat.repr_eq_ofList_toDigits, String.length_ofList]

theorem digitCount_pos (n : Nat) : 0 < digitCount n := by
  rw [digitCount_eq]
  exact List.length_pos_of_ne_nil Nat.toDigits_ne_nil

theorem digitCount_le_iff {n k : Nat} (hk : 0 < k) : digitCount n ≤ k ↔ n < 10 ^ k := by
  rw [digitCount_eq]
  exact Nat.length_toDigits_le_iff (by decide) hk

theorem lt_pow_digitCount (n : Nat) : n < 10 ^ digitCount n :=
  (digitCount_le_iff (digitCount_pos n)).mp (le_refl _)

theorem pow_digitCount_le {n : Nat} (hn : n ≠ 0) : 10 ^ (digitCount n - 1) ≤ n := by
  rcases Nat.eq_zero_or_pos (digitCount n - 1) with hzero | hpos
  · rw [hzero, pow_zero]
    exact Nat.pos_of_ne_zero hn
  · by_contra hlt
    have := (digitCount_le_iff hpos).mpr (not_le.mp hlt)
    omega

/-- Moving zeros from the digits to the exponent changes neither the number nor the order of
exponents. -/
theorem trimUpTo_spec (fuel : Nat) (x : Decimal) :
    (trimUpTo fuel x).value.value = x.value.value ∧ x.exponent ≤ (trimUpTo fuel x).exponent := by
  induction fuel generalizing x with
  | zero => exact ⟨rfl, le_refl _⟩
  | succ fuel ih =>
    rw [trimUpTo]
    split
    · rename_i hzero
      obtain ⟨hvalue, hexp⟩ := ih ⟨x.digits / 10, x.exponent + 1⟩
      have hdigits : (x.digits : ℚ) = (x.digits / 10 : Nat) * 10 := by
        exact_mod_cast (Nat.div_mul_cancel (Nat.dvd_of_mod_eq_zero hzero.2)).symm
      refine ⟨?_, le_trans (Int.le.intro 1 rfl) hexp⟩
      rw [hvalue, value_value, value_value, hdigits, zpow_add_one₀ (by norm_num)]
      ring
    · exact ⟨rfl, le_refl _⟩

end Decimal

open Decimal in
/-- The logarithm is the exponent of a power of ten that is no larger. -/
theorem Ratio.zpow_log10_le {q : Ratio} (hnum : q.num ≠ 0) (hden : 0 < q.den) :
    (10 : ℚ) ^ q.log10 ≤ q.value := by
  have hden' : (0 : ℚ) < q.den := Nat.cast_pos.mpr hden
  unfold log10
  split
  · rename_i hle
    have hfloor : q.num / q.den ≠ 0 := Nat.ne_of_gt (Nat.div_pos hle hden)
    have hcount := digitCount_pos (q.num / q.den)
    have hpow : 10 ^ (digitCount (q.num / q.den) - 1) * q.den ≤ q.num :=
      le_trans (Nat.mul_le_mul_right _ (pow_digitCount_le hfloor)) (Nat.div_mul_le_self _ _)
    rw [value, le_div_iff₀ hden', show (digitCount (q.num / q.den) : Int) - 1 =
      (digitCount (q.num / q.den) - 1 : Nat) by omega, zpow_natCast]
    exact_mod_cast hpow
  · rename_i hlt
    have hcount := digitCount_pos (q.den / q.num)
    -- a quotient below one lies above the power of the digits of its inverse
    have key : ∀ k : Nat, q.den ≤ q.num * 10 ^ k → (10 : ℚ) ^ (-(k : Int)) ≤ q.value := by
      intro k hk
      rw [zpow_neg, zpow_natCast, value, inv_le_iff_one_le_mul₀ (by positivity), div_mul_eq_mul_div,
        le_div_iff₀ hden', one_mul]
      exact_mod_cast hk
    dsimp only
    split
    · rename_i hpow
      rw [Nat.pow_eq] at hpow
      have := key _ hpow
      rwa [show ((digitCount (q.den / q.num) - 1 : Nat) : Int) =
        (digitCount (q.den / q.num) : Int) - 1 by omega] at this
    · refine key _ (le_of_lt ?_)
      calc q.den < q.num * (q.den / q.num + 1) :=
            Nat.lt_mul_div_succ _ (Nat.pos_of_ne_zero hnum)
        _ ≤ q.num * 10 ^ digitCount (q.den / q.num) :=
            Nat.mul_le_mul_left _ (lt_pow_digitCount _)

namespace Double

variable {d : Double} {x : Decimal}

/-! ### Decimals that a double covers -/

theorem den_magnitude_pos (d : Double) : 0 < d.magnitude.den :=
  Ratio.den_scale_pos one_pos two_pos _

theorem num_magnitude_ne_zero (hd : d.significand ≠ 0) : d.magnitude.num ≠ 0 := by
  intro hzero
  have hsize := d.value_magnitude
  rw [Ratio.value, hzero, Nat.cast_zero, zero_div] at hsize
  exact hd (size_eq_zero_iff.mp hsize.symm)

/-- The two midpoints are half the way to the neighbours. -/
theorem value_midpoints (hd : d.significand ≠ 0) :
    d.midpoints.1.value = d.size - d.gapBelow / 2 ∧
      d.midpoints.2.value = d.size + d.gapAbove / 2 := by
  have hone : 1 ≤ d.significand := Nat.pos_of_ne_zero hd
  have hfour : (2 : ℚ) ^ d.exponent = 4 * 2 ^ (d.exponent - 2) := by
    rw [two_zpow_eq, two_zpow_eq (d.exponent - 1), sub_sub]
    norm_num
    ring
  unfold midpoints
  dsimp only
  rw [Ratio.value_scale two_pos, Ratio.value_scale two_pos, Ratio.value_natural,
    Ratio.value_natural, Nat.cast_ofNat, size, gapAbove, gapBelow]
  constructor
  · split
    · rw [Nat.cast_sub (by omega), two_zpow_eq (d.exponent - 1), sub_sub, hfour]
      push_cast
      ring
    · rw [Nat.cast_sub (by omega), hfour]
      push_cast
      ring
  · rw [hfour]
    push_cast
    ring

/-- **A decimal rounds to a double exactly when the double covers it.** -/
theorem roundsTo_iff (hd : d.significand ≠ 0) : d.roundsTo x = true ↔ d.Covers x.value.value := by
  obtain ⟨hlow, hhigh⟩ := value_midpoints hd
  have hpos : 0 < d.midpoints.1.den ∧ 0 < d.midpoints.2.den :=
    ⟨Ratio.den_scale_pos one_pos two_pos _, Ratio.den_scale_pos one_pos two_pos _⟩
  rw [Covers, ← hlow, ← hhigh, roundsTo]
  dsimp only
  split
  · rw [Bool.and_eq_true, bne_iff_ne, bne_iff_ne, Ratio.compare_ne_gt_iff hpos.1 x.den_value_pos,
      Ratio.compare_ne_gt_iff x.den_value_pos hpos.2]
  · rw [Bool.and_eq_true, beq_iff_eq, beq_iff_eq, Ratio.compare_eq_lt_iff hpos.1 x.den_value_pos,
      Ratio.compare_eq_lt_iff x.den_value_pos hpos.2]

/-! ### The search -/

/-- A decimal that is found rounds to the double, whichever of the two neighbours it is. -/
theorem onGrid?_eq_some {e : Int} (h : d.onGrid? e = some x) :
    d.roundsTo x = true ∧ x.exponent = e := by
  have key : ∀ y z : Decimal, y.exponent = e → z.exponent = e →
      (if d.roundsTo y then some y else if d.roundsTo z then some z else none) = some x →
      d.roundsTo x = true ∧ x.exponent = e := by
    intro y z hy hz hx
    split at hx
    · rename_i hrounds
      cases hx
      exact ⟨hrounds, hy⟩
    · split at hx
      · rename_i hrounds
        cases hx
        exact ⟨hrounds, hz⟩
      · cases hx
  unfold onGrid? at h
  dsimp only at h
  refine key _ _ ?_ ?_ h <;> split <;> rfl

/-- A grid has a decimal that rounds to the double if the nearest one does. -/
theorem isSome_onGrid? {e : Int}
    (h : d.roundsTo ⟨(d.magnitude.scale 10 (-e)).nearestEven, e⟩ = true) :
    (d.onGrid? e).isSome := by
  unfold onGrid?
  dsimp only
  rcases Ratio.nearestEven_eq_floor_or (q := d.magnitude.scale 10 (-e)) with
    ⟨heq, -⟩ | ⟨heq, -⟩ <;> rw [heq] at h ⊢
  · rw [if_pos rfl, if_pos h]
    rfl
  · rw [if_neg (Nat.succ_ne_self _), if_pos h]
    rfl

/-- The search ends on a grid no finer than one that has a decimal. -/
theorem exists_firstOnGrid {g : Int} (hg : (d.onGrid? g).isSome) (count : Nat) :
    ∀ e : Int, e - count < g → g ≤ e →
      ∃ e', g ≤ e' ∧ d.onGrid? e' = some (d.firstOnGrid count e) := by
  induction count with
  | zero =>
    intro e hlow hhigh
    omega
  | succ count ih =>
    intro e hlow hhigh
    cases he : d.onGrid? e with
    | some x => exact ⟨e, hhigh, by rw [firstOnGrid, he]⟩
    | none =>
      rw [firstOnGrid, he]
      refine ih (e - 1) (by omega) ?_
      have hne : g ≠ e := by
        rintro rfl
        rw [he] at hg
        cases hg
      omega

theorem shortest_spec (hd : d.significand ≠ 0) {g : Int} (hg : (d.onGrid? g).isSome)
    (hlow : d.magnitude.log10 - 17 < g) (hhigh : g ≤ d.magnitude.log10) :
    d.Covers d.shortest.value.value ∧ g ≤ d.shortest.exponent := by
  obtain ⟨e', he', hfound⟩ := exists_firstOnGrid hg 17 _ hlow hhigh
  obtain ⟨hrounds, hexp⟩ := onGrid?_eq_some hfound
  obtain ⟨hvalue, htrim⟩ := Decimal.trimUpTo_spec
    (Decimal.digitCount (d.firstOnGrid 17 d.magnitude.log10).digits)
    (d.firstOnGrid 17 d.magnitude.log10)
  have hshortest : d.shortest = (d.firstOnGrid 17 d.magnitude.log10).trim := by
    rw [shortest, if_neg]
    rwa [isZero, beq_iff_eq]
  rw [hshortest, Decimal.trim, hvalue]
  exact ⟨(roundsTo_iff hd).mp hrounds, by omega⟩

/-! ### Seventeen digits -/

/-- **Seventeen digits tell a double from its neighbours.** -/
theorem gapBelow_of_seventeen_digits {e : Int} (h : (10 : ℚ) ^ (e + 16) ≤ d.size) :
    (10 : ℚ) ^ e < d.gapBelow := by
  have hsplit : (10 : ℚ) ^ (e + 16) = 10 ^ e * 10 ^ 16 := by
    rw [zpow_add₀ (by norm_num)]
    norm_cast
  have hsig : (d.significand : ℚ) < significandBound := Nat.cast_lt.mpr d.significand_lt
  have hpos : (0 : ℚ) < 2 ^ d.exponent := zpow_pos two_pos _
  rw [hsplit, size] at h
  unfold gapBelow
  split
  · rename_i hpower
    rw [hpower.1, two_zpow_eq d.exponent] at h
    have hpos' : (0 : ℚ) < 2 ^ (d.exponent - 1) := zpow_pos two_pos _
    norm_num at h
    linarith
  · have hmul := mul_lt_mul_of_pos_right hsig hpos
    norm_num at h hmul
    linarith

/-- The nearest decimal of 17 digits rounds to the double. -/
theorem isSome_onGrid?_of_seventeen_digits (hd : d.significand ≠ 0) :
    (d.onGrid? (d.magnitude.log10 - 16)).isSome := by
  have hlog : (10 : ℚ) ^ (d.magnitude.log10 - 16 + 16) ≤ d.size := by
    rw [sub_add_cancel, ← value_magnitude]
    exact Ratio.zpow_log10_le (num_magnitude_ne_zero hd) d.den_magnitude_pos
  have hgap := gapBelow_of_seventeen_digits hlog
  have habove := d.gapBelow_le_gapAbove
  have hnear := Ratio.multiple_near (show 0 < 10 by decide) d.den_magnitude_pos
    (d.magnitude.log10 - 16)
  rw [value_magnitude, Nat.cast_ofNat, abs_le] at hnear
  refine isSome_onGrid? ((roundsTo_iff hd).mpr ?_)
  rw [Decimal.value_value]
  exact covers_of_lt (by linarith) (by linarith)

/-- **A double covers its shortest decimal.** -/
theorem covers_shortest (hd : d.significand ≠ 0) : d.Covers d.shortest.value.value :=
  (shortest_spec hd (isSome_onGrid?_of_seventeen_digits hd) (by omega) (by omega)).1

/-! ### Doubles that are natural numbers -/

variable {n : Nat}

theorem size_eq_natCast_iff : d.size = n ↔ d.magnitude.num = n * d.magnitude.den := by
  have hden : (d.magnitude.den : ℚ) ≠ 0 := Nat.cast_ne_zero.mpr (Nat.ne_of_gt d.den_magnitude_pos)
  rw [← value_magnitude, Ratio.value, div_eq_iff hden, ← Nat.cast_mul, Nat.cast_inj]

theorem natural?_eq_some_iff : d.natural? = some n ↔ d.size = n := by
  rw [size_eq_natCast_iff, natural?]
  constructor
  · intro h
    split at h
    · rename_i hmod
      rw [← Option.some.inj h, Nat.div_mul_cancel (Nat.dvd_of_mod_eq_zero hmod)]
    · cases h
  · intro h
    rw [h, Nat.mul_mod_left, if_pos rfl, Nat.mul_div_cancel _ d.den_magnitude_pos]

/-- A natural number rounds to itself on the grid of the units. -/
theorem isSome_onGrid?_zero (hn : d.size = n) (hd : d.significand ≠ 0) :
    (d.onGrid? 0).isSome := by
  have hunits : (d.magnitude.scale 10 (-0)).nearestEven = n := by
    refine Ratio.nearestEven_of_value_eq (Ratio.den_scale_pos d.den_magnitude_pos (by decide) _) ?_
    rw [Ratio.value_scale (by decide), value_magnitude, neg_zero, zpow_zero, mul_one, hn]
  refine isSome_onGrid? ((roundsTo_iff hd).mpr ?_)
  rw [hunits, Decimal.value_value, zpow_zero, mul_one, ← hn]
  exact d.covers_size

/-- **The shortest decimal of a natural number has no negative exponent.** -/
theorem exponent_shortest_nonneg (hn : d.size = n) (hd : d.significand ≠ 0) :
    0 ≤ d.shortest.exponent := by
  have hlog : 0 ≤ d.magnitude.log10 := by
    have hle : d.magnitude.den ≤ d.magnitude.num := by
      have hpos : 0 < n := by
        rw [← Nat.cast_pos (α := ℚ), ← hn]
        exact size_pos hd
      rw [size_eq_natCast_iff.mp hn]
      exact Nat.le_mul_of_pos_left _ hpos
    have := Decimal.digitCount_pos (d.magnitude.num / d.magnitude.den)
    rw [Ratio.log10, if_pos hle]
    omega
  -- the search ends at the 17th digit or at the units, whichever comes first
  rcases le_or_gt d.magnitude.log10 16 with hsmall | hlarge
  · exact (shortest_spec hd (isSome_onGrid?_zero hn hd) (by omega) hlog).2
  · have := (shortest_spec hd (isSome_onGrid?_of_seventeen_digits hd) (by omega) (by omega)).2
    omega

end Double

end ShapeContract
