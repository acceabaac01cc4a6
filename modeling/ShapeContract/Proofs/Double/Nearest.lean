import ShapeContract.Proofs.Double.Ratio

/-!
# The nearest double

`Double.value` is the rational number that a double stands for, and `Double.size` its magnitude.
`IsNearest d q` says of a double and a number that no double is nearer to the number, and that `d`
has an even significand if another one is just as near.

Between a double and its neighbours there is no other: the next larger one is `gapAbove` away
(`size_add_gapAbove_le`), the next smaller one `gapBelow` (`size_add_gapBelow_le`).  Two facts
follow, and nothing else is used of the format:

* a double is nearest to the numbers between the midpoints towards its neighbours, which count if
  its significand is even (`Covers.isNearest`);
* of two doubles with even significands one does not neighbour the other
  (`exists_between_of_even`), so the nearest double of a number is unique
  (`IsNearest.value_unique`), and a larger number has no smaller nearest double
  (`IsNearest.value_mono`).
-/

namespace ShapeContract.Double

variable {c d : Double} {q r : ℚ}

/-! ### Values -/

/-- The magnitude. -/
def size (d : Double) : ℚ := d.significand * 2 ^ d.exponent

/-- A magnitude with a sign. -/
def signed (negative : Bool) (q : ℚ) : ℚ := if negative then -q else q

/-- The number that a double stands for. -/
def value (d : Double) : ℚ := signed d.negative d.size

@[simp] theorem signed_false (q : ℚ) : signed false q = q := rfl

@[simp] theorem signed_true (q : ℚ) : signed true q = -q := rfl

theorem value_magnitude (d : Double) : d.magnitude.value = d.size := by
  rw [magnitude, Ratio.value_scale two_pos, Ratio.value_natural, Nat.cast_ofNat, size]

theorem size_nonneg (d : Double) : 0 ≤ d.size := by
  unfold size
  positivity

theorem size_eq_zero_iff : d.size = 0 ↔ d.significand = 0 := by
  have hpow : (2 : ℚ) ^ d.exponent ≠ 0 := zpow_ne_zero _ two_ne_zero
  rw [size, mul_eq_zero, or_iff_left hpow, Nat.cast_eq_zero]

theorem size_pos (h : d.significand ≠ 0) : 0 < d.size :=
  lt_of_le_of_ne (size_nonneg d) (Ne.symm (mt size_eq_zero_iff.mp h))

theorem significand_lt (d : Double) : d.significand < significandBound := d.canonical.1

theorem normalBound_le (h : c.exponent < d.exponent) : normalBound ≤ d.significand := by
  have hc := c.canonical.2.1
  rcases d.canonical.2.2.2 with hd | hd
  · exact hd
  · omega

/-! ### Neighbours -/

/-- The distance to the next larger magnitude. -/
def gapAbove (d : Double) : ℚ := 2 ^ d.exponent

/-- The distance to the next smaller magnitude: below a power of two doubles lie closer together. -/
def gapBelow (d : Double) : ℚ :=
  if d.significand = normalBound ∧ -1074 < d.exponent then 2 ^ (d.exponent - 1)
  else 2 ^ d.exponent

theorem gapAbove_pos (d : Double) : 0 < d.gapAbove := zpow_pos two_pos _

theorem two_zpow_eq (e : Int) : (2 : ℚ) ^ e = 2 * 2 ^ (e - 1) := by
  rw [← zpow_one_add₀ two_ne_zero]
  congr 1
  omega

theorem gapBelow_pos (d : Double) : 0 < d.gapBelow := by
  unfold gapBelow
  split <;> exact zpow_pos two_pos _

theorem gapBelow_le_gapAbove (d : Double) : d.gapBelow ≤ d.gapAbove := by
  unfold gapBelow gapAbove
  split
  · exact zpow_le_zpow_right₀ one_le_two (by omega)
  · exact le_refl _

/-- A larger exponent makes a larger magnitude. -/
theorem size_lt_of_exponent_lt (h : c.exponent < d.exponent) : c.size < d.size := by
  have hc : (c.significand : ℚ) < 2 * normalBound := by
    exact_mod_cast c.significand_lt
  have hd : (normalBound : ℚ) ≤ d.significand := by
    exact_mod_cast normalBound_le h
  have hpow : (2 : ℚ) ^ c.exponent ≤ 2 ^ (d.exponent - 1) :=
    zpow_le_zpow_right₀ one_le_two (by omega)
  calc c.size < 2 * normalBound * 2 ^ c.exponent :=
        mul_lt_mul_of_pos_right hc (zpow_pos two_pos _)
    _ ≤ 2 * normalBound * 2 ^ (d.exponent - 1) := mul_le_mul_of_nonneg_left hpow (by positivity)
    _ = normalBound * 2 ^ d.exponent := by rw [two_zpow_eq d.exponent]; ring
    _ ≤ d.size := mul_le_mul_of_nonneg_right hd (zpow_nonneg zero_le_two _)

/-- Doubles of one magnitude have the same significand and the same exponent. -/
theorem parts_eq_of_size_eq (h : c.size = d.size) :
    c.significand = d.significand ∧ c.exponent = d.exponent := by
  have he : c.exponent = d.exponent := by
    rcases lt_trichotomy c.exponent d.exponent with hlt | heq | hgt
    · exact absurd h (ne_of_lt (size_lt_of_exponent_lt hlt))
    · exact heq
    · exact absurd h (ne_of_gt (size_lt_of_exponent_lt hgt))
  refine ⟨?_, he⟩
  rw [size, size, he] at h
  exact_mod_cast mul_right_cancel₀ (zpow_ne_zero _ two_ne_zero) h

/-- **Nothing lies between a magnitude and the next larger one.** -/
theorem size_add_gapAbove_le (h : d.size < c.size) : d.size + d.gapAbove ≤ c.size := by
  have he : d.exponent ≤ c.exponent := by
    by_contra hlt
    exact absurd h (not_lt.mpr (le_of_lt (size_lt_of_exponent_lt (not_le.mp hlt))))
  obtain ⟨k, hk⟩ : ∃ k : Nat, c.exponent = d.exponent + k :=
    ⟨(c.exponent - d.exponent).toNat, by omega⟩
  have hpos : (0 : ℚ) < 2 ^ d.exponent := zpow_pos two_pos _
  -- both are multiples of the same power of two
  have hc : c.size = (c.significand * 2 ^ k : Nat) * 2 ^ d.exponent := by
    rw [size, hk, zpow_add₀ two_ne_zero, zpow_natCast, Nat.cast_mul, Nat.cast_pow, Nat.cast_ofNat]
    ring
  rw [hc, size] at h
  have hlt : d.significand < c.significand * 2 ^ k := by
    exact_mod_cast lt_of_mul_lt_mul_right h hpos.le
  calc d.size + d.gapAbove = ((d.significand + 1 : Nat) : ℚ) * 2 ^ d.exponent := by
        rw [size, gapAbove, Nat.cast_add, Nat.cast_one]
        ring
    _ ≤ (c.significand * 2 ^ k : Nat) * 2 ^ d.exponent :=
        mul_le_mul_of_nonneg_right (Nat.cast_le.mpr hlt) hpos.le
    _ = c.size := hc.symm

/-- **Nothing lies between a magnitude and the next smaller one.** -/
theorem size_add_gapBelow_le (h : c.size < d.size) : c.size + d.gapBelow ≤ d.size := by
  have hstep := size_add_gapAbove_le h
  rcases le_or_gt d.exponent c.exponent with he | he
  · have hgap : d.gapBelow ≤ c.gapAbove :=
      le_trans (gapBelow_le_gapAbove d) (zpow_le_zpow_right₀ one_le_two he)
    linarith
  · -- below the exponent of `d` no magnitude exceeds this one
    have hsmall : (c.significand : ℚ) + 1 ≤ 2 * normalBound := by
      exact_mod_cast c.significand_lt
    have hpow : (2 : ℚ) ^ c.exponent ≤ 2 ^ (d.exponent - 1) :=
      zpow_le_zpow_right₀ one_le_two (by omega)
    have hpos : (0 : ℚ) < 2 ^ (d.exponent - 1) := zpow_pos two_pos _
    have hc : c.size ≤ (2 * normalBound - 1) * 2 ^ (d.exponent - 1) := by
      calc c.size ≤ c.significand * 2 ^ (d.exponent - 1) :=
            mul_le_mul_of_nonneg_left hpow (Nat.cast_nonneg _)
        _ ≤ (2 * normalBound - 1) * 2 ^ (d.exponent - 1) :=
            mul_le_mul_of_nonneg_right (by linarith) hpos.le
    have hd : d.size = 2 * d.significand * 2 ^ (d.exponent - 1) := by
      rw [size, two_zpow_eq d.exponent]
      ring
    have hnormal := normalBound_le he
    unfold gapBelow
    split
    · rename_i hpower
      rw [hd, hpower.1]
      linarith
    · rename_i hpower
      have hsig : normalBound + 1 ≤ d.significand := by
        have := c.canonical.2.1
        have : d.significand ≠ normalBound := fun hm => hpower ⟨hm, by omega⟩
        omega
      have hsig' : ((normalBound : Nat) : ℚ) + 1 ≤ d.significand := by
        exact_mod_cast hsig
      have hmul := mul_le_mul_of_nonneg_right hsig' hpos.le
      rw [hd, two_zpow_eq d.exponent]
      linarith

/-! ### Rounding intervals -/

/-- A number lies between the midpoints towards the neighbours of a double. The midpoints belong to
the doubles with an even significand. -/
def Covers (d : Double) (q : ℚ) : Prop :=
  if d.significand % 2 = 0 then d.size - d.gapBelow / 2 ≤ q ∧ q ≤ d.size + d.gapAbove / 2
  else d.size - d.gapBelow / 2 < q ∧ q < d.size + d.gapAbove / 2

theorem covers_of_lt (hlow : d.size - d.gapBelow / 2 < q) (hhigh : q < d.size + d.gapAbove / 2) :
    d.Covers q := by
  unfold Covers
  split
  · exact ⟨hlow.le, hhigh.le⟩
  · exact ⟨hlow, hhigh⟩

theorem covers_of_even (heven : d.significand % 2 = 0) (hlow : d.size - d.gapBelow / 2 ≤ q)
    (hhigh : q ≤ d.size + d.gapAbove / 2) : d.Covers q := by
  rw [Covers, if_pos heven]
  exact ⟨hlow, hhigh⟩

/-- A double with neighbours at one distance covers what is within half of it. -/
theorem covers_of_abs_le (hgap : d.gapBelow = d.gapAbove) (hnear : |q - d.size| ≤ d.gapAbove / 2)
    (htie : |q - d.size| = d.gapAbove / 2 → d.significand % 2 = 0) : d.Covers q := by
  rcases eq_or_lt_of_le hnear with heq | hlt
  · rw [abs_le] at hnear
    exact covers_of_even (htie heq) (by linarith) (by linarith)
  · rw [abs_lt] at hlt
    exact covers_of_lt (by linarith) (by linarith)

theorem covers_size (d : Double) : d.Covers d.size := by
  have habove := d.gapAbove_pos
  have hbelow := d.gapBelow_pos
  exact covers_of_lt (by linarith) (by linarith)

theorem Covers.bounds (h : d.Covers q) :
    d.size - d.gapBelow / 2 ≤ q ∧ q ≤ d.size + d.gapAbove / 2 := by
  unfold Covers at h
  split at h
  · exact h
  · exact ⟨h.1.le, h.2.le⟩

/-- A double other than zero covers positive numbers only. -/
theorem Covers.pos (h : d.Covers q) (hd : d.significand ≠ 0) : 0 < q := by
  have hone : (1 : ℚ) ≤ d.significand := by
    exact_mod_cast Nat.pos_of_ne_zero hd
  have hsize : d.gapAbove ≤ d.size := by
    rw [gapAbove, size]
    exact le_mul_of_one_le_left (zpow_nonneg zero_le_two _) hone
  linarith [h.bounds.1, d.gapBelow_le_gapAbove, d.gapBelow_pos]

/-- A midpoint belongs to a double with an even significand. -/
theorem Covers.even_of_eq (h : d.Covers q)
    (hq : q = d.size - d.gapBelow / 2 ∨ q = d.size + d.gapAbove / 2) : d.significand % 2 = 0 := by
  unfold Covers at h
  split at h
  · assumption
  · rcases hq with hq | hq
    · exact absurd hq.symm (ne_of_lt h.1)
    · exact absurd hq (ne_of_lt h.2)

/-! ### Nearest doubles -/

/-- No double is nearer to the number than this one. If another one is just as near, this one has
an even significand. -/
def IsNearest (d : Double) (q : ℚ) : Prop :=
  ∀ c : Double, |q - d.value| < |q - c.value| ∨
    (|q - d.value| = |q - c.value| ∧ (c.value = d.value ∨ d.significand % 2 = 0))

theorem isNearest_value (d : Double) : d.IsNearest d.value := by
  intro c
  rw [sub_self, abs_zero]
  by_cases hc : c.value = d.value
  · exact Or.inr ⟨by rw [hc, sub_self, abs_zero], Or.inl hc⟩
  · exact Or.inl (abs_pos.mpr (sub_ne_zero.mpr (Ne.symm hc)))

theorem IsNearest.le (h : d.IsNearest q) (c : Double) : |q - d.value| ≤ |q - c.value| := by
  rcases h c with hlt | ⟨heq, -⟩
  · exact hlt.le
  · exact heq.le

/-- No magnitude is nearer to a number than that of the double that covers it. -/
theorem Covers.size_nearest (h : d.Covers q) (c : Double) :
    |q - d.size| < |q - c.size| ∨
      (|q - d.size| = |q - c.size| ∧ (c.size = d.size ∨ d.significand % 2 = 0)) := by
  obtain ⟨hlow, hhigh⟩ := h.bounds
  have habove := d.gapAbove_pos
  have hbelow := d.gapBelow_pos
  rcases lt_trichotomy c.size d.size with hlt | heq | hgt
  · have hstep := size_add_gapBelow_le hlt
    rw [abs_of_nonneg (show 0 ≤ q - c.size by linarith)]
    rcases eq_or_lt_of_le hlow with hmid | hmid
    · have heven := h.even_of_eq (Or.inl hmid.symm)
      rw [abs_of_nonpos (show q - d.size ≤ 0 by linarith)]
      rcases eq_or_lt_of_le (show -(q - d.size) ≤ q - c.size by linarith) with htie | hless
      · exact Or.inr ⟨htie, Or.inr heven⟩
      · exact Or.inl hless
    · exact Or.inl (abs_lt.mpr ⟨by linarith, by linarith⟩)
  · exact Or.inr ⟨by rw [heq], Or.inl heq⟩
  · have hstep := size_add_gapAbove_le hgt
    rw [abs_of_nonpos (show q - c.size ≤ 0 by linarith)]
    rcases eq_or_lt_of_le hhigh with hmid | hmid
    · have heven := h.even_of_eq (Or.inr hmid)
      rw [abs_of_nonneg (show 0 ≤ q - d.size by linarith)]
      rcases eq_or_lt_of_le (show q - d.size ≤ -(q - c.size) by linarith) with htie | hless
      · exact Or.inr ⟨htie, Or.inr heven⟩
      · exact Or.inl hless
    · exact Or.inl (abs_lt.mpr ⟨by linarith, by linarith⟩)

theorem abs_signed_sub_signed (s : Bool) (q r : ℚ) : |signed s q - signed s r| = |q - r| := by
  cases s with
  | false => rfl
  | true => rw [signed_true, signed_true, neg_sub_neg, abs_sub_comm]

theorem abs_signed_sub_signed_not (s : Bool) (hq : 0 ≤ q) (hr : 0 ≤ r) :
    |signed s q - signed (!s) r| = q + r := by
  cases s with
  | false =>
    rw [Bool.not_false, signed_false, signed_true, sub_neg_eq_add, abs_of_nonneg (by linarith)]
  | true =>
    rw [Bool.not_true, signed_true, signed_false, abs_of_nonpos (by linarith)]
    ring

theorem signed_zero (s : Bool) : signed s 0 = 0 := by
  cases s with
  | false => rfl
  | true => exact neg_zero

/-- A double other than zero has one of the two signs, and zero has both. -/
theorem value_eq_or (c : Double) (s : Bool) :
    c.value = signed s c.size ∨ c.value = signed (!s) c.size ∧ 0 < c.size := by
  rcases eq_or_lt_of_le (size_nonneg c) with hzero | hpos
  · left
    rw [value, ← hzero, signed_zero, signed_zero]
  · by_cases hs : c.negative = s
    · exact Or.inl (by rw [value, hs])
    · exact Or.inr ⟨by rw [value, Bool.eq_not_of_ne hs], hpos⟩

/-- **A double is nearest to the numbers that it covers**, with its own sign. -/
theorem Covers.isNearest (h : d.Covers q) (hq : 0 < q) : d.IsNearest (signed d.negative q) := by
  intro c
  have hd : |signed d.negative q - d.value| = |q - d.size| := abs_signed_sub_signed _ _ _
  rw [hd]
  rcases c.value_eq_or d.negative with hc | ⟨hc, hpos⟩
  · rw [hc, abs_signed_sub_signed]
    rcases h.size_nearest c with hlt | ⟨heq, hsize | heven⟩
    · exact Or.inl hlt
    · exact Or.inr ⟨heq, Or.inl (by rw [hsize, value])⟩
    · exact Or.inr ⟨heq, Or.inr heven⟩
  · -- the magnitude of `c` is nearer than `c`, which has the other sign
    have hle : |q - d.size| ≤ |q - c.size| := by
      rcases h.size_nearest c with hlt | ⟨heq, -⟩
      · exact hlt.le
      · exact heq.le
    have hfar : |q - c.size| < q + c.size := abs_lt.mpr ⟨by linarith, by linarith⟩
    rw [hc, abs_signed_sub_signed_not _ hq.le (size_nonneg c)]
    exact Or.inl (lt_of_le_of_lt hle hfar)

/-! ### There is no second nearest double -/

/-- Between two even significands there is an odd one. -/
theorem exists_size_between (hlt : c.size < d.size) (hc : c.significand % 2 = 0)
    (hd : d.significand % 2 = 0) (negative : Bool) :
    ∃ b : Double, b.negative = negative ∧ c.size < b.size ∧ b.size < d.size := by
  have hcanonical : Canonical (c.significand + 1) c.exponent := by
    obtain ⟨hsig, hlow, hhigh, hnormal⟩ := c.canonical
    unfold significandBound at hsig
    refine ⟨?_, hlow, hhigh, ?_⟩
    · unfold significandBound
      omega
    · exact hnormal.imp (fun h => by omega) id
  have hsize : (⟨negative, c.significand + 1, c.exponent, hcanonical⟩ : Double).size =
      c.size + c.gapAbove := by
    rw [size, size, gapAbove, Nat.cast_add, Nat.cast_one]
    ring
  refine ⟨⟨negative, c.significand + 1, c.exponent, hcanonical⟩, rfl, ?_, ?_⟩
  · rw [hsize]
    linarith [c.gapAbove_pos]
  · refine lt_of_le_of_ne ?_ fun heq => ?_
    · rw [hsize]
      exact size_add_gapAbove_le hlt
    · have hsig : c.significand + 1 = d.significand := (parts_eq_of_size_eq heq).1
      omega

theorem exists_between_of_even (hlt : c.value < d.value) (hc : c.significand % 2 = 0)
    (hd : d.significand % 2 = 0) : ∃ b : Double, c.value < b.value ∧ b.value < d.value := by
  have hcsize := c.size_nonneg
  have hdsize := d.size_nonneg
  unfold value at hlt ⊢
  cases hcs : c.negative <;> cases hds : d.negative <;>
    rw [hcs, hds] at hlt <;> simp only [signed_true, signed_false] at hlt ⊢
  · obtain ⟨b, hb, hcb, hbd⟩ := exists_size_between hlt hc hd false
    refine ⟨b, ?_⟩
    rw [hb]
    exact ⟨hcb, hbd⟩
  · linarith
  · -- zero lies between a negative and a positive number, unless it is one of the two
    rcases eq_or_lt_of_le hcsize with hzero | hpos
    · obtain ⟨b, hb, hcb, hbd⟩ := exists_size_between (by linarith) hc hd false
      refine ⟨b, ?_⟩
      rw [hb]
      exact ⟨show -c.size < b.size by linarith, hbd⟩
    · rcases eq_or_lt_of_le hdsize with hzero | hpos'
      · obtain ⟨b, hb, hdb, hbc⟩ := exists_size_between (by linarith) hd hc true
        refine ⟨b, ?_⟩
        rw [hb]
        exact ⟨show -c.size < -b.size by linarith, show -b.size < d.size by linarith⟩
      · refine ⟨zero false, ?_⟩
        have hsize : (zero false).size = 0 := size_eq_zero_iff.mpr rfl
        rw [hsize]
        exact ⟨show -c.size < 0 by linarith, show (0 : ℚ) < d.size by linarith⟩
  · obtain ⟨b, hb, hdb, hbc⟩ := exists_size_between (by linarith) hd hc true
    refine ⟨b, ?_⟩
    rw [hb]
    exact ⟨show -c.size < -b.size by linarith, show -b.size < -d.size by linarith⟩

/-- A number that is not nearer to the smaller of two numbers does not lie below their middle. -/
theorem add_le_two_mul_of_abs_le {x y : ℚ} (hlt : x < y) (h : |q - y| ≤ |q - x|) :
    x + y ≤ 2 * q := by
  rcases abs_cases (q - y) with ⟨hy, _⟩ | ⟨hy, _⟩ <;>
    rcases abs_cases (q - x) with ⟨hx, _⟩ | ⟨hx, _⟩ <;> rw [hy, hx] at h <;> linarith

/-- A number that is not nearer to the larger of two numbers does not lie above their middle. -/
theorem two_mul_le_add_of_abs_le {x y : ℚ} (hlt : x < y) (h : |q - x| ≤ |q - y|) :
    2 * q ≤ x + y := by
  rcases abs_cases (q - y) with ⟨hy, _⟩ | ⟨hy, _⟩ <;>
    rcases abs_cases (q - x) with ⟨hx, _⟩ | ⟨hx, _⟩ <;> rw [hy, hx] at h <;> linarith

theorem IsNearest.not_value_lt (hc : c.IsNearest q) (hd : d.IsNearest q) : ¬ c.value < d.value := by
  intro hlt
  have hlow := add_le_two_mul_of_abs_le hlt (hd.le c)
  have hhigh := two_mul_le_add_of_abs_le hlt (hc.le d)
  have heq : |q - c.value| = |q - d.value| := le_antisymm (hc.le d) (hd.le c)
  have hceven : c.significand % 2 = 0 := by
    rcases hc d with h | ⟨-, h | h⟩
    · exact absurd heq (ne_of_lt h)
    · exact absurd h (ne_of_gt hlt)
    · exact h
  have hdeven : d.significand % 2 = 0 := by
    rcases hd c with h | ⟨-, h | h⟩
    · exact absurd heq.symm (ne_of_lt h)
    · exact absurd h (ne_of_lt hlt)
    · exact h
  -- the number is in the middle, and a double between the two is nearer to it
  obtain ⟨b, hcb, hbd⟩ := exists_between_of_even hlt hceven hdeven
  have hnear : |q - b.value| < |q - d.value| := by
    rw [abs_of_nonpos (show q - d.value ≤ 0 by linarith)]
    exact abs_lt.mpr ⟨by linarith, by linarith⟩
  exact absurd (hd.le b) (not_le.mpr hnear)

/-- **The nearest double of a number is unique**, up to the sign of zero. -/
theorem IsNearest.value_unique (hc : c.IsNearest q) (hd : d.IsNearest q) : c.value = d.value :=
  le_antisymm (not_lt.mp (hd.not_value_lt hc)) (not_lt.mp (hc.not_value_lt hd))

/-- **A larger number has no smaller nearest double.** -/
theorem IsNearest.value_mono (hc : c.IsNearest q) (hd : d.IsNearest r) (hqr : q ≤ r) :
    c.value ≤ d.value := by
  by_contra hlt
  rw [not_le] at hlt
  have hlow := add_le_two_mul_of_abs_le hlt (hc.le d)
  have hhigh := two_mul_le_add_of_abs_le hlt (hd.le c)
  have heq : q = r := by linarith
  subst heq
  exact hd.not_value_lt hc hlt

end ShapeContract.Double
