/-!
# Double precision numbers

A finite double is a sign, a significand and a power of two, in the one form with the significand
as large as the format allows: at most 53 bits, and fewer than 53 only at the least exponent.
`Double.round` gives the double nearest to a quotient of natural numbers, a tie going to the even
significand, and nothing when the quotient is too large for the format. Products and quotients of
doubles are the exact ones, rounded.
-/

namespace ShapeContract

/-! ### Bounds -/

/-- Two to the power of 53: significands lie below. -/
abbrev significandBound : Nat := 0x20000000000000

/-- Two to the power of 52: significands do not lie below, except at the least exponent. -/
abbrev normalBound : Nat := 0x10000000000000

/-- Two to the power of 64: numbers of 64 bits lie below. -/
abbrev wordBound : Nat := 0x10000000000000000

/-- Two to the power of 63: the magnitudes of negative numbers of 64 bits go up to here. -/
abbrev signedBound : Nat := 0x8000000000000000

/-! ### Doubles -/

/-- A significand and an exponent that stand for a finite double in its one normal form. -/
def Canonical (significand : Nat) (exponent : Int) : Prop :=
  significand < significandBound ∧ -1074 ≤ exponent ∧ exponent ≤ 971 ∧
    (normalBound ≤ significand ∨ exponent = -1074)

instance (m : Nat) (e : Int) : Decidable (Canonical m e) :=
  inferInstanceAs (Decidable (_ ∧ _ ∧ _ ∧ _))

/-- A finite double, of magnitude `significand * 2 ^ exponent`. -/
structure Double where
  negative : Bool
  significand : Nat
  exponent : Int
  canonical : Canonical significand exponent
  deriving DecidableEq

/-- A quotient of natural numbers, kept as the pair. -/
structure Ratio where
  num : Nat
  den : Nat

/-- The exact product of a quotient and a power of a base with an integer exponent. -/
def Ratio.scale (q : Ratio) (base : Nat) (exponent : Int) : Ratio :=
  if 0 ≤ exponent then ⟨q.num * Nat.pow base exponent.toNat, q.den⟩
  else ⟨q.num, q.den * Nat.pow base (-exponent).toNat⟩

/-- The order of two quotients with positive denominators. -/
def Ratio.compare (q r : Ratio) : Ordering := Ord.compare (q.num * r.den) (r.num * q.den)

/-- The natural number nearest to a quotient, a tie going to the even one. -/
def Ratio.nearestEven (q : Ratio) : Nat :=
  let floor := q.num / q.den
  let rest := q.num % q.den
  if q.den < 2 * rest ∨ (q.den = 2 * rest ∧ floor % 2 = 1) then floor + 1 else floor

/-- The exponent of the largest power of two that is at most a positive quotient. -/
def Ratio.log2 (q : Ratio) : Int :=
  let guess : Int := (q.num.log2 : Int) - q.den.log2
  let power := Ratio.scale ⟨1, 1⟩ 2 guess
  if power.compare q = .gt then guess - 1 else guess

namespace Double

/-- Zero with a sign. -/
def zero (negative : Bool) : Double := ⟨negative, 0, -1074, by decide⟩

/-- A double is zero. -/
def isZero (d : Double) : Bool := d.significand == 0

/-- The double with the given parts, when they are in normal form. -/
def ofParts? (negative : Bool) (significand : Nat) (exponent : Int) : Option Double :=
  if h : Canonical significand exponent then some ⟨negative, significand, exponent, h⟩ else none

/-- The double nearest to a quotient, a tie going to the even significand. There is none when the
quotient lies beyond the largest finite double. -/
def round (negative : Bool) (q : Ratio) : Option Double :=
  if q.num = 0 then some (zero negative)
  else
    let exponent := max (q.log2 - 52) (-1074)
    let significand := (q.scale 2 (-exponent)).nearestEven
    if significand = significandBound then ofParts? negative normalBound (exponent + 1)
    else ofParts? negative significand exponent

/-- The exact magnitude. -/
def magnitude (d : Double) : Ratio := Ratio.scale ⟨d.significand, 1⟩ 2 d.exponent

/-- The number with the opposite sign. -/
def neg (d : Double) : Double := { d with negative := !d.negative }

/-- The exact product, rounded. -/
def mul (a b : Double) : Option Double :=
  let p := a.magnitude
  let q := b.magnitude
  round (a.negative != b.negative) ⟨p.num * q.num, p.den * q.den⟩

/-- The exact quotient by a number other than zero, rounded. -/
def div (a b : Double) : Option Double :=
  let p := a.magnitude
  let q := b.magnitude
  round (a.negative != b.negative) ⟨p.num * q.den, p.den * q.num⟩

/-- The magnitude as a natural number, when it is one. -/
def natural? (d : Double) : Option Nat :=
  let q := d.magnitude
  if q.num % q.den = 0 then some (q.num / q.den) else none

/-! ### Natural numbers below 2 ^ 64 are never too large -/

theorem log2_natural {n : Nat} (h : n ≠ 0) : Ratio.log2 ⟨n, 1⟩ = (n.log2 : Int) := by
  have hle : 2 ^ n.log2 ≤ n := Nat.log2_self_le h
  have hguess : ((n.log2 : Int) - ((1 : Nat).log2 : Int)) = (n.log2 : Int) := by
    have : (1 : Nat).log2 = 0 := by decide
    omega
  have hpos : (0 : Int) ≤ (n.log2 : Int) := by omega
  unfold Ratio.log2
  simp only [hguess]
  rw [if_neg]
  simp only [Ratio.scale, Ratio.compare, if_pos hpos, Int.toNat_natCast, Nat.one_mul, Nat.mul_one]
  intro hgt
  have := Nat.compare_eq_gt.1 hgt
  rw [Nat.pow_eq] at this
  omega

theorem nearestEven_bounds (q : Ratio) :
    q.num / q.den ≤ q.nearestEven ∧ q.nearestEven ≤ q.num / q.den + 1 := by
  unfold Ratio.nearestEven
  dsimp only
  split <;> omega

/-- The significand of a positive natural number, before an overflow of one unit is carried. -/
theorem significand_bounds {n : Nat} (h : n ≠ 0) :
    normalBound ≤ (Ratio.scale ⟨n, 1⟩ 2 (-((n.log2 : Int) - 52))).nearestEven ∧
      (Ratio.scale ⟨n, 1⟩ 2 (-((n.log2 : Int) - 52))).nearestEven ≤ significandBound := by
  have hle : 2 ^ n.log2 ≤ n := Nat.log2_self_le h
  have hlt : n < 2 ^ (n.log2 + 1) := Nat.lt_log2_self
  have hnormal : normalBound = 2 ^ 52 := by decide
  have hbound : significandBound = 2 ^ 53 := by decide
  rw [hnormal, hbound]
  rcases Nat.le_total n.log2 52 with hs | hs
  · have hcond : (0 : Int) ≤ -((n.log2 : Int) - 52) := by omega
    have hto : (-((n.log2 : Int) - 52)).toNat = 52 - n.log2 := by omega
    have hq : (Ratio.scale ⟨n, 1⟩ 2 (-((n.log2 : Int) - 52))).nearestEven
        = n * 2 ^ (52 - n.log2) := by
      simp only [Ratio.scale, if_pos hcond, hto, Ratio.nearestEven, Nat.div_one, Nat.mod_one,
        Nat.pow_eq]
      rw [if_neg]
      omega
    have h52 : 2 ^ n.log2 * 2 ^ (52 - n.log2) = 2 ^ 52 := by
      rw [← Nat.pow_add]; congr 1; omega
    have h53 : 2 ^ (n.log2 + 1) * 2 ^ (52 - n.log2) = 2 ^ 53 := by
      rw [← Nat.pow_add]; congr 1; omega
    rw [hq]
    constructor
    · calc 2 ^ 52 = 2 ^ n.log2 * 2 ^ (52 - n.log2) := h52.symm
        _ ≤ n * 2 ^ (52 - n.log2) := Nat.mul_le_mul_right _ hle
    · calc n * 2 ^ (52 - n.log2) ≤ 2 ^ (n.log2 + 1) * 2 ^ (52 - n.log2) :=
          Nat.mul_le_mul_right _ (Nat.le_of_lt hlt)
        _ = 2 ^ 53 := h53
  · obtain ⟨k, hk⟩ : ∃ k, n.log2 = 52 + k := ⟨n.log2 - 52, by omega⟩
    have hq : Ratio.scale ⟨n, 1⟩ 2 (-((n.log2 : Int) - 52)) = ⟨n, 2 ^ k⟩ := by
      unfold Ratio.scale
      split
      · have : k = 0 := by omega
        subst this
        have : (-((n.log2 : Int) - 52)).toNat = 0 := by omega
        rw [this, Nat.pow_eq, Nat.pow_zero, Nat.mul_one]
      · have : (- -((n.log2 : Int) - 52)).toNat = k := by omega
        rw [this, Nat.pow_eq, Nat.one_mul]
    have hb := nearestEven_bounds ⟨n, 2 ^ k⟩
    have hpos : 0 < 2 ^ k := Nat.two_pow_pos k
    have hlow : 2 ^ 52 ≤ n / 2 ^ k := by
      rw [Nat.le_div_iff_mul_le hpos, ← Nat.pow_add, ← hk]
      exact hle
    have hhigh : n / 2 ^ k < 2 ^ 53 := by
      rw [Nat.div_lt_iff_lt_mul hpos, ← Nat.pow_add]
      have : 53 + k = n.log2 + 1 := by omega
      rw [this]
      exact hlt
    rw [hq]
    dsimp only at hb
    omega

/-- Parts in normal form make a double. -/
theorem ofParts?_isSome (negative : Bool) {m : Nat} {e : Int} (h : Canonical m e) :
    (ofParts? negative m e).isSome := by
  unfold ofParts?
  rw [dif_pos h]
  rfl

/-- A natural number of 64 bits has a nearest double. -/
theorem round_isSome (negative : Bool) {n : Nat} (h : n < wordBound) :
    (round negative ⟨n, 1⟩).isSome := by
  by_cases hn : n = 0
  · unfold round
    rw [if_pos hn]
    rfl
  have hlog : n.log2 < 64 := (Nat.log2_lt hn).2 h
  have hmax : max ((n.log2 : Int) - 52) (-1074) = (n.log2 : Int) - 52 := by omega
  have hb := significand_bounds hn
  unfold round
  simp only [if_neg hn, log2_natural hn, hmax]
  unfold normalBound significandBound at hb ⊢
  split
  · apply ofParts?_isSome
    unfold Canonical normalBound significandBound
    omega
  · apply ofParts?_isSome
    unfold Canonical normalBound significandBound
    omega

/-- The double nearest to a natural number of 64 bits, with a sign. -/
def ofNatural (negative : Bool) (n : Nat) (h : n < wordBound) : Double :=
  (round negative ⟨n, 1⟩).get (round_isSome negative h)

end Double

end ShapeContract
