import ShapeContract.Json.Number

/-!
# Number literals

The parts of a number literal and the number they stand for. An integer that fits is read exactly.
Any other literal becomes a double by a short computation in place of a correct rounding: the
digits are gathered into a significand of 64 bits, digits that no longer fit are dropped, and the
significand is multiplied or divided by powers of ten, each step rounded to the nearest double. So
the result can differ from the nearest double in its last bits.
-/

namespace ShapeContract

/-- The parts of a number literal. Digits are given by their values. -/
structure NumberText where
  negative : Bool
  whole : List Nat
  /-- The digits after the point, if there is one. -/
  fraction : Option (List Nat)
  /-- The sign of the exponent and its digits, if there is one. -/
  exponent : Option (Bool × List Nat)

/-- Append digits to a number as long as the result stays below the limit. The result is the
number and the digits from the first one that does not fit. -/
def appendDigits (limit : Nat) : Nat → List Nat → Nat × List Nat
  | n, [] => (n, [])
  | n, d :: ds => if n * 10 + d < limit then appendDigits limit (n * 10 + d) ds else (n, d :: ds)

namespace Double

/-- A power of ten as the nearest double; there is one up to `10 ^ 308`. -/
def powerOfTen (k : Nat) : Option Double := round false ⟨Nat.pow 10 k, 1⟩

/-- The largest power of ten that is a double. -/
def greatestPower : Nat := 308

/-- A double times a power of ten, by one multiplication or by divisions through at most
`10 ^ 308` each. There is no result beyond the largest double; zero stays zero. -/
def timesPowerOfTen (d : Double) (exponent : Int) : Option Double :=
  if exponent.natAbs ≤ greatestPower then do
    let power ← powerOfTen exponent.natAbs
    if 0 ≤ exponent then d.mul power else d.div power
  else if d.isZero then some d
  else if 0 ≤ exponent then none
  else do
    let power ← powerOfTen greatestPower
    let smaller ← d.div power
    smaller.timesPowerOfTen (exponent + greatestPower)
termination_by exponent.natAbs
decreasing_by
  simp only [greatestPower] at *
  omega

end Double

namespace NumberText

/-- The double that a significand and a power of ten stand for. -/
def toDouble? (negative : Bool) (significand : Nat) (h : significand < wordBound) (exponent : Int) :
    Option Double :=
  (Double.timesPowerOfTen (.ofNatural false significand h) exponent).map fun d =>
    if negative then d.neg else d

theorem appendDigits_lt {limit n : Nat} (h : n < limit) (ds : List Nat) :
    (appendDigits limit n ds).1 < limit := by
  induction ds generalizing n with
  | nil => exact h
  | cons d ds ih =>
    unfold appendDigits
    split
    · exact ih ‹_›
    · exact h

/-- An integer with its sign: a double if it does not fit 64 bits, and for minus zero. -/
def ofInteger (negative : Bool) (n : Nat) (h : n < wordBound) : Number :=
  if negative then
    if hn : 0 < n ∧ n ≤ signedBound then .negative n hn else .double (.ofNatural true n h)
  else .unsigned n h

/-- Exponents up to here are read digit by digit: two to the power of 31. -/
def exponentLimit : Nat := 0x80000000

/-- The number of a literal. When there is none, the result is the number of digits of the
exponent that are left unread at the place of the error. -/
def toNumber (t : NumberText) : Except Nat Number :=
  let whole := appendDigits wordBound 0 t.whole
  let fraction := appendDigits wordBound whole.1 (t.fraction.getD [])
  have bound : fraction.1 < wordBound := appendDigits_lt (appendDigits_lt (by decide) _) _
  let taken := (t.fraction.getD []).length - fraction.2.length
  let shift : Int := (whole.2.length : Int) - taken
  match t.fraction, t.exponent, whole.2 with
  | none, none, [] => .ok (ofInteger t.negative fraction.1 bound)
  | _, exponent, _ =>
    let (down, digits) := exponent.getD (false, [])
    let read := appendDigits exponentLimit 0 digits
    match read.2 with
    | _ :: unread =>
      if fraction.1 ≠ 0 ∧ down = false then .error unread.length
      else .ok (.double (.zero t.negative))
    | [] =>
      let written : Int := if down then -(read.1 : Int) else read.1
      match toDouble? t.negative fraction.1 bound (shift + written) with
      | some d => .ok (.double d)
      | none => .error 0

end NumberText

end ShapeContract
