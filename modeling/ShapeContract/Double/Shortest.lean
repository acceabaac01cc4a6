import ShapeContract.Double.Basic

/-!
# The shortest decimal of a double

A double is written with the fewest decimal digits that still read back as the same double, and
among the decimals of that many digits with the one nearest to the exact value. `Double.shortest`
finds it by exact comparison of natural numbers: for one digit, two digits and so on it tries the
two neighbours of the value on that decimal grid, and the first grid with a neighbour that rounds
to the double wins. Seventeen digits always suffice.
-/

namespace ShapeContract

/-- The decimal number `digits * 10 ^ exponent`. -/
structure Decimal where
  digits : Nat
  exponent : Int
  deriving DecidableEq

namespace Decimal

/-- The exact value. -/
def value (x : Decimal) : Ratio := Ratio.scale ⟨x.digits, 1⟩ 10 x.exponent

/-- The number of decimal digits of a natural number. -/
def digitCount (n : Nat) : Nat := (Nat.repr n).length

/-- The exponent of the first digit. -/
def order (x : Decimal) : Int := x.exponent + digitCount x.digits - 1

/-- Move the zeros at the end of the digits into the exponent, at most as many as `fuel`. -/
def trimUpTo : Nat → Decimal → Decimal
  | 0, x => x
  | fuel + 1, x =>
    if x.digits ≠ 0 ∧ x.digits % 10 = 0 then trimUpTo fuel ⟨x.digits / 10, x.exponent + 1⟩ else x

/-- The same number with no zero at the end of its digits. -/
def trim (x : Decimal) : Decimal := trimUpTo (digitCount x.digits) x

end Decimal

/-- The exponent of the first decimal digit of a positive quotient. -/
def Ratio.log10 (q : Ratio) : Int :=
  if q.den ≤ q.num then (Decimal.digitCount (q.num / q.den) : Int) - 1
  else
    let places := Decimal.digitCount (q.den / q.num)
    if q.den ≤ q.num * Nat.pow 10 (places - 1) then -((places : Int) - 1) else -(places : Int)

namespace Double

/-- The least and the greatest quotient that round to a positive double: the midpoints towards its
two neighbours. Below a power of two the neighbours lie closer together. -/
def midpoints (d : Double) : Ratio × Ratio :=
  let below := if d.significand = normalBound ∧ -1074 < d.exponent then 1 else 2
  (Ratio.scale ⟨4 * d.significand - below, 1⟩ 2 (d.exponent - 2),
   Ratio.scale ⟨4 * d.significand + 2, 1⟩ 2 (d.exponent - 2))

/-- A decimal rounds to a positive double: it lies between the midpoints, which belong to the
double exactly when its significand is even. -/
def roundsTo (d : Double) (x : Decimal) : Bool :=
  let (low, high) := d.midpoints
  let fromLow := low.compare x.value
  let toHigh := x.value.compare high
  if d.significand % 2 = 0 then fromLow != .gt && toHigh != .gt
  else fromLow == .lt && toHigh == .lt

/-- The decimal nearest to a positive double among its two neighbours on the grid of multiples of
`10 ^ exponent`, if one of them rounds to the double. Of two at the same distance it is the one
with an even last digit. -/
def onGrid? (d : Double) (exponent : Int) : Option Decimal :=
  let q := d.magnitude.scale 10 (-exponent)
  let floor := q.num / q.den
  let low : Decimal := ⟨floor, exponent⟩
  let high : Decimal := ⟨floor + 1, exponent⟩
  let near := if q.nearestEven = floor then low else high
  let far := if q.nearestEven = floor then high else low
  if d.roundsTo near then some near else if d.roundsTo far then some far else none

/-- The first of the grids from `exponent` downwards that has a neighbour, looking at no more than
`count` of them; the exact value is cut off on the last one if none has. -/
def firstOnGrid (d : Double) : (count : Nat) → (exponent : Int) → Decimal
  | 0, exponent =>
    let q := d.magnitude.scale 10 (-exponent)
    ⟨q.num / q.den, exponent⟩
  | count + 1, exponent =>
    match d.onGrid? exponent with
    | some x => x
    | none => firstOnGrid d count (exponent - 1)

/-- The shortest decimal that reads back as the magnitude of the double, and of those the nearest
to it. -/
def shortest (d : Double) : Decimal :=
  if d.isZero then ⟨0, 0⟩ else (d.firstOnGrid 17 d.magnitude.log10).trim

end Double

/-! ### Written decimals -/

/-- Which decimals are written with a point in place of an exponent: those whose first digit has
an exponent in this range. -/
structure PlainRange where
  least : Int
  greatest : Int

namespace Decimal

/-- A text of zeros. -/
def zeros (count : Int) : String := String.ofList (List.replicate count.toNat '0')

/-- The digits followed by as many zeros as the exponent says, for an exponent that is not
negative. -/
def integerText (x : Decimal) : String := Nat.repr x.digits ++ zeros x.exponent

/-- The decimal with a point and at least one digit on either side of it. -/
def plainText (x : Decimal) : String :=
  let digits := Nat.repr x.digits
  if 0 ≤ x.exponent then x.integerText ++ ".0"
  else
    let whole := (digits.length : Int) + x.exponent
    if 0 < whole then
      String.ofList (digits.toList.take whole.toNat) ++ "." ++
        String.ofList (digits.toList.drop whole.toNat)
    else "0." ++ zeros (-whole) ++ digits

/-- One digit, the others after a point if there are any, and the exponent with its sign. -/
def scientificText (x : Decimal) : String :=
  let head := match (Nat.repr x.digits).toList with
    | [] => ""
    | [d] => String.singleton d
    | d :: rest => String.singleton d ++ "." ++ String.ofList rest
  let exponent :=
    if x.order < 0 then "-" ++ Nat.repr x.order.natAbs else "+" ++ Nat.repr x.order.natAbs
  head ++ "e" ++ exponent

/-- The decimal with a point when its first digit lies in the range, and with an exponent
otherwise. -/
def text (plain : PlainRange) (x : Decimal) : String :=
  if plain.least ≤ x.order ∧ x.order ≤ plain.greatest then x.plainText else x.scientificText

end Decimal

end ShapeContract
