import ShapeContract.Double.Shortest

/-!
# Numbers of JSON documents

A number is an integer of 64 bits, with or without a sign, or a finite double. The three kinds are
kept apart: `4` and `4.0` are different numbers with the same value. `Number.text` writes each so
that reading it back gives a number of the same kind, and `Number.toDouble` is the value as a
double.
-/

namespace ShapeContract

/-- A number: a natural number below `2 ^ 64`, the negative of a positive number up to `2 ^ 63`,
or a finite double. -/
inductive Number
  | unsigned (n : Nat) (bound : n < wordBound)
  | negative (n : Nat) (bound : 0 < n ∧ n ≤ signedBound)
  | double (d : Double)
  deriving DecidableEq

namespace Number

/-- The nearest double, a tie going to the even significand. -/
def toDouble : Number → Double
  | unsigned n h => Double.ofNatural false n h
  | negative n h => Double.ofNatural true n (Nat.lt_of_le_of_lt h.2 (by decide))
  | double d => d

/-- Doubles from `0.00001` up to sixteen digits before the point are written without exponent. -/
def plain : PlainRange := ⟨-5, 15⟩

/-- An integer in decimal, a double as its shortest decimal, always with a point or an exponent. -/
def text : Number → String
  | unsigned n _ => Nat.repr n
  | negative n _ => "-" ++ Nat.repr n
  | double d => (if d.negative then "-" else "") ++ d.shortest.text plain

end Number

end ShapeContract
