import Phrasebook.Decimal.Rounding

/-!
# Single-precision numbers

Non-negative binary numbers with a significand of 24 bits. Every operation gives the number of this
form that is nearest to the exact result, and of two such numbers the one with an even significand.
Exponents are not bounded: counts and their quotients stay far inside the range of the format.
-/

namespace Phrasebook

/-- The number `significand * 2 ^ exponent`. -/
structure Single where
  significand : Nat
  exponent : Int
  deriving DecidableEq, Repr

namespace Single

/-- The value as a quotient: numerator and denominator. -/
def ratio (x : Single) : Nat × Nat :=
  if 0 ≤ x.exponent then (x.significand <<< x.exponent.toNat, 1)
  else (x.significand, 1 <<< (-x.exponent).toNat)

/-- The quotient of `num` and `den` in units of `2 ^ exponent`, as a quotient again. -/
def scaled (num den : Nat) (exponent : Int) : Nat × Nat :=
  if 0 ≤ exponent then (num, den <<< exponent.toNat)
  else (num <<< (-exponent).toNat, den)

/-- The least significand of 24 bits. The greatest is one less than twice this. -/
def leastSignificand : Nat := 0x800000

/-- An exponent at which the quotient of two positive numbers has a whole part of 24 bits. -/
def exponentOf (num den : Nat) : Int :=
  let guess : Int := (num.log2 : Int) - den.log2 - 23
  let (n, d) := scaled num den guess
  if n < leastSignificand * d then guess - 1 else guess

def ofRatio (num den : Nat) : Single :=
  if num = 0 then ⟨0, 0⟩
  else
    let exponent := exponentOf num den
    let (n, d) := scaled num den exponent
    let significand := Decimal.roundDiv .even n d
    if significand = 2 * leastSignificand then ⟨leastSignificand, exponent + 1⟩
    else ⟨significand, exponent⟩

def ofNat (n : Nat) : Single := ofRatio n 1

def div (x y : Single) : Single :=
  ofRatio (x.ratio.1 * y.ratio.2) (x.ratio.2 * y.ratio.1)

def mul (x y : Single) : Single :=
  ofRatio (x.ratio.1 * y.ratio.1) (x.ratio.2 * y.ratio.2)

end Single

end Phrasebook
