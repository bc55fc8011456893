import Phrasebook.Decimal.Single
import Phrasebook.Text.Numeral

/-!
# Decimal text of single-precision numbers

`shortest` is the decimal number with the fewest digits that no other single-precision number is
nearer to, and among those the nearest one; what happens half way between two is a choice of the
format. `fixed` has a fixed number of places, with a half going to the even neighbour.
-/

namespace Phrasebook.Decimal

/-- The number `digits * 10 ^ exponent`. -/
structure Scientific where
  digits : Nat
  exponent : Int
  deriving DecidableEq, Repr

/-- The numbers that round to a number lie in an interval around it. All three are given in a
quarter of the unit of the last binary place, and so is the unit itself. -/
structure Neighbourhood where
  low : Nat
  value : Nat
  high : Nat
  closed : Bool

/-- The neighbourhood of a number. Below a power of two, numbers lie twice as dense. -/
def neighbourhood (x : Single) : Neighbourhood where
  low := 4 * x.significand - if x.significand = Single.leastSignificand then 1 else 2
  value := 4 * x.significand
  high := 4 * x.significand + 2
  closed := x.significand % 2 == 0

/-- The factors that turn quarters of the last binary place of a number and multiples of a power of
ten into multiples of one unit. -/
def unitFactors (x : Single) (tens : Int) : Nat × Nat :=
  let exponent := x.exponent - 2
  (Nat.pow 10 (-tens).toNat <<< exponent.toNat, Nat.pow 10 tens.toNat <<< (-exponent).toNat)

/-- A multiple of a power of ten, by its factor, rounds to a number. -/
def roundsTo (x : Single) (tens : Int) (factor : Nat) : Bool :=
  let (binary, decimal) := unitFactors x tens
  let around := neighbourhood x
  let below (a b : Nat) : Bool := a < b || (around.closed && a == b)
  below (around.low * binary) (factor * decimal) && below (factor * decimal) (around.high * binary)

/-- The multiple of a power of ten that rounds to a number, if there is one; of two, the nearer
one. -/
def multiple? (tie : Tie) (x : Single) (tens : Int) : Option Nat :=
  let (binary, decimal) := unitFactors x tens
  let value := (neighbourhood x).value * binary
  let floor := value / decimal
  match roundsTo x tens floor, roundsTo x tens (floor + 1) with
  | true, true => some (roundDiv tie value decimal)
  | true, false => some floor
  | false, true => some (floor + 1)
  | false, false => none

/-- The coarsest power of ten, from `lowest + steps` down, with a multiple that rounds to a
number. -/
def coarsest (tie : Tie) (x : Single) (lowest : Int) : Nat → Scientific
  | 0 => ⟨(multiple? tie x lowest).getD 0, lowest⟩
  | steps + 1 =>
    match multiple? tie x (lowest + (steps + 1)) with
    | some digits => ⟨digits, lowest + (steps + 1)⟩
    | none => coarsest tie x lowest steps

/-- The decimal number with the fewest digits that rounds to a number. The search starts above the
number and ends where the number itself is a multiple. -/
def shortest (tie : Tie) (x : Single) : Scientific :=
  if x.significand = 0 then ⟨0, 0⟩
  else
    let lowest := min x.exponent 0
    let highest : Int := (24 + x.exponent).toNat / 3 + 1
    coarsest tie x lowest (highest - lowest).toNat

structure Format where
  tie : Tie
  /-- A whole number is written with a zero after the point. -/
  pointZero : Bool

/-- Decimal digits with a point before the last `places` of them. -/
def withPoint (digits : List Char) (places : Nat) : List Char :=
  let padded := List.replicate (places + 1 - digits.length) '0' ++ digits
  let whole := padded.length - places
  padded.take whole ++ '.' :: padded.drop whole

def positional (format : Format) (x : Scientific) : String :=
  let digits := Text.decimal x.digits
  String.ofList <|
    if 0 ≤ x.exponent then
      digits ++ List.replicate x.exponent.toNat '0' ++ if format.pointZero then ['.', '0'] else []
    else withPoint digits (-x.exponent).toNat

/-- The shortest text of a number that reads back as the number. -/
def text (format : Format) (x : Single) : String := positional format (shortest format.tie x)

/-- The text of a number with one decimal place. -/
def tenths (x : Single) : String :=
  let (num, den) := x.ratio
  String.ofList (withPoint (Text.decimal (roundDiv .even (10 * num) den)) 1)

end Phrasebook.Decimal
