/-!
# Rounding of quotients

A quotient of natural numbers goes to the nearest natural number; a half goes where the tie rule
says.
-/

namespace Phrasebook.Decimal

/-- Where a half goes. -/
inductive Tie where
  | up
  | even
  deriving DecidableEq, Repr

/-- The natural number nearest to a quotient. -/
def roundDiv (tie : Tie) (num den : Nat) : Nat :=
  let floor := num / den
  let twice := 2 * (num % den)
  if twice < den then floor
  else if den < twice then floor + 1
  else
    match tie with
    | .up => floor + 1
    | .even => floor + floor % 2

theorem two_mul_roundDiv (tie : Tie) (num : Nat) {den : Nat} (h : 0 < den) :
    2 * (roundDiv tie num den * den) ≤ 2 * num + den ∧
      2 * num ≤ 2 * (roundDiv tie num den * den) + den := by
  have hdiv := Nat.div_add_mod num den
  have hmod := Nat.mod_lt num h
  rw [Nat.mul_comm] at hdiv
  have hodd : (num / den) % 2 ≤ 1 := by omega
  have hmul : (num / den) % 2 * den ≤ den := by
    simpa using Nat.mul_le_mul_right den hodd
  simp only [roundDiv]
  split
  · omega
  · split
    · rw [Nat.add_mul]; omega
    · cases tie <;> simp only [Nat.add_mul] <;> omega

end Phrasebook.Decimal
