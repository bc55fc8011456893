/-!
# Numerals

Reading of unsigned and signed numerals with a bound. Digits are ASCII. A numeral is read from the
left and the first fault decides: a character that is no digit, or the digit at which the value
reaches the bound.
-/

namespace Phrasebook.Text

inductive NumeralFault where
  | empty
  | invalidDigit
  | tooLarge
  deriving DecidableEq, Repr

/-- The value of an ASCII digit or letter in `base`, for bases up to 36. -/
def digitValue? (base : Nat) (c : Char) : Option Nat :=
  let value :=
    if '0' ≤ c ∧ c ≤ '9' then c.toNat - '0'.toNat
    else if 'a' ≤ c ∧ c ≤ 'z' then c.toNat - 'a'.toNat + 10
    else if 'A' ≤ c ∧ c ≤ 'Z' then c.toNat - 'A'.toNat + 10
    else base
  if value < base then some value else none

/-- Continues a numeral whose digits so far have the value `acc`; values stay below `bound`. -/
def readDigits (base bound : Nat) (acc : Nat) : List Char → Except NumeralFault Nat
  | [] => .ok acc
  | c :: cs =>
    match digitValue? base c with
    | none => .error .invalidDigit
    | some d =>
      if acc * base + d < bound then readDigits base bound (acc * base + d) cs
      else .error .tooLarge

def readUnsigned (base bound : Nat) (cs : List Char) : Except NumeralFault Nat :=
  if cs.isEmpty then .error .empty else readDigits base bound 0 cs

/-- An unsigned numeral that may start with one plus sign. -/
def unsigned? (base bound : Nat) : List Char → Option Nat
  | '+' :: cs => (readUnsigned base bound cs).toOption
  | cs => (readUnsigned base bound cs).toOption

def wordBound : Nat := 0x100000000

/-- A 32-bit unsigned decimal numeral that may start with one plus sign. -/
def word? (cs : List Char) : Option UInt32 :=
  (unsigned? 10 wordBound cs).map UInt32.ofNat

/-- Number of non-negative values of a 64-bit signed word. There is one more negative value. -/
def signedBound : Nat := 0x8000000000000000

/-- A decimal numeral in the range of 64-bit signed integers that may start with one sign. -/
def integer? : List Char → Option Int
  | '-' :: cs => (readUnsigned 10 (signedBound + 1) cs).toOption.map fun n => -(n : Int)
  | cs => (unsigned? 10 signedBound cs).map Int.ofNat

def decimal (n : Nat) : List Char := Nat.toDigits 10 n

def hexadecimal (n : Nat) : List Char := Nat.toDigits 16 n

def integer : Int → List Char
  | .ofNat n => decimal n
  | .negSucc n => '-' :: decimal (n + 1)

end Phrasebook.Text
