import Phrasebook.Ascending
import Phrasebook.Text.Numeral

/-!
# Templates

A template is a text with two kinds of markers. A placeholder is a percent sign followed by one or
two ASCII digits; two digits are taken whenever two are there. A count marker is `%n` or `%Ln`.

`withArgs` replaces placeholders by arguments, `withCount` replaces count markers by a count.
Both go through the template once from the left and never look at inserted text again.
-/

namespace Phrasebook.Template

/-- Splits off the one or two digits that name a placeholder after its percent sign. -/
def takeIndex : List Char → List Char × List Char
  | a :: b :: rest =>
    if a.isDigit then
      if b.isDigit then ([a, b], rest) else ([a], b :: rest)
    else ([], a :: b :: rest)
  | [a] => if a.isDigit then ([a], []) else ([], [a])
  | [] => ([], [])

theorem takeIndex_append (cs : List Char) : (takeIndex cs).1 ++ (takeIndex cs).2 = cs := by
  unfold takeIndex
  split
  · split
    · split <;> rfl
    · rfl
  · split <;> rfl
  · rfl

theorem length_takeIndex_le (cs : List Char) : (takeIndex cs).2.length ≤ cs.length := by
  conv => rhs; rw [← takeIndex_append cs]
  simp

def indexValue (digits : List Char) : Nat :=
  digits.foldl (fun n c => 10 * n + (c.toNat - '0'.toNat)) 0

/-- The argument with a given index; the first one has index one. -/
def argument? (args : List String) (index : Nat) : Option String :=
  match index with
  | 0 => none
  | i + 1 => args[i]?

/-- What stands for a percent sign and the digits after it: the argument they name, else
themselves. -/
def image (args : List String) (digits : List Char) : List Char :=
  match argument? args (indexValue digits) with
  | some value => value.toList
  | none => '%' :: digits

def fillArgs (args : List String) : List Char → List Char
  | [] => []
  | c :: cs =>
    if c = '%' then image args (takeIndex cs).1 ++ fillArgs args (takeIndex cs).2
    else c :: fillArgs args cs
termination_by cs => cs.length
decreasing_by
  · exact Nat.lt_succ_of_le (length_takeIndex_le cs)
  · exact Nat.lt_succ_self _

/-- Replaces each placeholder by the argument that it names. A placeholder without an argument
stays. -/
def withArgs (template : String) (args : List String) : String :=
  String.ofList (fillArgs args template.toList)

/-- Replaces the count markers among characters; `count` is the text to insert. -/
def fillCount (count : List Char) : List Char → List Char
  | '%' :: 'n' :: rest => count ++ fillCount count rest
  | '%' :: 'L' :: 'n' :: rest => count ++ fillCount count rest
  | c :: rest => c :: fillCount count rest
  | [] => []

/-- Replaces each count marker by the decimal text of the count. A template without a percent sign
has no marker and is not gone through. -/
def withCount (template : String) (count : Int) : String :=
  if '%' ∈ template.toList then
    String.ofList (fillCount (Text.integer count) template.toList)
  else template

/-- The indices of the placeholders of a text, from left to right, without those of index zero. -/
def indicesOf : List Char → List Nat
  | [] => []
  | c :: cs =>
    if c = '%' then
      let index := indexValue (takeIndex cs).1
      if index = 0 then indicesOf (takeIndex cs).2 else index :: indicesOf (takeIndex cs).2
    else indicesOf cs
termination_by cs => cs.length
decreasing_by
  · exact Nat.lt_succ_of_le (length_takeIndex_le cs)
  · exact Nat.lt_succ_of_le (length_takeIndex_le cs)
  · exact Nat.lt_succ_self _

/-- The placeholder indices of a text in ascending order, each once. -/
def indices (text : String) : List Nat :=
  Ascending.ofList (indicesOf text.toList)

end Phrasebook.Template
