/-!
# Plural categories and rules

A plural rule sorts counts into categories and fixes the order in which a message stores its forms,
one for each category of the rule. Negative counts are sorted by their absolute value.
-/

namespace Phrasebook.Plural

/-- A plural category of the Unicode locale data. -/
inductive Category where
  | zero
  | one
  | two
  | few
  | many
  | other
  deriving DecidableEq, Repr

/-- The rules for families of languages. -/
inductive Rule where
  /-- One, and all others; also the rule of a language that has no entry of its own. -/
  | english
  /-- Zero and one together, and all others. -/
  | french
  /-- East Slavic: by the last two digits. -/
  | russian
  /-- Exactly one, and the others by the last two digits. -/
  | polish
  /-- All six categories. -/
  | arabic
  | cjk
  deriving DecidableEq, Repr, Inhabited

def isTagSeparator (c : Char) : Bool := c == '_' || c == '-' || c == '.' || c == '@'

namespace Rule

/-- The rule of a language code in lower case. -/
def ofLanguage (language : String) : Rule :=
  if language = "fr" then .french
  else if language ∈ ["ru", "uk", "be"] then .russian
  else if language = "pl" then .polish
  else if language = "ar" then .arabic
  else if language ∈ ["ja", "zh", "ko", "vi", "th", "id", "ms"] then .cjk
  else .english

/-- The rule of a locale identifier, by the part before its first separator and without regard to
case. -/
def ofLocale (locale : String) : Rule :=
  ofLanguage (String.ofList ((locale.toList.takeWhile fun c => !isTagSeparator c).map Char.toLower))

/-- A last digit from two to four, except after a one: the `few` of the Slavic rules. -/
def isSlavicFew (n : Nat) : Bool :=
  (2 ≤ n % 10 && n % 10 ≤ 4) && !(12 ≤ n % 100 && n % 100 ≤ 14)

def categoryOfNat (rule : Rule) (n : Nat) : Category :=
  match rule with
  | .english => if n = 1 then .one else .other
  | .french => if n ≤ 1 then .one else .other
  | .russian =>
    if n % 10 = 1 ∧ n % 100 ≠ 11 then .one else if isSlavicFew n then .few else .many
  | .polish =>
    if n = 1 then .one else if isSlavicFew n then .few else .many
  | .arabic =>
    if n = 0 then .zero
    else if n = 1 then .one
    else if n = 2 then .two
    else if 3 ≤ n % 100 ∧ n % 100 ≤ 10 then .few
    else if 11 ≤ n % 100 then .many
    else .other
  | .cjk => .other

def category (rule : Rule) (count : Int) : Category := rule.categoryOfNat count.natAbs

/-- The categories for which a message stores forms, in the order of the forms. -/
def forms : Rule → List Category
  | .english | .french => [.one, .other]
  | .russian | .polish => [.one, .few, .many]
  | .arabic => [.zero, .one, .two, .few, .many, .other]
  | .cjk => [.other]

/-- The place of the form for a count among the stored forms. -/
def position (rule : Rule) (count : Int) : Nat :=
  (rule.forms.idxOf? (rule.category count)).getD 0

end Rule

end Phrasebook.Plural
