import Mathlib.Data.List.Basic
import Phrasebook.Proofs.Template.Placeholder

/-!
# The tokens of a template

A template splits from the left into letters and placeholders in exactly one way, where a
placeholder takes two digits whenever two are there (`Splits`, `exists_splits`, `Splits.unique`).
Filling in arguments replaces each token by its image and does nothing else (`Splits.fillArgs`): the
text of an argument is copied as it is, and which argument stands where is settled by the template
and the number of arguments (`Token.part`).
-/

namespace Phrasebook.Template

/-! ## Tokens -/

def digit (d : Fin 10) : Char := Nat.digitChar d

/-- A token of a template. -/
inductive Token where
  | letter (c : Char)
  | placeholder (tens : Option (Fin 10)) (units : Fin 10)
  deriving DecidableEq, Repr

namespace Token

def digits (tens : Option (Fin 10)) (units : Fin 10) : List Char :=
  (tens.map digit).toList ++ [digit units]

def written : Token → List Char
  | .letter c => [c]
  | .placeholder tens units => '%' :: digits tens units

/-- The index of the argument that the token names. The first argument has index one; a letter has
index zero and names none. -/
def index : Token → Nat
  | .letter _ => 0
  | .placeholder tens units => 10 * tens.elim 0 Fin.val + units

/-- What stands for the token: the argument that it names, if there is one, else the token
itself. -/
def image (args : List String) (token : Token) : List Char :=
  if h : 0 < token.index ∧ token.index ≤ args.length then args[token.index - 1].toList
  else token.written

theorem index_le (token : Token) : token.index ≤ 99 := by
  match token with
  | .letter _ => exact Nat.zero_le _
  | .placeholder none units =>
    show 10 * 0 + units.val ≤ 99
    omega
  | .placeholder (some tens) units =>
    show 10 * tens.val + units.val ≤ 99
    omega

end Token

/-- The tokens of a template, read from the left. A placeholder has one digit only where no other
digit follows, and a percent sign is a letter only where no digit follows. -/
inductive Splits : List Char → List Token → Prop where
  | done : Splits [] []
  | letter {c : Char} {cs : List Char} {tokens : List Token} (hpercent : c = '%' → NoDigit cs)
    (h : Splits cs tokens) : Splits (c :: cs) (.letter c :: tokens)
  | placeholder (tens : Option (Fin 10)) (units : Fin 10) {cs : List Char} {tokens : List Token}
    (hone : tens = none → NoDigit cs) (h : Splits cs tokens) :
    Splits ('%' :: (Token.digits tens units ++ cs)) (.placeholder tens units :: tokens)

variable {args : List String} {c : Char} {cs : List Char} {tokens : List Token}
  {tens : Option (Fin 10)} {units : Fin 10}

/-! ## Digits -/

theorem isDigit_digit : ∀ d : Fin 10, (digit d).isDigit = true := by decide

theorem toNat_digit : ∀ d : Fin 10, (digit d).toNat - '0'.toNat = d := by decide

theorem digit_injective : Function.Injective digit := by
  have hall : ∀ d e : Fin 10, digit d = digit e → d = e := by decide
  exact fun d e => hall d e

theorem exists_digit (hc : c.isDigit = true) : ∃ d, c = digit d := by
  obtain ⟨hlow, hhigh⟩ : 48 ≤ c.toNat ∧ c.toNat ≤ 57 := by
    simp only [Char.isDigit, Bool.and_eq_true, decide_eq_true_eq] at hc
    exact hc
  refine ⟨⟨c.toNat - 48, by omega⟩, ?_⟩
  have hall : ∀ d : Fin 10, Char.ofNat (d + 48) = digit d := by decide
  rw [← hall, Nat.sub_add_cancel hlow, Char.ofNat_toNat]

theorem indexValue_digits (tens : Option (Fin 10)) (units : Fin 10) :
    indexValue (Token.digits tens units) = (Token.placeholder tens units).index := by
  cases tens with
  | none =>
    show 10 * 0 + ((digit units).toNat - '0'.toNat) = 10 * 0 + units.val
    rw [toNat_digit]
  | some tens =>
    show 10 * (10 * 0 + ((digit tens).toNat - '0'.toNat)) + ((digit units).toNat - '0'.toNat) =
      10 * tens.val + units.val
    rw [toNat_digit, toNat_digit, Nat.mul_zero, Nat.zero_add]

theorem takeIndex_digits (hone : tens = none → NoDigit cs) :
    takeIndex (Token.digits tens units ++ cs) = (Token.digits tens units, cs) := by
  cases tens with
  | none => exact takeIndex_one (isDigit_digit units) (hone rfl)
  | some tens => exact takeIndex_two (isDigit_digit tens) (isDigit_digit units)

theorem not_noDigit_digits : ¬ NoDigit (Token.digits tens units ++ cs) := by
  intro h
  cases tens with
  | none => exact absurd (noDigit_cons.1 h) (by rw [isDigit_digit]; decide)
  | some tens => exact absurd (noDigit_cons.1 h) (by rw [isDigit_digit]; decide)

theorem digits_injective {tens' : Option (Fin 10)} {units' : Fin 10}
    (h : Token.digits tens units = Token.digits tens' units') : tens = tens' ∧ units = units' := by
  cases tens <;> cases tens' <;>
    simp_all [Token.digits, digit_injective.eq_iff]

/-! ## Splitting -/

theorem exists_splits (cs : List Char) : ∃ tokens, Splits cs tokens := by
  induction cs using fillArgs.induct with
  | case1 => exact ⟨[], .done⟩
  | case2 cs ih =>
    rcases digits_cases cs with hnone | ⟨c, rest, rfl, hc, hrest⟩ | ⟨c, b, rest, rfl, hc, hb⟩
    · rw [takeIndex_of_noDigit hnone] at ih
      obtain ⟨tokens, htokens⟩ := ih
      exact ⟨_, .letter (fun _ => hnone) htokens⟩
    · rw [takeIndex_one hc hrest] at ih
      obtain ⟨tokens, htokens⟩ := ih
      obtain ⟨units, rfl⟩ := exists_digit hc
      exact ⟨_, .placeholder none units (fun _ => hrest) htokens⟩
    · rw [takeIndex_two hc hb] at ih
      obtain ⟨tokens, htokens⟩ := ih
      obtain ⟨tens, rfl⟩ := exists_digit hc
      obtain ⟨units, rfl⟩ := exists_digit hb
      exact ⟨_, .placeholder (some tens) units nofun htokens⟩
  | case3 c cs hc ih =>
    obtain ⟨tokens, htokens⟩ := ih
    exact ⟨_, .letter (fun hpercent => absurd hpercent hc) htokens⟩

/-- A template splits in one way only. -/
theorem Splits.unique {others : List Token} (h : Splits cs tokens) (hother : Splits cs others) :
    tokens = others := by
  induction h generalizing others with
  | done =>
    cases hother
    rfl
  | @letter c cs tokens hpercent _ ih =>
    generalize hall : c :: cs = all at hother
    cases hother with
    | done => cases hall
    | letter _ hrest =>
      obtain ⟨rfl, rfl⟩ := List.cons.inj hall
      rw [ih hrest]
    | placeholder _ _ _ hrest =>
      obtain ⟨rfl, rfl⟩ := List.cons.inj hall
      exact absurd (hpercent rfl) not_noDigit_digits
  | @placeholder tens units cs tokens hone _ ih =>
    generalize hall : '%' :: (Token.digits tens units ++ cs) = all at hother
    cases hother with
    | done => cases hall
    | letter hpercent _ =>
      obtain ⟨rfl, rfl⟩ := List.cons.inj hall
      exact absurd (hpercent rfl) not_noDigit_digits
    | placeholder _ _ hone' hrest =>
      -- both placeholders take all digits there are, so they take the same
      have htake := congrArg takeIndex (List.cons.inj hall).2
      rw [takeIndex_digits hone, takeIndex_digits hone'] at htake
      obtain ⟨hdigits, rfl⟩ := Prod.mk.inj htake
      obtain ⟨rfl, rfl⟩ := digits_injective hdigits
      rw [ih hrest]

theorem Splits.written (h : Splits cs tokens) : tokens.flatMap Token.written = cs := by
  induction h with
  | done => rfl
  | letter _ _ ih => rw [List.flatMap_cons, ih]; rfl
  | placeholder _ _ _ _ ih => rw [List.flatMap_cons, ih]; rfl

/-! ## Filling in arguments -/

namespace Token

theorem image_eq (args : List String) (token : Token) :
    token.image args =
      if token.index = 0 then token.written
      else (args[token.index - 1]?).elim token.written String.toList := by
  unfold image
  by_cases hzero : token.index = 0
  · rw [dif_neg (by omega), if_pos hzero]
  · rw [if_neg hzero]
    by_cases hle : token.index ≤ args.length
    · rw [dif_pos ⟨by omega, hle⟩, List.getElem?_eq_getElem (by omega)]
      rfl
    · rw [dif_neg (by omega), List.getElem?_eq_none (by omega)]
      rfl

theorem image_letter (args : List String) (c : Char) : (letter c).image args = [c] := rfl

theorem image_placeholder (args : List String) (tens : Option (Fin 10)) (units : Fin 10) :
    (placeholder tens units).image args = Template.image args (digits tens units) := by
  rw [image_eq, Template.image, indexValue_digits]
  cases (placeholder tens units).index with
  | zero => rfl
  | succ i =>
    rw [if_neg (Nat.succ_ne_zero i)]
    show (args[i]?).elim _ _ = _
    rw [argument?]
    cases args[i]? <;> rfl

end Token

/-- Filling in arguments puts the image of each token in its place. -/
theorem Splits.fillArgs (h : Splits cs tokens) (args : List String) :
    fillArgs args cs = tokens.flatMap (Token.image args) := by
  induction h with
  | done => rw [Template.fillArgs]; rfl
  | @letter c cs tokens hpercent _ ih =>
    rw [List.flatMap_cons, ← ih, Token.image_letter]
    by_cases hc : c = '%'
    · subst hc
      rw [fillArgs_percent, takeIndex_of_noDigit (hpercent rfl)]
      rfl
    · exact fillArgs_of_ne hc
  | placeholder _ _ hone _ ih =>
    rw [List.flatMap_cons, ← ih, Token.image_placeholder, fillArgs_percent, takeIndex_digits hone]

namespace Token

theorem image_nil (token : Token) : token.image [] = token.written := by
  rw [image_eq]
  split
  · rfl
  · rw [List.getElem?_nil]
    rfl

theorem image_congr {as bs : List String} {token : Token}
    (h : token.index ≠ 0 → as[token.index - 1]? = bs[token.index - 1]?) :
    token.image as = token.image bs := by
  rw [image_eq, image_eq]
  by_cases hzero : token.index = 0
  · rw [if_pos hzero, if_pos hzero]
  · rw [h hzero]

/-- What a token comes to among `n` arguments, before they are known: a text, or the place of an
argument. -/
def part (n : Nat) (token : Token) : String ⊕ Fin n :=
  if h : 0 < token.index ∧ token.index ≤ n then .inr ⟨token.index - 1, by omega⟩
  else .inl (String.ofList token.written)

theorem image_ofFn {n : Nat} (args : Fin n → String) (token : Token) :
    token.image (List.ofFn args) = (Sum.elim id args (token.part n)).toList := by
  unfold image part
  by_cases h : 0 < token.index ∧ token.index ≤ n
  · rw [dif_pos h, dif_pos (by rwa [List.length_ofFn]), List.getElem_ofFn]
    rfl
  · rw [dif_neg h, dif_neg (by rwa [List.length_ofFn])]
    exact String.toList_ofList.symm

end Token

theorem withArgs_eq_images {template : String} (h : Splits template.toList tokens)
    (args : List String) :
    withArgs template args = String.ofList (tokens.flatMap (Token.image args)) := by
  rw [withArgs, h.fillArgs]

/-- Filling in arguments goes by the tokens of the template. -/
structure Tokenwise (template : String) (tokens : List Token) : Prop where
  /-- The template splits into these tokens and in no other way. -/
  splits : ∀ others, Splits template.toList others ↔ others = tokens
  images : ∀ args, withArgs template args = String.ofList (tokens.flatMap (Token.image args))
  without : withArgs template [] = template
  /-- Arguments are not read: whatever they are, they are copied into places that are settled
  before. -/
  verbatim : ∀ n, ∃ parts : List (String ⊕ Fin n), ∀ args : Fin n → String,
    withArgs template (List.ofFn args) = String.join (parts.map (Sum.elim id args))
  surplus : ∀ args largest, (∀ token ∈ tokens, token.index ≤ largest) →
    withArgs template (args.take largest) = withArgs template args

/-- Every template has tokens by which its arguments are filled in. -/
theorem withArgs_tokenwise (template : String) : ∃ tokens, Tokenwise template tokens := by
  obtain ⟨tokens, htokens⟩ := exists_splits template.toList
  have himages := withArgs_eq_images htokens
  refine ⟨tokens, ?_, himages, ?_, ?_, ?_⟩
  · intro others
    constructor
    · intro hothers
      exact hothers.unique htokens
    · rintro rfl
      exact htokens
  · rw [himages, List.flatMap_congr fun token _ => token.image_nil, htokens.written,
      String.ofList_toList]
  · intro n
    refine ⟨tokens.map (Token.part n), fun args => ?_⟩
    rw [himages, ← String.toList_inj, String.toList_ofList, String.toList_join, List.map_map,
      List.flatMap_map]
    exact List.flatMap_congr fun token _ => token.image_ofFn args
  · intro args largest hlargest
    rw [himages, himages]
    congr 1
    refine List.flatMap_congr fun token htoken => Token.image_congr fun hzero => ?_
    have hle := hlargest token htoken
    exact List.getElem?_take_of_lt (by omega)

end Phrasebook.Template
