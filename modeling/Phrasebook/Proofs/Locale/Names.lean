import Phrasebook.Locale
import Phrasebook.Proofs.Text.Splitting

/-!
# The names of a locale

The language and the region of a locale that was read are words of ASCII letters and digits
(`isWord_of_parse?`). So a resource name has these and underscores in it, at least one of them, and
nothing else (`of_mem_resourceNames`), whatever characters the identifier has.
-/

namespace Phrasebook.Locale

/-! ## Letters and digits -/

theorem toNat_lt_of_isAlphanum {c : Char} (hc : c.isAlphanum = true) : c.toNat < 128 := by
  obtain hletter | hdigit := Bool.or_eq_true_iff.1 hc
  · obtain hupper | hlower := Bool.or_eq_true_iff.1 hletter
    · have hle : c.toNat ≤ 'Z'.toNat := (of_decide_eq_true hupper).2
      exact Nat.lt_of_le_of_lt hle (by decide)
    · have hle : c.toNat ≤ 'z'.toNat := of_decide_eq_true (Bool.and_eq_true_iff.1 hlower).2
      exact Nat.lt_of_le_of_lt hle (by decide)
  · have hle : c.toNat ≤ '9'.toNat := of_decide_eq_true (Bool.and_eq_true_iff.1 hdigit).2
    exact Nat.lt_of_le_of_lt hle (by decide)

/-- What holds of the letters and digits below the end of ASCII holds of all. -/
@[elab_as_elim]
theorem of_isAlphanum {p : Char → Prop} {c : Char} (hc : c.isAlphanum = true)
    (hascii : ∀ n < 128, (Char.ofNat n).isAlphanum = true → p (Char.ofNat n)) : p c := by
  have hchar := hascii c.toNat (toNat_lt_of_isAlphanum hc)
  rw [Char.ofNat_toNat] at hchar
  exact hchar hc

theorem isAlphanum_case {c : Char} (hc : c.isAlphanum = true) :
    c.toLower.isAlphanum = true ∧ c.toUpper.isAlphanum = true := by
  refine of_isAlphanum hc ?_
  decide

theorem toLower_of_not_isAlphanum {c : Char} (hc : ¬ c.isAlphanum = true) : c.toLower = c := by
  refine dif_neg fun hrange => hc ?_
  have hupper : c.isUpper = true := decide_eq_true hrange
  exact Bool.or_eq_true_iff.2 (.inl (Bool.or_eq_true_iff.2 (.inl hupper)))

theorem isAlphanum_of_toLower {c : Char} (hc : c.toLower.isAlphanum = true) :
    c.isAlphanum = true := by
  refine Decidable.byContradiction fun hword => ?_
  rw [toLower_of_not_isAlphanum hword] at hc
  exact hword hc

/-- A text of letters and digits, at least one of them. -/
def IsWord (text : String) : Prop := text ≠ "" ∧ ∀ c ∈ text.toList, c.isAlphanum = true

instance (text : String) : Decidable (IsWord text) :=
  decidable_of_iff (text ≠ "" ∧ text.toList.all Char.isAlphanum = true)
    (by rw [List.all_eq_true]; rfl)

theorem IsWord.isAlphanum_of_lower {cs : List Char}
    (hword : IsWord (String.ofList (cs.map Char.toLower))) {c : Char} (hc : c ∈ cs) :
    c.isAlphanum = true := by
  apply isAlphanum_of_toLower
  apply hword.2
  rw [String.toList_ofList]
  exact List.mem_map_of_mem hc

/-! ## Parts -/

theorem isAlphanum_of_mem_parts {cs part : List Char} (hcs : cs.all isAllowed = true)
    (hpart : part ∈ parts cs) {c : Char} (hc : c ∈ part) : c.isAlphanum = true := by
  -- what is allowed and does not separate is a letter or a digit
  obtain ⟨hmem, hseparator⟩ := Text.of_mem_splitOnP (List.mem_filter.1 hpart).1 c hc
  have hallowed := List.all_eq_true.1 hcs c hmem
  rwa [isAllowed, hseparator, Bool.or_false] at hallowed

theorem isWord_of_mem_parts {cs part : List Char} (hcs : cs.all isAllowed = true)
    (hpart : part ∈ parts cs)
    {change : Char → Char}
    (hchange : ∀ c : Char, c.isAlphanum = true → (change c).isAlphanum = true) :
    IsWord (String.ofList (part.map change)) := by
  constructor
  · simpa using (List.mem_filter.1 hpart).2
  · intro c hc
    rw [String.toList_ofList] at hc
    obtain ⟨old, hold, rfl⟩ := List.mem_map.1 hc
    exact hchange old (isAlphanum_of_mem_parts hcs hpart hold)

variable {identifier : String} {locale : Locale}

theorem isWord_of_parse? (hlocale : parse? identifier = some locale) :
    IsWord locale.language ∧ ∀ region ∈ locale.region, IsWord region := by
  simp only [parse?] at hlocale
  split at hlocale
  · rename_i hallowed
    unfold ofParts? at hlocale
    split at hlocale
    · cases hlocale
    · rename_i language rest hparts
      cases hlocale
      constructor
      · apply isWord_of_mem_parts hallowed
        · rw [hparts]
          exact List.mem_cons_self
        · intro c hc
          exact (isAlphanum_case hc).1
      · intro region hregion
        obtain ⟨part, hpart, rfl⟩ := Option.map_eq_some_iff.1 hregion
        apply isWord_of_mem_parts hallowed
        · rw [hparts]
          exact List.mem_cons_of_mem _ (List.mem_of_head? hpart)
        · intro c hc
          exact (isAlphanum_case hc).2
  · cases hlocale

theorem of_mem_resourceNames (hlocale : parse? identifier = some locale) {name : String}
    (hname : name ∈ locale.resourceNames) :
    name ≠ "" ∧ ∀ c ∈ name.toList, c.isAlphanum = true ∨ c = '_' := by
  obtain ⟨hlanguage, hregion⟩ := isWord_of_parse? hlocale
  have hbare : locale.language ≠ "" ∧ ∀ c ∈ locale.language.toList, c.isAlphanum = true ∨ c = '_' :=
    ⟨hlanguage.1, fun c hc => .inl (hlanguage.2 c hc)⟩
  unfold resourceNames at hname
  cases hlocation : locale.region with
  | none =>
    rw [hlocation, List.mem_singleton] at hname
    rwa [hname]
  | some region =>
    rw [hlocation] at hname
    obtain rfl | hname := List.mem_cons.1 hname
    · have hcut : locale.name = locale.language ++ "_" ++ region := by rw [Locale.name, hlocation]
      rw [hcut]
      constructor
      · simp
      · intro c hc
        simp only [String.toList_append, List.mem_append] at hc
        obtain (hc | hc) | hc := hc
        · exact hbare.2 c hc
        · exact .inr (by simpa using hc)
        · exact .inl ((hregion region hlocation).2 c hc)
    · rw [List.mem_singleton.1 hname]
      exact hbare

end Phrasebook.Locale
