import Phrasebook.Template

/-!
# Where a placeholder ends

After a percent sign come no digit, one digit and no more, or two digits (`digits_cases`). In each
case `takeIndex` takes exactly these and leaves the rest, with which filling in goes on
(`fillArgs_percent`). A template without a percent sign comes out as it is, so that filling in a
count may leave it aside (`withCount_eq`).
-/

namespace Phrasebook.Template

variable {args : List String} {c : Char} {count cs : List Char}

/-! ## Digits -/

def NoDigit (cs : List Char) : Prop := ∀ c ∈ cs.head?, c.isDigit = false

theorem noDigit_cons : NoDigit (c :: cs) ↔ c.isDigit = false := by
  simp [NoDigit]

theorem takeIndex_of_noDigit (h : NoDigit cs) : takeIndex cs = ([], cs) := by
  match cs, h with
  | [], _ => rfl
  | [a], h => rw [takeIndex, noDigit_cons.1 h]; rfl
  | a :: b :: rest, h => rw [takeIndex, noDigit_cons.1 h]; rfl

theorem takeIndex_one (hc : c.isDigit = true) (h : NoDigit cs) :
    takeIndex (c :: cs) = ([c], cs) := by
  match cs, h with
  | [], _ => rw [takeIndex, if_pos hc]
  | b :: rest, h => rw [takeIndex, if_pos hc, noDigit_cons.1 h]; rfl

theorem takeIndex_two {b : Char} (hc : c.isDigit = true) (hb : b.isDigit = true) :
    takeIndex (c :: b :: cs) = ([c, b], cs) := by
  rw [takeIndex, if_pos hc, if_pos hb]

theorem digits_cases (cs : List Char) :
    NoDigit cs ∨ (∃ c rest, cs = c :: rest ∧ c.isDigit = true ∧ NoDigit rest) ∨
      ∃ c b rest, cs = c :: b :: rest ∧ c.isDigit = true ∧ b.isDigit = true := by
  match cs with
  | [] => exact Or.inl nofun
  | c :: cs =>
    cases hc : c.isDigit with
    | false => exact Or.inl (noDigit_cons.2 hc)
    | true =>
      match cs with
      | [] => exact Or.inr (Or.inl ⟨c, [], rfl, hc, nofun⟩)
      | b :: rest =>
        cases hb : b.isDigit with
        | false => exact Or.inr (Or.inl ⟨c, b :: rest, rfl, hc, noDigit_cons.2 hb⟩)
        | true => exact Or.inr (Or.inr ⟨c, b, rest, rfl, hc, hb⟩)

theorem ne_percent_of_isDigit (hc : c.isDigit = true) : c ≠ '%' := by
  rintro rfl
  exact absurd hc (by decide)

/-! ## Filling in step by step -/

theorem fillArgs_of_ne (hc : c ≠ '%') : fillArgs args (c :: cs) = c :: fillArgs args cs := by
  rw [fillArgs, if_neg hc]

theorem fillArgs_percent :
    fillArgs args ('%' :: cs) = image args (takeIndex cs).1 ++ fillArgs args (takeIndex cs).2 := by
  rw [fillArgs, if_pos rfl]

theorem fillCount_of_ne (hc : c ≠ '%') : fillCount count (c :: cs) = c :: fillCount count cs := by
  rw [fillCount] <;> rintro _ rfl <;> contradiction

theorem fillCount_of_not_mem (h : '%' ∉ cs) : fillCount count cs = cs := by
  induction cs with
  | nil => rw [fillCount]
  | cons c cs ih =>
    rw [List.mem_cons, not_or] at h
    rw [fillCount_of_ne (Ne.symm h.1), ih h.2]

/-- Leaving a template without a percent sign aside is the same as going through it. -/
theorem withCount_eq (template : String) (count : Int) :
    withCount template count =
      String.ofList (fillCount (Text.integer count) template.toList) := by
  by_cases hpercent : '%' ∈ template.toList
  · rw [withCount, if_pos hpercent]
  · rw [withCount, if_neg hpercent, fillCount_of_not_mem hpercent, String.ofList_toList]

end Phrasebook.Template
