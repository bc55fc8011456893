import Mathlib.Data.List.Basic

/-!
# Replacing a mark

`replaceAll` goes through a text from the left and puts a value in place of each occurrence of a
mark. Occurrences of a mark do not overlap if its first character does not come again in it. If
moreover the value has no character of the mark, then no occurrence is left or made
(`not_infix_replaceAll`), and the text starts with the rest of a mark exactly where it did before
(`prefix_replaceAll_iff`).
-/

namespace Phrasebook.Text

/-- Puts a value in place of each occurrence of a mark, from left to right. -/
def replaceAll (mark value : List Char) : List Char → List Char
  | [] => []
  | c :: cs =>
    if mark <+: c :: cs then value ++ replaceAll mark value (cs.drop (mark.length - 1))
    else c :: replaceAll mark value cs
termination_by cs => cs.length
decreasing_by
  · rw [List.length_drop, List.length_cons]
    omega
  · exact Nat.lt_succ_self _

variable {mark value cs : List Char} {start c : Char} {rest : List Char}

theorem replaceAll_skip (h : ¬ mark <+: c :: cs) :
    replaceAll mark value (c :: cs) = c :: replaceAll mark value cs := by
  rw [replaceAll, if_neg h]

theorem replaceAll_mark (cs : List Char) :
    replaceAll (start :: rest) value (start :: rest ++ cs) =
      value ++ replaceAll (start :: rest) value cs := by
  have hprefix : start :: rest <+: start :: (rest ++ cs) := List.prefix_append (start :: rest) cs
  rw [List.cons_append, replaceAll, if_pos hprefix, List.length_cons, Nat.add_sub_cancel,
    List.drop_left]

theorem replaceAll_append {as : List Char} (h : start ∉ as) (cs : List Char) :
    replaceAll (start :: rest) value (as ++ cs) = as ++ replaceAll (start :: rest) value cs := by
  induction as with
  | nil => rfl
  | cons a as ih =>
    rw [List.mem_cons, not_or] at h
    have hprefix : ¬ start :: rest <+: a :: (as ++ cs) := by
      intro hprefix
      exact h.1 (List.cons_prefix_cons.1 hprefix).1
    rw [List.cons_append, replaceAll_skip hprefix, ih h.2, List.cons_append]

theorem replaceAll_of_not_infix (h : ¬ mark <:+: cs) : replaceAll mark value cs = cs := by
  induction cs with
  | nil => rw [replaceAll]
  | cons c cs ih =>
    rw [List.infix_cons_iff, not_or] at h
    rw [replaceAll_skip h.1, ih h.2]

/-- A word without the first character of the mark stands at the front after the replacement exactly
if it did before, where the value does not start like it. -/
theorem prefix_replaceAll_iff {word : List Char} (hword : start ∉ word) (hvalue : value ≠ [])
    (hdisjoint : word.Disjoint value) (cs : List Char) :
    word <+: replaceAll (start :: rest) value cs ↔ word <+: cs := by
  induction word generalizing cs with
  | nil => exact iff_of_true (List.nil_prefix) (List.nil_prefix)
  | cons a word ih =>
    rw [List.mem_cons, not_or] at hword
    cases cs with
    | nil => rw [replaceAll]
    | cons c cs =>
      by_cases hmark : start :: rest <+: c :: cs
      · -- the value stands there now, and the mark stood there before: neither starts like the word
        obtain ⟨first, more, rfl⟩ := List.exists_cons_of_ne_nil hvalue
        rw [replaceAll, if_pos hmark, List.cons_append, List.cons_prefix_cons,
          List.cons_prefix_cons]
        refine iff_of_false ?_ ?_
        · rintro ⟨rfl, -⟩
          exact hdisjoint List.mem_cons_self List.mem_cons_self
        · rintro ⟨rfl, -⟩
          exact hword.1 (List.cons_prefix_cons.1 hmark).1
      · rw [replaceAll_skip hmark, List.cons_prefix_cons, List.cons_prefix_cons]
        refine and_congr_right fun _ => ?_
        exact ih hword.2 (List.disjoint_of_disjoint_cons_left hdisjoint) cs

/-- An occurrence starts behind text without its first character. -/
theorem infix_append_iff_of_not_mem {as : List Char} (h : start ∉ as) (cs : List Char) :
    start :: rest <:+: as ++ cs ↔ start :: rest <:+: cs := by
  induction as with
  | nil => rw [List.nil_append]
  | cons a as ih =>
    rw [List.mem_cons, not_or] at h
    rw [List.cons_append, List.infix_cons_iff, List.cons_prefix_cons, ih h.2]
    exact or_iff_right fun hprefix => h.1 hprefix.1

/-- No occurrence of the mark is left, and none is made. -/
theorem not_infix_replaceAll (hstart : start ∉ rest) (hvalue : value ≠ [])
    (hdisjoint : (start :: rest).Disjoint value) (cs : List Char) :
    ¬ start :: rest <:+: replaceAll (start :: rest) value cs := by
  induction cs using replaceAll.induct (start :: rest) with
  | case1 => simp [replaceAll]
  | case2 c cs hmark ih =>
    rw [replaceAll, if_pos hmark,
      infix_append_iff_of_not_mem (List.disjoint_cons_left.1 hdisjoint).1]
    exact ih
  | case3 c cs hmark ih =>
    rw [replaceAll_skip hmark, List.infix_cons_iff, List.cons_prefix_cons]
    rintro (⟨rfl, hrest⟩ | hlater)
    · rw [prefix_replaceAll_iff hstart hvalue
        (List.disjoint_of_disjoint_cons_left hdisjoint)] at hrest
      exact hmark (List.cons_prefix_cons.2 ⟨rfl, hrest⟩)
    · exact ih hlater

end Phrasebook.Text
