import Phrasebook.Proofs.Template.Simultaneous
import Phrasebook.Proofs.Text.Replacement

/-!
# Count markers go for good

Filling in a count is one pass for two markers. It comes to replacing all occurrences of one marker
and then all occurrences of the other one, in either order (`replaceAll_replaceAll`): the text of a
count has no character of a marker, so neither replacement hides or makes an occurrence of the other
marker. What is left has no marker at all, and filling in another count changes nothing
(`withCount_exhausts_markers`).
-/

namespace Phrasebook.Template

open Text (replaceAll)

/-! ## Markers -/

inductive Marker where
  | plain
  /-- The spelling that asks for the digits of the locale. -/
  | localized
  deriving DecidableEq, Repr

namespace Marker

def written : Marker → List Char
  | .plain => "%n".toList
  | .localized => "%Ln".toList

/-- What follows the percent sign of a count marker. -/
def tail : Marker → List Char
  | .plain => ['n']
  | .localized => ['L', 'n']

theorem written_eq (marker : Marker) : marker.written = '%' :: marker.tail := by
  cases marker <;> rfl

theorem not_percent_tail (marker : Marker) : '%' ∉ marker.tail := by
  cases marker <;> decide

/-- No spelling starts like the other one. -/
theorem not_tail_prefix {first second : Marker} (hne : first ≠ second) (cs : List Char) :
    ¬ first.tail <+: second.tail ++ cs := by
  cases first <;> cases second <;> simp_all [tail]

end Marker

/-- The characters can stand for a count: there are some, and none of them is a character of a
marker. -/
structure IsCount (count : List Char) : Prop where
  ne_nil : count ≠ []
  disjoint : ∀ marker : Marker, marker.written.Disjoint count

variable {first second : Marker} {count cs rest : List Char} {c : Char}

namespace IsCount

theorem not_percent (h : IsCount count) : '%' ∉ count :=
  h.disjoint .plain List.mem_cons_self

theorem tail_disjoint (h : IsCount count) (marker : Marker) : marker.tail.Disjoint count := by
  have hdisjoint := h.disjoint marker
  rw [marker.written_eq] at hdisjoint
  exact List.disjoint_of_disjoint_cons_left hdisjoint

end IsCount

theorem isCount_integer (count : Int) : IsCount (Text.integer count) := by
  refine ⟨integer_ne_nil count, ?_⟩
  intro marker c hmarker hmem
  have hcharacters : c = '%' ∨ c = 'n' ∨ c = 'L' := by
    cases marker <;> simp [Marker.written] at hmarker <;> tauto
  rcases Text.minus_or_isDigit_of_mem_integer hmem with rfl | hdigit
  · revert hcharacters
    decide
  · rcases hcharacters with rfl | rfl | rfl <;> exact absurd hdigit (by decide)

/-! ## One replacement -/

theorem replaceAll_written (marker : Marker) (cs : List Char) :
    replaceAll marker.written count (marker.written ++ cs) =
      count ++ replaceAll marker.written count cs := by
  rw [marker.written_eq]
  exact Text.replaceAll_mark cs

/-- Replacing one marker leaves the other one as it is. -/
theorem replaceAll_other (hne : first ≠ second) (cs : List Char) :
    replaceAll first.written count (second.written ++ cs) =
      second.written ++ replaceAll first.written count cs := by
  have hprefix : ¬ '%' :: first.tail <+: '%' :: (second.tail ++ cs) := by
    rw [List.cons_prefix_cons]
    rintro ⟨-, htail⟩
    exact Marker.not_tail_prefix hne cs htail
  rw [first.written_eq, second.written_eq, List.cons_append, Text.replaceAll_skip hprefix,
    Text.replaceAll_append second.not_percent_tail, List.cons_append]

/-- Replacing one marker makes no occurrence of the other one. -/
theorem written_prefix_replaceAll_iff (hcount : IsCount count) :
    second.written <+: c :: replaceAll first.written count cs ↔ second.written <+: c :: cs := by
  rw [first.written_eq, second.written_eq, List.cons_prefix_cons, List.cons_prefix_cons]
  refine and_congr_right fun _ => ?_
  exact Text.prefix_replaceAll_iff second.not_percent_tail hcount.ne_nil
    (hcount.tail_disjoint second) cs

/-! ## One after the other -/

theorem not_written_prefix (hplain : ∀ rest, c = '%' → cs = 'n' :: rest → False)
    (hlocalized : ∀ rest, c = '%' → cs = 'L' :: 'n' :: rest → False) (marker : Marker) :
    ¬ marker.written <+: c :: cs := by
  rw [marker.written_eq, List.cons_prefix_cons]
  rintro ⟨rfl, rest, rfl⟩
  cases marker
  · exact hplain rest rfl rfl
  · exact hlocalized rest rfl rfl

/-- Filling in a count replaces all occurrences of one marker, and then all occurrences of the other
one. -/
theorem replaceAll_replaceAll (hcount : IsCount count) (hne : first ≠ second) (cs : List Char) :
    replaceAll second.written count (replaceAll first.written count cs) = fillCount count cs := by
  -- a marker gives way in the first pass or in the second; the count is left alone by both
  have hmarker (marker : Marker) (rest : List Char)
      (ih : replaceAll second.written count (replaceAll first.written count rest) =
        fillCount count rest) :
      replaceAll second.written count (replaceAll first.written count (marker.written ++ rest)) =
        count ++ fillCount count rest := by
    by_cases hfirst : marker = first
    · subst hfirst
      rw [replaceAll_written, second.written_eq, Text.replaceAll_append hcount.not_percent,
        ← second.written_eq, ih]
    · obtain rfl : marker = second := by
        cases marker <;> cases first <;> cases second <;> simp_all
      rw [replaceAll_other hne, replaceAll_written, ih]
  induction cs using fillCount.induct with
  | case1 rest ih => exact (hmarker .plain rest ih).trans (fillCount_marker rfl).symm
  | case2 rest ih => exact (hmarker .localized rest ih).trans (fillCount_marker rfl).symm
  | case3 c rest hplain hlocalized ih =>
    have hnone := not_written_prefix hplain hlocalized
    have hafter : ¬ second.written <+: c :: replaceAll first.written count rest := by
      rw [written_prefix_replaceAll_iff hcount]
      exact hnone second
    rw [Text.replaceAll_skip (hnone first), Text.replaceAll_skip hafter, ih, fillCount]
    · exact hplain
    · exact hlocalized
  | case4 => simp [replaceAll, fillCount]

/-- No marker is left once a count is filled in. -/
theorem not_written_infix_fillCount (hcount : IsCount count) (marker : Marker) (cs : List Char) :
    ¬ marker.written <:+: fillCount count cs := by
  obtain ⟨other, hne⟩ : ∃ other, other ≠ marker := by
    cases marker
    · exact ⟨.localized, by decide⟩
    · exact ⟨.plain, by decide⟩
  have hdisjoint := hcount.disjoint marker
  rw [← replaceAll_replaceAll hcount hne, marker.written_eq] at *
  exact Text.not_infix_replaceAll marker.not_percent_tail hcount.ne_nil hdisjoint _

theorem fillCount_of_not_infix (hcount : IsCount count)
    (h : ∀ marker : Marker, ¬ marker.written <:+: cs) :
    fillCount count cs = cs := by
  have hne : Marker.plain ≠ .localized := by decide
  rw [← replaceAll_replaceAll hcount hne, Text.replaceAll_of_not_infix (h .plain),
    Text.replaceAll_of_not_infix (h .localized)]

/-! ## Templates as texts -/

/-- Filling in a count leaves no count marker, so another count has no place to go. It is the same
as replacing all occurrences of one marker by the count and then all occurrences of the other one,
whichever comes first. A template without a percent sign stays as it is, as it would if it were gone
through. -/
theorem withCount_exhausts_markers (template : String) (count : Int) :
    (∀ marker : Marker, ¬ marker.written <:+: (withCount template count).toList) ∧
      (∀ other, withCount (withCount template count) other = withCount template count) ∧
      (∀ first second : Marker, first ≠ second → withCount template count =
        String.ofList (replaceAll second.written (Text.integer count)
          (replaceAll first.written (Text.integer count) template.toList))) ∧
      withCount template count =
        String.ofList (fillCount (Text.integer count) template.toList) ∧
      ('%' ∉ template.toList → withCount template count = template) := by
  have hnone (marker : Marker) : ¬ marker.written <:+: (withCount template count).toList := by
    rw [withCount_eq, String.toList_ofList]
    exact not_written_infix_fillCount (isCount_integer count) marker _
  refine ⟨hnone, ?_, ?_, withCount_eq template count, ?_⟩
  · intro other
    rw [withCount_eq, fillCount_of_not_infix (isCount_integer other) hnone, String.ofList_toList]
  · intro first second hne
    rw [withCount_eq, replaceAll_replaceAll (isCount_integer count) hne]
  · intro hpercent
    rw [withCount_eq, fillCount_of_not_mem hpercent, String.ofList_toList]

/-- Percent signs and letters next to a marker neither hide it nor become one. -/
theorem withCount_exhausts_markers_adjacent :
    withCount "%%n %L%n %Lnn" (-5) = "%-5 %L-5 -5n" ∧
      Marker.plain ≠ .localized ∧
      String.ofList (replaceAll "%Ln".toList (Text.integer (-5))
        (replaceAll "%n".toList (Text.integer (-5)) "%%n %L%n %Lnn".toList)) = "%-5 %L-5 -5n" ∧
      '%' ∉ "Lnn".toList ∧ withCount "Lnn" (-5) = "Lnn" := by
  have hcount : withCount "%%n %L%n %Lnn" (-5) = "%-5 %L-5 -5n" := by decide +kernel
  have hne : Marker.plain ≠ .localized := by decide
  have hpercent : '%' ∉ "Lnn".toList := by decide
  obtain ⟨-, -, hordered, -⟩ := withCount_exhausts_markers "%%n %L%n %Lnn" (-5)
  obtain ⟨-, -, -, -, hplain⟩ := withCount_exhausts_markers "Lnn" (-5)
  exact ⟨hcount, hne, (hordered .plain .localized hne).symm.trans hcount, hpercent, hplain hpercent⟩

end Phrasebook.Template
