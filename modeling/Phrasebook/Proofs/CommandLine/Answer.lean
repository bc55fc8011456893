import Phrasebook.CommandLine.Outcome
import Phrasebook.Proofs.Template.Simultaneous

/-!
# Answers with a count and arguments

A request with a count is answered in two passes: the count goes into the template that the lookup
selects, and the arguments go into the outcome. The templates for which this always is filling in
both at once are the clear ones (`answer_eq_filled_iff`); in any other, digits of the count are read
as part of a placeholder.
-/

namespace Phrasebook.CommandLine

open Template (Clear pieces filled)

/-- The template that the lookup of a request selects for a count. -/
def selected (catalog : Catalog) (request : LookupRequest) (count : Int) : String :=
  catalog.pluralTemplate request.context request.source request.disambiguation count

theorem answer_of_count {catalog : Catalog} {request : LookupRequest} {count : Int}
    (hcount : request.count = some count) :
    answer catalog request =
      Template.withArgs (Template.withCount (selected catalog request count) count)
        request.args := by
  rw [answer, hcount]
  rfl

theorem selected_empty (request : LookupRequest) (count : Int) :
    selected .empty request count = request.source := by
  rw [selected, Catalog.pluralTemplate, Catalog.presented?_empty]
  rfl

/-- Requests whose lookup selects a template are all answered by filling in the count and the
arguments at once exactly when the template is clear. A negative count can be filled into any
template. -/
theorem answer_eq_filled_iff (template : String) :
    ((∀ (catalog : Catalog) (request : LookupRequest) (count : Int), request.count = some count →
        selected catalog request count = template →
          answer catalog request = filled template count request.args) ↔
      Clear (pieces template.toList)) ∧
    ∀ (catalog : Catalog) (request : LookupRequest) (count : Int), request.count = some count →
      selected catalog request count = template → count < 0 →
        answer catalog request = filled template count request.args := by
  refine ⟨⟨fun h => ?_, ?_⟩, ?_⟩
  · by_contra hclear
    have hsame :=
      h .empty { context := "", source := template, args := Template.blanks, count := some 11 }
        11 rfl (selected_empty _ _)
    rw [answer_of_count rfl, selected_empty] at hsame
    exact Template.withArgs_withCount_ne hclear hsame
  · rintro hclear catalog request count hcount rfl
    rw [answer_of_count hcount]
    exact Template.withArgs_withCount (Or.inr hclear)
  · rintro catalog request count hcount rfl hnegative
    rw [answer_of_count hcount]
    exact Template.withArgs_withCount (Or.inl hnegative)

/-- A request in which the count comes right after a placeholder of one digit. -/
def adjacent : LookupRequest where
  context := "X"
  source := "%1%n"
  args := ["A"]
  count := some 2

/-- The digit of the count joins the placeholder: the answer has neither the argument nor the
count. -/
theorem answer_adjacent_ne_filled :
    ¬ ∀ (catalog : Catalog) (request : LookupRequest) (count : Int), request.count = some count →
      answer catalog request = filled (selected catalog request count) count request.args := by
  intro h
  have hsame := h .empty adjacent 2 rfl
  rw [answer_of_count rfl, selected_empty] at hsame
  have htwo : Template.withArgs (Template.withCount "%1%n" 2) ["A"] = "%12" := by decide +kernel
  have hone : filled "%1%n" 2 ["A"] = "A2" := by decide +kernel
  exact absurd ((htwo.symm.trans hsame).trans hone) (by decide)

end Phrasebook.CommandLine
