/-!
# Cutting texts into pieces

A text that is cut at some of its characters comes apart into pieces of the other ones.
-/

namespace Phrasebook.Text

theorem of_mem_splitOnP {α : Type} {p : α → Bool} {as piece : List α}
    (hpiece : piece ∈ as.splitOnP p) :
    ∀ a ∈ piece, a ∈ as ∧ p a = false := by
  induction as generalizing piece with
  | nil =>
    intro a ha
    rw [List.splitOnP_nil, List.mem_singleton] at hpiece
    rw [hpiece] at ha
    cases ha
  | cons first rest ih =>
    intro a ha
    have hlater (hrest : piece ∈ rest.splitOnP p) : a ∈ first :: rest ∧ p a = false :=
      ⟨List.mem_cons_of_mem _ (ih hrest a ha).1, (ih hrest a ha).2⟩
    rw [List.splitOnP_cons_eq_if_modifyHead] at hpiece
    by_cases hcut : p first = true
    · rw [if_pos hcut, List.mem_cons] at hpiece
      obtain rfl | hrest := hpiece
      · cases ha
      · exact hlater hrest
    · -- the first element goes to the front of the first piece of the rest
      obtain ⟨head, tail, hsplit⟩ := List.exists_cons_of_ne_nil (List.splitOnP_ne_nil p rest)
      rw [if_neg hcut, hsplit, List.modifyHead_cons, List.mem_cons] at hpiece
      obtain rfl | htail := hpiece
      · obtain rfl | hhead := List.mem_cons.1 ha
        · exact ⟨List.mem_cons_self, by simpa using hcut⟩
        · have hmem : head ∈ rest.splitOnP p := by
            rw [hsplit]
            exact List.mem_cons_self
          exact ⟨List.mem_cons_of_mem _ (ih hmem a hhead).1, (ih hmem a hhead).2⟩
      · apply hlater
        rw [hsplit]
        exact List.mem_cons_of_mem _ htail

end Phrasebook.Text
