import Mathlib.Order.Defs.Unbundled
import Phrasebook.Ascending

/-!
# The order of ascending lists

Whatever the order of a list and however often an element is in it, `Ascending.ofList` puts its
elements into one strictly ascending list.
-/

namespace Phrasebook.Ascending

variable {α : Type} [LT α] [DecidableLT α] [DecidableEq α]

theorem ofList_eq_nil_iff {as : List α} : ofList as = [] ↔ as = [] := by
  rw [List.eq_nil_iff_forall_not_mem, List.eq_nil_iff_forall_not_mem]
  simp only [mem_ofList]

variable [IsStrictTotalOrder α (· < ·)]

theorem pairwise_insert (a : α) {as : List α} (h : as.Pairwise (· < ·)) :
    (insert a as).Pairwise (· < ·) := by
  induction as with
  | nil => exact List.pairwise_singleton _ _
  | cons b rest ih =>
    obtain ⟨hb, hrest⟩ := List.pairwise_cons.1 h
    unfold insert
    split
    · exact h
    · rename_i hne
      split
      · rename_i hlt
        refine List.pairwise_cons.2 ⟨fun c hc => ?_, h⟩
        rcases List.mem_cons.1 hc with rfl | hc
        · exact hlt
        · exact trans_of (· < ·) hlt (hb c hc)
      · rename_i hle
        refine List.pairwise_cons.2 ⟨fun c hc => ?_, ih hrest⟩
        rcases mem_insert.1 hc with rfl | hc
        · exact (trichotomous_of (· < ·) c b).resolve_left hle |>.resolve_left hne
        · exact hb c hc

theorem pairwise_ofList (as : List α) : (ofList as).Pairwise (· < ·) := by
  induction as with
  | nil => exact List.Pairwise.nil
  | cons a as ih => exact pairwise_insert a ih

end Phrasebook.Ascending
