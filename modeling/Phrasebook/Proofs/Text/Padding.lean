import Mathlib.Data.List.DropRight
import Phrasebook.Text.Blank

/-!
# Blanks around a text

Trimming gives the same whatever blanks stand around a text (`trim_padded`), leaves nothing exactly
of blanks (`trim_eq_nil_iff`), and keeps a start without blanks (`trim_append_of_solid`).
-/

namespace Phrasebook.Text

def IsPadding (cs : List Char) : Prop := ∀ c ∈ cs, isBlank c = true

instance (cs : List Char) : Decidable (IsPadding cs) :=
  decidable_of_iff (cs.all isBlank = true) List.all_eq_true

def IsSolid (cs : List Char) : Prop := ∀ c ∈ cs, isBlank c = false

instance (cs : List Char) : Decidable (IsSolid cs) :=
  decidable_of_iff (cs.any isBlank = false) (by simp [IsSolid])

theorem isPadding_nil : IsPadding [] := fun _ hc => absurd hc List.not_mem_nil

/-- Blank characters among others that are not blank are none at all. -/
theorem eq_nil_of_isPadding {cs others : List Char} (hpadding : IsPadding cs)
    (hsolid : IsSolid others) (hsubset : cs ⊆ others) : cs = [] := by
  refine List.eq_nil_iff_forall_not_mem.2 fun c hc => ?_
  have hblank := hpadding c hc
  rw [hsolid c (hsubset hc)] at hblank
  cases hblank

/-! ## The end -/

theorem dropTrailing_append_of_pos {p : Char → Bool} {trail : List Char}
    (htrail : ∀ c ∈ trail, p c = true) (cs : List Char) :
    dropTrailing p (cs ++ trail) = dropTrailing p cs := by
  have hreverse : ∀ c ∈ trail.reverse, p c = true := fun c hc => htrail c (List.mem_reverse.1 hc)
  rw [dropTrailing, List.reverse_append, List.dropWhile_append_of_pos hreverse, dropTrailing]

theorem dropTrailing_append_of_neg {p : Char → Bool} {front : List Char}
    (hfront : ∀ c ∈ front, p c = false) (cs : List Char) :
    dropTrailing p (front ++ cs) = front ++ dropTrailing p cs := by
  have hkeep : front.reverse.dropWhile p = front.reverse := by
    refine List.dropWhile_eq_self_iff.2 fun hlength => ?_
    rw [hfront _ (List.mem_reverse.1 (List.getElem_mem hlength))]
    exact Bool.false_ne_true
  rw [dropTrailing, List.reverse_append, List.dropWhile_append, dropTrailing]
  split
  · rename_i hnone
    rw [hkeep, List.reverse_reverse, List.isEmpty_iff.1 hnone, List.reverse_nil, List.append_nil]
  · rw [List.reverse_append, List.reverse_reverse]

theorem dropTrailing_eq_rdropWhile (p : Char → Bool) (cs : List Char) :
    dropTrailing p cs = cs.rdropWhile p := rfl

theorem mem_head?_of_dropTrailing {p : Char → Bool} {cs : List Char} {c : Char}
    (hc : c ∈ (dropTrailing p cs).head?) : c ∈ cs.head? := by
  obtain ⟨dropped, hdropped⟩ := List.rdropWhile_prefix p cs
  rw [← hdropped, List.head?_append, ← dropTrailing_eq_rdropWhile, Option.mem_def.1 hc,
    Option.some_or]
  exact Option.mem_some_self c

/-! ## Both ends -/

/-- Blanks at both ends make no difference. -/
theorem trim_padded {lead trail : List Char} (hlead : IsPadding lead) (htrail : IsPadding trail)
    (cs : List Char) : trim (lead ++ cs ++ trail) = trim cs := by
  rw [trim, List.append_assoc, List.dropWhile_append_of_pos hlead, List.dropWhile_append, trim]
  split
  · rename_i hnone
    -- nothing is left of the text, nor of the blanks behind it
    rw [List.isEmpty_iff.1 hnone, List.dropWhile_eq_nil_iff.2 htrail]
  · exact dropTrailing_append_of_pos htrail _

theorem trim_eq_nil_iff {cs : List Char} : trim cs = [] ↔ IsPadding cs := by
  rw [trim, dropTrailing_eq_rdropWhile, List.rdropWhile_eq_nil_iff, ← List.dropWhile_eq_nil_iff,
    List.dropWhile_idempotent, List.dropWhile_eq_nil_iff]
  rfl

/-- What a text starts with stays if there is no blank in it. -/
theorem trim_append_of_solid {front : List Char} (hfront : IsSolid front) (hne : front ≠ [])
    (cs : List Char) : trim (front ++ cs) = front ++ dropTrailing isBlank cs := by
  obtain ⟨c, rest, rfl⟩ := List.exists_cons_of_ne_nil hne
  have hfirst : ¬ isBlank c = true := by rw [hfront c List.mem_cons_self]; exact Bool.false_ne_true
  rw [trim, List.cons_append, List.dropWhile_cons_of_neg hfirst, ← List.cons_append,
    dropTrailing_append_of_neg hfront]

theorem trim_of_solid {cs : List Char} (hcs : IsSolid cs) : trim cs = cs := by
  by_cases hne : cs = []
  · rw [hne, trim_nil]
  · have htrim := trim_append_of_solid hcs hne []
    rwa [List.append_nil, dropTrailing_nil, List.append_nil] at htrim

end Phrasebook.Text
