import Phrasebook.Proofs.Catalog.Presentation
import Phrasebook.Proofs.Template.Placeholder
import Phrasebook.Proofs.Text.Numeral

/-!
# Filling a template at once

A template is read once into pieces, and each piece is replaced by what stands for it (`filled`).
Filling in the count first and the arguments afterwards comes to the same where no count marker
follows a percent sign that would take one more digit: in such a `Clear` template no digit of the
count can become part of a placeholder (`fillArgs_fillCount`). In any other template some count does
(`length_fill_lt`).
-/

namespace Phrasebook.Template

/-! ## The pieces of a template -/

/-- A piece of a template. -/
inductive Piece where
  | letter (c : Char)
  | percent (digits : List Char)
  | marker
  deriving DecidableEq, Repr

/-- What follows the rest of a count marker, whose percent sign came before. -/
def afterMarker? : List Char → Option (List Char)
  | 'n' :: rest => some rest
  | 'L' :: 'n' :: rest => some rest
  | _ => none

theorem afterMarker?_eq_some_iff {cs rest : List Char} :
    afterMarker? cs = some rest ↔ cs = 'n' :: rest ∨ cs = 'L' :: 'n' :: rest := by
  unfold afterMarker?
  split <;> simp_all

theorem length_afterMarker?_lt {cs rest : List Char} (h : afterMarker? cs = some rest) :
    rest.length < cs.length := by
  rcases afterMarker?_eq_some_iff.1 h with rfl | rfl
  · exact Nat.lt_succ_self _
  · exact Nat.lt_succ_of_lt (Nat.lt_succ_self _)

/-- The pieces of a template, from left to right. -/
def pieces : List Char → List Piece
  | [] => []
  | c :: cs =>
    if c = '%' then
      match _h : afterMarker? cs with
      | some rest => .marker :: pieces rest
      | none => .percent (takeIndex cs).1 :: pieces (takeIndex cs).2
    else .letter c :: pieces cs
termination_by cs => cs.length
decreasing_by
  · exact Nat.lt_succ_of_lt (length_afterMarker?_lt _h)
  · exact Nat.lt_succ_of_le (length_takeIndex_le cs)
  · exact Nat.lt_succ_self _

/-- What stands for a piece: a percent sign with digits is replaced by the argument that they name,
if there is one, and a count marker by the count. -/
def Piece.filled (count : List Char) (args : List String) : Piece → List Char
  | .letter c => [c]
  | .percent digits => image args digits
  | .marker => count

def fill (count : List Char) (args : List String) (pieces : List Piece) : List Char :=
  pieces.flatMap (Piece.filled count args)

/-- Replaces placeholders by arguments and count markers by a count, all at once. -/
def filled (template : String) (count : Int) (args : List String) : String :=
  String.ofList (fill (Text.integer count) args (pieces template.toList))

/-- The piece would take a digit that comes after it. -/
def Piece.isOpen : Piece → Bool
  | .letter _ | .marker => false
  | .percent digits => digits.length < 2

/-- No count marker stands right after a piece that would take its first digit. -/
def Clear : List Piece → Prop
  | [] => True
  | piece :: rest => (piece.isOpen = true → rest.head? ≠ some .marker) ∧ Clear rest

variable {count : List Char} {args : List String} {c : Char} {cs rest : List Char}

theorem pieces_letter (hc : c ≠ '%') : pieces (c :: cs) = .letter c :: pieces cs := by
  rw [pieces, if_neg hc]

theorem pieces_marker (h : afterMarker? cs = some rest) :
    pieces ('%' :: cs) = .marker :: pieces rest := by
  rw [pieces, if_pos rfl]
  split
  · rename_i rest' h'
    rw [h] at h'
    rw [Option.some.inj h']
  · rename_i h'
    rw [h] at h'
    cases h'

theorem pieces_percent (h : afterMarker? cs = none) :
    pieces ('%' :: cs) = .percent (takeIndex cs).1 :: pieces (takeIndex cs).2 := by
  rw [pieces, if_pos rfl]
  split
  · rename_i rest' h'
    rw [h] at h'
    cases h'
  · rfl

/-! ## One pass for each kind -/

theorem fillCount_marker (h : afterMarker? cs = some rest) :
    fillCount count ('%' :: cs) = count ++ fillCount count rest := by
  rcases afterMarker?_eq_some_iff.1 h with rfl | rfl <;> rw [fillCount]

theorem fillCount_percent (h : afterMarker? cs = none) :
    fillCount count ('%' :: cs) = '%' :: fillCount count cs := by
  rw [fillCount]
  · rintro rest - rfl
    simp [afterMarker?] at h
  · rintro rest - rfl
    simp [afterMarker?] at h

theorem fillArgs_append {as : List Char} (h : '%' ∉ as) :
    fillArgs args (as ++ cs) = as ++ fillArgs args cs := by
  induction as with
  | nil => rfl
  | cons a as ih =>
    rw [List.mem_cons, not_or] at h
    rw [List.cons_append, fillArgs_of_ne (Ne.symm h.1), ih h.2, List.cons_append]

/-! ## Where a placeholder ends -/

/-- Filling in the count puts no digit in front, unless a count marker stands there and the count
starts with a digit. -/
theorem noDigit_fillCount (hcs : NoDigit cs) (hcount : count ≠ [])
    (hsafe : NoDigit count ∨ (pieces cs).head? ≠ some .marker) : NoDigit (fillCount count cs) := by
  match cs with
  | [] => exact hcs
  | c :: cs =>
    by_cases hc : c = '%'
    · subst hc
      cases hmarker : afterMarker? cs with
      | none =>
        rw [fillCount_percent hmarker]
        exact noDigit_cons.2 (by decide)
      | some rest =>
        rw [pieces_marker hmarker] at hsafe
        obtain ⟨first, more, rfl⟩ := List.exists_cons_of_ne_nil hcount
        rw [fillCount_marker hmarker]
        exact noDigit_cons.2 (noDigit_cons.1 (hsafe.resolve_right (· rfl)))
    · rw [fillCount_of_ne hc]
      exact noDigit_cons.2 (noDigit_cons.1 hcs)

theorem takeIndex_fillCount (hcount : count ≠ [])
    (hsafe : NoDigit count ∨
      ((Piece.percent (takeIndex cs).1).isOpen = true →
        (pieces (takeIndex cs).2).head? ≠ some .marker)) :
    takeIndex (fillCount count cs) = ((takeIndex cs).1, fillCount count (takeIndex cs).2) := by
  rcases digits_cases cs with hcs | ⟨c, rest, rfl, hc, hrest⟩ | ⟨c, b, rest, rfl, hc, hb⟩
  · rw [takeIndex_of_noDigit hcs] at hsafe ⊢
    exact takeIndex_of_noDigit (noDigit_fillCount hcs hcount (hsafe.imp_right (· rfl)))
  · rw [takeIndex_one hc hrest] at hsafe ⊢
    rw [fillCount_of_ne (ne_percent_of_isDigit hc)]
    exact takeIndex_one hc (noDigit_fillCount hrest hcount (hsafe.imp_right (· rfl)))
  · rw [fillCount_of_ne (ne_percent_of_isDigit hc), fillCount_of_ne (ne_percent_of_isDigit hb),
      takeIndex_two hc hb, takeIndex_two hc hb]

/-! ## Both passes -/

/-- In a clear template, and for a count that does not start with a digit in any template, one pass
after the other fills in what filling at once does. -/
theorem fillArgs_fillCount (hcount : count ≠ []) (hpercent : '%' ∉ count) (cs : List Char)
    (hsafe : NoDigit count ∨ Clear (pieces cs)) :
    fillArgs args (fillCount count cs) = fill count args (pieces cs) := by
  induction cs using pieces.induct with
  | case1 => rw [fillCount, fillArgs, pieces]; rfl
  | case2 cs rest hmarker ih =>
    rw [pieces_marker hmarker] at hsafe ⊢
    rw [fillCount_marker hmarker, fillArgs_append hpercent, ih (hsafe.imp_right (·.2))]
    rfl
  | case3 cs hnone ih =>
    rw [pieces_percent hnone] at hsafe ⊢
    rw [fillCount_percent hnone, fillArgs_percent,
      takeIndex_fillCount hcount (hsafe.imp_right (·.1)), ih (hsafe.imp_right (·.2))]
    rfl
  | case4 c cs hc ih =>
    rw [pieces_letter hc] at hsafe ⊢
    rw [fillCount_of_ne hc, fillArgs_of_ne hc, ih (hsafe.imp_right (·.2))]
    rfl

/-! ## Templates that are not clear -/

/-- Arguments for all placeholders, without any text. -/
def blanks : List String := List.replicate 99 ""

theorem image_blanks {digits : List Char} (hpos : 0 < indexValue digits)
    (hlt : indexValue digits ≤ 99) :
    image blanks digits = [] := by
  obtain ⟨i, hi⟩ := Nat.exists_eq_add_of_lt hpos
  rw [Nat.zero_add] at hi
  have hblank : argument? blanks (indexValue digits) = some "" := by
    rw [hi] at hlt ⊢
    exact List.getElem?_replicate_of_lt (by omega)
  rw [image, hblank]
  rfl

theorem indexValue_one (hc : c.isDigit = true) :
    0 < indexValue [c, '1'] ∧ indexValue [c, '1'] ≤ 99 := by
  have hle : c.toNat ≤ 57 := by
    simp only [Char.isDigit, Bool.and_eq_true, decide_eq_true_eq] at hc
    exact hc.2
  show 0 < 10 * (10 * 0 + (c.toNat - 48)) + 1 ∧ 10 * (10 * 0 + (c.toNat - 48)) + 1 ≤ 99
  omega

theorem marker_of_head? (h : (pieces cs).head? = some .marker) :
    ∃ after rest, cs = '%' :: after ∧ afterMarker? after = some rest := by
  match cs with
  | [] => rw [pieces] at h; cases h
  | c :: cs =>
    by_cases hc : c = '%'
    · subst hc
      cases hmarker : afterMarker? cs with
      | none => rw [pieces_percent hmarker] at h; cases h
      | some rest => exact ⟨cs, rest, rfl, hmarker⟩
    · rw [pieces_letter hc] at h
      cases h

/-- Where a count marker follows an open piece, the count eleven joins it: the text of one pass
after the other is shorter, as long as arguments have no text. -/
theorem length_percent_lt {rest after : List Char} (hmarker : afterMarker? after = some rest)
    (hopen : (Piece.percent (takeIndex cs).1).isOpen = true) (hcs : (takeIndex cs).2 = '%' :: after)
    (ih : (fillArgs blanks (fillCount ['1', '1'] ('%' :: after))).length ≤
      (fill ['1', '1'] blanks (pieces ('%' :: after))).length) :
    (image blanks (takeIndex (fillCount ['1', '1'] cs)).1 ++
        fillArgs blanks (takeIndex (fillCount ['1', '1'] cs)).2).length <
      (image blanks (takeIndex cs).1 ++ fill ['1', '1'] blanks (pieces ('%' :: after))).length := by
  have heleven : '%' ∉ ['1', '1'] := by decide
  rw [fillCount_marker hmarker, fillArgs_append heleven, List.length_append] at ih
  have hone : '1'.isDigit = true := by decide
  rcases digits_cases cs with hnone | ⟨c, rest', rfl, hc, hrest⟩ | ⟨c, b, rest', rfl, hc, hb⟩
  · -- a bare percent sign: both digits of eleven name the argument
    rw [takeIndex_of_noDigit hnone] at hcs ⊢
    obtain rfl : cs = '%' :: after := hcs
    have hblank : image blanks ['1', '1'] = [] := image_blanks (by decide) (by decide)
    rw [fillCount_marker hmarker, List.cons_append, List.cons_append, takeIndex_two hone hone,
      hblank]
    have himage : image blanks [] = ['%'] := rfl
    rw [himage, List.length_append, List.length_append]
    simp only [List.length_cons, List.length_nil] at ih ⊢
    rw [List.nil_append]
    omega
  · -- one digit: the first digit of eleven becomes the second one
    rw [takeIndex_one hc hrest] at hcs ⊢
    obtain rfl : rest' = '%' :: after := hcs
    have hblank : image blanks [c, '1'] = [] :=
      image_blanks (indexValue_one hc).1 (indexValue_one hc).2
    rw [fillCount_of_ne (ne_percent_of_isDigit hc), fillCount_marker hmarker, List.cons_append,
      List.cons_append, List.nil_append, takeIndex_two hc hone, hblank,
      fillArgs_of_ne (ne_percent_of_isDigit hone), List.length_append, List.length_append]
    simp only [List.length_cons, List.length_nil] at ih ⊢
    omega
  · rw [takeIndex_two hc hb] at hopen
    cases hopen

theorem not_clear_cons {piece : Piece} {later : List Piece} : ¬ Clear (piece :: later) ↔
    (piece.isOpen = true ∧ later.head? = some .marker) ∨ ¬ Clear later := by
  rw [Clear, not_and_or, Classical.not_imp, ne_eq, not_not]

/-- In a template that is not clear, the count eleven becomes part of a placeholder. -/
theorem length_fill_lt (cs : List Char) (hclear : ¬ Clear (pieces cs)) :
    (fillArgs blanks (fillCount ['1', '1'] cs)).length <
      (fill ['1', '1'] blanks (pieces cs)).length := by
  have heleven : '%' ∉ ['1', '1'] := by decide
  induction cs using pieces.induct with
  | case1 => rw [pieces] at hclear; exact absurd trivial hclear
  | case2 cs rest hmarker ih =>
    rw [pieces_marker hmarker] at hclear ⊢
    rw [fillCount_marker hmarker, fillArgs_append heleven]
    have hrest := ih ((not_clear_cons.1 hclear).resolve_left nofun)
    show _ < (['1', '1'] ++ fill _ _ (pieces rest)).length
    rw [List.length_append, List.length_append]
    omega
  | case3 cs hnone ih =>
    rw [pieces_percent hnone] at hclear ⊢
    rw [fillCount_percent hnone, fillArgs_percent]
    show _ < (image blanks _ ++ fill _ _ (pieces (takeIndex cs).2)).length
    by_cases hjoin : (Piece.percent (takeIndex cs).1).isOpen = true ∧
        (pieces (takeIndex cs).2).head? = some .marker
    · -- here the lengths differ; what comes later is at least not longer
      obtain ⟨after, rest, hafter, hmarker⟩ := marker_of_head? hjoin.2
      have hle : (fillArgs blanks (fillCount ['1', '1'] (takeIndex cs).2)).length ≤
          (fill ['1', '1'] blanks (pieces (takeIndex cs).2)).length := by
        by_cases hlater : Clear (pieces (takeIndex cs).2)
        · rw [fillArgs_fillCount (List.cons_ne_nil _ _) heleven _ (Or.inr hlater)]
        · exact Nat.le_of_lt (ih hlater)
      rw [hafter] at hle ⊢
      exact length_percent_lt hmarker hjoin.1 hafter hle
    · have hlater := ih ((not_clear_cons.1 hclear).resolve_left hjoin)
      rw [takeIndex_fillCount (List.cons_ne_nil _ _)
        (Or.inr fun hopen hhead => hjoin ⟨hopen, hhead⟩), List.length_append, List.length_append]
      exact Nat.add_lt_add_left hlater _
  | case4 c cs hc ih =>
    rw [pieces_letter hc] at hclear ⊢
    rw [fillCount_of_ne hc, fillArgs_of_ne hc]
    exact Nat.succ_lt_succ (ih ((not_clear_cons.1 hclear).resolve_left nofun))

/-! ## Templates as texts -/

theorem not_percent_integer (count : Int) : '%' ∉ Text.integer count := by
  intro hmem
  rcases Text.minus_or_isDigit_of_mem_integer hmem with hminus | hdigit
  · exact absurd hminus (by decide)
  · exact absurd hdigit (by decide)

/-- One pass after the other fills in what filling at once does, for a negative count and in a clear
template. -/
theorem withArgs_withCount {template : String} {count : Int}
    (hsafe : count < 0 ∨ Clear (pieces template.toList)) :
    withArgs (withCount template count) args = filled template count args := by
  rw [withArgs, withCount_eq, filled, String.toList_ofList,
    fillArgs_fillCount (integer_ne_nil count) (not_percent_integer count)]
  refine hsafe.imp_left fun hnegative => ?_
  obtain ⟨n, rfl⟩ := Int.eq_negSucc_of_lt_zero hnegative
  exact noDigit_cons.2 (by decide)

/-- In a template that is not clear, some count and some arguments make a difference. -/
theorem withArgs_withCount_ne {template : String} (hclear : ¬ Clear (pieces template.toList)) :
    withArgs (withCount template 11) blanks ≠ filled template 11 blanks := by
  intro hsame
  have hlength := congrArg (fun text => text.toList.length) hsame
  simp only [withArgs, withCount_eq, filled, String.toList_ofList] at hlength
  exact absurd hlength (Nat.ne_of_lt (length_fill_lt _ hclear))

end Phrasebook.Template
