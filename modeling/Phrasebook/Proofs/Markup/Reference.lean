import Phrasebook.Markup.Reference
import Phrasebook.Proofs.Result
import Phrasebook.Proofs.Text.Numeral

/-!
# Reading back written text

What `escape` writes is read by `unescape` as what it was. Written text is read piece by piece:
`Decodes` says what a piece stands for, whatever comes after it.
-/

namespace Phrasebook

namespace Markup

/-! ## Success does not depend on offsets -/

theorem resolve_eq_ok {offset offset' : Nat} {name : List Char} {c : Char}
    (h : resolve offset name = .ok c) : resolve offset' name = .ok c := by
  unfold resolve at h ⊢
  split
  · exact h
  · simp only at h
    split at h
    · exact h
    · cases h

/-- An ampersand starts a reference whose name goes up to a semicolon. -/
theorem unescapeFrom_reference {total offset : Nat} {cs rest : List Char}
    (hrest : cs.dropWhile (fun c => !isReferenceMark c) = ';' :: rest) :
    unescapeFrom total offset ('&' :: cs) =
      resolve offset (cs.takeWhile fun c => !isReferenceMark c) >>= fun c =>
        unescapeFrom total
            (offset + Text.byteLength (cs.takeWhile fun c => !isReferenceMark c) + 2) rest >>=
          fun later => pure (c :: later) := by
  rw [unescapeFrom, if_pos rfl]
  simp only
  split
  · rename_i h
    rw [hrest] at h
    cases h
    rfl
  · rename_i hnone
    exact absurd hrest (hnone rest)

theorem unescapeFrom_eq_ok {total total' offset offset' : Nat} {cs text : List Char}
    (h : unescapeFrom total offset cs = .ok text) : unescapeFrom total' offset' cs = .ok text := by
  fun_induction unescapeFrom total offset cs generalizing offset' text with
  | case1 offset =>
    rw [unescapeFrom]
    exact h
  | case2 offset cs name rest hrest =>
    rename_i ih
    obtain ⟨c, hc, h⟩ := bind_eq_ok_iff.1 h
    obtain ⟨later, hlater, h⟩ := bind_eq_ok_iff.1 h
    cases h
    rw [unescapeFrom_reference hrest]
    exact bind_eq_ok_iff.2 ⟨c, resolve_eq_ok hc, bind_eq_ok_iff.2 ⟨later, ih hlater, rfl⟩⟩
  | case3 offset cs hrest => cases h
  | case4 offset c cs hc ih =>
    obtain ⟨later, hlater, h⟩ := bind_eq_ok_iff.1 h
    cases h
    rw [unescapeFrom, if_neg hc]
    exact bind_eq_ok_iff.2 ⟨later, ih hlater, rfl⟩

theorem unescape_nil : unescape [] = .ok [] := by
  rw [unescape, unescapeFrom]

theorem read_cons_iff {read rest : Except Fault (List Char)} {text : List Char}
    (hread : ∀ whole, read = .ok whole ↔ ∃ later, rest = .ok later ∧ whole = text ++ later)
    (c : Char) (whole : List Char) :
    (read >>= fun more => pure (c :: more)) = .ok whole ↔
      ∃ later, rest = .ok later ∧ whole = c :: text ++ later := by
  rw [bind_eq_ok_iff]
  simp only [hread]
  constructor
  · rintro ⟨_, ⟨later, hlater, rfl⟩, heq⟩
    cases heq
    exact ⟨later, hlater, rfl⟩
  · rintro ⟨later, hlater, rfl⟩
    exact ⟨_, ⟨later, hlater, rfl⟩, rfl⟩

/-- If the beginning of a written text can be read, its rest is read as it is on its own. -/
theorem unescapeFrom_append_iff {total total' offset offset' : Nat} {as bs text whole : List Char}
    (h : unescapeFrom total offset as = .ok text) :
    unescapeFrom total' offset' (as ++ bs) = .ok whole ↔
      ∃ later, unescape bs = .ok later ∧ whole = text ++ later := by
  -- along the reading of the beginning: offsets and the total only turn up in faults
  fun_induction unescapeFrom total offset as generalizing offset' text whole with
  | case1 offset =>
    cases h
    exact ⟨fun hbs => ⟨whole, unescapeFrom_eq_ok hbs, rfl⟩,
      fun ⟨_, hbs, heq⟩ => heq ▸ unescapeFrom_eq_ok hbs⟩
  | case2 offset cs name rest hrest =>
    rename_i ih
    obtain ⟨c, hc, h⟩ := bind_eq_ok_iff.1 h
    obtain ⟨text, htext, h⟩ := bind_eq_ok_iff.1 h
    cases h
    -- the semicolon is in the beginning, so the name of the reference is the same in the whole
    have hdrop : (cs ++ bs).dropWhile (fun c => !isReferenceMark c) = ';' :: (rest ++ bs) := by
      rw [List.dropWhile_append, hrest]
      rfl
    have htake : (cs ++ bs).takeWhile (fun c => !isReferenceMark c) = name := by
      have hlength : name.length ≠ cs.length := by
        have hsplit := congrArg List.length
          (List.takeWhile_append_dropWhile (p := fun c => !isReferenceMark c) (l := cs))
        rw [hrest, List.length_append, List.length_cons] at hsplit
        change name.length + _ = _ at hsplit
        omega
      rw [List.takeWhile_append, if_neg hlength]
    rw [List.cons_append, unescapeFrom_reference hdrop, htake, resolve_eq_ok hc]
    exact read_cons_iff (fun _ => ih htext) c whole
  | case3 offset cs hrest => cases h
  | case4 offset c cs hc ih =>
    obtain ⟨text, htext, h⟩ := bind_eq_ok_iff.1 h
    cases h
    rw [List.cons_append, unescapeFrom, if_neg hc]
    exact read_cons_iff (fun _ => ih htext) c whole

theorem unescape_append_iff {as bs text whole : List Char} (h : unescape as = .ok text) :
    unescape (as ++ bs) = .ok whole ↔ ∃ later, unescape bs = .ok later ∧ whole = text ++ later :=
  unescapeFrom_append_iff h

/-! ## Names of references -/

theorem isAlphanum_of_readCode {base code : Nat} {digits : List Char}
    (h : readCode base digits = .ok code) : ∀ x ∈ digits, x.isAlphanum = true := by
  unfold readCode at h
  split at h
  · cases h
  · cases h
  · split at h
    · rename_i hread
      exact Text.isAlphanum_of_readUnsigned hread
    · cases h

theorem isAlphanum_of_readCharRef {digits : List Char} {c : Char}
    (h : readCharRef digits = .ok c) : ∀ x ∈ digits, x.isAlphanum = true := by
  unfold readCharRef at h
  split at h
  · obtain ⟨code, hcode, -⟩ := bind_eq_ok_iff.1 h
    exact List.forall_mem_cons.2 ⟨by decide, isAlphanum_of_readCode hcode⟩
  · obtain ⟨code, hcode, -⟩ := bind_eq_ok_iff.1 h
    exact isAlphanum_of_readCode hcode

theorem isAlphanum_of_namedChar? {name : List Char} {c : Char} (h : namedChar? name = some c) :
    ∀ x ∈ name, x.isAlphanum = true := by
  refine List.all_eq_true.1 ?_
  unfold namedChar? at h
  split at h
  · subst name; decide
  split at h
  · subst name; decide
  split at h
  · subst name; decide
  split at h
  · subst name; decide
  split at h
  · subst name; decide
  · cases h

/-- What stands for a character is a name of letters and digits, after a number sign if it is
numeric. -/
theorem mark_or_isAlphanum_of_resolve {offset : Nat} {name : List Char} {c : Char}
    (h : resolve offset name = .ok c) : ∀ x ∈ name, x = '#' ∨ x.isAlphanum = true := by
  unfold resolve at h
  split at h
  · exact List.forall_mem_cons.2
      ⟨.inl rfl, fun x hx => .inr (isAlphanum_of_readCharRef (mapError_eq_ok_iff.1 h) x hx)⟩
  · split at h
    · rename_i hnamed
      exact fun x hx => .inr (isAlphanum_of_namedChar? hnamed x hx)
    · cases h

/-! ## Pieces of written text -/

/-- This written text stands for `text` in front of whatever can be read. -/
def Decodes (written text : List Char) : Prop :=
  ∀ rest later, unescape rest = .ok later → unescape (written ++ rest) = .ok (text ++ later)

theorem decodes_nil : Decodes [] [] := fun _ _ h => h

theorem Decodes.append {as bs as' bs' : List Char} (ha : Decodes as as') (hb : Decodes bs bs') :
    Decodes (as ++ bs) (as' ++ bs') := by
  intro rest later h
  rw [List.append_assoc, List.append_assoc]
  exact ha _ _ (hb _ _ h)

theorem Decodes.unescape_eq {written text : List Char} (h : Decodes written text) :
    unescape written = .ok text := by
  have := h [] [] unescape_nil
  rwa [List.append_nil, List.append_nil] at this

theorem decodes_singleton {c : Char} (hc : c ≠ '&') : Decodes [c] [c] := by
  intro rest later h
  unfold unescape at h ⊢
  rw [List.singleton_append, unescapeFrom, if_neg hc, unescapeFrom_eq_ok h]
  rfl

theorem decodes_plain {cs : List Char} (h : ∀ c ∈ cs, c ≠ '&') : Decodes cs cs := by
  induction cs with
  | nil => exact decodes_nil
  | cons c cs ih =>
    exact (decodes_singleton (h c List.mem_cons_self)).append
      (ih fun later hlater => h later (List.mem_cons_of_mem _ hlater))

theorem decodes_reference (name : List Char) {c : Char} (hresolve : resolve 0 name = .ok c) :
    Decodes ('&' :: (name ++ [';'])) [c] := by
  intro rest later h
  have hmark : ∀ x ∈ name, (fun x => !isReferenceMark x) x = true := by
    intro x hx
    have hname := mark_or_isAlphanum_of_resolve hresolve x hx
    have hamp : x ≠ '&' := by rintro rfl; exact absurd hname (by decide)
    have hend : x ≠ ';' := by rintro rfl; exact absurd hname (by decide)
    simp [isReferenceMark, hamp, hend]
  have hcut : (name ++ ';' :: rest).dropWhile (fun x => !isReferenceMark x) = ';' :: rest := by
    rw [List.dropWhile_append_of_pos hmark]
    rfl
  have htake : (name ++ ';' :: rest).takeWhile (fun x => !isReferenceMark x) = name := by
    rw [List.takeWhile_append_of_pos hmark, List.takeWhile_cons_of_neg (by decide), List.append_nil]
  unfold unescape at h ⊢
  rw [List.cons_append, List.append_assoc, List.singleton_append, unescapeFrom_reference hcut,
    htake]
  exact bind_eq_ok_iff.2 ⟨c, hresolve, bind_eq_ok_iff.2 ⟨later, unescapeFrom_eq_ok h, rfl⟩⟩

theorem decodes_escapeChar (c : Char) : Decodes (escapeChar c) [c] := by
  unfold escapeChar
  split
  · subst c; exact decodes_reference "lt".toList rfl
  split
  · subst c; exact decodes_reference "gt".toList rfl
  split
  · subst c; exact decodes_reference "amp".toList rfl
  split
  · subst c; exact decodes_reference "apos".toList rfl
  split
  · subst c; exact decodes_reference "quot".toList rfl
  · rename_i hamp _ _
    exact decodes_singleton hamp

theorem decodes_escape (cs : List Char) : Decodes (escape cs) cs := by
  induction cs with
  | nil => exact decodes_nil
  | cons c cs ih => exact (decodes_escapeChar c).append ih

/-! ## What escaping leaves -/

/-- No character of an escaped one could end a tag, a quotation or a text. -/
theorem not_special_of_mem_escapeChar {c x : Char} (hx : x ∈ escapeChar c) :
    x ∉ ['<', '>', '"', '\x27'] := by
  have hreference {cs : List Char} (hcs : cs.all (· ∉ ['<', '>', '"', '\x27']) = true)
      (hx : x ∈ cs) : x ∉ ['<', '>', '"', '\x27'] := of_decide_eq_true (List.all_eq_true.1 hcs x hx)
  unfold escapeChar at hx
  split at hx
  · exact hreference (by decide) hx
  split at hx
  · exact hreference (by decide) hx
  split at hx
  · exact hreference (by decide) hx
  split at hx
  · exact hreference (by decide) hx
  split at hx
  · exact hreference (by decide) hx
  · rename_i hlt hgt _ happ hquote
    rw [List.mem_singleton] at hx
    subst hx
    simp [hlt, hgt, happ, hquote]

theorem not_special_of_mem_escape {cs : List Char} {x : Char} (hx : x ∈ escape cs) :
    x ∉ ['<', '>', '"', '\x27'] := by
  obtain ⟨c, -, hc⟩ := List.mem_flatMap.1 hx
  exact not_special_of_mem_escapeChar hc

theorem escape_of_plain {cs : List Char} (h : ∀ c ∈ cs, c ∉ ['<', '>', '&', '\x27', '"']) :
    escape cs = cs := by
  induction cs with
  | nil => rfl
  | cons c cs ih =>
    have hc := h c List.mem_cons_self
    simp only [List.mem_cons, List.not_mem_nil, or_false, not_or] at hc
    obtain ⟨hlt, hgt, hamp, happ, hquote⟩ := hc
    rw [escape, List.flatMap_cons, ← escape,
      ih fun later hlater => h later (List.mem_cons_of_mem _ hlater),
      escapeChar, if_neg hlt, if_neg hgt, if_neg hamp, if_neg happ, if_neg hquote]
    rfl

end Markup

end Phrasebook
