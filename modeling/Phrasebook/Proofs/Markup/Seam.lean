import Phrasebook.Proofs.Markup.Truncation

/-!
# Scanning in parts

`Scans names cs events names'` says that scanning `cs` inside of the elements `names` goes to the
end without a fault, through these events, and leaves the elements `names'` open. If the beginning
of a text scans, the text scans as its beginning and its rest do on their own (`scans_append_iff`).
Only character data can reach across the seam; it is one event of the whole (`joinEvents`).
-/

namespace Phrasebook.Markup

/-- Scanning these characters goes to their end: inside of which elements, through which events, and
which elements are open after it. -/
inductive Scans : List (List Char) → List Char → List Event → List (List Char) → Prop where
  | done (names : List (List Char)) : Scans names [] [] names
  | event {names next names' : List (List Char)} {cs rest : List Char} {event : Event} {size : Nat}
      {later : List Event} (hscan : Event.scan cs = .event event size rest)
      (hadvance : advance names event = .ok next) (hrest : Scans next rest later names') :
      Scans names cs (event :: later) names'

variable {names next names' : List (List Char)} {as bs cs rest : List Char} {event : Event}
  {size : Nat} {events later : List Event}

open Document (scanFrom)

theorem scans_iff (offset : Nat) : Scans names cs events names' ↔
    (scanFrom names offset cs).events.map Located.event = events ∧
      (∃ length, (scanFrom names offset cs).ending = .complete length) ∧
        events.foldlM advance names = .ok names' := by
  -- `Scans` says nothing of offsets, so it holds for every offset at once or for none
  constructor
  · intro h
    induction h generalizing offset with
    | done =>
      rw [scanFrom_nil]
      exact ⟨rfl, ⟨offset, rfl⟩, rfl⟩
    | event hscan hadvance _ ih =>
      obtain ⟨hevents, hending, hfold⟩ := ih (offset + _)
      rw [scanFrom_event hscan hadvance, List.foldlM_cons, hadvance]
      exact ⟨congrArg _ hevents, hending, hfold⟩
  · rintro ⟨hevents, ⟨length, hending⟩, hfold⟩
    fun_induction scanFrom names offset cs generalizing events with
    | case1 names offset cs h =>
      obtain rfl := scan_eq_finished_iff.1 h
      cases hevents
      cases hfold
      exact .done _
    | case2 names offset cs fault distance h => cases hending
    | case3 names offset cs event size rest h fault hadvance => cases hending
    | case4 names offset cs event size rest h next hadvance ih =>
      subst hevents
      change (event :: _).foldlM advance names = _ at hfold
      rw [List.foldlM_cons, hadvance] at hfold
      exact .event h hadvance (ih rfl hfold hending)

theorem Scans.foldlM_advance (h : Scans names cs events names') :
    events.foldlM advance names = .ok names' := ((scans_iff 0).1 h).2.2

theorem Scans.unique {events' : List Event} {names'' : List (List Char)}
    (h : Scans names cs events names') (h' : Scans names cs events' names'') :
    events = events' ∧ names' = names'' := by
  obtain ⟨rfl, -, hfold⟩ := (scans_iff 0).1 h
  obtain ⟨rfl, -, hfold'⟩ := (scans_iff 0).1 h'
  rw [hfold] at hfold'
  exact ⟨rfl, Except.ok.inj hfold'⟩

/-- After the first event the rest is scanned in the elements that are open then. -/
theorem scans_event_iff (hscan : Event.scan cs = .event event size rest)
    (hadvance : advance names event = .ok next) :
    Scans names cs events names' ↔
      ∃ later, Scans next rest later names' ∧ events = event :: later := by
  constructor
  · intro h
    cases h with
    | done => cases hscan
    | event hscan' hadvance' hrest =>
      rw [hscan] at hscan'
      cases hscan'
      rw [hadvance] at hadvance'
      cases hadvance'
      exact ⟨_, hrest, rfl⟩
  · rintro ⟨later, hrest, rfl⟩
    exact .event hscan hadvance hrest

/-! ## Inside of more elements -/

theorem advance_append (outer : List (List Char)) (h : advance names event = .ok next) :
    advance (names ++ outer) event = .ok (next ++ outer) := by
  cases event with
  | closing name =>
    cases names with
    | nil => cases h
    | cons expected inner =>
      rw [advance] at h
      rw [List.cons_append, advance]
      split at h
      · rename_i hname
        cases h
        rw [if_pos hname]
      · cases h
  | _ => cases h; rfl

/-- What scans on its own scans alike inside of other elements. -/
theorem Scans.inside (h : Scans names cs events names') (outer : List (List Char)) :
    Scans (names ++ outer) cs events (names' ++ outer) := by
  induction h with
  | done names => exact .done _
  | event hscan hadvance _ ih => exact .event hscan (advance_append outer hadvance) ih

/-! ## Seams -/

/-- Events one after another. Character data at the seam is one event. -/
def joinEvents : List Event → List Event → List Event
  | [], later => later
  | [.text written], later => prependText written later
  | event :: events, later => event :: joinEvents events later

theorem joinEvents_cons (h : events ≠ [] ∨ ∀ written, event ≠ .text written) (later : List Event) :
    joinEvents (event :: events) later = event :: joinEvents events later := by
  rw [joinEvents]
  intro written hevent hevents
  cases h with
  | inl hne => exact hne hevents
  | inr hnot => exact hnot written hevent

/-- Character data is never empty and has no bracket in it. -/
theorem scan_eq_text {written : List Char} (h : Event.scan cs = .event (.text written) size rest) :
    written ≠ [] ∧ '<' ∉ written ∧ cs = written ++ rest := by
  match cs with
  | [] => cases h
  | c :: cs =>
    have hc : c ≠ '<' := by
      rintro rfl
      exact scanMarkup_ne_text h
    rw [scan_text hc] at h
    cases h
    refine ⟨?_, fun hmem => ?_, List.takeWhile_append_dropWhile.symm⟩
    · rw [List.takeWhile_cons_of_pos (by simpa using hc)]
      exact List.cons_ne_nil _ _
    · have hkept := List.all_eq_true.1 List.all_takeWhile _ hmem
      simp at hkept

theorem foldlM_advance_prependText (written : List Char) :
    (prependText written later).foldlM advance names = later.foldlM advance names := by
  unfold prependText
  split
  · rfl
  · split <;> rfl

/-- Character data in front of a text joins the character data that the text starts with. -/
theorem scans_text_append_iff {written : List Char} (hne : written ≠ []) (hopen : '<' ∉ written) :
    Scans names (written ++ bs) events names' ↔
      ∃ later, Scans names bs later names' ∧ events = prependText written later := by
  obtain ⟨hevents, hending⟩ := scanFrom_append hne hopen names 0 bs
  rw [scans_iff 0, hevents, hending]
  constructor
  · rintro ⟨rfl, hcomplete, hfold⟩
    rw [foldlM_advance_prependText] at hfold
    exact ⟨_, (scans_iff _).2 ⟨rfl, hcomplete, hfold⟩, rfl⟩
  · rintro ⟨later, hscans, rfl⟩
    obtain ⟨hlater, hcomplete, hfold⟩ := (scans_iff (0 + Text.byteLength written)).1 hscans
    rw [hlater, foldlM_advance_prependText]
    exact ⟨rfl, hcomplete, hfold⟩

/-- If its beginning scans, a text scans as its beginning and its rest do. -/
theorem scans_append_iff (h : Scans names as events next) {whole : List Event} :
    Scans names (as ++ bs) whole names' ↔
      ∃ later, Scans next bs later names' ∧ whole = joinEvents events later := by
  induction h generalizing whole with
  | done names =>
    constructor
    · intro h; exact ⟨whole, h, rfl⟩
    · rintro ⟨later, h, rfl⟩; exact h
  | @event names next _ as rest event size events hscan hadvance hrest ih =>
    by_cases hseam : rest = [] ∧ ∃ written, event = .text written
    · -- character data at the end of the beginning goes on with that at the start of the rest
      obtain ⟨rfl, written, rfl⟩ := hseam
      obtain ⟨hne, hopen, rfl⟩ := scan_eq_text hscan
      cases hadvance
      obtain ⟨rfl, rfl⟩ := hrest.unique (.done _)
      rw [List.append_nil]
      exact scans_text_append_iff hne hopen
    · have hend : rest ≠ [] ∨ ∀ written, event ≠ .text written :=
        (Decidable.em (rest = [])).symm.imp_right fun hnil written heq => hseam ⟨hnil, written, heq⟩
      have hjoin : events ≠ [] ∨ ∀ written, event ≠ .text written := by
        refine hend.imp_left fun hnotNil hnil => hnotNil ?_
        subst hnil
        cases hrest
        rfl
      rw [scans_event_iff (scan_extend hscan hend bs) hadvance]
      simp only [ih, joinEvents_cons hjoin]
      constructor
      · rintro ⟨_, ⟨later, hlater, rfl⟩, rfl⟩; exact ⟨later, hlater, rfl⟩
      · rintro ⟨later, hlater, rfl⟩; exact ⟨_, ⟨later, hlater, rfl⟩, rfl⟩

/-! ## Single events -/

theorem scans_single (hscan : Event.scan cs = .event event size [])
    (hadvance : advance names event = .ok names) : Scans names cs [event] names :=
  .event hscan hadvance (.done names)

theorem scans_text {written : List Char} (hne : written ≠ []) (hopen : '<' ∉ written)
    (names : List (List Char)) : Scans names written [.text written] names := by
  have h := (scans_text_append_iff hne hopen).2 ⟨[], Scans.done names, rfl⟩
  rwa [List.append_nil, prependText_of_not_text fun _ _ => List.cons_ne_nil _ _ |>.symm,
    if_neg hne] at h

theorem cutAt_cdata {content : List Char} (hend : ¬ "]]>".toList <:+: content) :
    cutAt "]]>".toList (content ++ "]]>".toList) = some (content, []) := by
  induction content with
  | nil => rfl
  | cons c cs ih =>
    have hrest : ¬ "]]>".toList <:+: cs := fun h => hend (h.trans (List.suffix_cons c cs).isInfix)
    -- the mark does not start here: either all of it is in the content, or its bracket would come
    -- too early
    have hmark : ¬ "]]>".toList <+: c :: (cs ++ "]]>".toList) := by
      intro hstarts
      match cs with
      | [] => exact absurd hstarts (by simp)
      | [d] => exact absurd hstarts (by simp)
      | d :: e :: cs =>
        refine hend (List.IsPrefix.isInfix ?_)
        exact List.prefix_of_prefix_length_le hstarts (List.prefix_append (c :: d :: e :: cs) _)
          (by simp)
    rw [List.cons_append, cutAt, if_neg (by rwa [List.isPrefixOf_iff_prefix]), ih hrest]
    rfl

theorem scans_cdata {content : List Char} (hend : ¬ "]]>".toList <:+: content)
    (names : List (List Char)) :
    Scans names ("<![CDATA[".toList ++ content ++ "]]>".toList) [.cdata content] names := by
  have hscan : Event.scan ("<![CDATA[".toList ++ content ++ "]]>".toList) = .event (.cdata content)
      ("<![CDATA[]]>".utf8ByteSize + Text.byteLength content) [] := by
    rw [List.append_assoc]
    show Step.ofCut .cdata "<![CDATA[]]>" .cdata (cutAt _ (content ++ _)) = _
    rw [cutAt_cdata hend]
    rfl
  exact scans_single hscan rfl

end Phrasebook.Markup
