import Phrasebook.Proofs.Markup.Seam
import Phrasebook.Proofs.Resource.Acceptance

/-!
# Reading in parts

The reader takes a text as it takes its beginning and then its rest (`Reader.takes_append_iff`). The
beginning may end between two events or between two characters of character data, where a reference
is one character (`Place`). So what can be said of a part of a resource by itself holds of it in its
place.
-/

namespace Phrasebook.Resource

open Markup (Event Scans joinEvents prependText unescape)

open Markup.Document (dropMark)

def EventsDecode (events : List Event) : Prop :=
  ∀ written, .text written ∈ events → ∃ text, unescape written = .ok text

/-- A place in a document with these elements open: what is before it scans to its end, so no markup
is cut, and its character data can be read, so no reference is cut. -/
def Place (before : List Char) (names : List (List Char)) : Prop :=
  ∃ events, Scans [] (dropMark before) events names ∧ EventsDecode events

/-- Inside of an element something is before a place. -/
theorem Place.ne_nil {before : List Char} {names : List (List Char)} (h : Place before names)
    (hinside : names ≠ []) : before ≠ [] := by
  rintro rfl
  obtain ⟨events, hscans, -⟩ := h
  exact hinside (hscans.unique (.done [])).2

namespace Reader

variable {reader reader' : Reader}

/-! ## Character data in parts -/

theorem addText_append_iff {as bs : List Char} :
    reader.addText (as ++ bs) = .ok reader' ↔
      ∃ next, reader.addText as = .ok next ∧ next.addText bs = .ok reader' := by
  cases hpath : reader.path with
  | nil =>
    simp only [addText_outside hpath, List.forall_mem_append]
    constructor
    · rintro ⟨⟨has, hbs⟩, rfl⟩
      exact ⟨_, ⟨has, rfl⟩, (addText_outside hpath).2 ⟨hbs, rfl⟩⟩
    · rintro ⟨_, ⟨has, rfl⟩, hnext⟩
      obtain ⟨hbs, rfl⟩ := (addText_outside hpath).1 hnext
      exact ⟨⟨has, hbs⟩, rfl⟩
  | cons element outer =>
    have hpath' (text : List Char) :
        (reader.addCharacters element text).path = element :: outer := by
      rw [path_addCharacters, hpath]
    simp only [addText_inside hpath, Except.ok.injEq, exists_eq_left', addText_inside (hpath' as),
      addCharacters_addCharacters]

theorem step_text_iff {written : List Char} :
    reader.step (.text written) = .ok reader' ↔
      ∃ text, unescape written = .ok text ∧ reader.addText text = .ok reader' := by
  show ((unescape written).mapError _ >>= reader.addText) = _ ↔ _
  rw [bind_eq_ok_iff]
  simp only [mapError_eq_ok_iff]

/-- Character data is taken as its beginning and its rest, if no reference is cut. -/
theorem step_text_append_iff {as bs text : List Char} (h : unescape as = .ok text) :
    reader.step (.text (as ++ bs)) = .ok reader' ↔
      ∃ next, reader.step (.text as) = .ok next ∧ next.step (.text bs) = .ok reader' := by
  simp only [step_text_iff, Markup.unescape_append_iff h, h, Except.ok.injEq, exists_eq_left']
  constructor
  · rintro ⟨_, ⟨later, hlater, rfl⟩, hadd⟩
    obtain ⟨next, hnext, hadd⟩ := addText_append_iff.1 hadd
    exact ⟨next, hnext, later, hlater, hadd⟩
  · rintro ⟨next, hnext, later, hlater, hadd⟩
    exact ⟨_, ⟨later, hlater, rfl⟩, addText_append_iff.2 ⟨next, hnext, hadd⟩⟩

theorem step_text_nil : reader.step (.text []) = .ok reader := by
  refine step_text_iff.2 ⟨[], Markup.unescape_nil, ?_⟩
  unfold addText
  split
  · split
    · rw [String.ofList_nil, String.append_empty]
    · rfl
  · rfl

theorem foldlM_prependText_iff {written : List Char} (hread : ∃ text, unescape written = .ok text)
    (later : List Event) :
    (prependText written later).foldlM step reader = .ok reader' ↔
      ∃ next, reader.step (.text written) = .ok next ∧ later.foldlM step next = .ok reader' := by
  obtain ⟨text, htext⟩ := hread
  unfold prependText
  split
  · rename_i more rest
    simp only [List.foldlM_cons, bind_eq_ok_iff, step_text_append_iff htext]
    constructor
    · rintro ⟨last, ⟨next, hnext, hlast⟩, hrest⟩; exact ⟨next, hnext, last, hlast, hrest⟩
    · rintro ⟨next, hnext, last, hlast, hrest⟩; exact ⟨last, ⟨next, hnext, hlast⟩, hrest⟩
  · split
    · subst written
      simp only [step_text_nil, Except.ok.injEq, exists_eq_left']
    · rw [List.foldlM_cons, bind_eq_ok_iff]

/-- Joined events are taken as those before the seam and those after it. -/
theorem foldlM_joinEvents_iff {events later : List Event} (hdecode : EventsDecode events) :
    (joinEvents events later).foldlM step reader = .ok reader' ↔
      ∃ next, events.foldlM step reader = .ok next ∧ later.foldlM step next = .ok reader' := by
  fun_induction joinEvents events later generalizing reader with
  | case1 later =>
    constructor
    · intro h; exact ⟨reader, rfl, h⟩
    · rintro ⟨_, hnext, h⟩; cases hnext; exact h
  | case2 written later =>
    rw [foldlM_prependText_iff (hdecode written List.mem_cons_self)]
    simp only [List.foldlM_cons, List.foldlM_nil, bind_pure]
  | case3 event events later _ ih =>
    simp only [List.foldlM_cons, bind_eq_ok_iff,
      ih fun written hmem => hdecode written (List.mem_cons_of_mem _ hmem)]
    constructor
    · rintro ⟨first, hfirst, next, hnext, h⟩; exact ⟨next, ⟨first, hfirst, hnext⟩, h⟩
    · rintro ⟨next, ⟨first, hfirst, hnext⟩, h⟩; exact ⟨first, hfirst, next, hnext, h⟩

/-! ## Texts in parts -/

/-- Scanning goes to the end of a text and the reader takes what comes of it. -/
def Takes (names : List (List Char)) (reader : Reader) (cs : List Char) (names' : List (List Char))
    (reader' : Reader) : Prop :=
  ∃ events, Scans names cs events names' ∧ events.foldlM step reader = .ok reader'

theorem eventsDecode_of_foldlM {events : List Event} (h : events.foldlM step reader = .ok reader') :
    EventsDecode events := by
  induction events generalizing reader with
  | nil => intro written hmem; cases hmem
  | cons event events ih =>
    rw [List.foldlM_cons] at h
    obtain ⟨next, hstep, hrest⟩ := bind_eq_ok_iff.1 h
    intro written hmem
    rcases List.mem_cons.1 hmem with rfl | hmem
    · obtain ⟨text, htext, -⟩ := step_text_iff.1 hstep
      exact ⟨text, htext⟩
    · exact ih hrest written hmem

variable {names next names' : List (List Char)} {as bs : List Char} {mid : Reader}

/-- After a beginning that the reader takes, it takes the text exactly when it takes the rest. -/
theorem takes_append_iff (h : Takes names reader as next mid) :
    Takes names reader (as ++ bs) names' reader' ↔ Takes next mid bs names' reader' := by
  obtain ⟨events, hscans, hfold⟩ := h
  unfold Takes
  simp only [Markup.scans_append_iff hscans]
  constructor
  · rintro ⟨_, ⟨later, hlater, rfl⟩, hwhole⟩
    obtain ⟨mid', hmid', hrest⟩ := (foldlM_joinEvents_iff (eventsDecode_of_foldlM hfold)).1 hwhole
    rw [hfold] at hmid'
    cases hmid'
    exact ⟨later, hlater, hrest⟩
  · rintro ⟨later, hlater, hrest⟩
    exact ⟨_, ⟨later, hlater, rfl⟩,
      (foldlM_joinEvents_iff (eventsDecode_of_foldlM hfold)).2 ⟨mid, hfold, hrest⟩⟩

theorem Takes.exists_mid {events : List Event} (hscans : Scans names as events next)
    (hdecode : EventsDecode events) (h : Takes names reader (as ++ bs) names' reader') :
    ∃ mid, Takes names reader as next mid := by
  obtain ⟨whole, hwhole, hfold⟩ := h
  obtain ⟨later, -, rfl⟩ := (Markup.scans_append_iff hscans).1 hwhole
  obtain ⟨mid, hmid, -⟩ := (foldlM_joinEvents_iff hdecode).1 hfold
  exact ⟨mid, events, hscans, hmid⟩

/-- Inside of an element the reader has an element open. -/
theorem Takes.exists_path (h : Takes [] {} as names reader) (hinside : names ≠ []) :
    ∃ element outer, reader.path = element :: outer := by
  obtain ⟨events, hscans, hfold⟩ := h
  have hlength := length_path_foldlM hfold hscans.foldlM_advance rfl
  refine List.exists_cons_of_ne_nil fun hpath => hinside ?_
  rw [hpath] at hlength
  exact List.length_eq_zero_iff.1 hlength.symm

end Reader

/-- A text is accepted exactly when the reader takes it and ends outside of the root, with a
builder. -/
theorem parse_eq_takes_iff {text : String} {catalog : Catalog} {notices : List Notice} :
    parse text = ⟨.ok catalog, notices⟩ ↔ ∃ reader builder,
      Reader.Takes [] {} (dropMark text.toList) [] reader ∧ reader.path = [] ∧
        reader.builder = some builder ∧ catalog = builder.build ∧
          notices = reader.notices ++ [readNotice builder] := by
  rw [parse, ofDocument_eq_iff]
  constructor
  · rintro ⟨hending, reader, builder, hfold, hpath, hrest⟩
    have hscans : Scans [] (dropMark text.toList) _ [] :=
      (Markup.scans_iff 0).2 ⟨rfl, hending, balanced_of_foldlM hfold hpath⟩
    exact ⟨reader, builder, ⟨_, hscans, hfold⟩, hpath, hrest⟩
  · rintro ⟨reader, builder, ⟨events, hscans, hfold⟩, hrest⟩
    obtain ⟨rfl, hending, -⟩ := (Markup.scans_iff 0).1 hscans
    exact ⟨hending, reader, builder, hfold, hrest⟩

end Phrasebook.Resource
