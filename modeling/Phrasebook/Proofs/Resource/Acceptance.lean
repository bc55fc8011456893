import Phrasebook.Proofs.Resource.Refinement

/-!
# Accepted texts

The reader has as many elements open as the markup does (`length_path_foldlM`). So a text with a
catalog is balanced to its end, and what is known of documents as trees holds of every text that is
accepted (`parse_eq_iff`).
-/

namespace Phrasebook.Resource

open Markup (Content Event Located advance)

open Catalog (Run)

namespace Reader

variable {reader reader' : Reader} {tag : List Char}

/-! ## Open elements -/

/-- What the start of an element asks for neither opens an element nor tells anything. -/
theorem keeps_enterElement {element : Element} (h : reader.enterElement element tag = .ok reader') :
    reader'.path = reader.path ∧ reader'.notices = reader.notices := by
  cases element with
  | root =>
    by_cases hbuilder : reader.builder.isSome = true
    · rw [enterElement, openRoot, if_pos hbuilder] at h
      cases h
    · rw [enterElement, openRoot, if_neg hbuilder] at h
      obtain ⟨version, -, h⟩ := bind_eq_ok_iff.1 h
      obtain ⟨language, -, h⟩ := bind_eq_ok_iff.1 h
      obtain ⟨sourceLanguage, -, h⟩ := bind_eq_ok_iff.1 h
      cases h; exact ⟨rfl, rfl⟩
  | context => cases h; exact ⟨rfl, rfl⟩
  | message =>
    obtain ⟨plural, -, h⟩ := bind_eq_ok_iff.1 h
    cases h; exact ⟨rfl, rfl⟩
  | location =>
    obtain ⟨filename, -, h⟩ := bind_eq_ok_iff.1 h
    obtain ⟨line, -, h⟩ := bind_eq_ok_iff.1 h
    cases h; exact ⟨rfl, rfl⟩
  | translation =>
    obtain ⟨state, -, h⟩ := bind_eq_ok_iff.1 h
    cases h; exact ⟨rfl, rfl⟩
  | byte =>
    obtain ⟨value?, -, h⟩ := bind_eq_ok_iff.1 h
    cases value? with
    | none => cases h
    | some value =>
      simp only at h
      split at h
      · split at h <;> cases h <;> exact ⟨rfl, rfl⟩
      · cases h
  | _ => cases h; exact ⟨rfl, rfl⟩

theorem keeps_openElement (h : reader.openElement tag = .ok reader') :
    (∃ element, reader'.path = element :: reader.path) ∧ reader'.notices = reader.notices := by
  unfold openElement at h
  split at h
  · cases h; exact ⟨⟨_, rfl⟩, rfl⟩
  · obtain ⟨_, -, h⟩ := bind_eq_ok_iff.1 h
    obtain ⟨entered, hentered, h⟩ := bind_eq_ok_iff.1 h
    obtain ⟨hpath, hnotices⟩ := keeps_enterElement hentered
    cases h; exact ⟨⟨_, congrArg _ hpath⟩, hnotices⟩
  · by_cases hroot : Element.ofName (Markup.tagName tag) ≠ .root
    · rw [if_pos hroot] at h
      cases h
    · rw [if_neg hroot] at h
      obtain ⟨entered, hentered, h⟩ := bind_eq_ok_iff.1 h
      obtain ⟨hpath, hnotices⟩ := keeps_enterElement hentered
      cases h; exact ⟨⟨_, congrArg _ hpath⟩, hnotices⟩

theorem path_leaveElement {element : Element} {text : String}
    (h : reader.leaveElement element text = .ok reader') : reader'.path = reader.path := by
  cases element with
  | message =>
    unfold leaveElement closeMessage at h
    simp only at h
    split at h <;> cases h
    rfl
  | context =>
    unfold leaveElement closeContext at h
    simp only at h
    split at h
    · cases h
    · split at h <;> cases h <;> rfl
  | _ => cases h; rfl

theorem path_closeElement (h : reader.closeElement = .ok reader') :
    ∃ element, reader.path = element :: reader'.path := by
  unfold closeElement at h
  split at h
  · cases h
  · rename_i element outer hpath
    refine ⟨element, hpath.trans (congrArg _ ?_)⟩
    simp only at h
    split at h
    · cases h; rfl
    · split at h
      · exact (path_leaveElement h).symm
      · exact (path_leaveElement h).symm

theorem keeps_addText {text : List Char} (h : reader.addText text = .ok reader') :
    reader'.path = reader.path ∧ reader'.notices = reader.notices := by
  unfold addText at h
  split at h
  · cases h
    split <;> exact ⟨rfl, rfl⟩
  · split at h <;> cases h
    exact ⟨rfl, rfl⟩

/-- The reader has as many elements open as the markup does. -/
theorem length_path_step {event : Event} {names names' : List (List Char)}
    (h : reader.step event = .ok reader') (hadvance : advance names event = .ok names')
    (hlength : reader.path.length = names.length) : reader'.path.length = names'.length := by
  cases event with
  | opening tag =>
    obtain ⟨element, hpath⟩ := (keeps_openElement h).1
    cases hadvance
    rw [hpath, List.length_cons, List.length_cons, hlength]
  | empty tag =>
    obtain ⟨opened, hopen, hclose⟩ := bind_eq_ok_iff.1 h
    obtain ⟨element, hopened⟩ := (keeps_openElement hopen).1
    obtain ⟨element', hclosed⟩ := path_closeElement hclose
    cases hadvance
    rw [hclosed, List.cons.injEq] at hopened
    rw [hopened.2, hlength]
  | closing name =>
    obtain ⟨element, hpath⟩ := path_closeElement h
    rw [hpath, List.length_cons] at hlength
    cases names with
    | nil => cases hadvance
    | cons expected outer =>
      rw [advance] at hadvance
      split at hadvance <;> cases hadvance
      exact Nat.succ.inj hlength
  | text written =>
    obtain ⟨text, -, htext⟩ := bind_eq_ok_iff.1 h
    cases hadvance
    rw [(keeps_addText htext).1, hlength]
  | cdata data =>
    cases hadvance
    rw [(keeps_addText h).1, hlength]
  | remark =>
    cases h
    cases hadvance
    exact hlength

theorem length_path_foldlM {events : List Event} {names names' : List (List Char)}
    (h : events.foldlM step reader = .ok reader')
    (hadvance : events.foldlM advance names = .ok names')
    (hlength : reader.path.length = names.length) :
    reader'.path.length = names'.length := by
  induction events generalizing reader names with
  | nil => cases h; cases hadvance; exact hlength
  | cons event rest ih =>
    rw [List.foldlM_cons] at h hadvance
    obtain ⟨next, hnext, h⟩ := bind_eq_ok_iff.1 h
    obtain ⟨open', hopen, hadvance⟩ := bind_eq_ok_iff.1 hadvance
    exact ih h hadvance (length_path_step hnext hopen hlength)

end Reader

/-! ## Texts -/

/-- A document that is accepted is balanced. -/
theorem balanced_of_foldlM {text : String} {reader : Reader}
    (h : ((Markup.Document.ofString text).events.map Located.event).foldlM Reader.step {} =
      .ok reader)
    (hpath : reader.path = []) :
    Markup.Balanced ((Markup.Document.ofString text).events.map Located.event) := by
  obtain ⟨names, hnames⟩ :=
    Markup.foldlM_advance_scanFrom [] 0 (Markup.Document.dropMark text.toList)
  have hlength := Reader.length_path_foldlM h hnames rfl
  rw [hpath] at hlength
  rw [List.length_eq_zero_iff.1 hlength.symm] at hnames
  exact hnames

/-- A text is accepted exactly when it scans to the end of a document that is a resource. -/
theorem parse_eq_iff {text : String} {catalog : Catalog} {notices : List Notice} :
    parse text = ⟨.ok catalog, notices⟩ ↔ ∃ content : Content,
      content.events = (Markup.Document.ofString text).events.map Located.event ∧
        (∃ length, (Markup.Document.ofString text).ending = .complete length) ∧
          (TextsDecode content ∧ AttributesDecode content ∧ IsResource content) ∧
            catalog = (Run.ofSteps (steps content)).builder.build ∧
              notices = (Run.ofSteps (steps content)).notices ++
                [readNotice (Run.ofSteps (steps content)).builder] := by
  constructor
  · intro h
    obtain ⟨⟨length, hending⟩, reader, builder, hfold, hpath, -⟩ := ofDocument_eq_iff.1 h
    obtain ⟨content, hevents⟩ := Markup.balanced_iff.1 (balanced_of_foldlM hfold hpath)
    exact ⟨content, hevents, ⟨length, hending⟩, (ofDocument_content_iff hevents.symm hending).1 h⟩
  · rintro ⟨content, hevents, ⟨length, hending⟩, hresource⟩
    exact (ofDocument_content_iff hevents.symm hending).2 hresource

end Phrasebook.Resource
