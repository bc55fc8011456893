import Phrasebook.Markup.Document

/-!
# Documents as trees

What stands between a start tag and its end tag, and likewise a whole document, is a `Content`:
character data, remarks and elements one after another, where elements have contents of their own.
`Content.events` writes a tree down as events. The events of trees are exactly the event sequences
whose end tags match (`balanced_iff`).
-/

namespace Phrasebook.Markup

/-- The content of an element or of a document. -/
inductive Content where
  | done
  | text (written : List Char) (rest : Content)
  | cdata (content : List Char) (rest : Content)
  | remark (rest : Content)
  | empty (tag : List Char) (rest : Content)
  | element (tag : List Char) (inner rest : Content)
  deriving DecidableEq, Repr

namespace Content

/-- The events of a content, in order. -/
def events : Content → List Event
  | done => []
  | text written rest => .text written :: rest.events
  | cdata content rest => .cdata content :: rest.events
  | remark rest => .remark :: rest.events
  | empty tag rest => .empty tag :: rest.events
  | element tag inner rest =>
    .opening tag :: (inner.events ++ .closing (tagName tag) :: rest.events)

end Content

/-- Every end tag closes the innermost open element, and no element stays open. -/
def Balanced (events : List Event) : Prop := events.foldlM advance [] = .ok []

/-- The end of a content inside elements of these names: the innermost element is closed and the
events after that close the others, or nothing is open and nothing follows. -/
def Closes : List (List Char) → List Event → Prop
  | [], later => later = []
  | name :: outer, later =>
    ∃ rest, later = .closing name :: rest ∧ rest.foldlM advance outer = .ok []

theorem foldlM_advance_cons {names : List (List Char)} {event : Event} {rest : List Event} :
    (event :: rest).foldlM advance names = .ok [] ↔
      ∃ names', advance names event = .ok names' ∧ rest.foldlM advance names' = .ok [] := by
  rw [List.foldlM_cons]
  cases advance names event with
  | error fault =>
    constructor
    · intro h; cases h
    · rintro ⟨_, h, -⟩; cases h
  | ok names' =>
    constructor
    · intro h; exact ⟨names', rfl, h⟩
    · rintro ⟨_, h, hrest⟩; cases h; exact hrest

/-- Events that close these elements start with a content after which they close. -/
theorem exists_content_of_foldlM (n : Nat) (names : List (List Char)) (events : List Event)
    (hn : events.length ≤ n) (h : events.foldlM advance names = .ok []) :
    ∃ (content : Content) (later : List Event), events = content.events ++ later ∧
      Closes names later := by
  -- on a bound for the length, as what follows an element is no direct tail of the events
  induction n generalizing names events with
  | zero =>
    obtain rfl := List.length_eq_zero_iff.1 (Nat.le_zero.1 hn)
    cases h
    exact ⟨.done, [], rfl, rfl⟩
  | succ n ih =>
    match events with
    | [] =>
      cases h
      exact ⟨.done, [], rfl, rfl⟩
    | event :: rest =>
      have hrest : rest.length ≤ n := Nat.le_of_succ_le_succ hn
      obtain ⟨names', hadvance, hfold⟩ := foldlM_advance_cons.1 h
      have hitem (make : Content → Content)
          (hmake : ∀ content, (make content).events = event :: content.events)
          (hsame : advance names event = .ok names) :
          ∃ (content : Content) (later : List Event),
            event :: rest = content.events ++ later ∧ Closes names later := by
        cases hsame.symm.trans hadvance
        obtain ⟨content, later, rfl, hlater⟩ := ih _ _ hrest hfold
        exact ⟨make content, later, by rw [hmake, List.cons_append], hlater⟩
      cases event with
      | text written => exact hitem (.text written) (fun _ => rfl) rfl
      | cdata data => exact hitem (.cdata data) (fun _ => rfl) rfl
      | remark => exact hitem .remark (fun _ => rfl) rfl
      | empty tag => exact hitem (.empty tag) (fun _ => rfl) rfl
      | opening tag =>
        -- the inner content ends with this element's end tag, and the rest goes on after it
        cases hadvance
        obtain ⟨inner, later, rfl, after, rfl, hafter⟩ := ih _ _ hrest hfold
        rw [List.length_append, List.length_cons] at hrest
        obtain ⟨content, later, rfl, hlater⟩ := ih _ _ (by omega) hafter
        exact ⟨.element tag inner content, later, by simp [Content.events], hlater⟩
      | closing name =>
        refine ⟨.done, .closing name :: rest, rfl, ?_⟩
        match names with
        | [] => cases hadvance
        | expected :: outer =>
          by_cases hname : name = expected
          · rw [advance, if_pos hname] at hadvance
            cases hadvance
            exact ⟨rest, by rw [hname], hfold⟩
          · rw [advance, if_neg hname] at hadvance
            cases hadvance

theorem foldlM_events (content : Content) (names : List (List Char)) (later : List Event) :
    (content.events ++ later).foldlM advance names = later.foldlM advance names := by
  induction content generalizing names later with
  | done => rfl
  | text written rest ih => exact ih names later
  | cdata data rest ih => exact ih names later
  | remark rest ih => exact ih names later
  | empty tag rest ih => exact ih names later
  | element tag inner rest ihInner ihRest =>
    show (inner.events ++ .closing (tagName tag) :: rest.events ++ later).foldlM advance
      (tagName tag :: names) = _
    rw [List.append_assoc, ihInner, List.cons_append, List.foldlM_cons, advance, if_pos rfl]
    exact ihRest names later

/-- The balanced event sequences are those of trees. -/
theorem balanced_iff {events : List Event} :
    Balanced events ↔ ∃ content : Content, content.events = events := by
  constructor
  · intro h
    obtain ⟨content, later, rfl, rfl⟩ := exists_content_of_foldlM _ _ _ (Nat.le_refl _) h
    exact ⟨content, (List.append_nil _).symm⟩
  · rintro ⟨content, rfl⟩
    have h := foldlM_events content [] []
    rw [List.append_nil] at h
    exact h

/-- In a scanned document every end tag closes the innermost open element, up to where scanning
ended. -/
theorem foldlM_advance_scanFrom (names : List (List Char)) (offset : Nat) (cs : List Char) :
    ∃ names', ((Document.scanFrom names offset cs).events.map Located.event).foldlM advance names =
      .ok names' := by
  fun_induction Document.scanFrom names offset cs with
  | case1 names offset cs h => exact ⟨names, rfl⟩
  | case2 names offset cs fault distance h => exact ⟨names, rfl⟩
  | case3 names offset cs event size rest h fault hadvance => exact ⟨names, rfl⟩
  | case4 names offset cs event size rest h names' hadvance ih =>
    obtain ⟨final, hfinal⟩ := ih
    refine ⟨final, ?_⟩
    show (event :: _).foldlM advance names = _
    rw [List.foldlM_cons, hadvance]
    exact hfinal

end Phrasebook.Markup
