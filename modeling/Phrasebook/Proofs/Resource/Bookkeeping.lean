import Phrasebook.Proofs.Resource.Acceptance
import Phrasebook.Proofs.Resource.OpenPath

/-!
# Nothing is passed over

The reader changes the message or the context at hand if there is one, and would go on without a
word if there were none. There always is one: a message is at hand exactly while its element is
open, and so is a context (`Reader.Shaped`). So whatever the start or the end of an element has to
say goes where it belongs (`Reader.Handles`), for every sequence of events, balanced or not.
-/

namespace Phrasebook.Resource

open Markup (Event Located advance)

/-- A message after the text of an element in it, or in its translation. -/
def OpenMessage.noted (draft : OpenMessage) (text : String) : Element → OpenMessage
  | .source => { draft with message.source := text, hasSource := true }
  | .oldSource => { draft with message.oldSource := some text }
  | .comment => { draft with message.comment := some text }
  | .extraComment => { draft with message.extraComment := some text }
  | .translatorComment => { draft with message.translatorComment := some text }
  | .form => { draft with forms := draft.forms ++ [text] }
  | .translation => { draft with message.translation := draft.translation text, forms := [] }
  | .root | .context | .name | .message | .location | .byte | .unknown => draft

/-- Only the forms of a translation and its end change the forms. -/
theorem OpenMessage.forms_noted (draft : OpenMessage) (text : String) {element : Element}
    (hform : element ≠ .form) (htranslation : element ≠ .translation) :
    (draft.noted text element).forms = draft.forms := by
  cases element with
  | form => exact absurd rfl hform
  | translation => exact absurd rfl htranslation
  | _ => rfl

namespace Reader

variable {before after reader reader' : Reader} {tag : List Char} {element : Element}
  {text : String}

/-! ## What an event does -/

/-- What the start of an element does in its place. What it changes is there, and nothing at hand is
replaced by something new. -/
inductive Starts (before : Reader) (tag : List Char) : Element → Reader → Prop where
  | root (hpath : before.path = []) (hbuilder : before.builder = none) :
    Starts before tag .root
      { before with
        builder := some
          { version := attribute? tag "version"
            language := attribute? tag "language"
            sourceLanguage := attribute? tag "sourcelanguage" } }
  | context (hparent : before.path.head? = some .root) (hcontext : before.context = none) :
    Starts before tag .context { before with context := some {} }
  | message (hparent : before.path.head? = some .context) (hmessage : before.message = none) :
    Starts before tag .message { before with message := some { plural := isPlural tag } }
  | location {draft : OpenMessage} (hparent : before.path.head? = some .message)
      (hmessage : before.message = some draft) :
    Starts before tag .location
      { before with
        message := some
          { draft with message.locations := draft.message.locations ++ [locationOf tag] } }
  | translation {draft : OpenMessage} (hparent : before.path.head? = some .message)
      (hmessage : before.message = some draft) :
    Starts before tag .translation
      { before with message := some { draft with message.status := statusOf tag } }
  | text {element parent : Element} (hcollects : element.collectsText = true)
      (helement : element ≠ .translation) (hplace : element.parent? = some parent)
      (hparent : before.path.head? = some parent) : Starts before tag element before
  | byte {parent : Element} {c : Char} (hparent : before.path.head? = some parent)
      (hknown : parent ≠ .unknown) (hbyte : byteOf? tag = some c) :
    Starts before tag .byte (before.addCharacters parent [c])
  | unknown (hpath : before.path ≠ []) : Starts before tag .unknown before

/-- What the start of an element does: it is skipped in a skipped one. -/
inductive Opens (before : Reader) (tag : List Char) : Reader → Prop where
  | skipped (hparent : before.path.head? = some .unknown) : Opens before tag (before.push .unknown)
  | entered {entered : Reader} (hstarts : before.Starts tag (kind tag) entered) :
    Opens before tag (entered.push (kind tag))

/-- What the end of an element does with its text. What it changes is there. -/
inductive Ends (before : Reader) (text : String) : Element → Reader → Prop where
  | name {draft : OpenContext} (hcontext : before.context = some draft) :
    Ends before text .name { before with context := some { draft with name := some text } }
  | noted {element : Element} {draft : OpenMessage} (hcollects : element.collectsText = true)
      (hname : element ≠ .name) (hmessage : before.message = some draft) :
    Ends before text element { before with message := some (draft.noted text element) }
  | message {draft : OpenMessage} {context : OpenContext} (hmessage : before.message = some draft)
      (hsource : draft.hasSource = true) (hcontext : before.context = some context) :
    Ends before text .message
      { before with
        message := none
        context := some { context with messages := context.messages ++ [draft.message] } }
  | context {draft : OpenContext} {name : String} {builder : Catalog.Builder}
      (hcontext : before.context = some draft) (hname : draft.name = some name)
      (hbuilder : before.builder = some builder) :
    Ends before text .context
      { before with
        context := none
        builder := some (addMessages name (builder.openContext name) draft.messages).value
        notices := before.notices ++
          (addMessages name (builder.openContext name) draft.messages).notices }
  | silent {element : Element} (helement : element ∈ [.root, .location, .byte, .unknown]) :
    Ends before text element before

/-- What the end of the innermost element does: the end of a skipped element in a skipped one does
nothing. -/
inductive Closes (before : Reader) : Reader → Prop where
  | skipped {outer : List Element} (hpath : before.path = .unknown :: outer)
      (houter : outer.head? = some .unknown) : Closes before { before with path := outer }
  | left {element : Element} {outer : List Element} {after : Reader}
      (hpath : before.path = element :: outer) (houter : outer.head? ≠ some .unknown)
      (hends : Ends
        { before with path := outer, text := if element.collectsText then "" else before.text }
        (if element.collectsText then before.text else "") element after) :
    Closes before after

/-- What character data does: it counts in a text element, and outside of the root it is blank. -/
inductive Gathers (before : Reader) (text : List Char) : Reader → Prop where
  | inside {element : Element} (hinside : before.path.head? = some element) :
    Gathers before text (before.addCharacters element text)
  | outside (hpath : before.path = []) (hblank : ∀ c ∈ text, Text.isBlank c = true) :
    Gathers before text before

/-- What an event does to a reader. -/
inductive Handles (before : Reader) : Event → Reader → Prop where
  | opening {tag : List Char} {after : Reader} (hopens : before.Opens tag after) :
    Handles before (.opening tag) after
  | empty {tag : List Char} {opened after : Reader} (hopens : before.Opens tag opened)
      (hcloses : opened.Closes after) : Handles before (.empty tag) after
  | closing {name : List Char} {after : Reader} (hcloses : before.Closes after) :
    Handles before (.closing name) after
  | text {written : List Char} {after : Reader}
      (hgathers : before.Gathers (decoded written) after) :
    Handles before (.text written) after
  | cdata {data : List Char} {after : Reader} (hgathers : before.Gathers data after) :
    Handles before (.cdata data) after
  | remark : Handles before .remark before

/-! ## What is at hand -/

/-- A context and a message are at hand exactly while their elements are open, and a message has
forms only while its translation is. -/
structure Shaped (reader : Reader) : Prop where
  path : reader.path = [] ∨ IsPath reader.path
  builder : reader.path ≠ [] → reader.builder.isSome = true
  context : reader.context.isSome = true ↔ .context ∈ reader.path
  message : reader.message.isSome = true ↔ .message ∈ reader.path
  forms : ∀ draft, reader.message = some draft → draft.forms ≠ [] → .translation ∈ reader.path

theorem shaped_start : ({} : Reader).Shaped where
  path := .inl rfl
  builder h := absurd rfl h
  context := by simp
  message := by simp
  forms draft h := by cases h

namespace Shaped

theorem isPath (h : reader.Shaped) (hparent : reader.path.head? = some element) :
    IsPath reader.path := by
  rcases h.path with hnil | hpath
  · rw [hnil] at hparent
    cases hparent
  · exact hpath

/-- In an element with a place, the open elements are known. -/
theorem path_eq (h : reader.Shaped) (hparent : reader.path.head? = some element)
    (hplace : element.lineage ≠ []) : reader.path = element.lineage :=
  (h.isPath hparent).eq_lineage hparent hplace

theorem isPath_cons {outer : List Element} (h : reader.Shaped)
    (hpath : reader.path = element :: outer) :
    IsPath (element :: outer) := by
  rw [← hpath]
  exact h.isPath (by rw [hpath]; rfl)

/-- What an open element with a parent is in. -/
theorem outer_eq {parent : Element} {outer : List Element} (h : reader.Shaped)
    (hpath : reader.path = element :: outer) (hparent : element.parent? = some parent) :
    outer = parent.lineage :=
  (h.isPath_cons hpath).outer_eq hparent

theorem exists_message (h : reader.Shaped) (hmem : .message ∈ reader.path) :
    ∃ draft, reader.message = some draft :=
  Option.isSome_iff_exists.1 (h.message.2 hmem)

theorem exists_context (h : reader.Shaped) (hmem : .context ∈ reader.path) :
    ∃ draft, reader.context = some draft :=
  Option.isSome_iff_exists.1 (h.context.2 hmem)

end Shaped

/-! ## What the reader does -/

theorem starts_of_openRoot (hpath : reader.path = [])
    (hopen : reader.openRoot tag = .ok reader') : reader.Starts tag .root reader' := by
  cases hbuilder : reader.builder with
  | some builder =>
    rw [openRoot, hbuilder] at hopen
    cases hopen
  | none =>
    rw [openRoot, hbuilder] at hopen
    obtain ⟨version, hversion, hopen⟩ := bind_eq_ok_iff.1 hopen
    obtain ⟨language, hlanguage, hopen⟩ := bind_eq_ok_iff.1 hopen
    obtain ⟨sourceLanguage, hsource, hopen⟩ := bind_eq_ok_iff.1 hopen
    cases hopen
    rw [← attribute?_of_eq_ok hversion, ← attribute?_of_eq_ok hlanguage,
      ← attribute?_of_eq_ok hsource]
    exact .root hpath hbuilder

theorem starts_of_enterElement {parent : Element} {outer : List Element} (h : reader.Shaped)
    (hpath : reader.path = parent :: outer) (hparent : parent ≠ .unknown)
    (hplace : ∀ expected, (kind tag).parent? = some expected → parent = expected)
    (henter : reader.enterElement (kind tag) tag = .ok reader') :
    reader.Starts tag (kind tag) reader' := by
  have hhead : reader.path.head? = some parent := by rw [hpath]; rfl
  have hne : reader.path ≠ [] := by rw [hpath]; exact List.cons_ne_nil _ _
  -- the place of the element is open, so by the shape the draft that its start changes is there
  cases hkind : kind tag with
  | root =>
    rw [hkind, enterElement, openRoot, if_pos (h.builder hne)] at henter
    cases henter
  | context =>
    rw [hkind] at hplace henter
    obtain rfl := hplace .root rfl
    have hcontext : reader.context = none := by
      rw [← Option.not_isSome_iff_eq_none, h.context, h.path_eq hhead (by decide)]
      decide
    cases henter
    exact .context hhead hcontext
  | message =>
    rw [hkind] at hplace
    obtain rfl := hplace .context rfl
    have hmessage : reader.message = none := by
      rw [← Option.not_isSome_iff_eq_none, h.message, h.path_eq hhead (by decide)]
      decide
    rw [hkind] at henter
    obtain ⟨-, rfl⟩ := (openMessage_eq_ok_iff hkind).1 henter
    exact .message hhead hmessage
  | location =>
    rw [hkind] at hplace henter
    obtain rfl := hplace .message rfl
    obtain ⟨draft, hdraft⟩ := h.exists_message (List.mem_of_mem_head? hhead)
    obtain ⟨-, rfl⟩ := (openLocation_eq_ok_iff hkind).1 henter
    rw [updateMessage, hdraft]
    exact .location hhead hdraft
  | translation =>
    rw [hkind] at hplace henter
    obtain rfl := hplace .message rfl
    obtain ⟨draft, hdraft⟩ := h.exists_message (List.mem_of_mem_head? hhead)
    obtain ⟨-, rfl⟩ := (openTranslation_eq_ok_iff hkind).1 henter
    rw [updateMessage, hdraft]
    exact .translation hhead hdraft
  | byte =>
    rw [hkind] at henter
    obtain ⟨-, hbyte, rfl⟩ := (openByte_eq_ok_iff hpath hkind).1 henter
    obtain ⟨c, hc⟩ := Option.isSome_iff_exists.1 hbyte
    rw [hc]
    exact .byte hhead hparent hc
  | unknown =>
    rw [hkind] at henter
    cases henter
    exact .unknown hne
  | _ =>
    rw [hkind] at hplace henter
    cases henter
    exact .text rfl (by decide) rfl (hhead.trans (congrArg some (hplace _ rfl)))

theorem opens_of_openElement (h : reader.Shaped) (hopen : reader.openElement tag = .ok reader') :
    reader.Opens tag reader' := by
  cases hpath : reader.path with
  | nil =>
    obtain ⟨hkind, entered, hentered, rfl⟩ := (openElement_outside hpath).1 hopen
    have hstarts := starts_of_openRoot hpath hentered
    rw [← hkind] at hstarts ⊢
    exact .entered hstarts
  | cons parent outer =>
    by_cases hparent : parent = .unknown
    · have hhead : reader.path.head? = some .unknown := by rw [hpath, hparent]; rfl
      rw [openElement_in_unknown hhead] at hopen
      cases hopen
      exact .skipped hhead
    · obtain ⟨hplace, entered, hentered, rfl⟩ := (openElement_inside hpath hparent).1 hopen
      exact .entered (starts_of_enterElement h hpath hparent hplace hentered)

theorem ends_of_leaveElement {outer : List Element} (h : reader.Shaped)
    (hpath : reader.path = element :: outer)
    (hbefore : before = { reader with path := outer, text := before.text })
    (hleave : before.leaveElement element text = .ok after) : before.Ends text element after := by
  -- what the parent is always in is open as well, so the drafts that the end needs are there
  have hinside {parent inner : Element} (hparent : element.parent? = some parent)
      (hlineage : inner ∈ parent.lineage) : inner ∈ reader.path := by
    rw [hpath, h.outer_eq hpath hparent]
    exact List.mem_cons_of_mem _ hlineage
  have hmem : element ∈ reader.path := by rw [hpath]; exact List.mem_cons_self
  have hmessage : before.message = reader.message := by rw [hbefore]
  have hcontext : before.context = reader.context := by rw [hbefore]
  have hbuilder : before.builder = reader.builder := by rw [hbefore]
  cases element with
  | name =>
    obtain ⟨draft, hdraft⟩ := h.exists_context (hinside rfl (by decide))
    cases hleave
    rw [updateContext, hcontext, hdraft]
    exact .name (hcontext.trans hdraft)
  | message =>
    obtain ⟨draft, hdraft⟩ := h.exists_message hmem
    obtain ⟨context, hheld⟩ := h.exists_context (hinside rfl (by decide))
    rw [leaveElement, closeMessage_eq (hmessage.trans hdraft)] at hleave
    split at hleave
    · rename_i hsource
      cases hleave
      rw [updateContext, hcontext, hheld]
      exact .message (hmessage.trans hdraft) hsource (hcontext.trans hheld)
    · cases hleave
  | context =>
    obtain ⟨draft, hdraft⟩ := h.exists_context hmem
    obtain ⟨builder, hbuilt⟩ := Option.isSome_iff_exists.1 (h.builder (List.ne_nil_of_mem hmem))
    rw [leaveElement, closeContext, hcontext, hdraft, hbuilder, hbuilt] at hleave
    cases hname : draft.name with
    | none =>
      simp only [Option.getD_some, hname] at hleave
      cases hleave
    | some name =>
      simp only [Option.getD_some, hname] at hleave
      cases hleave
      exact .context (hcontext.trans hdraft) hname (hbuilder.trans hbuilt)
  | root | location | byte | unknown =>
    cases hleave
    exact .silent (by decide)
  | _ =>
    obtain ⟨draft, hdraft⟩ := h.exists_message (hinside rfl (by decide))
    cases hleave
    rw [updateMessage, hmessage, hdraft]
    exact .noted rfl (by decide) (hmessage.trans hdraft)

theorem closes_of_closeElement (h : reader.Shaped) (hclose : reader.closeElement = .ok reader') :
    reader.Closes reader' := by
  cases hpath : reader.path with
  | nil =>
    rw [closeElement, hpath] at hclose
    cases hclose
  | cons element outer =>
    rw [closeElement, hpath] at hclose
    dsimp only at hclose
    by_cases houter : outer.head? = some .unknown
    · rw [if_pos houter] at hclose
      cases hclose
      rw [(h.isPath_cons hpath).eq_unknown houter] at hpath
      exact .skipped hpath houter
    · rw [if_neg houter] at hclose
      refine .left hpath houter (ends_of_leaveElement h hpath rfl ?_)
      split at hclose
      · rename_i hcollects
        rw [if_pos hcollects, if_pos hcollects]
        exact hclose
      · rename_i hcollects
        rw [if_neg hcollects, if_neg hcollects]
        exact hclose

theorem gathers_of_addText {text : List Char} (hadd : reader.addText text = .ok reader') :
    reader.Gathers text reader' := by
  cases hpath : reader.path with
  | nil =>
    obtain ⟨hblank, rfl⟩ := (addText_outside hpath).1 hadd
    exact .outside hpath hblank
  | cons element outer =>
    rw [addText_inside hpath] at hadd
    cases hadd
    exact .inside (by rw [hpath]; rfl)

/-! ## What is kept -/

namespace Shaped

/-- One more element, neither a context nor a message, with the same things at hand. -/
theorem push {entered : Reader} (h : before.Shaped) (hopen : IsPath (element :: before.path))
    (helement : element ≠ .context ∧ element ≠ .message) (hpath : entered.path = before.path)
    (hbuilder : entered.builder.isSome = true) (hcontext : entered.context = before.context)
    (hmessage : entered.message.isSome = before.message.isSome)
    (hforms : ∀ draft, entered.message = some draft → draft.forms ≠ [] →
      .translation ∈ before.path) :
    (entered.push element).Shaped where
  path := by
    show element :: entered.path = [] ∨ IsPath (element :: entered.path)
    rw [hpath]
    exact .inr hopen
  builder _ := hbuilder
  context := by
    show entered.context.isSome = true ↔ .context ∈ element :: entered.path
    rw [hcontext, hpath, h.context, List.mem_cons, or_iff_right (Ne.symm helement.1)]
  message := by
    show entered.message.isSome = true ↔ .message ∈ element :: entered.path
    rw [hmessage, hpath, h.message, List.mem_cons, or_iff_right (Ne.symm helement.2)]
  forms draft hdraft hne := by
    show .translation ∈ element :: entered.path
    rw [hpath]
    exact List.mem_cons_of_mem _ (hforms draft hdraft hne)

theorem push_in_message {draft changed : OpenMessage} (h : before.Shaped)
    (hplace : element.parent? = some .message) (hparent : before.path.head? = some .message)
    (hmessage : before.message = some draft) (hforms : changed.forms = draft.forms) :
    ({ before with message := some changed }.push element).Shaped := by
  have hpath := h.isPath hparent
  have helement : element ≠ .context ∧ element ≠ .message := by
    constructor <;> rintro rfl <;> cases hplace
  refine h.push (hpath.child hplace hparent) helement rfl (h.builder hpath.ne_nil) rfl ?_ ?_
  · rw [hmessage]
    rfl
  · intro held hheld hne
    cases hheld
    exact h.forms draft hmessage (hforms ▸ hne)

theorem addCharacters (h : before.Shaped) (element : Element) (text : List Char) :
    (before.addCharacters element text).Shaped := by
  unfold Reader.addCharacters
  split
  · exact ⟨h.path, h.builder, h.context, h.message, h.forms⟩
  · exact h

theorem opens (h : before.Shaped) (hopens : before.Opens tag after) : after.Shaped := by
  cases hopens with
  | skipped hparent =>
    have hpath := h.isPath hparent
    exact h.push hpath.unknown (by decide) rfl (h.builder hpath.ne_nil) rfl rfl h.forms
  | entered hstarts =>
    generalize kind tag = element at hstarts
    cases hstarts with
    | root hpath hbuilder =>
      exact h.push (by rw [hpath]; exact .root) (by decide) rfl rfl rfl rfl h.forms
    | context hparent hcontext =>
      have hpath := h.isPath hparent
      exact
        { path := .inr (hpath.child rfl hparent)
          builder := fun _ => h.builder hpath.ne_nil
          context := by simp [Reader.push]
          message := by simpa [Reader.push] using h.message
          forms := fun draft hdraft hne => List.mem_cons_of_mem _ (h.forms draft hdraft hne) }
    | message hparent hmessage =>
      have hpath := h.isPath hparent
      exact
        { path := .inr (hpath.child rfl hparent)
          builder := fun _ => h.builder hpath.ne_nil
          context := by simpa [Reader.push] using h.context
          message := by simp [Reader.push]
          forms := fun draft hdraft hne => by
            cases hdraft
            exact absurd rfl hne }
    | location hparent hmessage => exact h.push_in_message rfl hparent hmessage rfl
    | translation hparent hmessage => exact h.push_in_message rfl hparent hmessage rfl
    | text hcollects helement hplace hparent =>
      have hpath := h.isPath hparent
      refine h.push (hpath.child hplace hparent) ?_ rfl (h.builder hpath.ne_nil) rfl rfl h.forms
      constructor <;> rintro rfl <;> cases hcollects
    | @byte parent c hparent hknown hbyte =>
      have hpath := h.isPath hparent
      have hadded := h.addCharacters parent [c]
      have hhead : before.path.head? ≠ some .unknown := by
        rw [hparent]
        exact fun heq => hknown (Option.some.inj heq)
      have hsame : (before.addCharacters parent [c]).path = before.path := path_addCharacters _ _
      refine hadded.push ?_ (by decide) rfl (hadded.builder ?_) rfl rfl hadded.forms
      · rw [hsame]
        exact hpath.byte hhead
      · rw [hsame]
        exact hpath.ne_nil
    | unknown hpath =>
      have hopen := h.path.resolve_left hpath
      exact h.push hopen.unknown (by decide) rfl (h.builder hpath) rfl rfl h.forms

theorem gathers {text : List Char} (h : before.Shaped) (hgathers : before.Gathers text after) :
    after.Shaped := by
  cases hgathers with
  | inside hinside => exact h.addCharacters _ _
  | outside hpath hblank => exact h

theorem pop {left : Reader} {outer : List Element} (h : before.Shaped)
    (hpath : before.path = element :: outer)
    (helement : element ≠ .context ∧ element ≠ .message) (houter : left.path = outer)
    (hbuilder : left.builder = before.builder)
    (hcontext : left.context.isSome = before.context.isSome)
    (hmessage : left.message.isSome = before.message.isSome)
    (hforms : ∀ draft, left.message = some draft → draft.forms ≠ [] → .translation ∈ outer) :
    left.Shaped where
  path := by
    rw [houter]
    exact (h.isPath_cons hpath).tail
  builder _ := by
    rw [hbuilder]
    exact h.builder (by rw [hpath]; exact List.cons_ne_nil _ _)
  context := by
    rw [hcontext, h.context, hpath, houter, List.mem_cons, or_iff_right (Ne.symm helement.1)]
  message := by
    rw [hmessage, h.message, hpath, houter, List.mem_cons, or_iff_right (Ne.symm helement.2)]
  forms := by rwa [houter]

theorem closes (h : before.Shaped) (hcloses : before.Closes after) : after.Shaped := by
  cases hcloses with
  | @skipped outer hpath houter =>
    refine h.pop hpath (by decide) rfl rfl rfl rfl fun draft hdraft hne => ?_
    have hmem := h.forms draft hdraft hne
    rw [hpath] at hmem
    exact List.mem_of_ne_of_mem (by decide) hmem
  | @left element outer after hpath houter hends =>
    -- the translation to which forms belong stays open where another element ends
    have hkept : ∀ draft, before.message = some draft → draft.forms ≠ [] → element ≠ .translation →
        .translation ∈ outer := by
      intro draft hdraft hne helement
      have hmem := h.forms draft hdraft hne
      rw [hpath] at hmem
      exact List.mem_of_ne_of_mem (Ne.symm helement) hmem
    cases hends with
    | @name draft hcontext =>
      have hheld : before.context = some draft := hcontext
      refine h.pop hpath (by decide) rfl rfl (by rw [hheld]; rfl) rfl fun draft hdraft hne => ?_
      exact hkept draft hdraft hne (by decide)
    | @noted _ draft hcollects hname hmessage =>
      have hheld : before.message = some draft := hmessage
      have helement : element ≠ .context ∧ element ≠ .message := by
        constructor <;> rintro rfl <;> cases hcollects
      refine h.pop hpath helement rfl rfl rfl (by rw [hheld]; rfl) fun changed hchanged hne => ?_
      cases hchanged
      by_cases hform : element = .form
      · -- a form is inside its translation
        subst hform
        rw [h.outer_eq hpath rfl]
        decide
      · by_cases htranslation : element = .translation
        · subst htranslation
          exact absurd rfl hne
        · rw [OpenMessage.forms_noted _ _ hform htranslation] at hne
          exact hkept draft hheld hne htranslation
    | message hmessage hsource hcontext =>
      obtain rfl : outer = [.context, .root] := h.outer_eq hpath rfl
      exact
        { path := .inr ⟨.context, 0, 0, by decide, rfl⟩
          builder := fun _ => h.builder (by rw [hpath]; exact List.cons_ne_nil _ _)
          context := by simp
          message := by simp
          forms := nofun }
    | @context draft name builder hcontext hname hbuilder =>
      obtain rfl : outer = [.root] := h.outer_eq hpath rfl
      have hmessage := h.message
      rw [hpath] at hmessage
      exact
        { path := .inr .root
          builder := fun _ => rfl
          context := by simp
          message := by simp [hmessage]
          forms := fun draft hdraft hne => hkept draft hdraft hne (by decide) }
    | silent helement =>
      have hother : element ≠ .context ∧ element ≠ .message ∧ element ≠ .translation := by
        refine ⟨?_, ?_, ?_⟩ <;> rintro rfl <;> revert helement <;> decide
      refine h.pop hpath ⟨hother.1, hother.2.1⟩ rfl rfl rfl rfl fun draft hdraft hne => ?_
      exact hkept draft hdraft hne hother.2.2

theorem handles {event : Event} (h : before.Shaped) (hhandles : before.Handles event after) :
    after.Shaped := by
  cases hhandles with
  | opening hopens => exact h.opens hopens
  | empty hopens hcloses => exact (h.opens hopens).closes hcloses
  | closing hcloses => exact h.closes hcloses
  | text hgathers => exact h.gathers hgathers
  | cdata hgathers => exact h.gathers hgathers
  | remark => exact h

end Shaped

/-- Every event that is taken does what it has to. -/
theorem handles_of_step {event : Event} (h : reader.Shaped)
    (hstep : reader.step event = .ok reader') :
    reader.Handles event reader' := by
  cases event with
  | opening tag => exact .opening (opens_of_openElement h hstep)
  | empty tag =>
    obtain ⟨opened, hopen, hclose⟩ := bind_eq_ok_iff.1 hstep
    have hopens := opens_of_openElement h hopen
    exact .empty hopens (closes_of_closeElement (h.opens hopens) hclose)
  | closing name => exact .closing (closes_of_closeElement h hstep)
  | text written =>
    obtain ⟨text, htext, hadd⟩ := bind_eq_ok_iff.1 hstep
    rw [← decoded_of_eq_ok (mapError_eq_ok_iff.1 htext)] at hadd
    exact .text (gathers_of_addText hadd)
  | cdata data => exact .cdata (gathers_of_addText hstep)
  | remark =>
    cases hstep
    exact .remark

/-- Whatever events are taken, balanced or not. -/
theorem shaped_foldlM {events : List Event} (h : reader.Shaped)
    (hrun : events.foldlM step reader = .ok reader') : reader'.Shaped := by
  induction events generalizing reader with
  | nil =>
    cases hrun
    exact h
  | cons event rest ih =>
    rw [List.foldlM_cons] at hrun
    obtain ⟨next, hnext, hrun⟩ := bind_eq_ok_iff.1 hrun
    exact ih (h.handles (handles_of_step h hnext)) hrun

end Reader

end Phrasebook.Resource
