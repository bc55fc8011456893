import Phrasebook.Proofs.Resource.Reading

/-!
# Messages, contexts and the root

The elements whose own character data does not count are read by the elements in them, one after
another (`readContent_of_elements`). For each of them there is something that the reader holds
meanwhile: a message draft, a context draft, a run of the builder.
-/

namespace Phrasebook.Resource

open Markup (Content)

open Catalog (Run)

/-! ## What is held meanwhile -/

def OpenMessage.after (draft : OpenMessage) (child : List Char × Content) : OpenMessage :=
  match kind child.1 with
  | .location => { draft with message.locations := draft.message.locations ++ [locationOf child.1] }
  | .source => { draft with message.source := textOf child.2, hasSource := true }
  | .oldSource => { draft with message.oldSource := some (textOf child.2) }
  | .comment => { draft with message.comment := some (textOf child.2) }
  | .extraComment => { draft with message.extraComment := some (textOf child.2) }
  | .translatorComment => { draft with message.translatorComment := some (textOf child.2) }
  | .translation =>
    { draft with
      message.status := statusOf child.1
      message.translation := translationOf draft.plural child.2 }
  | .root | .context | .name | .message | .form | .byte | .unknown => draft

theorem OpenMessage.forms_after (draft : OpenMessage) (child : List Char × Content) :
    (draft.after child).forms = draft.forms := by
  unfold after
  split <;> rfl

theorem OpenMessage.foldl_after (tag : List Char) (content : Content) :
    (elements content).foldl after { plural := isPlural tag } =
      { message := messageOf tag content
        hasSource := !(children .source content).isEmpty
        plural := isPlural tag } := by
  unfold messageOf lastText? children
  induction elements content using List.reverseRecOn with
  | nil => rfl
  | append_singleton earlier child ih =>
    rw [List.foldl_append, ih]
    cases hkind : kind child.1 <;> simp [after, hkind, List.filter_append]

def OpenContext.after (draft : OpenContext) (child : List Char × Content) : OpenContext :=
  match kind child.1 with
  | .name => { draft with name := some (textOf child.2) }
  | .message => { draft with messages := draft.messages ++ [messageOf child.1 child.2] }
  | _ => draft

theorem OpenContext.foldl_after (content : Content) :
    (elements content).foldl after {} =
      { name := lastText? .name content, messages := messagesOf content } := by
  unfold lastText? messagesOf children
  induction elements content using List.reverseRecOn with
  | nil => rfl
  | append_singleton earlier child ih =>
    rw [List.foldl_append, ih]
    cases hkind : kind child.1 <;> simp [after, hkind, List.filter_append]

def runAfter (run : Run) (child : List Char × Content) : Run :=
  if kind child.1 = .context then (contextSteps child.2).foldl Run.perform run else run

theorem foldl_runAfter (run : Run) (content : Content) :
    (elements content).foldl runAfter run =
      ((children .context content).flatMap fun child => contextSteps child.2).foldl
        Run.perform run := by
  unfold children
  induction elements content generalizing run with
  | nil => rfl
  | cons child rest ih =>
    rw [List.foldl_cons, ih, runAfter]
    by_cases hkind : kind child.1 = .context
    · rw [if_pos hkind, List.filter_cons_of_pos (by simpa using hkind), List.flatMap_cons,
        List.foldl_append]
    · rw [if_neg hkind, List.filter_cons_of_neg (by simpa using hkind)]

theorem addMessages_eq (name : String) (messages : List Message) (run : Run) :
    (Reader.addMessages name run.builder messages).value =
        ((messages.map (.add name)).foldl Run.perform run).builder ∧
      run.notices ++ (Reader.addMessages name run.builder messages).notices =
        ((messages.map (.add name)).foldl Run.perform run).notices := by
  induction messages generalizing run with
  | nil => exact ⟨rfl, List.append_nil _⟩
  | cons message rest ih =>
    obtain ⟨hvalue, hnotices⟩ := ih (run.perform (.add name message))
    rw [List.map_cons, List.foldl_cons, ← hvalue, ← hnotices, Run.notices_perform_add,
      Run.builder_perform_add, Reader.addMessages]
    split
    · simp
    · simp

namespace Reader

/-- A reader with this message at hand. -/
def holdMessage (reader : Reader) (draft : OpenMessage) : Reader :=
  { reader with message := some draft }

def holdContext (reader : Reader) (draft : OpenContext) : Reader :=
  { reader with context := some draft }

/-- A reader with the builder of a run, which has told what the run told. -/
def holdRun (reader : Reader) (run : Run) : Reader :=
  { reader with builder := some run.builder, notices := run.notices }

variable {reader reader' : Reader} {outer : List Element} {tag : List Char}
  {inner content : Content}

/-! ## Elements one after another -/

/-- If each element changes what a reader holds as `after` says, a content does so as its elements
do in turn. Character data is lost on the way. -/
theorem readContent_of_elements {σ : Type} {parent : Element}
    (hcollects : parent.collectsText = false)
    {hold : σ → Reader} {ready : σ → Prop} {after : σ → List Char × Content → σ}
    (hpath : ∀ held, (hold held).path = parent :: outer)
    (hready : ∀ held child, ready held → ready (after held child))
    (hread : ∀ held tag inner reader', ready held → ((hold held).readChild tag inner = .ok reader' ↔
      ReadsChild parent tag inner ∧ reader' = hold (after held (tag, inner))))
    {held : σ} (h : ready held) :
    (hold held).readContent content = .ok reader' ↔
      Reads parent content ∧ reader' = hold ((elements content).foldl after held) := by
  -- over every state that may be held, because each element leaves another one to the rest
  induction content generalizing held with
  | done =>
    rw [readContent_done]
    exact ⟨fun heq => ⟨reads_done parent, heq⟩, fun heq => heq.2⟩
  | text written rest ih =>
    rw [readContent_text_inside (hpath held), addCharacters_of_not_collects hcollects, reads_text,
      and_assoc, ih h]
    rfl
  | cdata data rest ih =>
    rw [readContent_cdata_inside (hpath held), addCharacters_of_not_collects hcollects, ih h]
    rfl
  | remark rest ih => exact ih h
  | empty tag rest ih =>
    rw [readContent_empty, reads_empty, and_assoc]
    show _ ↔ _ ∧ _ ∧ reader' = hold ((elements rest).foldl after (after held (tag, .done)))
    rw [← ih (hready held _ h)]
    exact readChild_bind_iff fun next => hread held tag .done next h
  | element tag inner rest _ ih =>
    rw [readContent_element, reads_element, and_assoc]
    show _ ↔ _ ∧ _ ∧ reader' = hold ((elements rest).foldl after (after held (tag, inner)))
    rw [← ih (hready held _ h)]
    exact readChild_bind_iff fun next => hread held tag inner next h

/-- An element that does not belong here changes nothing when it can be read: it is unknown, or the
byte of text that does not count. -/
theorem readChild_foreign {parent : Element} (hcollects : parent.collectsText = false)
    (hpath : reader.path = parent :: outer) (hparent : parent ≠ .unknown)
    (hbuilder : reader.builder.isSome = true) (hforeign : (kind tag).parent? ≠ some parent) :
    reader.readChild tag inner = .ok reader' ↔ ReadsChild parent tag inner ∧ reader' = reader := by
  rcases element_cases (kind tag) with hkind | hkind | hkind | ⟨expected, hexpected⟩
  · exact readChild_unknown hpath hparent hkind
  · rw [readChild_byte hpath hparent hkind fun start filled hstart hsame => ?_,
      addCharacters_of_not_collects hcollects]
    rw [readContent_flat (isLeaf_of_not_mem (by decide)) (by decide) hstart (hsame ▸ hbuilder),
      addCharacters_of_not_collects rfl]
  · exact readChild_root hpath hparent hbuilder hkind _
  · refine readChild_misplaced hpath hparent hexpected (fun heq => hforeign ?_) _
    rw [hexpected, heq]

/-- An element in its place may stand there if a context has a name and a message has a source. -/
theorem allowed_iff {parent element : Element} (hkind : kind tag = element)
    (hplace : element.parent? = some parent) :
    Allowed parent tag inner ↔
      (element = .context → children .name inner ≠ []) ∧
        (element = .message → children .source inner ≠ []) := by
  subst hkind
  constructor
  · intro h; exact ⟨h.has_name, h.has_source⟩
  · rintro ⟨hname, hsource⟩
    refine ⟨fun h => ?_, fun expected h => ?_, fun h => ?_, hname, hsource⟩
    · rw [h] at hplace; cases hplace
    · rw [hplace] at h; exact Option.some.inj h
    · rw [h] at hplace; cases hplace

/-- An element in its place is read by what its start, its content and its end do. -/
theorem readChild_of_parts {parent element : Element} {entered filled next : Reader}
    (hpath : reader.path = parent :: outer) (hparent : parent ≠ .unknown)
    (hkind : kind tag = element) (hplace : element.parent? = some parent)
    (henter : ∀ after, reader.enterElement element tag = .ok after ↔
      TagDecodes tag ∧ after = entered)
    (hcontent : ∀ after, (entered.push element).readContent inner = .ok after ↔
      Reads element inner ∧ after = filled)
    (hclose : ∀ after, filled.closeElement = .ok after ↔
      Allowed parent tag inner ∧ after = next) :
    reader.readChild tag inner = .ok reader' ↔ ReadsChild parent tag inner ∧ reader' = next := by
  have hknown : element ≠ .unknown := by
    rintro rfl; cases hplace
  rw [readChild_inside hpath hparent, readsChild_iff hkind hknown, hkind]
  constructor
  · rintro ⟨-, after, hentered, after', hfilled, hdone⟩
    obtain ⟨htag, rfl⟩ := (henter after).1 hentered
    obtain ⟨hreads, rfl⟩ := (hcontent after').1 hfilled
    obtain ⟨hallowed, rfl⟩ := (hclose reader').1 hdone
    exact ⟨⟨htag, hallowed, hreads⟩, rfl⟩
  · rintro ⟨⟨htag, hallowed, hreads⟩, rfl⟩
    exact ⟨hkind ▸ hallowed.in_parent, entered, (henter _).2 ⟨htag, rfl⟩, filled,
      (hcontent _).2 ⟨hreads, rfl⟩, (hclose _).2 ⟨hallowed, rfl⟩⟩

/-! ## Messages -/

theorem openLocation_eq_ok_iff (hkind : kind tag = .location) :
    reader.openLocation tag = .ok reader' ↔ TagDecodes tag ∧
      reader' = reader.updateMessage fun draft =>
        { draft with message.locations := draft.message.locations ++ [locationOf tag] } := by
  have hdecodes : TagDecodes tag ↔ (∃ value, tagValue? tag "filename" = .ok value) ∧
      ∃ value, tagValue? tag "line" = .ok value := by
    rw [TagDecodes, hkind]; simp [consulted]
  unfold openLocation
  simp only [bind_eq_ok_iff, hdecodes]
  constructor
  · rintro ⟨filename, hfilename, line, hline, h⟩
    refine ⟨⟨⟨_, hfilename⟩, _, hline⟩, ?_⟩
    rw [locationOf, attribute?_of_eq_ok hfilename, attribute?_of_eq_ok hline]
    exact (Except.ok.inj h).symm
  · rintro ⟨⟨⟨filename, hfilename⟩, line, hline⟩, rfl⟩
    refine ⟨filename, hfilename, line, hline, ?_⟩
    rw [locationOf, attribute?_of_eq_ok hfilename, attribute?_of_eq_ok hline]
    rfl

theorem openTranslation_eq_ok_iff (hkind : kind tag = .translation) :
    reader.openTranslation tag = .ok reader' ↔ TagDecodes tag ∧
      reader' = reader.updateMessage fun draft =>
        { draft with message.status := statusOf tag } := by
  have hdecodes : TagDecodes tag ↔ ∃ value, tagValue? tag "type" = .ok value := by
    rw [TagDecodes, hkind]; simp [consulted]
  unfold openTranslation
  simp only [bind_eq_ok_iff, hdecodes]
  constructor
  · rintro ⟨state, hstate, h⟩
    refine ⟨⟨_, hstate⟩, ?_⟩
    rw [statusOf, attribute?_of_eq_ok hstate]
    exact (Except.ok.inj h).symm
  · rintro ⟨⟨state, hstate⟩, rfl⟩
    refine ⟨state, hstate, ?_⟩
    rw [statusOf, attribute?_of_eq_ok hstate]
    rfl

theorem openMessage_eq_ok_iff (hkind : kind tag = .message) :
    reader.openMessage tag = .ok reader' ↔ TagDecodes tag ∧
      reader' = { reader with message := some { plural := isPlural tag } } := by
  have hdecodes : TagDecodes tag ↔ ∃ value, tagValue? tag "numerus" = .ok value := by
    rw [TagDecodes, hkind]; simp [consulted]
  unfold openMessage
  simp only [bind_eq_ok_iff, hdecodes]
  constructor
  · rintro ⟨plural, hplural, h⟩
    refine ⟨⟨_, hplural⟩, ?_⟩
    rw [isPlural, attribute?_of_eq_ok hplural]
    exact (Except.ok.inj h).symm
  · rintro ⟨⟨plural, hplural⟩, rfl⟩
    refine ⟨plural, hplural, ?_⟩
    rw [isPlural, attribute?_of_eq_ok hplural]
    rfl

theorem readChild_text_in_message {draft : OpenMessage} {element : Element}
    (hkind : kind tag = element) (hplain : element ∈ plainTexts)
    (hpath : reader.path = .message :: outer) (htext : reader.text = "")
    (hbuilder : reader.builder.isSome = true)
    (hleave : (reader.holdMessage draft).leaveElement element (textOf inner) =
      .ok (reader.holdMessage (draft.after (tag, inner)))) :
    (reader.holdMessage draft).readChild tag inner = .ok reader' ↔
      ReadsChild .message tag inner ∧ reader' = reader.holdMessage (draft.after (tag, inner)) := by
  have hempty :
      ({ reader.holdMessage draft with text := "" } : Reader) = reader.holdMessage draft := by
    unfold holdMessage
    rw [← htext]
  refine (readChild_plainText hkind hplain (by decide)
    (show (reader.holdMessage draft).path = _ from hpath) hbuilder).trans ?_
  rw [hempty, hleave, Except.ok.injEq]
  exact and_congr_right fun _ => eq_comm

theorem readChild_location {draft : OpenMessage} (hpath : reader.path = .message :: outer)
    (hbuilder : reader.builder.isSome = true) (hkind : kind tag = .location) :
    (reader.holdMessage draft).readChild tag inner = .ok reader' ↔
      ReadsChild .message tag inner ∧ reader' = reader.holdMessage (draft.after (tag, inner)) := by
  have hafter : (reader.holdMessage draft).updateMessage (fun draft =>
      { draft with message.locations := draft.message.locations ++ [locationOf tag] }) =
      reader.holdMessage (draft.after (tag, inner)) := by
    unfold OpenMessage.after
    rw [hkind]
    rfl
  have henter (after : Reader) : (reader.holdMessage draft).enterElement .location tag = .ok after ↔
      TagDecodes tag ∧ after = reader.holdMessage (draft.after (tag, inner)) := by
    rw [← hafter]
    exact openLocation_eq_ok_iff hkind
  refine readChild_of_parts hpath (by decide) hkind rfl henter
    (fun after => readContent_flat (isLeaf_of_not_mem (by decide)) (by decide) rfl hbuilder)
    (fun after => ?_)
  rw [addCharacters_of_not_collects rfl, push_of_not_collects rfl,
    closeElement_inside (congrArg _ hpath) (by decide), allowed_iff hkind rfl]
  show Except.ok ({ reader.holdMessage _ with path := .message :: outer } : Reader) = _ ↔ _
  rw [← hpath, Except.ok.injEq, eq_comm]
  exact ⟨fun h => ⟨⟨nofun, nofun⟩, h⟩, fun h => h.2⟩

/-- A translation is taken from its forms, or from the text after the last of them when there is
none. -/
theorem translation_eq_translationOf {draft : OpenMessage}
    (hforms : draft.forms = (children .form inner).map fun child => textOf child.2) :
    draft.translation (trailing "" inner) = translationOf draft.plural inner := by
  unfold OpenMessage.translation translationOf
  rw [hforms]
  by_cases hnone : children .form inner = []
  · rw [trailing_of_no_form hnone, String.empty_append, hnone]
    simp
  · simp [hnone]

theorem readChild_translation_in_message {draft : OpenMessage}
    (hpath : reader.path = .message :: outer) (htext : reader.text = "")
    (hbuilder : reader.builder.isSome = true) (hforms : draft.forms = [])
    (hkind : kind tag = .translation) :
    (reader.holdMessage draft).readChild tag inner = .ok reader' ↔
      ReadsChild .message tag inner ∧ reader' = reader.holdMessage (draft.after (tag, inner)) := by
  have henter (after : Reader) :
      (reader.holdMessage draft).enterElement .translation tag = .ok after ↔
        TagDecodes tag ∧
        after = reader.holdMessage { draft with message.status := statusOf tag } :=
    openTranslation_eq_ok_iff hkind
  refine readChild_of_parts hpath (by decide) hkind rfl henter
    (fun after => readContent_translation rfl hbuilder) (fun after => ?_)
  have htranslation : OpenMessage.translation
      { draft with
        message.status := statusOf tag
        forms := draft.forms ++ (children .form inner).map fun child => textOf child.2 }
      (trailing "" inner) = translationOf draft.plural inner :=
    translation_eq_translationOf (by rw [hforms, List.nil_append])
  have hafter : ({ reader with
      path := .message :: outer
      text := ""
      message := some { draft with
        message.status := statusOf tag
        message.translation := translationOf draft.plural inner
        forms := [] } } : Reader) = reader.holdMessage (draft.after (tag, inner)) := by
    unfold holdMessage OpenMessage.after
    rw [hkind, ← hpath, ← htext, ← hforms]
  rw [closeElement_inside (congrArg _ hpath) (by decide), allowed_iff hkind rfl, ← hafter,
    ← htranslation]
  show Except.ok _ = _ ↔ _
  rw [Except.ok.injEq, eq_comm]
  exact ⟨fun h => ⟨⟨nofun, nofun⟩, h⟩, fun h => h.2⟩

theorem readChild_in_message {draft : OpenMessage} (hpath : reader.path = .message :: outer)
    (htext : reader.text = "") (hbuilder : reader.builder.isSome = true)
    (hforms : draft.forms = []) :
    (reader.holdMessage draft).readChild tag inner = .ok reader' ↔
      ReadsChild .message tag inner ∧ reader' = reader.holdMessage (draft.after (tag, inner)) := by
  have hparent : Element.message ≠ .unknown := by decide
  have hheld : (reader.holdMessage draft).path = .message :: outer := hpath
  have hforeign (hnot : (kind tag).parent? ≠ some .message)
      (hafter : draft.after (tag, inner) = draft) :
      (reader.holdMessage draft).readChild tag inner = .ok reader' ↔
        ReadsChild .message tag inner ∧
          reader' = reader.holdMessage (draft.after (tag, inner)) := by
    rw [hafter]
    exact readChild_foreign rfl hheld hparent hbuilder hnot
  cases hkind : kind tag with
  | location => exact readChild_location hpath hbuilder hkind
  | translation => exact readChild_translation_in_message hpath htext hbuilder hforms hkind
  | source | oldSource | comment | extraComment | translatorComment =>
    refine readChild_text_in_message hkind (by decide) hpath htext hbuilder ?_
    unfold OpenMessage.after
    rw [hkind]
    rfl
  | _ =>
    refine hforeign (by rw [hkind]; decide) ?_
    unfold OpenMessage.after
    rw [hkind]

theorem readContent_message {draft : OpenMessage} (hpath : reader.path = .message :: outer)
    (htext : reader.text = "") (hbuilder : reader.builder.isSome = true)
    (hforms : draft.forms = []) :
    (reader.holdMessage draft).readContent content = .ok reader' ↔ Reads .message content ∧
      reader' = reader.holdMessage ((elements content).foldl OpenMessage.after draft) := by
  have hheld (draft : OpenMessage) : (reader.holdMessage draft).path = .message :: outer := hpath
  have hready (draft : OpenMessage) (child : List Char × Content) (h : draft.forms = []) :
      (draft.after child).forms = [] := (OpenMessage.forms_after draft child).trans h
  exact readContent_of_elements rfl hheld hready
    (fun draft tag inner reader' h => readChild_in_message hpath htext hbuilder h) hforms

/-! ## Contexts -/

theorem closeMessage_eq {draft : OpenMessage} (h : reader.message = some draft) :
    reader.closeMessage =
      if draft.hasSource then
        .ok (({ reader with message := none } : Reader).updateContext fun context =>
          { context with messages := context.messages ++ [draft.message] })
      else .error .messageWithoutSource := by
  unfold closeMessage
  rw [h]
  rfl

theorem readChild_message {draft : OpenContext} (hpath : reader.path = .context :: outer)
    (htext : reader.text = "") (hbuilder : reader.builder.isSome = true)
    (hnone : reader.message = none) (hkind : kind tag = .message) :
    (reader.holdContext draft).readChild tag inner = .ok reader' ↔
      ReadsChild .context tag inner ∧ reader' = reader.holdContext (draft.after (tag, inner)) := by
  have henter (after : Reader) : (reader.holdContext draft).enterElement .message tag = .ok after ↔
      TagDecodes tag ∧
        after = (reader.holdContext draft).holdMessage { plural := isPlural tag } :=
    openMessage_eq_ok_iff hkind
  have hcontent (after : Reader) :
      (((reader.holdContext draft).holdMessage
          { plural := isPlural tag }).push .message).readContent
        inner = .ok after ↔ Reads .message inner ∧
          after = ((reader.holdContext draft).push .message).holdMessage
            { message := messageOf tag inner
              hasSource := !(children .source inner).isEmpty
              plural := isPlural tag } := by
    rw [← OpenMessage.foldl_after]
    show (((reader.holdContext draft).push .message).holdMessage _).readContent inner = _ ↔ _
    exact readContent_message rfl htext hbuilder rfl
  refine readChild_of_parts hpath (by decide) hkind rfl henter hcontent fun after => ?_
  have hafter : ({ reader with
      path := .context :: outer
      context := some { draft with messages := draft.messages ++ [messageOf tag inner] }
      message := none } : Reader) = reader.holdContext (draft.after (tag, inner)) := by
    unfold holdContext OpenContext.after
    rw [hkind, ← hpath, ← hnone]
  rw [closeElement_inside (congrArg _ hpath) (by decide), allowed_iff hkind rfl, ← hafter]
  show closeMessage _ = _ ↔ _
  rw [closeMessage_eq rfl]
  by_cases hsource : children .source inner = []
  · rw [hsource]
    constructor
    · intro h; cases h
    · rintro ⟨⟨-, h⟩, -⟩; exact absurd rfl (h rfl)
  · rw [if_pos (by simp [hsource]), Except.ok.injEq, eq_comm]
    exact ⟨fun h => ⟨⟨nofun, fun _ => hsource⟩, h⟩, fun h => h.2⟩

theorem parent?_eq_context_iff {element : Element} :
    element.parent? = some .context ↔ element = .name ∨ element = .message := by
  cases element <;> simp [Element.parent?]

theorem readChild_in_context {draft : OpenContext} (hpath : reader.path = .context :: outer)
    (htext : reader.text = "") (hbuilder : reader.builder.isSome = true)
    (hnone : reader.message = none) :
    (reader.holdContext draft).readChild tag inner = .ok reader' ↔
      ReadsChild .context tag inner ∧ reader' = reader.holdContext (draft.after (tag, inner)) := by
  have hheld : (reader.holdContext draft).path = .context :: outer := hpath
  by_cases hmessage : kind tag = .message
  · exact readChild_message hpath htext hbuilder hnone hmessage
  by_cases hname : kind tag = .name
  · have hleave : ({ reader.holdContext draft with text := "" } : Reader).leaveElement .name
        (textOf inner) = .ok (reader.holdContext (draft.after (tag, inner))) := by
      unfold holdContext OpenContext.after
      rw [hname, ← htext]
      rfl
    rw [readChild_plainText hname (by decide) (by decide) hheld hbuilder, hleave, Except.ok.injEq]
    exact and_congr_right fun _ => eq_comm
  · have hafter : draft.after (tag, inner) = draft := by
      unfold OpenContext.after
      split
      · exact absurd ‹_› hname
      · exact absurd ‹_› hmessage
      · rfl
    rw [hafter]
    refine readChild_foreign rfl hheld (by decide) hbuilder fun hplace => ?_
    rcases parent?_eq_context_iff.1 hplace with h | h
    · exact hname h
    · exact hmessage h

theorem readContent_context {draft : OpenContext} (hpath : reader.path = .context :: outer)
    (htext : reader.text = "") (hbuilder : reader.builder.isSome = true)
    (hnone : reader.message = none) :
    (reader.holdContext draft).readContent content = .ok reader' ↔ Reads .context content ∧
      reader' = reader.holdContext ((elements content).foldl OpenContext.after draft) := by
  have hheld (draft : OpenContext) : (reader.holdContext draft).path = .context :: outer := hpath
  have hready (draft : OpenContext) (child : List Char × Content) (h : True) : True := h
  exact readContent_of_elements rfl hheld hready
    (fun draft tag inner reader' _ => readChild_in_context hpath htext hbuilder hnone) trivial

/-! ## The root -/

theorem closeContext_eq {draft : OpenContext} {run : Run} (h : reader.context = some draft)
    (hbuilder : reader.builder = some run.builder) (hnotices : reader.notices = run.notices) :
    reader.closeContext =
      match draft.name with
      | none => .error .contextWithoutName
      | some name =>
        .ok (({ reader with context := none } : Reader).holdRun
          ((.openContext name :: draft.messages.map (.add name)).foldl Run.perform run)) := by
  obtain ⟨name?, messages⟩ := draft
  unfold closeContext
  rw [h, hbuilder, hnotices]
  cases name? with
  | none => rfl
  | some name =>
    obtain ⟨hvalue, hlater⟩ := addMessages_eq name messages (run.perform (.openContext name))
    show Except.ok _ = Except.ok (holdRun _ (List.foldl Run.perform (run.perform _) _))
    unfold holdRun
    rw [← hvalue, ← hlater]
    rfl

theorem readChild_context {run : Run} (hpath : reader.path = .root :: outer)
    (htext : reader.text = "") (hcontext : reader.context = none) (hmessage : reader.message = none)
    (hkind : kind tag = .context) :
    (reader.holdRun run).readChild tag inner = .ok reader' ↔
      ReadsChild .root tag inner ∧ reader' = reader.holdRun (runAfter run (tag, inner)) := by
  have hdecodes : TagDecodes tag := by
    rw [TagDecodes, hkind]
    intro key hkey
    cases hkey
  have henter (after : Reader) : (reader.holdRun run).enterElement .context tag = .ok after ↔
      TagDecodes tag ∧ after = (reader.holdRun run).holdContext {} := by
    show Except.ok _ = _ ↔ _
    rw [Except.ok.injEq, eq_comm]
    exact ⟨fun h => ⟨hdecodes, h⟩, fun h => h.2⟩
  have hcontent (after : Reader) :
      (((reader.holdRun run).holdContext {}).push .context).readContent inner = .ok after ↔
        Reads .context inner ∧ after = ((reader.holdRun run).push .context).holdContext
          { name := lastText? .name inner, messages := messagesOf inner } := by
    rw [← OpenContext.foldl_after]
    show (((reader.holdRun run).push .context).holdContext _).readContent inner = _ ↔ _
    exact readContent_context rfl htext rfl hmessage
  refine readChild_of_parts hpath (by decide) hkind rfl henter hcontent fun after => ?_
  rw [closeElement_inside (congrArg _ hpath) (by decide), allowed_iff hkind rfl]
  show closeContext _ = _ ↔ _
  rw [closeContext_eq rfl rfl rfl]
  by_cases hname : children .name inner = []
  · -- no name: the end of the context is a fault, and the place of the element asks for a name
    rw [lastText?, hname]
    constructor
    · intro h; cases h
    · rintro ⟨⟨h, -⟩, -⟩; exact absurd rfl (h rfl)
  · obtain ⟨name, hsome⟩ : ∃ name, lastText? .name inner = some name := by
      rw [lastText?, List.getLast?_eq_some_getLast hname]
      exact ⟨_, rfl⟩
    have hafter : ({ reader with path := .root :: outer, context := none } : Reader).holdRun
        ((.openContext name :: (messagesOf inner).map (.add name)).foldl Run.perform run) =
        reader.holdRun (runAfter run (tag, inner)) := by
      unfold runAfter contextSteps
      rw [if_pos hkind, hsome, ← hpath, ← hcontext]
      rfl
    rw [hsome, ← hafter]
    show Except.ok _ = _ ↔ _
    rw [Except.ok.injEq, eq_comm]
    exact ⟨fun h => ⟨⟨fun _ => hname, fun hmessage => by cases hmessage⟩, h⟩, fun h => h.2⟩

theorem parent?_eq_root_iff {element : Element} :
    element.parent? = some .root ↔ element = .context := by
  cases element <;> simp [Element.parent?]

theorem readContent_root {run : Run} (hpath : reader.path = .root :: outer)
    (htext : reader.text = "") (hcontext : reader.context = none)
    (hmessage : reader.message = none) :
    (reader.holdRun run).readContent content = .ok reader' ↔ Reads .root content ∧
      reader' = reader.holdRun (((children .context content).flatMap fun child =>
        contextSteps child.2).foldl Run.perform run) := by
  have hheld (run : Run) : (reader.holdRun run).path = .root :: outer := hpath
  have hready (run : Run) (child : List Char × Content) (h : True) : True := h
  rw [← foldl_runAfter]
  refine readContent_of_elements rfl hheld hready (fun run tag inner reader' _ => ?_) trivial
  by_cases hkind : kind tag = .context
  · exact readChild_context hpath htext hcontext hmessage hkind
  · have hafter : runAfter run (tag, inner) = run := if_neg hkind
    rw [hafter]
    exact readChild_foreign rfl (hheld run) (by decide) rfl
      fun hplace => hkind (parent?_eq_root_iff.1 hplace)

end Reader

end Phrasebook.Resource
