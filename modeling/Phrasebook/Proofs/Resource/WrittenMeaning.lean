import Phrasebook.Proofs.Catalog.Rebuilding
import Phrasebook.Proofs.Resource.WrittenCatalog

/-!
# What written lines mean

The element on each line can be read (`readsChild_ofContext`) and stands for what the line was
written for: a message line for the message (`messageOf_ofMessage`), and so on up to the line of the
catalog, which stands for the operations that build it again (`rootSteps_ofCatalog`).
-/

namespace Phrasebook.Resource.Writer.Line

open Markup (Content IsName)

open Catalog (rebuild stepsOf)

/-! ## Elements by kind -/

def child (line : Line) : List Char × Content := (line.tag, line.content)

theorem children_block (element : Element) (indent : Nat) (lines : List Line) :
    children element (block indent lines).2 =
      (lines.map child).filter fun child => kind child.1 = element := by
  rw [children, elements_block]
  rfl

/-- Lines of one kind are all children of that kind and none of another. -/
theorem filter_child {element : Element} (lines : List Line)
    (hkind : ∀ line ∈ lines, kind line.tag = element) (other : Element) :
    (lines.map child).filter (fun child => kind child.1 = other) =
      if element = other then lines.map child else [] := by
  split
  · subst element
    refine List.filter_eq_self.2 fun child hchild => ?_
    obtain ⟨line, hline, rfl⟩ := List.mem_map.1 hchild
    exact decide_eq_true (hkind line hline)
  · rename_i hne
    refine List.filter_eq_nil_iff.2 fun child hchild => ?_
    obtain ⟨line, hline, rfl⟩ := List.mem_map.1 hchild
    simpa [Line.child, hkind line hline] using hne

theorem kind_ofText (element : Element) (text : String) :
    kind (ofText element text).tag = element :=
  kind_tagOf element _

theorem filter_ofText? (element : Element) (text : Option String) (other : Element) :
    ((ofText? element text).map child).filter (fun child => kind child.1 = other) =
      if element = other then (ofText? element text).map child else [] :=
  filter_child _ (forall_mem_ofText? (kind_ofText element) text) other

theorem kind_ofLocation (location : Location) : kind (ofLocation location).tag = .location :=
  kind_tagOf .location _

theorem kind_ofTranslation (message : Message) : kind (ofTranslation message).tag = .translation :=
  kind_tagOf .translation _

theorem kind_ofMessage (message : Message) : kind (ofMessage message).tag = .message :=
  kind_tagOf .message _

theorem kind_ofContext (context : String × List Message) :
    kind (ofContext context).tag = .context :=
  kind_tagOf .context _

theorem kind_ofCatalog (catalog : Catalog) : kind (ofCatalog catalog).tag = .root :=
  kind_tagOf .root _

theorem children_ofMessage (element : Element) (message : Message) :
    children element (ofMessage message).content =
      (if .location = element then (message.locations.map ofLocation).map child else []) ++
      ((if .source = element then [ofText .source message.source].map child else []) ++
      ((if .oldSource = element then (ofText? .oldSource message.oldSource).map child else []) ++
      (if .comment = element then (ofText? .comment message.comment).map child else []) ++
      (if .extraComment = element then (ofText? .extraComment message.extraComment).map child
        else []) ++
      (if .translatorComment = element then
        (ofText? .translatorComment message.translatorComment).map child else []) ++
      if .translation = element then [ofTranslation message].map child else [])) := by
  have hlocations := filter_child (message.locations.map ofLocation)
    (List.forall_mem_map.2 fun location _ => kind_ofLocation location) element
  have hsource := filter_child [ofText .source message.source]
    (List.forall_mem_singleton.2 (kind_ofText .source message.source)) element
  have htranslation := filter_child [ofTranslation message]
    (List.forall_mem_singleton.2 (kind_ofTranslation message)) element
  show children element (block 4 (parts message)).2 = _
  rw [children_block, parts, ← List.singleton_append]
  simp only [List.map_append, List.filter_append, hlocations, hsource, htranslation, filter_ofText?]

/-! ## The elements can be read -/

theorem readsChild_ofText {parent element : Element} (hplain : element ∈ Reader.plainTexts)
    (hplace : element.parent? = some parent) (text : String) :
    ReadsChild parent (ofText element text).tag (ofText element text).content := by
  rw [Reader.readsChild_plainText_iff (kind_ofText element text) hplain]
  refine ⟨fun expected hexpected => ?_, reads_textContent _ _⟩
  rw [hplace] at hexpected
  exact Option.some.inj hexpected

/-- An element in its place with readable attributes and content. -/
theorem readsChild_of {parent element : Element} {tag : List Char} {inner : Content}
    (hkind : kind tag = element) (hplace : element.parent? = some parent) (htag : TagDecodes tag)
    (hname : element = .context → children .name inner ≠ [])
    (hsource : element = .message → children .source inner ≠ [])
    (hreads : Reads element inner) : ReadsChild parent tag inner := by
  have hknown : element ≠ .unknown := by
    rintro rfl; cases hplace
  rw [readsChild_iff hkind hknown]
  exact ⟨htag, (Reader.allowed_iff hkind hplace).2 ⟨hname, hsource⟩, hreads⟩

theorem readsChild_ofLocation (location : Location) :
    ReadsChild .message (ofLocation location).tag (ofLocation location).content :=
  readsChild_of (kind_ofLocation location) rfl
    (tagDecodes_tagOf (isName_locationAttributes location)) nofun nofun (reads_done _)

theorem readsChild_ofTranslation (message : Message) :
    ReadsChild .message (ofTranslation message).tag (ofTranslation message).content := by
  refine readsChild_of (kind_ofTranslation message) rfl
    (tagDecodes_tagOf (isName_translationAttributes _)) nofun nofun ?_
  show Reads _ (translationWithin message.translation).2
  cases message.translation with
  | single text => exact reads_textContent _ _
  | forms texts =>
    refine reads_block fun line hline => ?_
    obtain ⟨text, -, rfl⟩ := List.mem_map.1 hline
    exact readsChild_ofText (by decide) rfl text

theorem readsChild_parts (message : Message) :
    ∀ line ∈ parts message, ReadsChild .message line.tag line.content := by
  unfold parts
  simp only [List.forall_mem_append, List.forall_mem_cons, List.forall_mem_map]
  exact ⟨fun location _ => readsChild_ofLocation location,
    readsChild_ofText (by decide) rfl _,
    ⟨⟨⟨forall_mem_ofText? (readsChild_ofText (by decide) rfl) _,
      forall_mem_ofText? (readsChild_ofText (by decide) rfl) _⟩,
      forall_mem_ofText? (readsChild_ofText (by decide) rfl) _⟩,
      forall_mem_ofText? (readsChild_ofText (by decide) rfl) _⟩,
    readsChild_ofTranslation message, nofun⟩

theorem readsChild_ofMessage (message : Message) :
    ReadsChild .context (ofMessage message).tag (ofMessage message).content := by
  refine readsChild_of (kind_ofMessage message) rfl
    (tagDecodes_tagOf (isName_messageAttributes message)) nofun (fun _ => ?_)
    (reads_block (readsChild_parts message))
  rw [children_ofMessage]
  simp

theorem children_ofContext (element : Element) (context : String × List Message) :
    children element (ofContext context).content =
      (if .name = element then [ofText .name context.1].map child else []) ++
        if .message = element then (context.2.map ofMessage).map child else [] := by
  show children element (block 2 (ofText .name context.1 :: context.2.map ofMessage)).2 = _
  rw [children_block, ← List.singleton_append, List.map_append, List.filter_append,
    filter_child _ (List.forall_mem_singleton.2 (kind_ofText .name context.1)),
    filter_child _ (List.forall_mem_map.2 fun message _ => kind_ofMessage message)]

theorem readsChild_ofContext (context : String × List Message) :
    ReadsChild .root (ofContext context).tag (ofContext context).content := by
  refine readsChild_of (kind_ofContext context) rfl
    (tagDecodes_tagOf (List.forall_mem_nil _)) (fun _ => ?_) nofun (reads_block ?_)
  · rw [children_ofContext]
    simp
  · simp only [List.forall_mem_cons, List.forall_mem_map]
    exact ⟨readsChild_ofText (by decide) rfl _,
      fun message _ => readsChild_ofMessage message⟩

/-! ## The elements stand for what they were written for -/

theorem textOf_ofText (element : Element) (text : String) :
    textOf (ofText element text).content = text :=
  textOf_textContent text

theorem lastText_ofText? (element : Element) (text : Option String) :
    (((ofText? element text).map child).getLast?.map fun child => textOf child.2) = text := by
  cases text with
  | none => rfl
  | some text => exact congrArg some (textOf_ofText element text)

theorem lookup_optional {α : Type} (key : String) (value : Option α) (write : α → String) :
    (value.map fun value => (key, write value)).toList.lookup key = value.map write := by
  cases value <;> simp

theorem locationOf_ofLocation (location : Location) :
    locationOf (ofLocation location).tag = location := by
  have hkeys := isName_locationAttributes location
  have hfilename : attribute? (ofLocation location).tag "filename" = some location.filename :=
    attribute?_tagOf hkeys "filename"
  have hline : attribute? (ofLocation location).tag "line" =
      location.line.map fun line => String.ofList (Text.decimal line.toNat) := by
    refine (attribute?_tagOf hkeys "line").trans ?_
    show List.lookup "line" (_ :: _) = _
    rw [List.lookup_cons]
    exact lookup_optional "line" location.line _
  unfold locationOf
  rw [hfilename, hline]
  cases location with
  | mk filename line => cases line <;> simp [Text.word?_decimal]

theorem statusOf_ofTranslation (message : Message) :
    statusOf (ofTranslation message).tag = message.status := by
  have htype : attribute? (ofTranslation message).tag "type" = message.status.name? := by
    refine (attribute?_tagOf (isName_translationAttributes _) "type").trans ?_
    exact (lookup_optional "type" message.status.name? id).trans (by simp)
  rw [statusOf, htype]
  cases message.status <;> rfl

theorem isPlural_ofMessage (message : Message) :
    isPlural (ofMessage message).tag = message.hasForms := by
  have hnumerus : attribute? (ofMessage message).tag "numerus" =
      (messageAttributes message).lookup "numerus" :=
    attribute?_tagOf (isName_messageAttributes message) "numerus"
  rw [isPlural, hnumerus, messageAttributes]
  cases message.hasForms <;> rfl

theorem kind_of_mem_textContent {cs : List Char} {child : List Char × Content}
    (hchild : child ∈ elements (textContent cs)) : kind child.1 = .byte := by
  induction cs with
  | nil => cases hchild
  | cons c cs ih =>
    rw [textContent] at hchild
    split at hchild
    · rcases List.mem_cons.1 hchild with rfl | hmem
      · exact kind_byteTag c
      · exact ih hmem
    · rw [elements_prependText] at hchild
      exact ih hchild

theorem translationOf_ofTranslation (message : Message) :
    translationOf message.hasForms (ofTranslation message).content = message.translation := by
  show translationOf message.translation.hasForms (translationWithin message.translation).2 = _
  cases message.translation with
  | single text =>
    have hforms : children .form (textContent text.toList) = [] := by
      refine List.filter_eq_nil_iff.2 fun child hchild => ?_
      rw [kind_of_mem_textContent hchild]
      decide
    show translationOf false (textContent text.toList) = _
    have hnone : ¬ (false = true ∨ children .form (textContent text.toList) ≠ []) := by
      rintro (h | h)
      · cases h
      · exact h hforms
    rw [translationOf, if_neg hnone, textOf_textContent]
  | forms texts =>
    have hforms : children .form (block 6 (texts.map (ofText .form))).2 =
        (texts.map (ofText .form)).map child := by
      rw [children_block,
        filter_child _ (List.forall_mem_map.2 fun text _ => kind_ofText .form text), if_pos rfl]
    show (if _ ∨ _ then Translation.forms ((children .form (block 6 _).2).map _) else _) = _
    rw [if_pos (.inl rfl), hforms, List.map_map, List.map_map]
    refine congrArg Translation.forms ((List.map_congr_left fun text _ => ?_).trans (List.map_id _))
    exact textOf_ofText .form text

theorem messageOf_ofMessage (message : Message) :
    messageOf (ofMessage message).tag (ofMessage message).content = message := by
  have htext (element : Element) {text : Option String}
      (hchildren : children element (ofMessage message).content =
        (ofText? element text).map child) :
      lastText? element (ofMessage message).content = text := by
    rw [lastText?, hchildren]
    exact lastText_ofText? element text
  have hsource : lastText? .source (ofMessage message).content = some message.source := by
    have hchildren : children .source (ofMessage message).content =
        [(ofText .source message.source).child] := by simp [children_ofMessage]
    rw [lastText?, hchildren]
    exact congrArg some (textOf_ofText .source message.source)
  have hlocations : (children .location (ofMessage message).content).map
      (fun child => locationOf child.1) = message.locations := by
    simp [children_ofMessage, Function.comp_def, child, locationOf_ofLocation]
  have htranslation : (children .translation (ofMessage message).content).getLast? =
      some (ofTranslation message).child := by simp [children_ofMessage]
  have hold : lastText? .oldSource (ofMessage message).content = message.oldSource :=
    htext .oldSource (by simp [children_ofMessage])
  have hcomment : lastText? .comment (ofMessage message).content = message.comment :=
    htext .comment (by simp [children_ofMessage])
  have hextra : lastText? .extraComment (ofMessage message).content = message.extraComment :=
    htext .extraComment (by simp [children_ofMessage])
  have htranslator : lastText? .translatorComment (ofMessage message).content =
      message.translatorComment :=
    htext .translatorComment (by simp [children_ofMessage])
  unfold messageOf
  rw [hsource, hold, hcomment, hextra, htranslator, hlocations, htranslation, isPlural_ofMessage]
  show Message.mk _ _ _ _ _ (translationOf message.hasForms (ofTranslation message).content)
    (statusOf (ofTranslation message).tag) _ = message
  rw [translationOf_ofTranslation, statusOf_ofTranslation]
  rfl

theorem contextSteps_ofContext (context : String × List Message) :
    contextSteps (ofContext context).content = stepsOf context := by
  have hname : lastText? .name (ofContext context).content = some context.1 := by
    have hchildren : children .name (ofContext context).content =
        [(ofText .name context.1).child] := by simp [children_ofContext]
    rw [lastText?, hchildren]
    exact congrArg some (textOf_ofText .name context.1)
  have hmessages : messagesOf (ofContext context).content = context.2 := by
    have hchildren : children .message (ofContext context).content =
        (context.2.map ofMessage).map child := by simp [children_ofContext]
    rw [messagesOf, hchildren, List.map_map, List.map_map]
    exact (List.map_congr_left fun message _ => messageOf_ofMessage message).trans (List.map_id _)
  rw [contextSteps, hname, hmessages]
  rfl

theorem headerSteps_ofCatalog (catalog : Catalog) :
    headerSteps (ofCatalog catalog).tag =
      .version (catalog.version.getD defaultVersion) ::
        (catalog.language.toList.map .language ++
          catalog.sourceLanguage.toList.map .sourceLanguage) := by
  have hattribute (key : String) : attribute? (ofCatalog catalog).tag key =
      (rootAttributes catalog).lookup key :=
    attribute?_tagOf (isName_rootAttributes catalog) key
  rw [headerSteps, hattribute, hattribute, hattribute, rootAttributes]
  cases catalog.language <;> cases catalog.sourceLanguage <;> rfl

theorem rootSteps_ofCatalog (catalog : Catalog) :
    rootSteps (ofCatalog catalog).tag (ofCatalog catalog).content =
      rebuild (catalog.version.getD defaultVersion) catalog := by
  have hcontexts : children .context (ofCatalog catalog).content =
      (catalog.contents.map ofContext).map child := by
    show children .context (block 0 (catalog.contents.map ofContext)).2 = _
    rw [children_block,
      filter_child _ (List.forall_mem_map.2 fun context _ => kind_ofContext context), if_pos rfl]
  have hsteps (context : String × List Message) :
      contextSteps (ofContext context).child.2 = stepsOf context := contextSteps_ofContext context
  rw [rootSteps, hcontexts, List.map_map, List.flatMap_map, headerSteps_ofCatalog, rebuild]
  simp only [Function.comp_apply, hsteps]

end Phrasebook.Resource.Writer.Line
