import Phrasebook.Proofs.Resource.Lines

/-!
# Written catalogs

The canonical form of a catalog is a tree of lines (`write_eq`), each of which can be scanned
(`spelled_ofCatalog`).
-/

namespace Phrasebook.Resource.Writer

open Markup (Content IsName IsTag Spells)

open Catalog (Step)

/-! ## Catalogs as lines -/

namespace Line

def ofText (element : Element) (text : String) : Line :=
  ⟨tagOf element [], some (escapeText text, textContent text.toList)⟩

def ofText? (element : Element) (text : Option String) : List Line :=
  (text.map (ofText element)).toList

/-- What holds of the line of every text holds of the line of one that may be absent. -/
theorem forall_mem_ofText? {element : Element} {p : Line → Prop}
    (h : ∀ text, p (ofText element text)) (text : Option String) :
    ∀ line ∈ ofText? element text, p line := by
  cases text with
  | none => exact List.forall_mem_nil _
  | some text => exact List.forall_mem_singleton.2 (h text)

def locationAttributes (location : Location) : List (String × String) :=
  ("filename", location.filename) ::
    (location.line.map fun line => ("line", String.ofList (Text.decimal line.toNat))).toList

def ofLocation (location : Location) : Line :=
  ⟨tagOf .location (locationAttributes location), none⟩

def translationAttributes (status : Status) : List (String × String) :=
  (status.name?.map fun name => ("type", name)).toList

/-- What is between the tags of a translation. -/
def translationWithin : Translation → List Char × Content
  | .single text => (escapeText text, textContent text.toList)
  | .forms texts => block 6 (texts.map (ofText .form))

def ofTranslation (message : Message) : Line :=
  ⟨tagOf .translation (translationAttributes message.status),
    some (translationWithin message.translation)⟩

def parts (message : Message) : List Line :=
  message.locations.map ofLocation ++ ofText .source message.source ::
    (ofText? .oldSource message.oldSource ++ ofText? .comment message.comment ++
      ofText? .extraComment message.extraComment ++
      ofText? .translatorComment message.translatorComment ++ [ofTranslation message])

def messageAttributes (message : Message) : List (String × String) :=
  if message.hasForms then [("numerus", "yes")] else []

def ofMessage (message : Message) : Line :=
  ⟨tagOf .message (messageAttributes message), some (block 4 (parts message))⟩

def ofContext (context : String × List Message) : Line :=
  ⟨tagOf .context [], some (block 2 (ofText .name context.1 :: context.2.map ofMessage))⟩

def rootAttributes (catalog : Catalog) : List (String × String) :=
  ("version", catalog.version.getD defaultVersion) ::
    ((catalog.language.map fun language => ("language", language)).toList ++
      (catalog.sourceLanguage.map fun language => ("sourcelanguage", language)).toList)

def ofCatalog (catalog : Catalog) : Line :=
  ⟨tagOf .root (rootAttributes catalog), some (block 0 (catalog.contents.map ofContext))⟩

/-! ## They are what is written -/

theorem write_within (element : Element) (attributes : List (String × String))
    (within : List Char × Content) (indent : Nat) :
    (⟨tagOf element attributes, some within⟩ : Line).write indent =
      List.replicate indent ' ' ++ '<' :: (tagOf element attributes ++
        '>' :: (within.1 ++ '<' :: '/' :: (element.written.toList ++ ['>', '\n']))) := by
  show List.replicate indent ' ' ++ '<' :: (tagOf element attributes ++ '>' :: (within.1 ++
    '<' :: '/' :: (Markup.tagName (tagOf element attributes) ++ _))) = _
  rw [tagName_tagOf]

theorem write_ofText (indent : Nat) (element : Element) (text : String) :
    (ofText element text).write indent = elementLine indent element.written text := by
  rw [ofText, write_within]
  simp [elementLine, tagOf]

theorem write_ofText? (indent : Nat) (element : Element) (text : Option String) :
    (ofText? element text).flatMap (write indent) = elementLine? indent element.written text := by
  cases text with
  | none => rfl
  | some text =>
    show write indent (ofText element text) ++ [] = elementLine indent element.written text
    rw [List.append_nil, write_ofText]

theorem tagOf_append (element : Element) (key : String) (before : List (String × String))
    (value : Option String) :
    tagOf element (before ++ (value.map fun value => (key, value)).toList) =
      tagOf element before ++ tagAttribute? key value := by
  cases value <;> simp [tagOf, tagAttribute?]

theorem write_ofLocation (location : Location) :
    (ofLocation location).write 6 = locationLine location := by
  have htag : tagOf .location (locationAttributes location) =
      tagOf .location [("filename", location.filename)] ++
        tagAttribute? "line"
          (location.line.map fun line => String.ofList (Text.decimal line.toNat)) := by
    rw [← tagOf_append, Option.map_map]
    rfl
  unfold ofLocation write locationLine
  rw [htag]
  simp [tagOf, Element.written]

theorem write_translationWithin (translation : Translation) :
    (translationWithin translation).1 = translationBody translation := by
  cases translation with
  | single text => rfl
  | forms texts =>
    have hlines : (texts.map (ofText .form)).flatMap (write 8) =
        texts.flatMap (elementLine 8 "numerusform") := by
      rw [List.flatMap_map]
      congr 1
      funext text
      exact write_ofText 8 .form text
    show '\n' :: ((texts.map (ofText .form)).flatMap (write 8) ++ _) = _
    rw [hlines]
    simp [translationBody]

theorem write_ofTranslation (message : Message) :
    (ofTranslation message).write 6 = translationLines message := by
  have htag : tagOf .translation (translationAttributes message.status) =
      tagOf .translation [] ++ tagAttribute? "type" message.status.name? := by
    rw [← tagOf_append]
    rfl
  rw [ofTranslation, write_within, htag, write_translationWithin]
  unfold translationLines
  generalize tagAttribute? "type" message.status.name? = status
  generalize translationBody message.translation = body
  simp [tagOf, Element.written]

theorem write_parts (message : Message) :
    (parts message).flatMap (write 6) =
      message.locations.flatMap locationLine ++ elementLine 6 "source" message.source ++
        elementLine? 6 "oldsource" message.oldSource ++ elementLine? 6 "comment" message.comment ++
        elementLine? 6 "extracomment" message.extraComment ++
        elementLine? 6 "translatorcomment" message.translatorComment ++
          translationLines message := by
  have hlocations : (message.locations.map ofLocation).flatMap (write 6) =
      message.locations.flatMap locationLine := by
    rw [List.flatMap_map]
    congr 1
    funext location
    exact write_ofLocation location
  unfold parts
  rw [List.flatMap_append, List.flatMap_cons, List.flatMap_append, List.flatMap_append,
    List.flatMap_append, List.flatMap_append, List.flatMap_singleton, hlocations, write_ofText,
    write_ofText?, write_ofText?, write_ofText?, write_ofText?, write_ofTranslation]
  simp only [List.append_assoc, Element.written]

theorem write_ofMessage (message : Message) :
    (ofMessage message).write 4 = messageLines message := by
  have htag : tagOf .message (messageAttributes message) =
      "message".toList ++ if message.hasForms then tagAttribute "numerus" "yes" else [] := by
    unfold messageAttributes
    split <;> simp [tagOf, Element.written]
  rw [ofMessage, write_within, htag]
  show _ ++ '<' :: (_ ++ '>' :: ('\n' :: ((parts message).flatMap (write 6) ++ _) ++ _)) = _
  rw [write_parts]
  unfold messageLines
  generalize message.locations.flatMap locationLine = locations
  generalize elementLine 6 "source" message.source = source
  generalize elementLine? 6 "oldsource" message.oldSource = oldSource
  generalize elementLine? 6 "comment" message.comment = comment
  generalize elementLine? 6 "extracomment" message.extraComment = extraComment
  generalize elementLine? 6 "translatorcomment" message.translatorComment = translatorComment
  generalize translationLines message = translation
  generalize (if message.hasForms then tagAttribute "numerus" "yes" else []) = attributes
  simp [Element.written]

theorem write_ofContext (context : Context) :
    (ofContext (context.name, context.messages.toList)).write 2 = contextLines context := by
  have hmessages : (context.messages.toList.map ofMessage).flatMap (write 4) =
      context.messages.toList.flatMap messageLines := by
    rw [List.flatMap_map]
    congr 1
    funext message
    exact write_ofMessage message
  rw [ofContext, write_within]
  show _ ++ '<' :: (_ ++ '>' :: ('\n' :: (List.flatMap (write 4) (_ :: _) ++ _) ++ _)) = _
  rw [List.flatMap_cons, hmessages, write_ofText]
  unfold contextLines
  generalize context.messages.toList.flatMap messageLines = messages
  simp only [Element.written]
  generalize elementLine 4 "name" context.name = name
  simp [tagOf, Element.written]

end Line

theorem write_eq (catalog : Catalog) :
    write catalog = prolog ++ (Line.ofCatalog catalog).write 0 := by
  have htag : tagOf .root (Line.rootAttributes catalog) =
      tagOf .root [("version", catalog.version.getD defaultVersion)] ++
        tagAttribute? "language" catalog.language ++
        tagAttribute? "sourcelanguage" catalog.sourceLanguage := by
    rw [← Line.tagOf_append, ← Line.tagOf_append]
    rfl
  have hcontexts : (catalog.contents.map Line.ofContext).flatMap (Line.write 2) =
      catalog.contexts.toList.flatMap contextLines := by
    rw [Catalog.contents, List.map_map, List.flatMap_map]
    congr 1
    funext context
    exact Line.write_ofContext context
  rw [Line.ofCatalog, Line.write_within, htag]
  show _ = _ ++ (_ ++ '<' :: (_ ++ '>' :: ('\n' :: (List.flatMap (Line.write 2) _ ++ _) ++ _)))
  rw [hcontexts]
  unfold write rootLine
  generalize catalog.contexts.toList.flatMap contextLines = contexts
  generalize tagAttribute? "language" catalog.language = language
  generalize tagAttribute? "sourcelanguage" catalog.sourceLanguage = sourceLanguage
  simp [tagOf, Element.written]

namespace Line

/-! ## They can be scanned -/

theorem isName_optional {α : Type} {key : String} (hkey : IsName key.toList) (value : Option α)
    (write : α → String) :
    ∀ pair ∈ (value.map fun value => (key, write value)).toList, IsName pair.1.toList := by
  cases value with
  | none => exact List.forall_mem_nil _
  | some value => exact List.forall_mem_singleton.2 hkey

theorem isName_locationAttributes (location : Location) :
    ∀ pair ∈ locationAttributes location, IsName pair.1.toList :=
  List.forall_mem_cons.2 ⟨show IsName "filename".toList by decide, isName_optional (by decide) _ _⟩

theorem isName_translationAttributes (status : Status) :
    ∀ pair ∈ translationAttributes status, IsName pair.1.toList := isName_optional (by decide) _ id

theorem isName_messageAttributes (message : Message) :
    ∀ pair ∈ messageAttributes message, IsName pair.1.toList := by
  unfold messageAttributes
  split
  · exact List.forall_mem_singleton.2 (show IsName "numerus".toList by decide)
  · exact List.forall_mem_nil _

theorem isName_rootAttributes (catalog : Catalog) :
    ∀ pair ∈ rootAttributes catalog, IsName pair.1.toList :=
  List.forall_mem_cons.2 ⟨show IsName "version".toList by decide, List.forall_mem_append.2
    ⟨isName_optional (by decide) _ id, isName_optional (by decide) _ id⟩⟩

theorem spelled_within (element : Element) {attributes : List (String × String)}
    (hkeys : ∀ pair ∈ attributes, IsName pair.1.toList) {within : List Char × Content}
    (h : Spells within.1 within.2) : (⟨tagOf element attributes, some within⟩ : Line).Spelled where
  tag := isTag_tagOf hkeys
  within := by
    rintro written inner hwithin
    cases hwithin
    exact h

theorem spelled_ofText (element : Element) (text : String) : (ofText element text).Spelled :=
  spelled_within element (List.forall_mem_nil _) (spells_textContent _)

theorem spelled_ofText? (element : Element) (text : Option String) :
    ∀ line ∈ ofText? element text, line.Spelled := forall_mem_ofText? (spelled_ofText element) text

theorem spelled_ofLocation (location : Location) : (ofLocation location).Spelled where
  tag := isTag_tagOf (isName_locationAttributes location)
  within := by
    intro written inner h
    cases h

theorem spelled_ofTranslation (message : Message) : (ofTranslation message).Spelled := by
  refine spelled_within .translation (isName_translationAttributes _) ?_
  cases message.translation with
  | single text => exact spells_textContent _
  | forms texts =>
    refine spells_block fun line hline => ?_
    obtain ⟨text, -, rfl⟩ := List.mem_map.1 hline
    exact spelled_ofText .form text

theorem spelled_parts (message : Message) : ∀ line ∈ parts message, line.Spelled := by
  unfold parts
  simp only [List.forall_mem_append, List.forall_mem_cons, List.forall_mem_map]
  exact ⟨fun location _ => spelled_ofLocation location, spelled_ofText _ _,
    ⟨⟨⟨spelled_ofText? _ _, spelled_ofText? _ _⟩, spelled_ofText? _ _⟩, spelled_ofText? _ _⟩,
    spelled_ofTranslation message, nofun⟩

theorem spelled_ofMessage (message : Message) : (ofMessage message).Spelled :=
  spelled_within .message (isName_messageAttributes message) (spells_block (spelled_parts message))

theorem spelled_ofContext (context : String × List Message) : (ofContext context).Spelled := by
  refine spelled_within .context (List.forall_mem_nil _) (spells_block ?_)
  simp only [List.forall_mem_cons, List.forall_mem_map]
  exact ⟨spelled_ofText .name _, fun message _ => spelled_ofMessage message⟩

theorem spelled_ofCatalog (catalog : Catalog) : (ofCatalog catalog).Spelled := by
  refine spelled_within .root (isName_rootAttributes catalog) (spells_block ?_)
  simp only [List.forall_mem_map]
  exact fun context _ => spelled_ofContext context

end Line

end Phrasebook.Resource.Writer
