import Phrasebook.Proofs.Resource.Acceptance
import Phrasebook.Proofs.Resource.WrittenMeaning

/-!
# Round trip

What is written for a catalog is a resource that stands for the operations of building the catalog
(`parse_render`). They build a catalog with the same contents, which is written the same way again.
-/

namespace Phrasebook.Resource

open Markup (Content Located Spells)

open Catalog (Run Step rebuild)

/-! ## The written document -/

/-- The document that is written for a catalog. -/
def writtenDocument (catalog : Catalog) : Content :=
  .remark (Content.prependText ['\n'] (.remark (Content.prependText ['\n']
    (Writer.linesContent 0 [Writer.Line.ofCatalog catalog] .done))))

theorem scan_declaration (rest : List Char) :
    ∃ size, Markup.Event.scan ("<?xml version=\"1.0\" encoding=\"utf-8\"?>".toList ++ rest) =
      .event .remark size rest := ⟨_, rfl⟩

theorem scan_doctype (rest : List Char) :
    ∃ size, Markup.Event.scan ("<!DOCTYPE TS>".toList ++ rest) =
      .event .remark size rest := ⟨_, rfl⟩

theorem prolog_eq : Writer.prolog =
    "<?xml version=\"1.0\" encoding=\"utf-8\"?>".toList ++ (['\n'] ++
      ("<!DOCTYPE TS>".toList ++ ['\n'])) := by decide

theorem spells_write (catalog : Catalog) :
    Spells (Writer.write catalog) (writtenDocument catalog) := by
  have hbreak : '<' ∉ ['\n'] := by decide
  have hlines : Spells ([Writer.Line.ofCatalog catalog].flatMap (Writer.Line.write 0) ++ [])
      (Writer.linesContent 0 [Writer.Line.ofCatalog catalog] .done) :=
    Writer.spells_lines (List.forall_mem_singleton.2 (Writer.Line.spelled_ofCatalog catalog))
      Markup.spells_nil
  rw [List.append_nil, List.flatMap_singleton] at hlines
  rw [Writer.write_eq, prolog_eq, List.append_assoc, List.append_assoc, List.append_assoc]
  refine Spells.item scan_declaration (fun _ => rfl) rfl (Spells.prependText hbreak ?_)
  exact Spells.item scan_doctype (fun _ => rfl) rfl (hlines.prependText hbreak)

theorem scan_render (catalog : Catalog) :
    (writtenDocument catalog).events =
        (Markup.Document.ofString (render catalog)).events.map Located.event ∧
      ∃ length, (Markup.Document.ofString (render catalog)).ending = .complete length := by
  have hdocument : Markup.Document.ofString (render catalog) =
      Markup.Document.scanFrom [] 0 (Writer.write catalog ++ []) := by
    have hmark : Markup.Document.dropMark (Writer.write catalog) = Writer.write catalog := by
      rw [Writer.write_eq, prolog_eq]
      rfl
    rw [Markup.Document.ofString, render, String.toList_ofList, hmark, List.append_nil]
  obtain ⟨offset, hevents, hending⟩ := spells_write catalog [] 0 [] Markup.atMarkup_nil
  rw [Markup.scanFrom_nil] at hevents hending
  rw [hdocument]
  exact ⟨by rw [hevents]; exact (List.append_nil _).symm, offset, hending⟩

/-! ## It is a resource -/

open Writer.Line (ofCatalog)

theorem elements_writtenDocument (catalog : Catalog) :
    elements (writtenDocument catalog) = [(ofCatalog catalog).child] := by
  show elements (Content.prependText _ (.remark (Content.prependText _ _))) = _
  rw [elements_prependText]
  show elements (Content.prependText _ _) = _
  rw [elements_prependText, Writer.elements_linesContent]
  rfl

theorem steps_writtenDocument (catalog : Catalog) :
    steps (writtenDocument catalog) =
      rebuild (catalog.version.getD Writer.defaultVersion) catalog := by
  rw [steps, elements_writtenDocument, List.flatMap_singleton]
  exact Writer.Line.rootSteps_ofCatalog catalog

theorem reads_ofCatalog (catalog : Catalog) : Reads .root (ofCatalog catalog).content := by
  refine Writer.reads_block fun line hline => ?_
  obtain ⟨context, -, rfl⟩ := List.mem_map.1 hline
  exact Writer.Line.readsChild_ofContext context

/-- A document with everything readable that is a resource. -/
def Readable (document : Content) : Prop :=
  TextsDecode document ∧ AttributesDecode document ∧ IsResource document

theorem Readable.remark {document : Content} (h : Readable document) :
    Readable (.remark document) := h

theorem Readable.prependText {written text : List Char} {document : Content}
    (hdecodes : Markup.Decodes written text) (hblank : ∀ c ∈ text, Text.isBlank c = true)
    (h : Readable document) : Readable (document.prependText written) := by
  obtain ⟨htexts, hattributes, hresource⟩ := h
  refine ⟨textsDecode_prependText hdecodes htexts, (attributesDecode_prependText _ _).2 hattributes,
    ?_⟩
  rw [Reader.isResource_append_blank _ _ (elements_prependText written document)
    (characters_prependText hdecodes htexts)]
  exact ⟨hblank, hresource⟩

theorem readable_element {tag : List Char} {inner : Content} (hkind : kind tag = .root)
    (htag : TagDecodes tag) (hinner : Reads .root inner) {written text : List Char}
    (hdecodes : Markup.Decodes written text) (hblank : ∀ c ∈ text, Text.isBlank c = true) :
    Readable (.element tag inner (Content.prependText written .done)) := by
  obtain ⟨htexts, hattributes, hplaced⟩ := hinner
  have hnone : TextsDecode .done := trivial
  have hcharacters : characters (Content.prependText written .done) = text := by
    rw [characters_prependText hdecodes hnone]
    exact List.append_nil text
  refine ⟨⟨htexts, textsDecode_prependText hdecodes hnone⟩,
    ⟨htag, fun _ => hattributes, (attributesDecode_prependText _ _).2 trivial⟩, ?_⟩
  rw [Reader.isResource_cons _ (Content.prependText written .done) rfl rfl, elements_prependText,
    hcharacters]
  exact ⟨hkind, hplaced, rfl, hblank⟩

theorem readable_writtenDocument (catalog : Catalog) : Readable (writtenDocument catalog) := by
  have hblank : ∀ c ∈ ['\n'], Text.isBlank c = true := List.forall_mem_singleton.2 rfl
  have hroot : Readable (.element (ofCatalog catalog).tag (ofCatalog catalog).content
      (Content.prependText ['\n'] .done)) :=
    readable_element (Writer.Line.kind_ofCatalog catalog)
      (Writer.tagDecodes_tagOf (Writer.Line.isName_rootAttributes catalog))
      (reads_ofCatalog catalog) Writer.decodes_break hblank
  have hline : Readable (Writer.linesContent 0 [ofCatalog catalog] .done) :=
    hroot.prependText (Writer.decodes_spaces 0) nofun
  exact ((hline.prependText Writer.decodes_break hblank).remark.prependText
    Writer.decodes_break hblank).remark

/-- What is written for a catalog is read as what the operations that build it again come to. -/
theorem parse_render (catalog : Catalog) :
    (parse (render catalog)).value =
      .ok (Run.ofSteps
        (rebuild (catalog.version.getD Writer.defaultVersion) catalog)).builder.build := by
  obtain ⟨hevents, hending⟩ := scan_render catalog
  have hparse : parse (render catalog) = ⟨.ok _, _⟩ :=
    parse_eq_iff.2 ⟨_, hevents, hending, readable_writtenDocument catalog, rfl, rfl⟩
  rw [hparse, steps_writtenDocument]

/-! ## What is written again -/

/-- What is written depends on the version that stands in the text, the languages and the
contents. -/
theorem render_congr {catalog catalog' : Catalog}
    (hversion : catalog'.version.getD Writer.defaultVersion =
      catalog.version.getD Writer.defaultVersion)
    (hlanguage : catalog'.language = catalog.language)
    (hsource : catalog'.sourceLanguage = catalog.sourceLanguage)
    (hcontents : catalog'.contents = catalog.contents) : render catalog' = render catalog := by
  have hline : ofCatalog catalog' = ofCatalog catalog := by
    unfold Writer.Line.ofCatalog Writer.Line.rootAttributes
    rw [hversion, hlanguage, hsource, hcontents]
  rw [render, render, Writer.write_eq, Writer.write_eq, hline]

/-- What is written for a built catalog is read as a catalog with the same header, plural rule and
contents. -/
theorem exists_parse_render (steps : List Step) :
    ∃ catalog, (parse (render (Run.ofSteps steps).builder.build)).value = .ok catalog ∧
      catalog.language = (Run.ofSteps steps).builder.build.language ∧
      catalog.sourceLanguage = (Run.ofSteps steps).builder.build.sourceLanguage ∧
      catalog.pluralRule = (Run.ofSteps steps).builder.build.pluralRule ∧
      catalog.contents = (Run.ofSteps steps).builder.build.contents ∧
      catalog.version =
        some ((Run.ofSteps steps).builder.build.version.getD Writer.defaultVersion) := by
  obtain ⟨hversion, hlanguage, hsource⟩ := Catalog.header_rebuild
    ((Run.ofSteps steps).builder.build.version.getD Writer.defaultVersion)
    (Run.ofSteps steps).builder.build
  have hrule := congrArg
    (fun language : Option String =>
      language.elim Plural.Rule.english Plural.Rule.ofLocale) hlanguage
  exact ⟨_, parse_render _, hlanguage, hsource, hrule, Catalog.contents_rebuild _ steps, hversion⟩

/-- A catalog that a builder has built is written as a text that reads as the same catalog: header,
plural rule and contents are the same, where a missing version reads as the one written for it. So
writing the catalog that was read gives the same text again. -/
theorem render_roundTrip (steps : List Step) :
    ∃ catalog, (parse (render (Run.ofSteps steps).builder.build)).value = .ok catalog ∧
      catalog.language = (Run.ofSteps steps).builder.build.language ∧
      catalog.sourceLanguage = (Run.ofSteps steps).builder.build.sourceLanguage ∧
      catalog.pluralRule = (Run.ofSteps steps).builder.build.pluralRule ∧
      catalog.contents = (Run.ofSteps steps).builder.build.contents ∧
      catalog.version = some ((Run.ofSteps steps).builder.build.version.getD "2.1") ∧
      render catalog = render (Run.ofSteps steps).builder.build := by
  obtain ⟨catalog, hparse, hlanguage, hsource, hrule, hcontents, hversion⟩ :=
    exists_parse_render steps
  refine ⟨catalog, hparse, hlanguage, hsource, hrule, hcontents, hversion, ?_⟩
  refine render_congr ?_ hlanguage hsource hcontents
  rw [hversion, Option.getD_some]

end Phrasebook.Resource
