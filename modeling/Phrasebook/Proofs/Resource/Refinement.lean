import Phrasebook.Proofs.Resource.Structure

/-!
# Documents

A document is read exactly when it is a resource, and then the builder has taken the operations that
the document stands for (`ofDocument_eq_ok_iff_isResource`).
-/

namespace Phrasebook.Resource

open Markup (Content Located)

open Catalog (Run)

namespace Reader

variable {reader reader' : Reader} {tag : List Char} {inner content : Content}

/-! ## Outside of the root -/

theorem addText_outside (hpath : reader.path = []) {text : List Char} :
    reader.addText text = .ok reader' ↔
      (∀ c ∈ text, Text.isBlank c = true) ∧ reader' = reader := by
  unfold addText
  rw [hpath]
  show (if text.all Text.isBlank then _ else _) = _ ↔ _
  rw [← List.all_eq_true]
  split
  · rename_i hblank
    rw [Except.ok.injEq, eq_comm]
    exact ⟨fun h => ⟨hblank, h⟩, fun h => h.2⟩
  · rename_i hblank
    constructor
    · intro h; cases h
    · rintro ⟨h, -⟩; exact absurd h hblank

theorem openElement_outside (hpath : reader.path = []) :
    reader.openElement tag = .ok reader' ↔ kind tag = .root ∧
      ∃ entered, reader.openRoot tag = .ok entered ∧ reader' = entered.push .root := by
  have hopen : reader.openElement tag = if kind tag ≠ .root then
      throw (.otherRoot (String.ofList (Markup.tagName tag)))
      else reader.enterElement (kind tag) tag >>= fun entered =>
        pure (entered.push (kind tag)) := by
    unfold openElement
    rw [hpath]
    show (if kind tag ≠ .root then _ else _) = _
    split <;> rfl
  rw [hopen]
  by_cases hkind : kind tag = .root
  · rw [if_neg (by simp [hkind]), bind_eq_ok_iff, hkind]
    simp only [true_and]
    refine exists_congr fun entered => and_congr_right fun _ => ?_
    show Except.ok _ = _ ↔ _
    rw [Except.ok.injEq, eq_comm]
  · rw [if_pos hkind]
    constructor
    · intro h; cases h
    · rintro ⟨h, -⟩; exact absurd h hkind

/-- After the root there may only be blank text. -/
theorem readContent_after_root (hpath : reader.path = [])
    (hbuilder : reader.builder.isSome = true) :
    reader.readContent content = .ok reader' ↔ TextsDecode content ∧ elements content = [] ∧
      (∀ c ∈ characters content, Text.isBlank c = true) ∧ reader' = reader := by
  -- an element out here would have to be a root, and the builder is there already
  have hchild (tag : List Char) (inner : Content) (next : Reader) :
      reader.readChild tag inner ≠ .ok next := by
    rw [Ne, readChild_eq_ok_iff]
    rintro ⟨opened, hopen, -⟩
    obtain ⟨-, entered, hentered, -⟩ := (openElement_outside hpath).1 hopen
    rw [openRoot, if_pos hbuilder] at hentered
    cases hentered
  induction content with
  | done =>
    rw [readContent_done]
    exact ⟨fun h => ⟨trivial, rfl, by simp [characters], h⟩, fun h => h.2.2.2⟩
  | text written rest ih =>
    rw [readContent_text]
    simp only [addText_outside hpath, TextsDecode, elements, characters, List.forall_mem_append]
    constructor
    · rintro ⟨htext, next, ⟨hblank, rfl⟩, hrest⟩
      obtain ⟨htexts, hnone, hblanks, rfl⟩ := ih.1 hrest
      exact ⟨⟨htext, htexts⟩, hnone, ⟨hblank, hblanks⟩, rfl⟩
    · rintro ⟨⟨htext, htexts⟩, hnone, ⟨hblank, hblanks⟩, rfl⟩
      exact ⟨htext, _, ⟨hblank, rfl⟩, ih.2 ⟨htexts, hnone, hblanks, rfl⟩⟩
  | cdata data rest ih =>
    rw [readContent_cdata]
    simp only [addText_outside hpath, TextsDecode, elements, characters, List.forall_mem_append]
    constructor
    · rintro ⟨next, ⟨hblank, rfl⟩, hrest⟩
      obtain ⟨htexts, hnone, hblanks, rfl⟩ := ih.1 hrest
      exact ⟨htexts, hnone, ⟨hblank, hblanks⟩, rfl⟩
    · rintro ⟨htexts, hnone, ⟨hblank, hblanks⟩, rfl⟩
      exact ⟨_, ⟨hblank, rfl⟩, ih.2 ⟨htexts, hnone, hblanks, rfl⟩⟩
  | remark rest ih => exact ih
  | empty tag rest ih =>
    rw [readContent_empty, bind_eq_ok_iff]
    constructor
    · rintro ⟨next, hnext, -⟩; exact absurd hnext (hchild tag .done next)
    · rintro ⟨-, hnone, -⟩; cases hnone
  | element tag inner rest _ ih =>
    rw [readContent_element, bind_eq_ok_iff]
    constructor
    · rintro ⟨next, hnext, -⟩; exact absurd hnext (hchild tag inner next)
    · rintro ⟨-, hnone, -⟩; cases hnone

/-- The attributes of the root are what a builder is told first. -/
theorem ofSteps_headerSteps (tag : List Char) :
    Run.ofSteps (headerSteps tag) =
      { builder :=
          { version := attribute? tag "version"
            language := attribute? tag "language"
            sourceLanguage := attribute? tag "sourcelanguage" } } := by
  unfold headerSteps
  cases attribute? tag "version" <;> cases attribute? tag "language" <;>
    cases attribute? tag "sourcelanguage" <;> rfl

theorem openRoot_eq_ok_iff (hbuilder : reader.builder = none) (hnotices : reader.notices = [])
    (hkind : kind tag = .root) :
    reader.openRoot tag = .ok reader' ↔ TagDecodes tag ∧
      reader' = reader.holdRun (Run.ofSteps (headerSteps tag)) := by
  have hdecodes : TagDecodes tag ↔ (∃ value, tagValue? tag "version" = .ok value) ∧
      (∃ value, tagValue? tag "language" = .ok value) ∧
      ∃ value, tagValue? tag "sourcelanguage" = .ok value := by
    rw [TagDecodes, hkind]; simp [consulted]
  have hopen : reader.openRoot tag = (tagValue? tag "version" >>= fun version =>
      tagValue? tag "language" >>= fun language =>
        tagValue? tag "sourcelanguage" >>= fun sourceLanguage =>
          pure { reader with builder := some { version, language, sourceLanguage } }) := by
    unfold openRoot
    rw [hbuilder]
    rfl
  rw [hopen, ofSteps_headerSteps, hdecodes]
  unfold holdRun
  simp only [bind_eq_ok_iff]
  constructor
  · rintro ⟨version, hversion, language, hlanguage, sourceLanguage, hsource, h⟩
    refine ⟨⟨⟨_, hversion⟩, ⟨_, hlanguage⟩, _, hsource⟩, ?_⟩
    rw [attribute?_of_eq_ok hversion, attribute?_of_eq_ok hlanguage, attribute?_of_eq_ok hsource,
      ← hnotices]
    exact (Except.ok.inj h).symm
  · rintro ⟨⟨⟨version, hversion⟩, ⟨language, hlanguage⟩, sourceLanguage, hsource⟩, rfl⟩
    refine ⟨version, hversion, language, hlanguage, sourceLanguage, hsource, ?_⟩
    rw [attribute?_of_eq_ok hversion, attribute?_of_eq_ok hlanguage, attribute?_of_eq_ok hsource,
      ← hnotices]
    rfl

theorem readChild_document : ({} : Reader).readChild tag inner = .ok reader' ↔
    (kind tag = .root ∧ TagDecodes tag ∧ Reads .root inner) ∧
      reader' = ({} : Reader).holdRun (Run.ofSteps (rootSteps tag inner)) := by
  have hcontent (filled : Reader) :
      ((({} : Reader).holdRun (Run.ofSteps (headerSteps tag))).push .root).readContent inner =
        .ok filled ↔ Reads .root inner ∧
          filled = (({} : Reader).push .root).holdRun (Run.ofSteps (rootSteps tag inner)) := by
    rw [rootSteps, Run.ofSteps_append]
    show ((({} : Reader).push .root).holdRun _).readContent inner = _ ↔ _
    exact readContent_root rfl rfl rfl rfl
  have hclose :
      ((({} : Reader).push .root).holdRun (Run.ofSteps (rootSteps tag inner))).closeElement =
        .ok (({} : Reader).holdRun (Run.ofSteps (rootSteps tag inner))) := rfl
  have hopen (opened : Reader) : ({} : Reader).openElement tag = .ok opened ↔ kind tag = .root ∧
      ∃ entered, ({} : Reader).openRoot tag = .ok entered ∧ opened = entered.push .root :=
    openElement_outside rfl
  rw [readChild_eq_ok_iff]
  constructor
  · rintro ⟨_, hopened, filled, hfilled, hdone⟩
    obtain ⟨hkind, entered, hentered, rfl⟩ := (hopen _).1 hopened
    obtain ⟨htag, rfl⟩ := (openRoot_eq_ok_iff rfl rfl hkind).1 hentered
    obtain ⟨hreads, rfl⟩ := (hcontent filled).1 hfilled
    rw [hclose] at hdone
    exact ⟨⟨hkind, htag, hreads⟩, (Except.ok.inj hdone).symm⟩
  · rintro ⟨⟨hkind, htag, hreads⟩, rfl⟩
    have hentered : ({} : Reader).openRoot tag = .ok _ :=
      (openRoot_eq_ok_iff rfl rfl hkind).2 ⟨htag, rfl⟩
    exact ⟨_, (hopen _).2 ⟨hkind, _, hentered, rfl⟩, _, (hcontent _).2 ⟨hreads, rfl⟩, hclose⟩

/-! ## Documents -/

theorem isResource_append_blank {written : List Char} (content rest : Content)
    (helements : elements content = elements rest)
    (hcharacters : characters content = written ++ characters rest) :
    IsResource content ↔ (∀ c ∈ written, Text.isBlank c = true) ∧ IsResource rest := by
  unfold IsResource
  rw [helements, hcharacters, List.forall_mem_append]
  constructor
  · rintro ⟨tag, inner, helement, hkind, ⟨hwritten, hblank⟩, hplaced⟩
    exact ⟨hwritten, tag, inner, helement, hkind, hblank, hplaced⟩
  · rintro ⟨hwritten, tag, inner, helement, hkind, hblank, hplaced⟩
    exact ⟨tag, inner, helement, hkind, ⟨hwritten, hblank⟩, hplaced⟩

/-- A document that starts with the root has nothing but blank text after it. -/
theorem isResource_cons (content rest : Content)
    (helements : elements content = (tag, inner) :: elements rest)
    (hcharacters : characters content = (byteOf? tag).toList ++ characters rest) :
    IsResource content ↔ kind tag = .root ∧ WellPlaced .root inner ∧ elements rest = [] ∧
      ∀ c ∈ characters rest, Text.isBlank c = true := by
  have hbyte (h : kind tag = .root) : characters content = characters rest := by
    rw [hcharacters, byteOf?, if_neg (by rw [h]; decide)]
    rfl
  constructor
  · rintro ⟨tag', inner', helement, hkind, hblank, hplaced⟩
    rw [helements, List.cons.injEq, Prod.mk.injEq] at helement
    obtain ⟨⟨rfl, rfl⟩, hnone⟩ := helement
    exact ⟨hkind, hplaced, hnone, hbyte hkind ▸ hblank⟩
  · rintro ⟨hkind, hplaced, hnone, hblank⟩
    exact ⟨tag, inner, by rw [helements, hnone], hkind, (hbyte hkind).symm ▸ hblank, hplaced⟩

theorem readChild_document_bind_iff (content rest : Content)
    (helements : elements content = (tag, inner) :: elements rest)
    (hcharacters : characters content = (byteOf? tag).toList ++ characters rest) :
    (({} : Reader).readChild tag inner >>= fun next => next.readContent rest) = .ok reader' ↔
      (TagDecodes tag ∧ TextsDecode inner ∧ AttributesDecode inner ∧ TextsDecode rest ∧
        IsResource content) ∧ reader' = ({} : Reader).holdRun (Run.ofSteps (steps content)) := by
  rw [readChild_bind_iff fun after => readChild_document,
    isResource_cons content rest helements hcharacters]
  have hafter : (({} : Reader).holdRun (Run.ofSteps (rootSteps tag inner))).readContent rest =
      .ok reader' ↔ TextsDecode rest ∧ elements rest = [] ∧
        (∀ c ∈ characters rest, Text.isBlank c = true) ∧ reader' = _ :=
    readContent_after_root rfl rfl
  have hsteps (hnone : elements rest = []) : steps content = rootSteps tag inner := by
    rw [steps, helements, hnone, List.flatMap_singleton]
  rw [hafter]
  constructor
  · rintro ⟨⟨hkind, htag, htexts, hattributes, hplaced⟩, hrest, hnone, hblank, rfl⟩
    rw [hsteps hnone]
    exact ⟨⟨htag, htexts, hattributes, hrest, hkind, hplaced, hnone, hblank⟩, rfl⟩
  · rintro ⟨⟨htag, htexts, hattributes, hrest, hkind, hplaced, hnone, hblank⟩, rfl⟩
    rw [hsteps hnone]
    exact ⟨⟨hkind, htag, htexts, hattributes, hplaced⟩, hrest, hnone, hblank, rfl⟩

theorem attributesDecode_of_elements_nil (h : elements content = []) :
    AttributesDecode content := by
  induction content with
  | done => trivial
  | text written rest ih => exact ih h
  | cdata data rest ih => exact ih h
  | remark rest ih => exact ih h
  | empty tag rest ih => cases h
  | element tag inner rest _ ih => cases h

/-- A reader has a builder after a document exactly when that document is a resource. -/
theorem readContent_document (hbuilder : reader'.builder.isSome = true) :
    ({} : Reader).readContent content = .ok reader' ↔
      (TextsDecode content ∧ AttributesDecode content ∧ IsResource content) ∧
        reader' = ({} : Reader).holdRun (Run.ofSteps (steps content)) := by
  have hblank (text : List Char) (next : Reader) : ({} : Reader).addText text = .ok next ↔
      (∀ c ∈ text, Text.isBlank c = true) ∧ next = {} := addText_outside rfl
  -- what comes before the root leaves the reader as it is, and what comes after the first element
  -- is no part of the induction: the lemmas on the text after the root take over there
  induction content with
  | done =>
    rw [readContent_done]
    constructor
    · rintro rfl; cases hbuilder
    · rintro ⟨⟨-, -, tag, inner, h, -⟩, -⟩; cases h
  | text written rest ih =>
    rw [readContent_text, isResource_append_blank (.text written rest) rest rfl rfl, TextsDecode,
      AttributesDecode]
    simp only [hblank]
    constructor
    · rintro ⟨htext, _, ⟨hwritten, rfl⟩, hrest⟩
      obtain ⟨⟨htexts, hattributes, hresource⟩, rfl⟩ := ih.1 hrest
      exact ⟨⟨⟨htext, htexts⟩, hattributes, hwritten, hresource⟩, rfl⟩
    · rintro ⟨⟨⟨htext, htexts⟩, hattributes, hwritten, hresource⟩, rfl⟩
      exact ⟨htext, _, ⟨hwritten, rfl⟩, ih.2 ⟨⟨htexts, hattributes, hresource⟩, rfl⟩⟩
  | cdata data rest ih =>
    rw [readContent_cdata, isResource_append_blank (.cdata data rest) rest rfl rfl, TextsDecode,
      AttributesDecode]
    simp only [hblank]
    constructor
    · rintro ⟨_, ⟨hdata, rfl⟩, hrest⟩
      obtain ⟨⟨htexts, hattributes, hresource⟩, rfl⟩ := ih.1 hrest
      exact ⟨⟨htexts, hattributes, hdata, hresource⟩, rfl⟩
    · rintro ⟨⟨htexts, hattributes, hdata, hresource⟩, rfl⟩
      exact ⟨_, ⟨hdata, rfl⟩, ih.2 ⟨⟨htexts, hattributes, hresource⟩, rfl⟩⟩
  | remark rest ih => exact ih
  | empty tag rest _ =>
    rw [readContent_empty, readChild_document_bind_iff (.empty tag rest) rest rfl rfl]
    refine and_congr_left fun _ => ?_
    constructor
    · rintro ⟨htag, -, -, htexts, hresource⟩
      obtain ⟨-, -, hnone, -⟩ := (isResource_cons (.empty tag rest) rest rfl rfl).1 hresource
      exact ⟨htexts, ⟨htag, attributesDecode_of_elements_nil hnone⟩, hresource⟩
    · rintro ⟨htexts, ⟨htag, -⟩, hresource⟩
      exact ⟨htag, trivial, trivial, htexts, hresource⟩
  | element tag inner rest _ _ =>
    rw [readContent_element, readChild_document_bind_iff (.element tag inner rest) rest rfl rfl]
    refine and_congr_left fun _ => ?_
    constructor
    · rintro ⟨htag, htexts, hattributes, hrest, hresource⟩
      obtain ⟨-, -, hnone, -⟩ :=
        (isResource_cons (.element tag inner rest) rest rfl rfl).1 hresource
      exact ⟨⟨htexts, hrest⟩,
        ⟨htag, fun _ => hattributes, attributesDecode_of_elements_nil hnone⟩, hresource⟩
    · rintro ⟨⟨htexts, hrest⟩, ⟨htag, hattributes, -⟩, hresource⟩
      obtain ⟨hkind, -⟩ := (isResource_cons (.element tag inner rest) rest rfl rfl).1 hresource
      exact ⟨htag, htexts, hattributes (by rw [hkind]; decide), hrest, hresource⟩

/-! ## Runs of the reader -/

/-- A reader that stops without a fault has taken every event. -/
theorem run_eq_iff {located : List Located} :
    reader.run located = ⟨reader', none⟩ ↔
      (located.map Located.event).foldlM step reader = .ok reader' := by
  induction located generalizing reader with
  | nil =>
    show (⟨reader, none⟩ : Stop) = _ ↔ Except.ok reader = _
    rw [Stop.mk.injEq, Except.ok.injEq]
    exact and_iff_left rfl
  | cons first rest ih =>
    rw [List.map_cons, List.foldlM_cons, run]
    cases reader.step first.event with
    | error fault =>
      constructor <;> intro h <;> cases h
    | ok next => exact ih

end Reader

/-- A document whose events were all taken comes to what the last reader makes of its end. -/
theorem ofDocument_of_foldlM {document : Markup.Document} {reader : Reader}
    (h : (document.events.map Located.event).foldlM Reader.step {} = .ok reader) :
    ofDocument document =
      match Reader.conclude ⟨reader, none⟩ document.ending with
      | .error error => ⟨.error error, reader.notices⟩
      | .ok builder => ⟨.ok builder.build, reader.notices ++ [readNotice builder]⟩ := by
  have hrun : Reader.run {} document.events = ⟨reader, none⟩ := Reader.run_eq_iff.2 h
  unfold ofDocument
  generalize Reader.run {} document.events = stop at hrun ⊢
  subst hrun
  rfl

theorem conclude_eq_ok_iff {reader : Reader} {ending : Markup.Ending} {builder : Catalog.Builder} :
    Reader.conclude ⟨reader, none⟩ ending = .ok builder ↔
      (∃ length, ending = .complete length) ∧ reader.path = [] ∧ reader.builder = some builder := by
  cases ending with
  | broken fault offset =>
    constructor
    · intro h; cases h
    · rintro ⟨⟨length, h⟩, -⟩; cases h
  | complete length =>
    show reader.finish length = _ ↔ _
    unfold Reader.finish
    split
    · rename_i hpath
      rw [hpath]
      constructor
      · intro h; cases h
      · rintro ⟨-, h, -⟩; cases h
    · rename_i hpath
      rw [hpath]
      cases reader.builder with
      | none =>
        constructor
        · intro h; cases h
        · rintro ⟨-, -, h⟩; cases h
      | some built =>
        constructor
        · intro h; exact ⟨⟨length, rfl⟩, rfl, congrArg some (Except.ok.inj h)⟩
        · rintro ⟨-, -, h⟩; exact congrArg Except.ok (Option.some.inj h)

/-- A document gives a catalog when all of it was taken and nothing is open at its end. -/
theorem ofDocument_eq_iff {document : Markup.Document} {catalog : Catalog} {notices : List Notice} :
    ofDocument document = ⟨.ok catalog, notices⟩ ↔
      (∃ length, document.ending = .complete length) ∧ ∃ reader builder,
        (document.events.map Located.event).foldlM Reader.step {} = .ok reader ∧
          reader.path = [] ∧ reader.builder = some builder ∧
            catalog = builder.build ∧ notices = reader.notices ++ [readNotice builder] := by
  constructor
  · intro h
    rcases hstop : Reader.run {} document.events with ⟨reader, _ | ⟨fault, position⟩⟩
    · have hfold := Reader.run_eq_iff.1 hstop
      rw [ofDocument_of_foldlM hfold] at h
      cases hconclude : Reader.conclude ⟨reader, none⟩ document.ending with
      | error error => rw [hconclude] at h; cases h
      | ok builder =>
        rw [hconclude] at h
        cases h
        obtain ⟨hending, hpath, hbuilder⟩ := conclude_eq_ok_iff.1 hconclude
        exact ⟨hending, reader, builder, hfold, hpath, hbuilder, rfl, rfl⟩
    · unfold ofDocument at h
      rw [hstop] at h
      cases h
  · rintro ⟨hending, reader, builder, hfold, hpath, hbuilder, rfl, rfl⟩
    rw [ofDocument_of_foldlM hfold, conclude_eq_ok_iff.2 ⟨hending, hpath, hbuilder⟩]

/-- A complete document with the events of a tree gives a catalog exactly when the tree is a
resource; then the builder has taken its operations and the reader has told what they tell. -/
theorem ofDocument_content_iff {document : Markup.Document} {content : Content} {length : Nat}
    (hevents : document.events.map Located.event = content.events)
    (hending : document.ending = .complete length) {catalog : Catalog} {notices : List Notice} :
    ofDocument document = ⟨.ok catalog, notices⟩ ↔
      (TextsDecode content ∧ AttributesDecode content ∧ IsResource content) ∧
        catalog = (Run.ofSteps (steps content)).builder.build ∧
          notices = (Run.ofSteps (steps content)).notices ++
            [readNotice (Run.ofSteps (steps content)).builder] := by
  rw [ofDocument_eq_iff, hevents]
  constructor
  · rintro ⟨-, reader, builder, hfold, -, hbuilder, rfl, rfl⟩
    have hsome : reader.builder.isSome = true := by rw [hbuilder]; rfl
    obtain ⟨hresource, rfl⟩ := (Reader.readContent_document hsome).1 hfold
    cases hbuilder
    exact ⟨hresource, rfl, rfl⟩
  · rintro ⟨hresource, rfl, rfl⟩
    exact ⟨⟨length, hending⟩, _, _, (Reader.readContent_document rfl).2 ⟨hresource, rfl⟩, rfl, rfl,
      rfl, rfl⟩

/-- The reader computes the meaning of a balanced document: its events are those of a tree, and
there is a catalog exactly when what is looked at can be read and the tree is a resource, namely the
catalog of a builder that has taken the operations of the tree. -/
theorem ofDocument_eq_ok_iff_isResource (located : List Located) (length : Nat)
    (hbalanced : Markup.Balanced (located.map Located.event)) :
    (∃ content : Content, content.events = located.map Located.event) ∧
      ∀ content : Content, content.events = located.map Located.event → ∀ catalog : Catalog,
        (ofDocument ⟨located, .complete length⟩).value = .ok catalog ↔
          TextsDecode content ∧ AttributesDecode content ∧ IsResource content ∧
            catalog = (Run.ofSteps (steps content)).builder.build := by
  refine ⟨Markup.balanced_iff.1 hbalanced, fun content hevents catalog => ?_⟩
  have hiff (notices : List Notice) :
      ofDocument ⟨located, .complete length⟩ = ⟨.ok catalog, notices⟩ ↔ _ :=
    ofDocument_content_iff hevents.symm rfl
  constructor
  · intro hvalue
    obtain ⟨⟨htexts, hattributes, hresource⟩, hcatalog, -⟩ := (hiff _).1 (by rw [← hvalue])
    exact ⟨htexts, hattributes, hresource, hcatalog⟩
  · rintro ⟨htexts, hattributes, hresource, hcatalog⟩
    rw [(hiff _).2 ⟨⟨htexts, hattributes, hresource⟩, hcatalog, rfl⟩]

/-- A document with a reference, a byte and a section of character data in a source text, and with
unknown elements in a translation and in a context. -/
def annotated : Content :=
  .text ['\n'] <| .element "TS language=\"pl\"".toList
    (.element "context".toList
      (.element "name".toList (.text "Player".toList .done) <|
        .element "x".toList (.element "message".toList (.text "n".toList .done) .done) <|
        .element "message".toList
          (.empty "location filename=\"a.ui\" line=\"7\"".toList <|
            .element "source".toList
              (.text "A &amp; ".toList <| .empty "byte value=\"x42\"".toList <|
                .cdata "<c>".toList .done) <|
            .remark <|
            .element "translation".toList
              (.text "a".toList <| .element "b".toList (.text "c".toList .done) <|
                .text "d".toList .done) .done)
          .done)
      .done)
    .done

def annotatedEvents : List Located := annotated.events.map fun event => ⟨event, 0⟩

/-- The unknown elements are not there for the catalog. -/
theorem ofDocument_annotated :
    Markup.Balanced (annotatedEvents.map Located.event) ∧ IsResource annotated ∧
      ∃ catalog, (ofDocument ⟨annotatedEvents, .complete 0⟩).value = .ok catalog ∧
        catalog.contents = [("Player",
          [{ source := "A & B<c>", translation := .single "ad",
             locations := [⟨"a.ui", some 7⟩] }])] := by
  have hbalanced : Markup.Balanced (annotatedEvents.map Located.event) := by
    unfold Markup.Balanced
    decide
  have hevents : annotated.events = annotatedEvents.map Located.event := rfl
  obtain ⟨catalog, hvalue⟩ := exists_of_isOk
    (show (ofDocument ⟨annotatedEvents, .complete 0⟩).value.isOk = true by decide +kernel)
  obtain ⟨-, hmeans⟩ := ofDocument_eq_ok_iff_isResource annotatedEvents 0 hbalanced
  obtain ⟨-, -, hresource, rfl⟩ := (hmeans annotated hevents catalog).1 hvalue
  refine ⟨hbalanced, hresource, _, hvalue, ?_⟩
  rw [Run.contents_ofSteps]
  decide +kernel

end Phrasebook.Resource
