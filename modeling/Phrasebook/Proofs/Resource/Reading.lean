import Phrasebook.Proofs.Markup.Reference
import Phrasebook.Proofs.Resource.Meaning

/-!
# The reader computes the meaning

The reader has one text buffer, one message and one context at hand. Inside an element these are
exactly what the part of its content that has been read stands for: for each kind of element a lemma
says when its content can be read and what reading it changes (`readContent_flat`,
`readContent_translation`, `readContent_message`, `readContent_context`, `readContent_root`). The
elements that hold no other known element come first, then those that hold them, up to the document.
-/

namespace Phrasebook.Resource

open Markup (Content)

theorem decoded_of_eq_ok {written text : List Char} (h : Markup.unescape written = .ok text) :
    decoded written = text := by
  rw [decoded, h]; rfl

theorem attribute?_of_eq_ok {tag : List Char} {key : String} {value : Option String}
    (h : Reader.tagValue? tag key = .ok value) : attribute? tag key = value := by
  rw [attribute?, h]; rfl

namespace Reader

def readContent (reader : Reader) (content : Content) : Except Fault Reader :=
  content.events.foldlM step reader

def readChild (reader : Reader) (tag : List Char) (inner : Content) : Except Fault Reader := do
  let opened ← reader.openElement tag
  let filled ← opened.readContent inner
  filled.closeElement

def addCharacters (reader : Reader) (element : Element) (text : List Char) : Reader :=
  if element.collectsText then { reader with text := reader.text ++ String.ofList text } else reader

variable {reader reader' : Reader}

/-! ## One item after another -/

theorem readContent_done : reader.readContent .done = .ok reader' ↔ reader' = reader := by
  constructor
  · intro h; cases h; rfl
  · rintro rfl; rfl

theorem readContent_text {written : List Char} {rest : Content} :
    reader.readContent (.text written rest) = .ok reader' ↔
      (∃ text, Markup.unescape written = .ok text) ∧
        ∃ next, reader.addText (decoded written) = .ok next ∧
          next.readContent rest = .ok reader' := by
  show (reader.step _ >>= fun next => next.readContent rest) = _ ↔ _
  rw [bind_eq_ok_iff]
  show (∃ next, ((Markup.unescape written).mapError _ >>= reader.addText) = _ ∧ _) ↔ _
  simp only [bind_eq_ok_iff, mapError_eq_ok_iff]
  constructor
  · rintro ⟨next, ⟨text, htext, hnext⟩, hrest⟩
    exact ⟨⟨text, htext⟩, next, by rwa [decoded_of_eq_ok htext], hrest⟩
  · rintro ⟨⟨text, htext⟩, next, hnext, hrest⟩
    exact ⟨next, ⟨text, htext, by rwa [decoded_of_eq_ok htext] at hnext⟩, hrest⟩

theorem readContent_cdata {data : List Char} {rest : Content} :
    reader.readContent (.cdata data rest) = .ok reader' ↔
      ∃ next, reader.addText data = .ok next ∧ next.readContent rest = .ok reader' := by
  show (reader.addText data >>= fun next => next.readContent rest) = _ ↔ _
  exact bind_eq_ok_iff

theorem readContent_empty {tag : List Char} {rest : Content} :
    reader.readContent (.empty tag rest) =
      reader.readChild tag .done >>= fun next => next.readContent rest := rfl

theorem readContent_element {tag : List Char} {inner rest : Content} :
    reader.readContent (.element tag inner rest) =
      reader.readChild tag inner >>= fun next => next.readContent rest := by
  show (reader.openElement tag >>= fun opened =>
    (inner.events ++ .closing _ :: rest.events).foldlM step opened) = _
  unfold readChild
  cases reader.openElement tag with
  | error fault => rfl
  | ok opened =>
    show (inner.events ++ .closing _ :: rest.events).foldlM step opened =
      (opened.readContent inner >>= closeElement) >>= fun next => next.readContent rest
    rw [List.foldlM_append]
    unfold readContent
    cases inner.events.foldlM step opened <;> rfl

theorem readChild_bind_iff {tag : List Char} {inner rest : Content} {readable : Prop}
    {next : Reader}
    (hchild : ∀ after, reader.readChild tag inner = .ok after ↔ readable ∧ after = next) :
    (reader.readChild tag inner >>= fun after => after.readContent rest) = .ok reader' ↔
      readable ∧ next.readContent rest = .ok reader' := by
  rw [bind_eq_ok_iff]
  constructor
  · rintro ⟨after, hafter, hrest⟩
    obtain ⟨hreadable, rfl⟩ := (hchild after).1 hafter
    exact ⟨hreadable, hrest⟩
  · rintro ⟨hreadable, hrest⟩
    exact ⟨next, (hchild next).2 ⟨hreadable, rfl⟩, hrest⟩

theorem addText_inside {element : Element} {outer : List Element}
    (hpath : reader.path = element :: outer) (text : List Char) :
    reader.addText text = .ok (reader.addCharacters element text) := by
  unfold addText addCharacters
  rw [hpath]
  rfl

theorem readContent_text_inside {element : Element} {outer : List Element}
    (hpath : reader.path = element :: outer) {written : List Char} {rest : Content} :
    reader.readContent (.text written rest) = .ok reader' ↔
      (∃ text, Markup.unescape written = .ok text) ∧
        (reader.addCharacters element (decoded written)).readContent rest = .ok reader' := by
  rw [readContent_text, addText_inside hpath]
  simp only [Except.ok.injEq, exists_eq_left']

theorem readContent_cdata_inside {element : Element} {outer : List Element}
    (hpath : reader.path = element :: outer) {data : List Char} {rest : Content} :
    reader.readContent (.cdata data rest) = .ok reader' ↔
      (reader.addCharacters element data).readContent rest = .ok reader' := by
  rw [readContent_cdata, addText_inside hpath]
  simp only [Except.ok.injEq, exists_eq_left']

/-! ## More character data -/

@[simp] theorem path_addCharacters (element : Element) (text : List Char) :
    (reader.addCharacters element text).path = reader.path := by
  unfold addCharacters; split <;> rfl

@[simp] theorem builder_addCharacters (element : Element) (text : List Char) :
    (reader.addCharacters element text).builder = reader.builder := by
  unfold addCharacters; split <;> rfl

@[simp] theorem addCharacters_nil (element : Element) :
    reader.addCharacters element [] = reader := by
  unfold addCharacters
  split
  · rw [String.ofList_nil, String.append_empty]
  · rfl

@[simp] theorem addCharacters_addCharacters (element : Element) (as bs : List Char) :
    (reader.addCharacters element as).addCharacters element bs =
      reader.addCharacters element (as ++ bs) := by
  unfold addCharacters
  split
  · rw [String.ofList_append, String.append_assoc]
  · rfl

/-! ## Unknown elements -/

theorem closeElement_push_unknown (reader : Reader) :
    (reader.push .unknown).closeElement = .ok reader := by
  show (if reader.path.head? = some .unknown then Except.ok reader
    else (Except.ok reader : Except Fault Reader)) = _
  exact ite_self _

theorem readChild_eq_ok_iff {tag : List Char} {inner : Content} :
    reader.readChild tag inner = .ok reader' ↔
      ∃ opened, reader.openElement tag = .ok opened ∧
        ∃ filled, opened.readContent inner = .ok filled ∧ filled.closeElement = .ok reader' := by
  unfold readChild
  simp only [bind_eq_ok_iff]

/-- An element that is opened as an unknown one changes nothing, if its content does not. -/
theorem readChild_skipped {tag : List Char} {inner : Content}
    (hopen : reader.openElement tag = .ok (reader.push .unknown))
    (hinner : ∀ filled, (reader.push .unknown).readContent inner = .ok filled ↔
      TextsDecode inner ∧ filled = reader.push .unknown) :
    reader.readChild tag inner = .ok reader' ↔ TextsDecode inner ∧ reader' = reader := by
  rw [readChild_eq_ok_iff, hopen]
  simp only [Except.ok.injEq, exists_eq_left', hinner]
  constructor
  · rintro ⟨filled, ⟨htexts, rfl⟩, hclose⟩
    rw [closeElement_push_unknown] at hclose
    exact ⟨htexts, (Except.ok.inj hclose).symm⟩
  · rintro ⟨htexts, rfl⟩
    exact ⟨_, ⟨htexts, rfl⟩, closeElement_push_unknown _⟩

theorem openElement_in_unknown (hpath : reader.path.head? = some .unknown) (tag : List Char) :
    reader.openElement tag = .ok (reader.push .unknown) := by
  unfold openElement
  rw [hpath]
  rfl

theorem addText_in_unknown (hpath : reader.path.head? = some .unknown) (text : List Char) :
    reader.addText text = .ok reader := by
  unfold addText
  rw [hpath]
  rfl

theorem readContent_unknown {content : Content} (hpath : reader.path.head? = some .unknown) :
    reader.readContent content = .ok reader' ↔ TextsDecode content ∧ reader' = reader := by
  induction content generalizing reader reader' with
  | done => rw [readContent_done, TextsDecode, true_and]
  | text written rest ih =>
    rw [readContent_text, addText_in_unknown hpath, TextsDecode, and_assoc]
    simp only [Except.ok.injEq, exists_eq_left', ih hpath]
  | cdata data rest ih =>
    rw [readContent_cdata, addText_in_unknown hpath, TextsDecode]
    simp only [Except.ok.injEq, exists_eq_left', ih hpath]
  | remark rest ih => exact ih hpath
  | empty tag rest ih =>
    have hdone (filled : Reader) : (reader.push .unknown).readContent .done = .ok filled ↔
        TextsDecode .done ∧ filled = reader.push .unknown := by
      rw [readContent_done, TextsDecode, true_and]
    rw [readContent_empty, TextsDecode, ← ih hpath, readChild_bind_iff fun after =>
      readChild_skipped (openElement_in_unknown hpath tag) hdone, TextsDecode, true_and]
  | element tag inner rest ihInner ihRest =>
    rw [readContent_element, TextsDecode, and_assoc, ← ihRest hpath]
    exact readChild_bind_iff fun after =>
      readChild_skipped (openElement_in_unknown hpath tag) fun filled => ihInner rfl

/-! ## An element inside a known one -/

section Inside

variable {parent : Element} {outer : List Element} {tag : List Char} {inner : Content}

theorem checkParent_eq_ok_iff {element : Element} :
    checkParent element parent = .ok () ↔
      ∀ expected, element.parent? = some expected → parent = expected := by
  unfold checkParent
  cases element.parent? with
  | none => simp
  | some expected =>
    by_cases h : parent = expected <;> simp [h]

theorem openElement_inside (hpath : reader.path = parent :: outer) (hparent : parent ≠ .unknown) :
    reader.openElement tag = .ok reader' ↔
      (∀ expected, (kind tag).parent? = some expected → parent = expected) ∧
        ∃ entered, reader.enterElement (kind tag) tag = .ok entered ∧
          reader' = entered.push (kind tag) := by
  have hopen : reader.openElement tag = (checkParent (kind tag) parent >>= fun _ =>
      reader.enterElement (kind tag) tag >>= fun entered => pure (entered.push (kind tag))) := by
    unfold openElement
    rw [hpath]
    cases parent <;> first | rfl | exact absurd rfl hparent
  rw [hopen, bind_eq_ok_iff, ← checkParent_eq_ok_iff]
  simp only [bind_eq_ok_iff]
  constructor
  · rintro ⟨_, hcheck, entered, hentered, hpush⟩
    exact ⟨hcheck, entered, hentered, (Except.ok.inj hpush).symm⟩
  · rintro ⟨hcheck, entered, hentered, rfl⟩
    exact ⟨(), hcheck, entered, hentered, rfl⟩

theorem closeElement_inside {element : Element} (hpath : reader.path = element :: parent :: outer)
    (hparent : parent ≠ .unknown) :
    reader.closeElement =
      if element.collectsText then
        { reader with path := parent :: outer, text := "" }.leaveElement element reader.text
      else { reader with path := parent :: outer }.leaveElement element "" := by
  unfold closeElement
  rw [hpath]
  exact if_neg fun h => hparent (Option.some.inj h)

theorem readChild_inside (hpath : reader.path = parent :: outer) (hparent : parent ≠ .unknown) :
    reader.readChild tag inner = .ok reader' ↔
      (∀ expected, (kind tag).parent? = some expected → parent = expected) ∧
        ∃ entered, reader.enterElement (kind tag) tag = .ok entered ∧
          ∃ filled, (entered.push (kind tag)).readContent inner = .ok filled ∧
            filled.closeElement = .ok reader' := by
  rw [readChild_eq_ok_iff]
  simp only [openElement_inside hpath hparent]
  constructor
  · rintro ⟨_, ⟨hplace, entered, hentered, rfl⟩, hfilled⟩
    exact ⟨hplace, entered, hentered, hfilled⟩
  · rintro ⟨hplace, entered, hentered, hfilled⟩
    exact ⟨_, ⟨hplace, entered, hentered, rfl⟩, hfilled⟩

theorem readChild_unknown (hpath : reader.path = parent :: outer) (hparent : parent ≠ .unknown)
    (hkind : kind tag = .unknown) :
    reader.readChild tag inner = .ok reader' ↔ ReadsChild parent tag inner ∧ reader' = reader := by
  rw [readsChild_unknown_iff hkind]
  refine readChild_skipped ?_ fun filled => readContent_unknown rfl
  rw [openElement_inside hpath hparent, hkind]
  refine ⟨fun expected h => ?_, reader, rfl, rfl⟩
  cases h

/-- An element that may not stand in `parent` cannot be read, so nothing need be said of its
effect. -/
theorem readChild_misplaced (hpath : reader.path = parent :: outer) (hparent : parent ≠ .unknown)
    {expected : Element} (hexpected : (kind tag).parent? = some expected) (hne : parent ≠ expected)
    (next : Reader) :
    reader.readChild tag inner = .ok reader' ↔
      ReadsChild parent tag inner ∧ reader' = next := by
  rw [readChild_inside hpath hparent]
  constructor
  · rintro ⟨hplace, -⟩
    exact absurd (hplace expected hexpected) hne
  · rintro ⟨hreads, -⟩
    exact absurd (hreads.allowed.in_parent expected hexpected) hne

theorem readChild_root (hpath : reader.path = parent :: outer) (hparent : parent ≠ .unknown)
    (hbuilder : reader.builder.isSome) (hkind : kind tag = .root) (next : Reader) :
    reader.readChild tag inner = .ok reader' ↔
      ReadsChild parent tag inner ∧ reader' = next := by
  rw [readChild_inside hpath hparent, hkind]
  constructor
  · rintro ⟨-, entered, hentered, -⟩
    rw [enterElement, openRoot, if_pos hbuilder] at hentered
    cases hentered
  · rintro ⟨hreads, -⟩
    exact absurd hkind hreads.allowed.not_root

theorem push_append_ofList (text : String) (c : Char) :
    text ++ String.ofList [c] = text.push c := by
  rw [← String.singleton_eq_ofList]
  exact String.append_singleton

/-- A byte element adds its character, where it has one. -/
theorem openByte_eq_ok_iff (hpath : reader.path = parent :: outer) (hkind : kind tag = .byte) :
    reader.openByte tag = .ok reader' ↔ TagDecodes tag ∧ (byteOf? tag).isSome = true ∧
      reader' = reader.addCharacters parent (byteOf? tag).toList := by
  have hdecodes : TagDecodes tag ↔ ∃ value, tagValue? tag "value" = .ok value := by
    rw [TagDecodes, hkind]; simp [consulted]
  have hbyte : byteOf? tag = (attribute? tag "value").bind byteChar? := if_pos hkind
  rw [hdecodes, hbyte]
  unfold openByte
  cases hvalue : tagValue? tag "value" with
  | error fault =>
    constructor
    · intro h; cases h
    · rintro ⟨⟨value, h⟩, -⟩; cases h
  | ok value? =>
    rw [attribute?_of_eq_ok hvalue]
    cases value? with
    | none =>
      constructor
      · intro h; cases h
      · rintro ⟨-, h, -⟩; cases h
    | some value =>
      simp only [bind, Except.bind, Option.bind_some]
      cases byteChar? value with
      | none =>
        constructor
        · intro h; cases h
        · rintro ⟨-, h, -⟩; cases h
      | some c =>
        have hadd : (if reader.path.head?.any Element.collectsText then
              (pure { reader with text := reader.text.push c } : Except Fault Reader)
            else pure reader) = .ok (reader.addCharacters parent [c]) := by
          unfold addCharacters
          rw [hpath, push_append_ofList]
          exact (apply_ite Except.ok _ _ _).symm
        show (if reader.path.head?.any Element.collectsText then _ else _) = _ ↔ _
        rw [hadd]
        constructor
        · intro h; cases h; exact ⟨⟨_, rfl⟩, rfl, rfl⟩
        · rintro ⟨-, -, rfl⟩; rfl

theorem addCharacters_of_not_collects {element : Element} (h : element.collectsText = false)
    (text : List Char) : reader.addCharacters element text = reader := by
  unfold addCharacters
  rw [h]
  rfl

theorem push_of_not_collects {element : Element} (h : element.collectsText = false) :
    reader.push element = { reader with path := element :: reader.path } := by
  unfold push
  rw [h]
  rfl

theorem push_of_collects {element : Element} (h : element.collectsText = true) :
    reader.push element = { reader with path := element :: reader.path, text := "" } := by
  unfold push
  rw [h]
  rfl

theorem path_eq_self (hpath : reader.path = parent :: outer) :
    { reader with path := parent :: outer } = reader := by
  rw [← hpath]

theorem allowed_byte_iff (hkind : kind tag = .byte) :
    Allowed parent tag inner ↔ (byteOf? tag).isSome = true := by
  constructor
  · intro h; exact h.has_byte hkind
  · intro h
    refine ⟨?_, ?_, fun _ => h, ?_, ?_⟩ <;> rw [hkind] <;> simp [Element.parent?]

theorem readChild_byte (hpath : reader.path = parent :: outer) (hparent : parent ≠ .unknown)
    (hkind : kind tag = .byte)
    (hinner : ∀ start filled : Reader, start.path = .byte :: parent :: outer →
      start.builder = reader.builder →
      (start.readContent inner = .ok filled ↔ Reads .byte inner ∧ filled = start)) :
    reader.readChild tag inner = .ok reader' ↔
      ReadsChild parent tag inner ∧
        reader' = reader.addCharacters parent (byteOf? tag).toList := by
  have hclose (entered : Reader) (hentered : entered.path = parent :: outer) :
      (entered.push .byte).closeElement = .ok entered := by
    rw [closeElement_inside (by rw [push_of_not_collects rfl, hentered]) hparent,
      push_of_not_collects rfl]
    exact congrArg Except.ok (path_eq_self hentered)
  have hread (entered filled : Reader) (hentered : entered.path = parent :: outer)
      (hbuilder : entered.builder = reader.builder) :
      (entered.push .byte).readContent inner = .ok filled ↔
        Reads .byte inner ∧ filled = entered.push .byte :=
    hinner _ _ (by rw [push_of_not_collects rfl, hentered]) hbuilder
  rw [readChild_inside hpath hparent, readsChild_iff hkind (by decide), allowed_byte_iff hkind,
    hkind]
  show (_ ∧ ∃ entered, reader.openByte tag = _ ∧ _) ↔ _
  simp only [openByte_eq_ok_iff hpath hkind]
  have hpath' : (reader.addCharacters parent (byteOf? tag).toList).path = parent :: outer := by
    rw [path_addCharacters, hpath]
  constructor
  · rintro ⟨-, _, ⟨htag, hbyte, rfl⟩, filled, hfilled, hdone⟩
    obtain ⟨hreads, rfl⟩ := (hread _ _ hpath' (builder_addCharacters _ _)).1 hfilled
    rw [hclose _ hpath'] at hdone
    exact ⟨⟨htag, hbyte, hreads⟩, (Except.ok.inj hdone).symm⟩
  · rintro ⟨⟨htag, hbyte, hreads⟩, rfl⟩
    refine ⟨fun expected h => ?_, _, ⟨htag, hbyte, rfl⟩, _,
      (hread _ _ hpath' (builder_addCharacters _ _)).2 ⟨hreads, rfl⟩, hclose _ hpath'⟩
    cases h

end Inside

/-! ## Elements that hold no other known element -/

theorem element_cases (element : Element) :
    element = .unknown ∨ element = .byte ∨ element = .root ∨
      ∃ expected, element.parent? = some expected := by
  cases element <;> simp [Element.parent?]

/-- No element has to be in this one. -/
def IsLeaf (parent : Element) : Prop := ∀ element : Element, element.parent? ≠ some parent

theorem isLeaf_of_not_mem {parent : Element}
    (h : parent ∉ [Element.root, .context, .message, .translation]) : IsLeaf parent := by
  intro element helement
  cases element <;> cases helement <;> exact h (by decide)

/-- An element inside one that is the parent of no other one adds the character of its byte, if it
is a byte element. -/
theorem readChild_flat {parent : Element} {outer : List Element} {tag : List Char} {inner : Content}
    (hflat : IsLeaf parent) (hparent : parent ≠ .unknown)
    (hpath : reader.path = parent :: outer) (hbuilder : reader.builder.isSome = true)
    (hinner : ∀ start filled : Reader, start.path = .byte :: parent :: outer →
      start.builder = reader.builder →
      (start.readContent inner = .ok filled ↔ Reads .byte inner ∧ filled = start)) :
    reader.readChild tag inner = .ok reader' ↔
      ReadsChild parent tag inner ∧
        reader' = reader.addCharacters parent (byteOf? tag).toList := by
  rcases element_cases (kind tag) with hkind | hkind | hkind | ⟨expected, hexpected⟩
  · have hbyte : byteOf? tag = none := if_neg (by rw [hkind]; decide)
    rw [readChild_unknown hpath hparent hkind, hbyte, Option.toList_none, addCharacters_nil]
  · exact readChild_byte hpath hparent hkind hinner
  · exact readChild_root hpath hparent hbuilder hkind _
  · exact readChild_misplaced hpath hparent hexpected
      (fun h => hflat (kind tag) (h ▸ hexpected)) _

/-- In an element that is the parent of no other one, only characters are collected. -/
theorem readContent_flat {content : Content} {parent : Element} {outer : List Element}
    {reader reader' : Reader} (hflat : IsLeaf parent)
    (hparent : parent ≠ .unknown) (hpath : reader.path = parent :: outer)
    (hbuilder : reader.builder.isSome = true) :
    reader.readContent content = .ok reader' ↔
      Reads parent content ∧ reader' = reader.addCharacters parent (characters content) := by
  induction content generalizing parent outer reader reader' with
  | done =>
    rw [readContent_done, characters, addCharacters_nil]
    exact ⟨fun h => ⟨reads_done parent, h⟩, fun h => h.2⟩
  | text written rest ih =>
    rw [readContent_text_inside hpath, reads_text, and_assoc, characters,
      ← addCharacters_addCharacters,
      ih hflat hparent (by rw [path_addCharacters, hpath]) (by rwa [builder_addCharacters])]
  | cdata data rest ih =>
    rw [readContent_cdata_inside hpath, characters, ← addCharacters_addCharacters,
      ih hflat hparent (by rw [path_addCharacters, hpath]) (by rwa [builder_addCharacters])]
    rfl
  | remark rest ih => exact ih hflat hparent hpath hbuilder
  | empty tag rest ih =>
    rw [readContent_empty, reads_empty, and_assoc, characters, ← addCharacters_addCharacters,
      ← ih hflat hparent (by rw [path_addCharacters, hpath]) (by rwa [builder_addCharacters])]
    refine readChild_bind_iff fun after => readChild_flat hflat hparent hpath hbuilder ?_
    intro start filled _ _
    rw [readContent_done]
    exact ⟨fun h => ⟨reads_done _, h⟩, fun h => h.2⟩
  | element tag inner rest ihInner ihRest =>
    rw [readContent_element, reads_element, and_assoc, characters, ← addCharacters_addCharacters,
      ← ihRest hflat hparent (by rw [path_addCharacters, hpath]) (by rwa [builder_addCharacters])]
    refine readChild_bind_iff fun after => readChild_flat hflat hparent hpath hbuilder ?_
    -- a byte element is the parent of no other one either
    intro start filled hstart hsame
    rw [ihInner (isLeaf_of_not_mem (by decide)) (by decide) hstart (hsame ▸ hbuilder),
      addCharacters_of_not_collects rfl]

/-! ## Text elements -/

/-- The elements that are nothing but text. -/
def plainTexts : List Element :=
  [.name, .source, .oldSource, .comment, .extraComment, .translatorComment, .form]

theorem plainText_facts {element : Element} (h : element ∈ plainTexts) :
    element.collectsText = true ∧ consulted element = [] ∧
      element ∉ [Element.root, .context, .message, .translation, .byte, .unknown] ∧
      ∀ (reader : Reader) (tag : List Char), reader.enterElement element tag = .ok reader := by
  simp only [plainTexts, List.mem_cons, List.not_mem_nil, or_false] at h
  rcases h with rfl | rfl | rfl | rfl | rfl | rfl | rfl <;>
    exact ⟨rfl, rfl, by decide, fun _ _ => rfl⟩

theorem readsChild_plainText_iff {parent element : Element} {tag : List Char} {inner : Content}
    (hkind : kind tag = element) (hplain : element ∈ plainTexts) :
    ReadsChild parent tag inner ↔
      (∀ expected, element.parent? = some expected → parent = expected) ∧ Reads element inner := by
  obtain ⟨-, hconsulted, hother, -⟩ := plainText_facts hplain
  simp only [List.mem_cons, List.not_mem_nil, or_false, not_or] at hother
  obtain ⟨hroot, hcontext, hmessage, -, hbyte, hunknown⟩ := hother
  rw [readsChild_iff hkind hunknown]
  subst hkind
  constructor
  · rintro ⟨-, hallowed, hreads⟩
    exact ⟨hallowed.in_parent, hreads⟩
  · rintro ⟨hplace, hreads⟩
    refine ⟨?_, ⟨hroot, hplace, fun h => absurd h hbyte, fun h => absurd h hcontext,
      fun h => absurd h hmessage⟩, hreads⟩
    rw [TagDecodes, hconsulted]
    intro key hkey
    cases hkey

/-- A text element leaves with its text and with an empty buffer. -/
theorem readChild_plainText {parent element : Element} {outer : List Element} {tag : List Char}
    {inner : Content} (hkind : kind tag = element) (hplain : element ∈ plainTexts)
    (hparent : parent ≠ .unknown) (hpath : reader.path = parent :: outer)
    (hbuilder : reader.builder.isSome = true) :
    reader.readChild tag inner = .ok reader' ↔ ReadsChild parent tag inner ∧
      { reader with text := "" }.leaveElement element (textOf inner) = .ok reader' := by
  obtain ⟨hcollects, -, hother, henter⟩ := plainText_facts hplain
  have hleaf : IsLeaf element := isLeaf_of_not_mem fun hmem => hother (by
    simp only [List.mem_cons, List.not_mem_nil, or_false] at hmem ⊢
    tauto)
  have hread (filled : Reader) : (reader.push element).readContent inner = .ok filled ↔
      Reads element inner ∧
        filled = (reader.push element).addCharacters element (characters inner) :=
    readContent_flat hleaf (fun h => hother (by rw [h]; decide)) rfl hbuilder
  have hclose : ((reader.push element).addCharacters element (characters inner)).closeElement =
      { reader with text := "" }.leaveElement element (textOf inner) := by
    rw [closeElement_inside (by rw [path_addCharacters]; exact congrArg _ hpath) hparent,
      if_pos hcollects, push_of_collects hcollects]
    unfold addCharacters
    rw [if_pos hcollects, ← hpath]
    show leaveElement _ element ("" ++ _) = _
    rw [String.empty_append]
    rfl
  rw [readChild_inside hpath hparent, readsChild_plainText_iff hkind hplain, hkind, and_assoc]
  refine and_congr_right fun _ => ?_
  simp only [henter, Except.ok.injEq, exists_eq_left', hread]
  constructor
  · rintro ⟨_, ⟨hreads, rfl⟩, hdone⟩
    exact ⟨hreads, hclose ▸ hdone⟩
  · rintro ⟨hreads, hdone⟩
    exact ⟨_, ⟨hreads, rfl⟩, hclose.trans hdone⟩

/-! ## Translations -/

/-- The text in the buffer after a content of a translation: a form starts it anew. -/
def trailing (text : String) : Content → String
  | .done => text
  | .text written rest => trailing (text ++ String.ofList (decoded written)) rest
  | .cdata data rest => trailing (text ++ String.ofList data) rest
  | .remark rest => trailing text rest
  | .empty tag rest | .element tag _ rest =>
    if kind tag = .form then trailing "" rest
    else trailing (text ++ String.ofList (byteOf? tag).toList) rest

theorem children_cons {element : Element} {tag : List Char} {inner rest content : Content}
    (hcontent : elements content = (tag, inner) :: elements rest) :
    children element content =
      (if kind tag = element then [(tag, inner)] else []) ++ children element rest := by
  rw [children, hcontent]
  by_cases h : kind tag = element <;> simp [h, children]

/-- A content that starts with an element which is no form has no form if the rest has none. -/
theorem children_form_rest {tag : List Char} {inner rest content : Content}
    (hcontent : elements content = (tag, inner) :: elements rest)
    (h : children .form content = []) : kind tag ≠ .form ∧ children .form rest = [] := by
  rw [children_cons hcontent, List.append_eq_nil_iff] at h
  refine ⟨fun hkind => ?_, h.2⟩
  rw [if_pos hkind] at h
  cases h.1

theorem trailing_of_no_form {content : Content} (h : children .form content = []) (text : String) :
    trailing text content = text ++ textOf content := by
  induction content generalizing text with
  | done => exact String.append_empty.symm
  | text written rest ih =>
    simp only [trailing, ih h, textOf, characters, String.ofList_append, String.append_assoc]
  | cdata data rest ih =>
    simp only [trailing, ih h, textOf, characters, String.ofList_append, String.append_assoc]
  | remark rest ih => exact ih h text
  | empty tag rest ih =>
    obtain ⟨hkind, hrest⟩ := children_form_rest rfl h
    simp only [trailing, if_neg hkind, ih hrest, textOf, characters, String.ofList_append,
      String.append_assoc]
  | element tag inner rest _ ih =>
    obtain ⟨hkind, hrest⟩ := children_form_rest rfl h
    simp only [trailing, if_neg hkind, ih hrest, textOf, characters, String.ofList_append,
      String.append_assoc]

theorem parent?_eq_translation_iff {element : Element} :
    element.parent? = some .translation ↔ element = .form := by
  cases element <;> simp [Element.parent?]

def afterTranslationChild (reader : Reader) (tag : List Char) (inner : Content) : Reader :=
  if kind tag = .form then
    { reader with text := "" }.updateMessage fun draft =>
      { draft with forms := draft.forms ++ [textOf inner] }
  else reader.addCharacters .translation (byteOf? tag).toList

@[simp] theorem path_afterTranslationChild (tag : List Char) (inner : Content) :
    (reader.afterTranslationChild tag inner).path = reader.path := by
  unfold afterTranslationChild
  split
  · rfl
  · exact path_addCharacters _ _

@[simp] theorem builder_afterTranslationChild (tag : List Char) (inner : Content) :
    (reader.afterTranslationChild tag inner).builder = reader.builder := by
  unfold afterTranslationChild
  split
  · rfl
  · exact builder_addCharacters _ _

theorem readChild_translation {outer : List Element} {tag : List Char} {inner : Content}
    (hpath : reader.path = .translation :: outer) (hbuilder : reader.builder.isSome = true) :
    reader.readChild tag inner = .ok reader' ↔
      ReadsChild .translation tag inner ∧ reader' = reader.afterTranslationChild tag inner := by
  have hparent : Element.translation ≠ .unknown := by decide
  unfold afterTranslationChild
  by_cases hform : kind tag = .form
  · rw [if_pos hform, readChild_plainText hform (by decide) hparent hpath hbuilder]
    refine and_congr_right fun _ => ?_
    constructor
    · intro h; cases h; rfl
    · rintro rfl; rfl
  · rw [if_neg hform]
    rcases element_cases (kind tag) with hkind | hkind | hkind | ⟨expected, hexpected⟩
    · have hbyte : byteOf? tag = none := if_neg (by rw [hkind]; decide)
      rw [readChild_unknown hpath hparent hkind, hbyte, Option.toList_none, addCharacters_nil]
    · refine readChild_byte hpath hparent hkind fun start filled hstart hsame => ?_
      rw [readContent_flat (isLeaf_of_not_mem (by decide)) (by decide) hstart (hsame ▸ hbuilder),
        addCharacters_of_not_collects rfl]
    · exact readChild_root hpath hparent hbuilder hkind _
    · refine readChild_misplaced hpath hparent hexpected (fun h => hform ?_) _
      exact parent?_eq_translation_iff.1 (h ▸ hexpected)

/-- A reader after a content of a translation. -/
def afterTranslation (reader : Reader) (content : Content) : Reader :=
  { reader with
    text := trailing reader.text content
    message := reader.message.map fun draft =>
      { draft with
        forms := draft.forms ++ (children .form content).map fun child => textOf child.2 } }

theorem afterTranslation_done : reader.afterTranslation .done = reader := by
  unfold afterTranslation
  cases reader with
  | mk path text builder context message notices =>
    cases message <;> simp [trailing, children, elements]

/-- Reading on after the first element of a content. -/
theorem afterTranslation_child {tag : List Char} {inner rest content : Content}
    (hcontent : elements content = (tag, inner) :: elements rest)
    (htrailing : trailing reader.text content = if kind tag = .form then trailing "" rest
      else trailing (reader.text ++ String.ofList (byteOf? tag).toList) rest) :
    (reader.afterTranslationChild tag inner).afterTranslation rest =
      reader.afterTranslation content := by
  unfold afterTranslationChild afterTranslation
  rw [htrailing, children_cons hcontent]
  split
  · rename_i hkind
    cases reader.message <;> simp [updateMessage, List.append_assoc]
  · rename_i hkind
    simp only [List.nil_append]
    rfl

theorem readContent_translation {content : Content} {outer : List Element}
    (hpath : reader.path = .translation :: outer) (hbuilder : reader.builder.isSome = true) :
    reader.readContent content = .ok reader' ↔
      Reads .translation content ∧ reader' = reader.afterTranslation content := by
  induction content generalizing reader reader' with
  | done =>
    rw [readContent_done, afterTranslation_done]
    exact ⟨fun h => ⟨reads_done _, h⟩, fun h => h.2⟩
  | text written rest ih =>
    rw [readContent_text_inside hpath, reads_text, and_assoc,
      ih (by rw [path_addCharacters, hpath]) (by rwa [builder_addCharacters])]
    rfl
  | cdata data rest ih =>
    rw [readContent_cdata_inside hpath,
      ih (by rw [path_addCharacters, hpath]) (by rwa [builder_addCharacters])]
    rfl
  | remark rest ih => exact ih hpath hbuilder
  | empty tag rest ih =>
    rw [readContent_empty, reads_empty, and_assoc, ← afterTranslation_child rfl rfl, ← ih]
    · exact readChild_bind_iff fun after => readChild_translation hpath hbuilder
    · rw [path_afterTranslationChild, hpath]
    · rwa [builder_afterTranslationChild]
  | element tag inner rest _ ih =>
    rw [readContent_element, reads_element, and_assoc, ← afterTranslation_child rfl rfl, ← ih]
    · exact readChild_bind_iff fun after => readChild_translation hpath hbuilder
    · rw [path_afterTranslationChild, hpath]
    · rwa [builder_afterTranslationChild]

end Reader

end Phrasebook.Resource
