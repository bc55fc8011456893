import Phrasebook.Proofs.Catalog.Run
import Phrasebook.Proofs.Markup.Content

/-!
# What a resource means

The reader takes events one by one. Here a resource is a tree, and its meaning is said by looking at
the tree as a whole: which elements may stand in which (`WellPlaced`), what the character data of an
element is (`characters`), and which message, context and run of a builder an element stands for
(`messageOf`, `contextSteps`, `steps`).
-/

namespace Phrasebook.Resource

open Markup (Content)

/-! ## Tags -/

/-- The element that a tag stands for. -/
def kind (tag : List Char) : Element := Element.ofName (Markup.tagName tag)

/-- The attributes that are looked at in the tag of an element. -/
def consulted : Element → List String
  | .root => ["version", "language", "sourcelanguage"]
  | .message => ["numerus"]
  | .location => ["filename", "line"]
  | .translation => ["type"]
  | .byte => ["value"]
  | .context | .name | .source | .oldSource | .comment | .extraComment | .translatorComment | .form
  | .unknown => []

def TagDecodes (tag : List Char) : Prop :=
  ∀ key ∈ consulted (kind tag), ∃ value, Reader.tagValue? tag key = .ok value

theorem tagValue?_of_bare {tag : List Char} (h : Markup.tagName tag = tag) (key : String) :
    Reader.tagValue? tag key = .ok none := by
  unfold Reader.tagValue? Markup.Attribute.value? Markup.Attribute.find?
  rw [h, List.drop_length, Markup.Attribute.findFrom]
  rfl

theorem tagDecodes_of_bare {tag : List Char} (h : Markup.tagName tag = tag) : TagDecodes tag :=
  fun key _ => ⟨none, tagValue?_of_bare h key⟩

/-- The value of an attribute, where it can be read and is there. -/
def attribute? (tag : List Char) (key : String) : Option String :=
  (Reader.tagValue? tag key).toOption.join

/-- The character that a byte element stands for. -/
def byteOf? (tag : List Char) : Option Char :=
  if kind tag = .byte then (attribute? tag "value").bind Reader.byteChar? else none

/-- The location that a tag gives. A line that is no number is left out. -/
def locationOf (tag : List Char) : Location where
  filename := (attribute? tag "filename").getD ""
  line := (attribute? tag "line").bind fun digits => Text.word? digits.toList

/-- The state that the tag of a translation names: finished without a name, and unfinished under a
name that stands for nothing. -/
def statusOf (tag : List Char) : Status :=
  (attribute? tag "type").elim .finished fun name => (Status.ofName? name).getD .unfinished

def isPlural (tag : List Char) : Bool := attribute? tag "numerus" == some "yes"

/-! ## Character data and children -/

/-- The text that written character data stands for. -/
def decoded (written : List Char) : List Char := (Markup.unescape written).toOption.getD []

/-- The character data of an element: its own texts and the characters of its own byte elements, in
order. Other elements in it contribute nothing. -/
def characters : Content → List Char
  | .done => []
  | .text written rest => decoded written ++ characters rest
  | .cdata content rest => content ++ characters rest
  | .remark rest => characters rest
  | .empty tag rest | .element tag _ rest => (byteOf? tag).toList ++ characters rest

/-- The elements directly in a content, each with its tag and its own content. -/
def elements : Content → List (List Char × Content)
  | .done => []
  | .text _ rest | .cdata _ rest | .remark rest => elements rest
  | .empty tag rest => (tag, .done) :: elements rest
  | .element tag inner rest => (tag, inner) :: elements rest

/-- The elements of one kind directly in a content. -/
def children (element : Element) (content : Content) : List (List Char × Content) :=
  (elements content).filter fun child => kind child.1 = element

def textOf (content : Content) : String := String.ofList (characters content)

def lastText? (element : Element) (content : Content) : Option String :=
  (children element content).getLast?.map fun child => textOf child.2

/-! ## What makes a resource -/

/-- All written character data can be read, in skipped elements too. -/
def TextsDecode : Content → Prop
  | .done => True
  | .text written rest => (∃ text, Markup.unescape written = .ok text) ∧ TextsDecode rest
  | .cdata _ rest | .remark rest | .empty _ rest => TextsDecode rest
  | .element _ inner rest => TextsDecode inner ∧ TextsDecode rest

/-- All attributes that are looked at can be read. Nobody looks into an unknown element. -/
def AttributesDecode : Content → Prop
  | .done => True
  | .text _ rest | .cdata _ rest | .remark rest => AttributesDecode rest
  | .empty tag rest => TagDecodes tag ∧ AttributesDecode rest
  | .element tag inner rest =>
    TagDecodes tag ∧ (kind tag ≠ .unknown → AttributesDecode inner) ∧ AttributesDecode rest

/-- An element with this tag and content may stand in `parent`. -/
structure Allowed (parent : Element) (tag : List Char) (inner : Content) : Prop where
  not_root : kind tag ≠ .root
  in_parent : ∀ expected, (kind tag).parent? = some expected → parent = expected
  has_byte : kind tag = .byte → (byteOf? tag).isSome
  has_name : kind tag = .context → children .name inner ≠ []
  has_source : kind tag = .message → children .source inner ≠ []

/-- All elements of a content in `parent` stand where they may; what an unknown element holds does
not count. -/
def WellPlaced (parent : Element) : Content → Prop
  | .done => True
  | .text _ rest | .cdata _ rest | .remark rest => WellPlaced parent rest
  | .empty tag rest => Allowed parent tag .done ∧ WellPlaced parent rest
  | .element tag inner rest =>
    Allowed parent tag inner ∧ (kind tag ≠ .unknown → WellPlaced (kind tag) inner) ∧
      WellPlaced parent rest

def Reads (parent : Element) (content : Content) : Prop :=
  TextsDecode content ∧ AttributesDecode content ∧ WellPlaced parent content

structure ReadsChild (parent : Element) (tag : List Char) (inner : Content) : Prop where
  tag_decodes : TagDecodes tag
  allowed : Allowed parent tag inner
  texts : TextsDecode inner
  content : kind tag ≠ .unknown → AttributesDecode inner ∧ WellPlaced (kind tag) inner

theorem reads_done (parent : Element) : Reads parent .done := ⟨trivial, trivial, trivial⟩

theorem reads_text {parent : Element} {written : List Char} {rest : Content} :
    Reads parent (.text written rest) ↔
      (∃ text, Markup.unescape written = .ok text) ∧ Reads parent rest := and_assoc

theorem reads_element {parent : Element} {tag : List Char} {inner rest : Content} :
    Reads parent (.element tag inner rest) ↔ ReadsChild parent tag inner ∧ Reads parent rest := by
  constructor
  · rintro ⟨⟨htexts, hrestTexts⟩, ⟨htag, hattributes, hrestAttributes⟩, hallowed, hplaced, hrest⟩
    exact ⟨⟨htag, hallowed, htexts, fun hknown => ⟨hattributes hknown, hplaced hknown⟩⟩,
      hrestTexts, hrestAttributes, hrest⟩
  · rintro ⟨⟨htag, hallowed, htexts, hcontent⟩, hrestTexts, hrestAttributes, hrest⟩
    exact ⟨⟨htexts, hrestTexts⟩, ⟨htag, fun hknown => (hcontent hknown).1, hrestAttributes⟩,
      hallowed, fun hknown => (hcontent hknown).2, hrest⟩

theorem reads_empty {parent : Element} {tag : List Char} {rest : Content} :
    Reads parent (.empty tag rest) ↔ ReadsChild parent tag .done ∧ Reads parent rest := by
  constructor
  · rintro ⟨htexts, ⟨htag, hattributes⟩, hallowed, hrest⟩
    exact ⟨⟨htag, hallowed, trivial, fun _ => ⟨trivial, trivial⟩⟩, htexts, hattributes, hrest⟩
  · rintro ⟨⟨htag, hallowed, -, -⟩, htexts, hattributes, hrest⟩
    exact ⟨htexts, ⟨htag, hattributes⟩, hallowed, hrest⟩

/-- A known element can be read if its tag and its content can and it may stand where it does. -/
theorem readsChild_iff {parent element : Element} {tag : List Char} {inner : Content}
    (hkind : kind tag = element) (hknown : element ≠ .unknown) :
    ReadsChild parent tag inner ↔
      TagDecodes tag ∧ Allowed parent tag inner ∧ Reads element inner := by
  subst hkind
  constructor
  · rintro ⟨htag, hallowed, htexts, hcontent⟩
    exact ⟨htag, hallowed, htexts, hcontent hknown⟩
  · rintro ⟨htag, hallowed, htexts, hcontent⟩
    exact ⟨htag, hallowed, htexts, fun _ => hcontent⟩

theorem readsChild_unknown_iff {parent : Element} {tag : List Char} {inner : Content}
    (hkind : kind tag = .unknown) : ReadsChild parent tag inner ↔ TextsDecode inner := by
  constructor
  · intro h; exact h.texts
  · intro htexts
    refine ⟨?_, ⟨?_, ?_, ?_, ?_, ?_⟩, htexts, fun hknown => absurd hkind hknown⟩
    · rw [TagDecodes, hkind]
      intro key hkey
      cases hkey
    all_goals rw [hkind]; simp [Element.parent?]

/-- A document is a resource: a root element with well-placed elements in it, and around it nothing
but blank text. -/
def IsResource (document : Content) : Prop :=
  ∃ tag inner, elements document = [(tag, inner)] ∧ kind tag = .root ∧
    (∀ c ∈ characters document, Text.isBlank c = true) ∧ WellPlaced .root inner

/-! ## What elements stand for -/

/-- The translation that an element stands for, in a message that says or does not say that it has
forms. -/
def translationOf (plural : Bool) (content : Content) : Translation :=
  if plural = true ∨ children .form content ≠ [] then
    .forms ((children .form content).map fun child => textOf child.2)
  else .single (textOf content)

/-- The message that an element stands for: of several elements of one kind the last one counts, but
all locations do. -/
def messageOf (tag : List Char) (content : Content) : Message where
  source := (lastText? .source content).getD ""
  oldSource := lastText? .oldSource content
  comment := lastText? .comment content
  extraComment := lastText? .extraComment content
  translatorComment := lastText? .translatorComment content
  translation := (children .translation content).getLast?.elim default fun child =>
    translationOf (isPlural tag) child.2
  status := (children .translation content).getLast?.elim .finished fun child => statusOf child.1
  locations := (children .location content).map fun child => locationOf child.1

def messagesOf (content : Content) : List Message :=
  (children .message content).map fun child => messageOf child.1 child.2

/-- What a context asks of a builder: it opens the context of its last name and adds its
messages. -/
def contextSteps (content : Content) : List Catalog.Step :=
  let name := (lastText? .name content).getD ""
  .openContext name :: (messagesOf content).map (.add name)

def headerSteps (tag : List Char) : List Catalog.Step :=
  (attribute? tag "version").toList.map .version ++
    (attribute? tag "language").toList.map .language ++
    (attribute? tag "sourcelanguage").toList.map .sourceLanguage

def rootSteps (tag : List Char) (content : Content) : List Catalog.Step :=
  headerSteps tag ++ (children .context content).flatMap fun child => contextSteps child.2

/-- What a document asks of a builder. -/
def steps (document : Content) : List Catalog.Step :=
  (elements document).flatMap fun child => rootSteps child.1 child.2

end Phrasebook.Resource
