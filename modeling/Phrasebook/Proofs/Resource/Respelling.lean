import Mathlib.Logic.Relation
import Phrasebook.Proofs.Resource.Parts
import Phrasebook.Proofs.Resource.WrittenTag

/-!
# Respelled resources

Character data can be spelled as it is, by references, in CDATA sections or as byte elements, with
remarks and unknown elements in between. `StandsFor` says which characters such a spelling stands
for. Wherever the reader is inside the root element, a spelling does to it what its characters do
(`Reader.takes_of_standsFor`). So a resource that is spelled in another way is the same catalog
(`parse_respelled`).
-/

namespace Phrasebook.Resource

open Markup (Content Event Scans resolve)

/-- The characters that a part of an element stands for. Where an element has no text of its own
they do not count. -/
inductive StandsFor : List Char → List Char → Prop where
  | nothing : StandsFor [] []
  | plain {c : Char} (hopen : c ≠ '<') (hreference : c ≠ '&') : StandsFor [c] [c]
  | reference {name : List Char} {c : Char} (hresolve : resolve 0 name = .ok c) :
      StandsFor ('&' :: (name ++ [';'])) [c]
  | cdata {content : List Char} (hend : ¬ "]]>".toList <:+: content) :
      StandsFor ("<![CDATA[".toList ++ content ++ "]]>".toList) content
  | byte {value : String} {c : Char} (hvalue : Reader.byteChar? value = some c) :
      StandsFor ("<byte value=\"".toList ++ value.toList ++ "\"/>".toList) [c]
  /-- A comment or a processing instruction. -/
  | remark {written : List Char} (hscans : Scans [] written [.remark] []) : StandsFor written []
  | unknownTag {written tag : List Char} (hscans : Scans [] written [.empty tag] [])
      (hunknown : kind tag = .unknown) : StandsFor written []
  /-- An unknown element, whatever elements are in it. -/
  | unknownElement {written tag : List Char} {inner : Content}
      (hscans : Scans [] written (Content.element tag inner .done).events [])
      (hunknown : kind tag = .unknown) (htexts : TextsDecode inner) : StandsFor written []
  | append {as as' bs bs' : List Char} (has : StandsFor as as') (hbs : StandsFor bs bs') :
      StandsFor (as ++ bs) (as' ++ bs')

/-! ## Byte elements -/

theorem escape_of_byteChar? {value : String} {c : Char} (h : Reader.byteChar? value = some c) :
    Markup.escape value.toList = value.toList := by
  have hdigits {base : Nat} {digits : List Char} {code : Nat}
      (h : Text.unsigned? base Text.wordBound digits = some code) :
      ∀ x ∈ digits, x ∉ ['<', '>', '&', '\x27', '"'] := by
    intro x hx hmem
    have hdigit := Text.plus_or_isAlphanum_of_unsigned? h x hx
    simp only [List.mem_cons, List.not_mem_nil, or_false] at hmem
    rcases hmem with rfl | rfl | rfl | rfl | rfl <;> exact absurd hdigit (by decide)
  refine Markup.escape_of_plain ?_
  obtain ⟨code, hcode, -⟩ := Option.bind_eq_some_iff.1 h
  split at hcode
  · rename_i hvalue
    rw [hvalue]
    exact List.forall_mem_cons.2 ⟨by decide, hdigits hcode⟩
  · rename_i hvalue
    rw [hvalue]
    exact List.forall_mem_cons.2 ⟨by decide, hdigits hcode⟩
  · exact hdigits hcode

def byteTag (value : String) : List Char := Writer.tagOf .byte [("value", value)]

theorem isName_byteKeys (value : String) :
    ∀ pair ∈ [("value", value)], Markup.IsName pair.1.toList :=
  List.forall_mem_singleton.2 (by decide : Markup.IsName "value".toList)

theorem kind_byteTag (value : String) : kind (byteTag value) = .byte := Writer.kind_tagOf _ _

theorem byteOf?_byteTag {value : String} {c : Char} (h : Reader.byteChar? value = some c) :
    byteOf? (byteTag value) = some c := by
  rw [byteOf?, if_pos (kind_byteTag value), byteTag,
    Writer.attribute?_tagOf (isName_byteKeys value)]
  exact h

theorem byte_eq_byteTag {value : String} {c : Char} (h : Reader.byteChar? value = some c) :
    "<byte value=\"".toList ++ value.toList ++ "\"/>".toList =
      '<' :: (byteTag value ++ ['/', '>']) := by
  simp [byteTag, Writer.tagOf, Writer.tagAttribute_eq, Element.written, escape_of_byteChar? h]

theorem scans_byte {value : String} {c : Char} (h : Reader.byteChar? value = some c)
    (names : List (List Char)) :
    Scans names ("<byte value=\"".toList ++ value.toList ++ "\"/>".toList)
      [.empty (byteTag value)] names := by
  obtain ⟨size, hscan⟩ := Markup.scan_empty (Writer.isTag_tagOf (isName_byteKeys value)) []
  rw [byte_eq_byteTag h]
  exact Markup.scans_single hscan rfl

/-! ## References -/

theorem scans_reference {name : List Char} {c : Char} (h : resolve 0 name = .ok c)
    (names : List (List Char)) :
    Scans names ('&' :: (name ++ [';'])) [.text ('&' :: (name ++ [';']))] names := by
  refine Markup.scans_text (List.cons_ne_nil _ _) (fun hmem => ?_) names
  have hname : '<' ∈ name := by simpa using hmem
  exact absurd (Markup.mark_or_isAlphanum_of_resolve h '<' hname) (by decide)

namespace Reader

variable {reader : Reader} {element : Element} {outer : List Element}

/-! ## What the reader does with a spelling -/

theorem step_text_inside (hpath : reader.path = element :: outer) {written text : List Char}
    (h : Markup.unescape written = .ok text) :
    reader.step (.text written) = .ok (reader.addCharacters element text) :=
  step_text_iff.2 ⟨text, h, addText_inside hpath text⟩

theorem readChild_in_unknown (hpath : reader.path = .unknown :: outer) (tag : List Char)
    {inner : Content} (htexts : TextsDecode inner) : reader.readChild tag inner = .ok reader := by
  have hhead : reader.path.head? = some .unknown := by rw [hpath]; rfl
  exact (readChild_skipped (openElement_in_unknown hhead tag) fun filled =>
    readContent_unknown rfl).2 ⟨htexts, rfl⟩

theorem step_byteTag (hpath : reader.path = element :: outer) {value : String} {c : Char}
    (h : byteChar? value = some c) :
    reader.step (.empty (byteTag value)) = .ok (reader.addCharacters element [c]) := by
  show reader.readChild (byteTag value) .done = _
  by_cases hunknown : element = .unknown
  · subst hunknown
    rw [addCharacters_of_not_collects rfl]
    exact readChild_in_unknown hpath _ trivial
  · refine (readChild_byte hpath hunknown (kind_byteTag value)
      fun start filled _ _ => ?_).2 ⟨?_, ?_⟩
    · rw [readContent_done]
      exact ⟨fun h => ⟨reads_done _, h⟩, fun h => h.2⟩
    · refine (readsChild_iff (kind_byteTag value) (by decide)).2 ⟨?_, ?_, reads_done _⟩
      · exact Writer.tagDecodes_tagOf (isName_byteKeys value)
      · rw [allowed_byte_iff (kind_byteTag value), byteOf?_byteTag h]
        rfl
    · rw [byteOf?_byteTag h]
      rfl

/-- An unknown element is skipped wherever it is inside of the root. -/
theorem readChild_skipped_inside (hpath : reader.path = element :: outer) {tag : List Char}
    {inner : Content} (hunknown : kind tag = .unknown) (htexts : TextsDecode inner) :
    reader.readChild tag inner = .ok reader := by
  by_cases helement : element = .unknown
  · subst helement
    exact readChild_in_unknown hpath tag htexts
  · exact (readChild_unknown hpath helement hunknown).2
      ⟨(readsChild_unknown_iff hunknown).2 htexts, rfl⟩

variable {names : List (List Char)}

theorem takes_single {cs : List Char} {event : Event} {reader' : Reader}
    (hscans : Scans names cs [event] names) (hstep : reader.step event = .ok reader') :
    Takes names reader cs names reader' := by
  refine ⟨_, hscans, ?_⟩
  rw [List.foldlM_cons, hstep]
  rfl

/-- Wherever the reader is inside of the root, a spelling does to it what the characters do that it
stands for. -/
theorem takes_of_standsFor {written characters : List Char} (h : StandsFor written characters)
    (hpath : reader.path = element :: outer) :
    Takes names reader written names (reader.addCharacters element characters) := by
  -- over all readers: after the first of two parts the reader has characters more
  induction h generalizing reader with
  | nothing =>
    rw [addCharacters_nil]
    exact ⟨[], .done names, rfl⟩
  | plain hopen hreference =>
    refine takes_single (Markup.scans_text (List.cons_ne_nil _ _) ?_ names) ?_
    · simpa using Ne.symm hopen
    · exact step_text_inside hpath (Markup.decodes_singleton hreference).unescape_eq
  | reference hresolve =>
    exact takes_single (scans_reference hresolve names)
      (step_text_inside hpath (Markup.decodes_reference _ hresolve).unescape_eq)
  | cdata hend => exact takes_single (Markup.scans_cdata hend names) (addText_inside hpath _)
  | byte hvalue => exact takes_single (scans_byte hvalue names) (step_byteTag hpath hvalue)
  | remark hscans =>
    rw [addCharacters_nil]
    exact takes_single (hscans.inside names) rfl
  | unknownTag hscans hunknown =>
    rw [addCharacters_nil]
    have hnothing : TextsDecode .done := trivial
    exact takes_single (hscans.inside names) (readChild_skipped_inside hpath hunknown hnothing)
  | unknownElement hscans hunknown htexts =>
    rw [addCharacters_nil]
    refine ⟨_, hscans.inside names, ?_⟩
    show reader.readContent (.element _ _ .done) = _
    rw [readContent_element, readChild_skipped_inside hpath hunknown htexts]
    rfl
  | append _ _ has hbs =>
    rw [← addCharacters_addCharacters]
    exact (takes_append_iff (has hpath)).2 (hbs (by rw [path_addCharacters, hpath]))

end Reader

/-! ## Respelling -/

/-- One text is the other with a part inside of the root element spelled in another way: it stands
for the same characters. In particular, where nothing was there may be remarks and unknown
elements. -/
inductive Respells : String → String → Prop where
  | part {before old new characters : List Char} {names : List (List Char)} (after : List Char)
      (hplace : Place before names) (hinside : names ≠ []) (hold : StandsFor old characters)
      (hnew : StandsFor new characters) :
      Respells (String.ofList (before ++ (old ++ after))) (String.ofList (before ++ (new ++ after)))

variable {text text' : String} {catalog : Catalog} {notices : List Notice}

theorem parse_of_respells (hrespells : Respells text text')
    (h : parse text = ⟨.ok catalog, notices⟩) :
    parse text' = ⟨.ok catalog, notices⟩ := by
  obtain ⟨after, hplace, hinside, hold, hnew⟩ := hrespells
  obtain ⟨reader, builder, htakes, hrest⟩ := parse_eq_takes_iff.1 h
  refine parse_eq_takes_iff.2 ⟨reader, builder, ?_, hrest⟩
  rw [String.toList_ofList, Markup.Document.dropMark_append (hplace.ne_nil hinside)] at htakes ⊢
  obtain ⟨events, hscans, hdecode⟩ := hplace
  -- before the part the reader is somewhere inside of the root; old and new spelling lead it on
  -- alike
  obtain ⟨mid, hmid⟩ := htakes.exists_mid hscans hdecode
  obtain ⟨element, outer, hpath⟩ := hmid.exists_path hinside
  rw [Reader.takes_append_iff hmid] at htakes ⊢
  rw [Reader.takes_append_iff (Reader.takes_of_standsFor hold hpath)] at htakes
  rwa [Reader.takes_append_iff (Reader.takes_of_standsFor hnew hpath)]

/-- The catalog depends on the characters of a resource and not on how they are spelled. Of a text
that is accepted, take any number of times a part inside of the root element and spell its
characters in another way: as they are, by references, in sections of character data or as byte
elements, with comments, processing instructions and unknown elements anywhere among them. The text
is still accepted, with the same catalog and the same notices. -/
theorem parse_respelled (hrespelled : Relation.ReflTransGen Respells text text')
    (h : parse text = ⟨.ok catalog, notices⟩) : parse text' = ⟨.ok catalog, notices⟩ := by
  induction hrespelled with
  | refl => exact h
  | tail _ hstep ih => exact parse_of_respells hstep ih

def named : Content :=
  .element "TS".toList
    (.element "context".toList (.element "name".toList (.text ['A'] .done) .done) .done) .done

theorem exists_parse_named :
    ∃ catalog notices, parse "<TS><context><name>A</name></context></TS>" =
      ⟨.ok catalog, notices⟩ := by
  have hscans : Scans [] "<TS><context><name>A</name></context></TS>".toList named.events [] :=
    .event rfl rfl (.event rfl rfl (.event rfl rfl (.event rfl rfl (.event rfl rfl (.event rfl rfl
      (.event rfl rfl (.done [])))))))
  obtain ⟨hevents, hending, -⟩ := (Markup.scans_iff 0).1 hscans
  have hletter : Markup.unescape ['A'] = .ok ['A'] :=
    (Markup.decodes_singleton (by decide)).unescape_eq
  have hname : Allowed .context "name".toList (.text ['A'] .done) := by
    refine ⟨by decide, fun expected h => ?_, fun h => ?_, fun h => ?_, fun h => ?_⟩
    · cases h; rfl
    all_goals exact absurd h (by decide)
  have hcontext :
      Allowed .root "context".toList (.element "name".toList (.text ['A'] .done) .done) := by
    refine ⟨by decide, fun expected h => ?_, fun h => ?_, fun _ => by decide, fun h => ?_⟩
    · cases h; rfl
    all_goals exact absurd h (by decide)
  have hblank : characters named = [] := by
    rw [named, characters, byteOf?, if_neg (by decide)]
    rfl
  refine ⟨_, _, parse_eq_iff.2 ⟨named, hevents.symm, hending, ⟨?_, ?_, ?_⟩, rfl, rfl⟩⟩
  · exact ⟨⟨⟨⟨⟨_, hletter⟩, trivial⟩, trivial⟩, trivial⟩, trivial⟩
  · have hdone : AttributesDecode .done := trivial
    have hinner : AttributesDecode (.element "name".toList (.text ['A'] .done) .done) :=
      ⟨tagDecodes_of_bare rfl, fun _ => hdone, hdone⟩
    exact ⟨tagDecodes_of_bare rfl, fun _ => ⟨tagDecodes_of_bare rfl, fun _ => hinner, hdone⟩, hdone⟩
  · refine ⟨_, _, rfl, by decide, fun c hc => ?_, hcontext, fun _ => ?_, trivial⟩
    · rw [hblank] at hc
      cases hc
    · exact ⟨hname, fun _ => trivial, trivial⟩

/-- An unknown element with a known one in it, a comment and a byte element, for a letter. -/
theorem parse_respelled_named :
    Relation.ReflTransGen Respells "<TS><context><name>A</name></context></TS>"
        "<TS><context><name><!--n--><x><name>B</name></x><byte value=\"x41\"/></name></context></TS>" ∧
      ∃ catalog notices,
        parse "<TS><context><name>A</name></context></TS>" = ⟨.ok catalog, notices⟩ ∧
          parse "<TS><context><name><!--n--><x><name>B</name></x><byte value=\"x41\"/></name></context></TS>" =
            ⟨.ok catalog, notices⟩ := by
  have hplace :
      Place "<TS><context><name>".toList ["name".toList, "context".toList, "TS".toList] := by
    refine ⟨[.opening "TS".toList, .opening "context".toList, .opening "name".toList],
      .event rfl rfl (.event rfl rfl (.event rfl rfl (.done _))), fun written hmem => ?_⟩
    simp only [List.mem_cons, reduceCtorEq, List.not_mem_nil, or_self] at hmem
  have hremark : StandsFor "<!--n-->".toList [] := .remark (.event rfl rfl (.done []))
  have helement : StandsFor "<x><name>B</name></x>".toList [] := by
    have hscans : Scans [] "<x><name>B</name></x>".toList
        (Content.element "x".toList
          (.element "name".toList (.text ['B'] .done) .done) .done).events [] :=
      .event rfl rfl (.event rfl rfl (.event rfl rfl (.event rfl rfl (.event rfl rfl (.done [])))))
    exact .unknownElement hscans (by decide)
      ⟨⟨⟨_, (Markup.decodes_singleton (by decide)).unescape_eq⟩, trivial⟩, trivial⟩
  have hbyte : StandsFor ("<byte value=\"".toList ++ "x41".toList ++ "\"/>".toList) ['A'] :=
    .byte rfl
  have hletter : StandsFor ['A'] ['A'] := .plain (by decide) (by decide)
  have hstep := Respells.part "</name></context></TS>".toList hplace (List.cons_ne_nil _ _) hletter
    (hremark.append (helement.append hbyte))
  have hrespelled := Relation.ReflTransGen.single hstep
  obtain ⟨catalog, notices, hparse⟩ := exists_parse_named
  exact ⟨hrespelled, catalog, notices, hparse, parse_respelled hrespelled hparse⟩

end Phrasebook.Resource
