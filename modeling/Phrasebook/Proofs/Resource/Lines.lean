import Phrasebook.Proofs.Resource.Structure
import Phrasebook.Proofs.Resource.WrittenTag
import Phrasebook.Proofs.Text.Numeral

/-!
# Written lines

What is written is a tree of lines: each element stands on its own line, its text or its lines
between its tags. Here is the content that such lines spell (`spells_lines`), which elements are in
it and when it can be read.
-/

namespace Phrasebook.Resource

open Markup (Content Decodes Spells IsTag tagName escapeChar)

/-! ## Character data in front of a content -/

section PrependText

variable {written text : List Char} {content : Content}

theorem elements_prependText (written : List Char) (content : Content) :
    elements (content.prependText written) = elements content := by
  rcases content.prependText_cases written with ⟨more, rest, rfl, h⟩ | ⟨-, h⟩ | h <;> rw [h] <;> rfl

theorem textsDecode_prependText (hdecodes : Decodes written text) (h : TextsDecode content) :
    TextsDecode (content.prependText written) := by
  rcases content.prependText_cases written with ⟨more, rest, rfl, heq⟩ | ⟨-, heq⟩ | heq
  · obtain ⟨⟨later, hlater⟩, hrest⟩ := h
    rw [heq]
    exact ⟨⟨text ++ later, hdecodes more later hlater⟩, hrest⟩
  · rwa [heq]
  · rw [heq]
    exact ⟨⟨text, hdecodes.unescape_eq⟩, h⟩

theorem attributesDecode_prependText (written : List Char) (content : Content) :
    AttributesDecode (content.prependText written) ↔ AttributesDecode content := by
  rcases content.prependText_cases written with ⟨more, rest, rfl, h⟩ | ⟨-, h⟩ | h <;> rw [h] <;> rfl

theorem wellPlaced_prependText (parent : Element) (written : List Char) (content : Content) :
    WellPlaced parent (content.prependText written) ↔ WellPlaced parent content := by
  rcases content.prependText_cases written with ⟨more, rest, rfl, h⟩ | ⟨-, h⟩ | h <;> rw [h] <;> rfl

/-- Character data that can be read in front of a content that can be read. -/
theorem reads_prependText {parent : Element} (hdecodes : Decodes written text)
    (h : Reads parent content) : Reads parent (content.prependText written) :=
  ⟨textsDecode_prependText hdecodes h.1, (attributesDecode_prependText written content).2 h.2.1,
    (wellPlaced_prependText parent written content).2 h.2.2⟩

theorem characters_prependText (hdecodes : Decodes written text) (h : TextsDecode content) :
    characters (content.prependText written) = text ++ characters content := by
  rcases content.prependText_cases written with ⟨more, rest, rfl, heq⟩ | ⟨rfl, heq⟩ | heq
  · obtain ⟨⟨later, hlater⟩, -⟩ := h
    rw [heq, characters, characters, decoded_of_eq_ok (hdecodes more later hlater),
      decoded_of_eq_ok hlater, List.append_assoc]
  · have hnil : text = [] := by
      have hempty := hdecodes.unescape_eq
      rw [Markup.decodes_nil.unescape_eq] at hempty
      exact (Except.ok.inj hempty).symm
    rw [heq, hnil, List.nil_append]
  · rw [heq, characters, decoded_of_eq_ok hdecodes.unescape_eq]

end PrependText

namespace Writer

/-! ## Texts -/

def byteTag (c : Char) : List Char :=
  tagOf .byte [("value", String.ofList ('x' :: Text.hexadecimal c.toNat))]

/-- The content that the characters of a text are written as. -/
def textContent : List Char → Content
  | [] => .done
  | c :: cs =>
    if needsByte c then .empty (byteTag c) (textContent cs)
    else (textContent cs).prependText (escapeChar c)

theorem escape_hexadecimal (n : Nat) :
    Markup.escape ('x' :: Text.hexadecimal n) = 'x' :: Text.hexadecimal n := by
  refine Markup.escape_of_plain fun c hc => ?_
  rcases List.mem_cons.1 hc with rfl | hdigit
  · decide
  · obtain ⟨d, hd, rfl⟩ := Text.mem_toDigits (by decide) hdigit
    interval_cases d <;> decide

theorem escapeTextChar_of_needsByte {c : Char} (h : needsByte c = true) :
    escapeTextChar c = '<' :: (byteTag c ++ ['/', '>']) := by
  have hvalue : Markup.escape (String.ofList ('x' :: Text.hexadecimal c.toNat)).toList =
      'x' :: Text.hexadecimal c.toNat := by
    rw [String.toList_ofList, escape_hexadecimal]
  rw [escapeTextChar, if_pos h, byteTag, tagOf, List.flatMap_singleton, tagAttribute_eq, hvalue]
  simp [Element.written]

theorem isName_value (value : String) :
    ∀ pair ∈ [("value", value)], Markup.IsName pair.1.toList :=
  List.forall_mem_singleton.2 (show Markup.IsName "value".toList by decide)

theorem isTag_byteTag (c : Char) : IsTag (byteTag c) := isTag_tagOf (isName_value _)

theorem kind_byteTag (c : Char) : kind (byteTag c) = .byte := kind_tagOf .byte _

theorem charOfCode?_toNat (c : Char) : Markup.charOfCode? c.toNat = some c := by
  have hvalid : c.toNat.isValidChar := c.valid
  have hchar := Char.ofNat_toNat c
  rw [Char.ofNat, dif_pos hvalid] at hchar
  rw [Markup.charOfCode?, dif_pos hvalid, hchar]

theorem byteOf?_byteTag (c : Char) : byteOf? (byteTag c) = some c := by
  have hcode : Text.unsigned? 16 Text.wordBound (Text.hexadecimal c.toNat) = some c.toNat :=
    Text.unsigned?_toDigits (by decide) (by decide) c.val.toNat_lt
  rw [byteOf?, if_pos (kind_byteTag c), byteTag, attribute?_tagOf (isName_value _)]
  show Reader.byteChar? _ = _
  unfold Reader.byteChar?
  rw [String.toList_ofList]
  show (Text.unsigned? 16 Text.wordBound (Text.hexadecimal c.toNat)).bind _ = _
  rw [hcode]
  exact charOfCode?_toNat c

theorem spells_textContent (cs : List Char) :
    Spells (cs.flatMap escapeTextChar) (textContent cs) := by
  induction cs with
  | nil => exact Markup.spells_nil
  | cons c cs ih =>
    rw [List.flatMap_cons, textContent]
    by_cases h : needsByte c = true
    · rw [if_pos h, escapeTextChar_of_needsByte h]
      have hempty := ih.empty (isTag_byteTag c)
      simpa using hempty
    · have hopen : '<' ∉ escapeChar c := fun hmem =>
        Markup.not_special_of_mem_escapeChar hmem (by decide)
      rw [if_neg h, escapeTextChar, if_neg h]
      exact ih.prependText hopen

/-- The content of a text can be read wherever it stands. -/
theorem reads_textContent (parent : Element) (cs : List Char) : Reads parent (textContent cs) := by
  induction cs with
  | nil => exact reads_done parent
  | cons c cs ih =>
    rw [textContent]
    split
    · have hallowed : Allowed parent (byteTag c) .done := by
        rw [Reader.allowed_byte_iff (kind_byteTag c), byteOf?_byteTag]
        rfl
      refine reads_empty.2 ⟨?_, ih⟩
      rw [readsChild_iff (kind_byteTag c) (by decide)]
      exact ⟨tagDecodes_tagOf (isName_value _), hallowed, reads_done _⟩
    · exact reads_prependText (Markup.decodes_escapeChar c) ih

theorem characters_textContent (cs : List Char) : characters (textContent cs) = cs := by
  induction cs with
  | nil => rfl
  | cons c cs ih =>
    rw [textContent]
    split
    · rw [characters, byteOf?_byteTag, ih]
      rfl
    · rw [characters_prependText (Markup.decodes_escapeChar c) (reads_textContent .root cs).1, ih]
      rfl

theorem textOf_textContent (text : String) : textOf (textContent text.toList) = text := by
  rw [textOf, characters_textContent, String.ofList_toList]

/-! ## Lines -/

/-- An element on a line of its own. -/
structure Line where
  tag : List Char
  /-- What is between its tags, as it is written and as a content; a single tag has nothing. -/
  within : Option (List Char × Content)

namespace Line

def content (line : Line) : Content := line.within.elim .done Prod.snd

def item (line : Line) (rest : Content) : Content :=
  match line.within with
  | none => .empty line.tag rest
  | some (_, inner) => .element line.tag inner rest

def write (indent : Nat) (line : Line) : List Char :=
  List.replicate indent ' ' ++ '<' :: (line.tag ++
    match line.within with
    | none => ['/', '>', '\n']
    | some (written, _) => '>' :: (written ++ '<' :: '/' :: (tagName line.tag ++ ['>', '\n'])))

structure Spelled (line : Line) : Prop where
  tag : IsTag line.tag
  within : ∀ written inner, line.within = some (written, inner) → Spells written inner

end Line

def linesContent (indent : Nat) (lines : List Line) (last : Content) : Content :=
  lines.foldr (fun line rest =>
    (line.item (rest.prependText ['\n'])).prependText (List.replicate indent ' ')) last

theorem spells_line {indent : Nat} {line : Line} {cs : List Char} {rest : Content}
    (hline : line.Spelled) (h : Spells cs rest) :
    Spells (line.write indent ++ cs)
      ((line.item (rest.prependText ['\n'])).prependText (List.replicate indent ' ')) := by
  obtain ⟨tag, within⟩ := line
  have hindent : '<' ∉ List.replicate indent ' ' := by simp
  have hopen : '<' ∉ ['\n'] := by decide
  have hbreak : Spells ('\n' :: cs) (rest.prependText ['\n']) := h.prependText hopen
  match within with
  | none =>
    have hspelled := (hbreak.empty hline.tag).prependText hindent
    simpa [Line.write, Line.item] using hspelled
  | some (written, inner) =>
    have hinner := hline.within _ _ rfl
    have hspelled := (hinner.element hline.tag hbreak).prependText hindent
    simpa [Line.write, Line.item] using hspelled

theorem spells_lines {indent : Nat} {lines : List Line} {cs : List Char} {last : Content}
    (hlines : ∀ line ∈ lines, line.Spelled) (h : Spells cs last) :
    Spells (lines.flatMap (Line.write indent) ++ cs) (linesContent indent lines last) := by
  induction lines with
  | nil => exact h
  | cons line rest ih =>
    rw [List.flatMap_cons, List.append_assoc]
    exact spells_line (hlines line List.mem_cons_self)
      (ih fun later hlater => hlines later (List.mem_cons_of_mem _ hlater))

theorem elements_linesContent (indent : Nat) (lines : List Line) (last : Content) :
    elements (linesContent indent lines last) =
      lines.map (fun line => (line.tag, line.content)) ++ elements last := by
  induction lines with
  | nil => rfl
  | cons line rest ih =>
    obtain ⟨tag, within⟩ := line
    show elements (Content.prependText _ _) = _
    rw [elements_prependText, List.map_cons, List.cons_append, ← ih]
    cases within with
    | none => exact congrArg _ (elements_prependText _ _)
    | some pair => exact congrArg _ (elements_prependText _ _)

theorem decodes_spaces (indent : Nat) :
    Decodes (List.replicate indent ' ') (List.replicate indent ' ') :=
  Markup.decodes_plain fun c hc => by rw [List.eq_of_mem_replicate hc]; decide

theorem decodes_break : Decodes ['\n'] ['\n'] := Markup.decodes_singleton (by decide)

theorem reads_linesContent {parent : Element} {indent : Nat} {lines : List Line} {last : Content}
    (hlines : ∀ line ∈ lines, ReadsChild parent line.tag line.content) (h : Reads parent last) :
    Reads parent (linesContent indent lines last) := by
  induction lines with
  | nil => exact h
  | cons line rest ih =>
    have hrest := reads_prependText decodes_break
      (ih fun later hlater => hlines later (List.mem_cons_of_mem _ hlater))
    have hline := hlines line List.mem_cons_self
    obtain ⟨tag, within⟩ := line
    refine reads_prependText (decodes_spaces indent) ?_
    cases within with
    | none => exact reads_empty.2 ⟨hline, hrest⟩
    | some pair => exact reads_element.2 ⟨hline, hrest⟩

/-- Lines between the tags of an element, two spaces further in than the element. -/
def block (indent : Nat) (lines : List Line) : List Char × Content :=
  ('\n' :: (lines.flatMap (Line.write (indent + 2)) ++ List.replicate indent ' '),
    (linesContent (indent + 2) lines
      (Content.done.prependText (List.replicate indent ' '))).prependText ['\n'])

theorem spells_block {indent : Nat} {lines : List Line} (hlines : ∀ line ∈ lines, line.Spelled) :
    Spells (block indent lines).1 (block indent lines).2 := by
  have hindent : '<' ∉ List.replicate indent ' ' := by simp
  have hbreak : '<' ∉ ['\n'] := by decide
  have hlast := Markup.spells_nil.prependText hindent
  rw [List.append_nil] at hlast
  exact (spells_lines hlines hlast).prependText hbreak

theorem elements_block (indent : Nat) (lines : List Line) :
    elements (block indent lines).2 = lines.map fun line => (line.tag, line.content) := by
  unfold block
  rw [elements_prependText, elements_linesContent, elements_prependText]
  exact List.append_nil _

theorem reads_block {parent : Element} {indent : Nat} {lines : List Line}
    (hlines : ∀ line ∈ lines, ReadsChild parent line.tag line.content) :
    Reads parent (block indent lines).2 :=
  reads_prependText decodes_break
    (reads_linesContent hlines (reads_prependText (decodes_spaces indent) (reads_done parent)))

end Writer

end Phrasebook.Resource
