import Phrasebook.Proofs.Catalog.Reachable
import Phrasebook.Proofs.Text.Numeral
import Phrasebook.Resource.Writer

/-!
# Control characters in written resources

In element text a control character becomes a byte element, line ends and tabs apart. An attribute
has no place for an element, so there the character is written as it is. A written resource holds
each control character exactly as often as the texts of its attributes do (`count_write`): it is
free of them when these texts are, and not otherwise.
-/

namespace Phrasebook.Resource

/-- The texts that a catalog has written as attribute values: its header and the file names of its
locations. -/
def attributeTexts (catalog : Catalog) : List String :=
  catalog.version.getD Writer.defaultVersion :: catalog.language.toList ++
    catalog.sourceLanguage.toList ++ catalog.contexts.toList.flatMap fun context =>
      context.messages.toList.flatMap fun message => message.locations.map Location.filename

namespace Writer

open Markup (escape escapeChar)

/-- No character of a text would have to be a byte element. -/
def IsClean (cs : List Char) : Prop := ∀ x ∈ cs, needsByte x = false

instance (cs : List Char) : Decidable (IsClean cs) :=
  decidable_of_iff (cs.any needsByte = false) (by simp [IsClean])

theorem isClean_toDigits {base : Nat} (hbase : 1 < base) (hsmall : base ≤ 16) (n : Nat) :
    IsClean (Nat.toDigits base n) := by
  have hdigit : ∀ d < 16, needsByte (Nat.digitChar d) = false := by decide
  intro x hx
  obtain ⟨d, hd, rfl⟩ := Text.mem_toDigits hbase hx
  exact hdigit d (Nat.lt_of_lt_of_le hd hsmall)

variable {c : Char}

theorem count_flatMap_eq_zero {α : Type} {as : List α} {f : α → List Char}
    (hf : ∀ a ∈ as, (f a).count c = 0) : (as.flatMap f).count c = 0 := by
  refine List.count_eq_zero_of_not_mem fun hmem => ?_
  obtain ⟨a, ha, hin⟩ := List.mem_flatMap.1 hmem
  exact List.count_eq_zero.1 (hf a ha) hin

/-- Where two ways to write an element count alike, so do the lists. -/
theorem count_flatMap_congr {α : Type} {as : List α} {f g : α → List Char}
    (hfg : ∀ a ∈ as, (f a).count c = (g a).count c) :
    (as.flatMap f).count c = (as.flatMap g).count c := by
  rw [List.count_flatMap, List.count_flatMap]
  exact congrArg List.sum (List.map_congr_left hfg)

section Count

variable (hc : needsByte c = true)

include hc

theorem count_of_isClean {cs : List Char} (hcs : IsClean cs) : cs.count c = 0 := by
  refine List.count_eq_zero_of_not_mem fun hmem => ?_
  rw [hcs c hmem] at hc
  cases hc

/-- The form for the fixed parts of a line: as a rewrite rule it leaves the rest of the line
alone. -/
theorem count_toList_of_isClean {text : String} (htext : IsClean text.toList) :
    text.toList.count c = 0 :=
  count_of_isClean hc htext

/-! ### Attributes -/

theorem count_escapeChar (x : Char) : (escapeChar x).count c = [x].count c := by
  have hnamed {name : List Char} (hx : needsByte x = false) (hname : IsClean name) :
      name.count c = [x].count c := by
    have hsingle : IsClean [x] := List.forall_mem_singleton.2 hx
    rw [count_of_isClean hc hname, count_of_isClean hc hsingle]
  unfold escapeChar
  split
  · subst x; exact hnamed (by decide) (by decide)
  split
  · subst x; exact hnamed (by decide) (by decide)
  split
  · subst x; exact hnamed (by decide) (by decide)
  split
  · subst x; exact hnamed (by decide) (by decide)
  split
  · subst x; exact hnamed (by decide) (by decide)
  · rfl

theorem count_escape (cs : List Char) : (escape cs).count c = cs.count c := by
  induction cs with
  | nil => rfl
  | cons x cs ih =>
    rw [escape, List.flatMap_cons, List.count_append, ← escape, ih, count_escapeChar hc,
      ← List.count_append, List.singleton_append]

theorem count_tagAttribute {name : String} (hname : IsClean name.toList) (value : String) :
    (tagAttribute name value).count c = value.toList.count c := by
  simp (disch := decide) only [tagAttribute, List.count_append, count_of_isClean hc hname,
    count_escape hc, count_toList_of_isClean hc, Nat.zero_add, Nat.add_zero]

theorem count_tagAttribute? {name : String} (hname : IsClean name.toList) (value : Option String) :
    (tagAttribute? name value).count c = (value.toList.flatMap String.toList).count c := by
  cases value with
  | none => rfl
  | some value =>
    rw [tagAttribute?, count_tagAttribute hc hname, Option.toList_some, List.flatMap_singleton]

/-! ### Element text -/

theorem count_escapeTextChar (x : Char) : (escapeTextChar x).count c = 0 := by
  unfold escapeTextChar
  split
  · have hdigits : IsClean (Text.hexadecimal x.toNat) := isClean_toDigits (by decide) (by decide) _
    simp (disch := decide) only [List.count_append, count_of_isClean hc hdigits,
      count_toList_of_isClean hc]
  · rename_i hkept
    rw [count_escapeChar hc]
    exact count_of_isClean hc (List.forall_mem_singleton.2 (Bool.eq_false_iff.2 hkept))

theorem count_escapeText (text : String) : (escapeText text).count c = 0 :=
  count_flatMap_eq_zero fun x _ => count_escapeTextChar hc x

theorem count_elementLine (indent : Nat) {name : String} (hname : IsClean name.toList)
    (text : String) :
    (elementLine indent name text).count c = 0 := by
  have hindent : IsClean (List.replicate indent ' ') := by
    intro x hx
    rw [List.eq_of_mem_replicate hx]
    decide
  simp (disch := decide) only [elementLine, List.count_append, count_of_isClean hc hindent,
    count_of_isClean hc hname, count_escapeText hc, count_toList_of_isClean hc]

theorem count_elementLine? (indent : Nat) {name : String} (hname : IsClean name.toList)
    (text : Option String) : (elementLine? indent name text).count c = 0 := by
  cases text with
  | none => rfl
  | some text => exact count_elementLine hc indent hname text

/-! ### Lines -/

theorem count_locationLine (location : Location) :
    (locationLine location).count c = location.filename.toList.count c := by
  have hline : (tagAttribute? "line" (location.line.map fun line =>
      String.ofList (Text.decimal line.toNat))).count c = 0 := by
    rw [count_tagAttribute? hc (by decide)]
    cases location.line with
    | none => rfl
    | some line =>
      rw [Option.map_some, Option.toList_some, List.flatMap_singleton, String.toList_ofList]
      exact count_of_isClean hc (isClean_toDigits (by decide) (by decide) _)
  unfold locationLine
  simp (disch := decide) only [List.count_append, hline, count_tagAttribute hc,
    count_toList_of_isClean hc, Nat.zero_add, Nat.add_zero]

theorem count_translationLines (message : Message) : (translationLines message).count c = 0 := by
  have hstate : (tagAttribute? "type" message.status.name?).count c = 0 := by
    rw [count_tagAttribute? hc (by decide)]
    cases message.status <;> exact count_of_isClean hc (by decide)
  have hbody : (translationBody message.translation).count c = 0 := by
    cases message.translation with
    | single text => exact count_escapeText hc text
    | forms texts =>
      have hforms : (texts.flatMap (elementLine 8 "numerusform")).count c = 0 :=
        count_flatMap_eq_zero fun text _ => count_elementLine hc 8 (by decide) text
      simp (disch := decide) only [translationBody, List.count_append, hforms,
        count_toList_of_isClean hc]
  unfold translationLines
  simp (disch := decide) only [List.count_append, hstate, hbody, count_toList_of_isClean hc]

theorem count_messageLines (message : Message) : (messageLines message).count c =
    ((message.locations.map Location.filename).flatMap String.toList).count c := by
  have hlocations : (message.locations.flatMap locationLine).count c =
      ((message.locations.map Location.filename).flatMap String.toList).count c := by
    rw [List.flatMap_map]
    exact count_flatMap_congr fun location _ => count_locationLine hc location
  have hplural : (if message.hasForms then tagAttribute "numerus" "yes" else []).count c = 0 := by
    split
    · exact (count_tagAttribute hc (by decide) "yes").trans (count_of_isClean hc (by decide))
    · rfl
  unfold messageLines
  simp (disch := decide) only [List.count_append, hlocations, hplural,
    count_translationLines hc, count_elementLine hc, count_elementLine? hc,
    count_toList_of_isClean hc, Nat.zero_add, Nat.add_zero]

theorem count_contextLines (context : Context) : (contextLines context).count c =
    ((context.messages.toList.flatMap fun message =>
      message.locations.map Location.filename).flatMap String.toList).count c := by
  have hmessages : (context.messages.toList.flatMap messageLines).count c = _ :=
    count_flatMap_congr fun message _ => count_messageLines hc message
  unfold contextLines
  simp (disch := decide) only [List.count_append, hmessages, List.flatMap_assoc,
    count_elementLine hc, count_toList_of_isClean hc, Nat.zero_add, Nat.add_zero]

theorem count_write (catalog : Catalog) :
    (write catalog).count c = ((attributeTexts catalog).flatMap String.toList).count c := by
  have hcontexts : (catalog.contexts.toList.flatMap contextLines).count c = _ :=
    count_flatMap_congr fun context _ => count_contextLines hc context
  unfold write rootLine prolog attributeTexts
  simp (disch := decide) only [List.count_append, List.flatMap_append,
    List.flatMap_cons, hcontexts, List.flatMap_assoc, count_tagAttribute hc, count_tagAttribute? hc,
    count_toList_of_isClean hc, Nat.zero_add, Nat.add_zero]

end Count

end Writer

theorem needsByte_of_isControl {c : Char} (hcontrol : Text.isControl c = true)
    (hother : c ∉ ['\n', '\t', '\r']) : Writer.needsByte c = true := by
  simp only [List.mem_cons, List.not_mem_nil, or_false, not_or] at hother
  obtain ⟨hline, htab, hreturn⟩ := hother
  simp [Writer.needsByte, hcontrol, hline, htab, hreturn]

theorem mem_render_iff {c : Char} (hcontrol : Text.isControl c = true)
    (hother : c ∉ ['\n', '\t', '\r']) (catalog : Catalog) :
    c ∈ (render catalog).toList ↔ ∃ text ∈ attributeTexts catalog, c ∈ text.toList := by
  rw [render, String.toList_ofList, ← List.count_pos_iff,
    Writer.count_write (needsByte_of_isControl hcontrol hother), List.count_pos_iff,
    List.mem_flatMap]

/-- A control character other than a line end or a tab is written raw in attributes and nowhere
else: a written resource holds it as often as the texts of the attributes do, so not at all when
none of them does. -/
theorem count_render_of_isControl (catalog : Catalog) {c : Char}
    (hcontrol : Text.isControl c = true) (hother : c ∉ ['\n', '\t', '\r']) :
    (render catalog).toList.count c = ((attributeTexts catalog).flatMap String.toList).count c ∧
      (c ∈ (render catalog).toList ↔ ∃ text ∈ attributeTexts catalog, c ∈ text.toList) := by
  refine ⟨?_, mem_render_iff hcontrol hother catalog⟩
  rw [render, String.toList_ofList]
  exact Writer.count_write (needsByte_of_isControl hcontrol hother) catalog

def controlled : Catalog where
  contexts := #[{
    name := "X"
    messages := #[{ source := "A\x01", locations := [⟨"f\x01.cpp", none⟩] }] }]

theorem count_render_of_isControl_controlled :
    Text.isControl '\x01' = true ∧ '\x01' ∉ ['\n', '\t', '\r'] ∧
      (render controlled).toList.count '\x01' = 1 := by
  have hcontrol : Text.isControl '\x01' = true := by decide
  have hother : '\x01' ∉ ['\n', '\t', '\r'] := by decide
  exact ⟨hcontrol, hother,
    (count_render_of_isControl controlled hcontrol hother).1.trans (by decide)⟩

/-- A control character in the language of a catalog is written raw. -/
theorem not_forall_render_free :
    ¬ ∀ catalog : Catalog, catalog.Reachable → ∀ c ∈ (render catalog).toList,
      Text.isControl c = true → c ∈ ['\n', '\t', '\r'] := by
  intro hfree
  have hreachable := Catalog.Reachable.built [.language "\x01"]
  have hmem : '\x01' ∈ (render (Catalog.Run.ofSteps [.language "\x01"]).builder.build).toList := by
    rw [mem_render_iff (by decide) (by decide)]
    exact ⟨"\x01", by decide, by decide⟩
  exact absurd (hfree _ hreachable _ hmem (by decide)) (by decide)

end Phrasebook.Resource
