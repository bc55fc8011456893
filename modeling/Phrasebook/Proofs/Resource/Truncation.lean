import Phrasebook.Proofs.Loader.Listing
import Phrasebook.Proofs.Markup.Truncation
import Phrasebook.Proofs.Resource.RoundTrip

/-!
# Truncated resources

A text that is accepted has exactly one root element. A beginning of it that is accepted too has its
root element, which ends at the same place. So what is cut off before the end of the root element is
refused.
-/

namespace Phrasebook.Resource

open Markup (Content Document Located)

open Markup.Document (dropMark pastElement)

variable {text : String} {catalog : Catalog}

/-! ## The end of the root element -/

theorem exists_afterFirst {content : Content} (h : elements content ≠ []) :
    ∃ after, content.afterFirst? = some after := by
  induction content with
  | done => exact absurd rfl h
  | text written rest ih => exact ih h
  | cdata data rest ih => exact ih h
  | remark rest ih => exact ih h
  | empty tag rest => exact ⟨rest, rfl⟩
  | element tag inner rest => exact ⟨rest, rfl⟩

theorem exists_pastElement (h : (parse text).value = .ok catalog) :
    ∃ found later, pastElement 0 (Document.ofString text).events = some (found, later) := by
  have hparse : parse text = ⟨.ok catalog, (parse text).notices⟩ := by rw [← h]
  obtain ⟨content, hevents, -, ⟨-, -, tag, inner, helements, -⟩, -⟩ := parse_eq_iff.1 hparse
  obtain ⟨after, hafter⟩ := exists_afterFirst (by rw [helements]; exact List.cons_ne_nil _ _)
  obtain ⟨found, later, hfound, -⟩ := Document.pastElement_content hafter hevents.symm
  exact ⟨found, later, hfound⟩

/-- The root element of a text ends with a bracket, which is counted in bytes from the start. -/
theorem exists_rootEnd {found : Located} {later : List Located}
    (h : pastElement 0 (Document.ofString text).events = some (found, later)) :
    ∃ before after names, text.toList = before ++ '>' :: after ∧
      found.stop = Text.byteLength (dropMark (before ++ ['>'])) ∧
        Document.scanFrom names found.stop after = ⟨later, (Document.ofString text).ending⟩ := by
  obtain ⟨inside, after, names, hcs, hstop, hafter⟩ := Document.pastElement_scanFrom h
  obtain ⟨mark, hmark⟩ := Document.dropMark_suffix text.toList
  refine ⟨mark ++ inside, after, names, by rw [← hmark, hcs, List.append_assoc], ?_, hafter⟩
  have hdrop : dropMark (mark ++ inside ++ ['>']) = inside ++ ['>'] := by
    have hwhole := Document.dropMark_append (List.append_ne_nil_of_right_ne_nil (mark ++ inside)
      (List.cons_ne_nil '>' [])) after
    have htext : mark ++ inside ++ ['>'] ++ after = text.toList := by
      rw [← hmark, hcs]
      simp
    rw [htext, hcs, ← List.singleton_append, ← List.append_assoc] at hwhole
    exact (List.append_cancel_right hwhole).symm
  rw [hstop, hdrop, Text.byteLength_append, Nat.zero_add]
  rfl

/-- If a beginning of a text has a root element, the text has the same root element. -/
theorem pastElement_of_append {kept cut : List Char} {found : Located} {later : List Located}
    (htext : text.toList = kept ++ cut)
    (h : pastElement 0 (Document.ofString (String.ofList kept)).events = some (found, later)) :
    ∃ later', pastElement 0 (Document.ofString text).events = some (found, later') := by
  rw [Document.ofString, String.toList_ofList] at h
  have hne : kept ≠ [] := by
    rintro rfl
    have hnil : dropMark [] = [] := rfl
    rw [hnil, Markup.scanFrom_nil] at h
    cases h
  rw [Document.ofString, htext, Document.dropMark_append hne]
  exact Document.pastElement_scanFrom_append h cut

/-! ## Cutting off -/

/-- The root element of a text starts what is kept of the text if that is accepted, so it is kept in
full. -/
theorem exists_rootEnd_of_kept {kept cut : List Char} (htext : text.toList = kept ++ cut)
    (h : (parse (String.ofList kept)).value = .ok catalog) :
    ∃ before after, kept = before ++ '>' :: after ∧
      (Document.ofString text).rootStop? = some (Text.byteLength (dropMark (before ++ ['>']))) := by
  obtain ⟨found, later, hfound⟩ := exists_pastElement h
  obtain ⟨before, after, -, hkept, hstop, -⟩ := exists_rootEnd hfound
  obtain ⟨later', hfound'⟩ := pastElement_of_append htext hfound
  rw [String.toList_ofList] at hkept
  exact ⟨before, after, hkept, by rw [Document.rootStop?, hfound', Option.map_some, hstop]⟩

/-- More text up to a bracket is more bytes up to a bracket. -/
theorem byteLength_dropMark_lt (before more : List Char) :
    Text.byteLength (dropMark (before ++ ['>'])) <
      Text.byteLength (dropMark (before ++ '>' :: more ++ ['>'])) := by
  have hsplit : before ++ '>' :: more ++ ['>'] = before ++ ['>'] ++ (more ++ ['>']) := by simp
  have hne : before ++ ['>'] ≠ [] :=
    List.append_ne_nil_of_right_ne_nil before (List.cons_ne_nil _ _)
  rw [hsplit, Document.dropMark_append hne, Text.byteLength_append, Text.byteLength_append]
  have hbracket : Text.byteLength ['>'] = 1 := rfl
  omega

theorem eq_nil_of_byteLength_eq {before extra after after' : List Char}
    (hextra : '>' :: after = extra ++ '>' :: after')
    (hstop : Text.byteLength (dropMark (before ++ ['>'])) =
      Text.byteLength (dropMark (before ++ extra ++ ['>']))) : extra = [] := by
  cases extra with
  | nil => rfl
  | cons c more =>
    obtain ⟨rfl, -⟩ := List.cons.inj hextra
    exact absurd hstop (Nat.ne_of_lt (byteLength_dropMark_lt before more))

/-- Brackets after which as many bytes are past are the same one. -/
theorem eq_of_byteLength_eq {before before' after after' : List Char}
    (htext : before ++ '>' :: after = before' ++ '>' :: after')
    (hstop : Text.byteLength (dropMark (before ++ ['>'])) =
      Text.byteLength (dropMark (before' ++ ['>']))) : before = before' := by
  obtain ⟨extra, rfl, hextra⟩ | ⟨extra, rfl, hextra⟩ := List.append_eq_append_iff.1 htext
  · rw [eq_nil_of_byteLength_eq hextra hstop, List.append_nil]
  · rw [eq_nil_of_byteLength_eq hextra hstop.symm, List.append_nil]

/-- What is kept of a text when it is cut off before the last bracket of its root element is
malformed. -/
theorem parse_kept {before after kept cut : List Char}
    (htext : text.toList = before ++ '>' :: after)
    (hstop : (Document.ofString text).rootStop? =
      some (Text.byteLength (dropMark (before ++ ['>']))))
    (hbefore : before = kept ++ cut) :
    ∃ fault position, (parse (String.ofList kept)).value = .error (.malformed fault position) := by
  cases hparse : (parse (String.ofList kept)).value with
  | error error =>
    obtain ⟨fault, position, rfl⟩ := exists_malformed_of_parse hparse
    exact ⟨fault, position, rfl⟩
  | ok catalog =>
    have hcut : text.toList = kept ++ (cut ++ '>' :: after) := by
      rw [htext, hbefore, List.append_assoc]
    obtain ⟨before', after', hkept, hstop'⟩ := exists_rootEnd_of_kept hcut hparse
    -- the root element of what is kept is that of the text, so it would have to end in two places
    have hlonger := byteLength_dropMark_lt before' (after' ++ cut)
    have hsame : before' ++ '>' :: (after' ++ cut) = before := by
      rw [hbefore, hkept, List.append_assoc, List.cons_append]
    rw [hsame] at hlonger
    rw [hstop] at hstop'
    have heq := Option.some.inj hstop'
    omega

/-! ## Written texts -/

theorem afterFirst_writtenDocument (catalog : Catalog) :
    (writtenDocument catalog).afterFirst? = some (.text ['\n'] .done) := rfl

theorem exists_rootEnd_render (catalog : Catalog) :
    ∃ before, (render catalog).toList = before ++ '>' :: ['\n'] ∧
      (Document.ofString (render catalog)).rootStop? =
        some (Text.byteLength (dropMark (before ++ ['>']))) := by
  obtain ⟨hevents, length, hending⟩ := scan_render catalog
  obtain ⟨found, later, hfound, hlater⟩ :=
    Document.pastElement_content (afterFirst_writtenDocument catalog) hevents.symm
  obtain ⟨before, after, names, htext, hstop, hafter⟩ := exists_rootEnd hfound
  rw [hending] at hafter
  rw [Markup.eq_of_scanFrom hlater hafter] at htext
  exact ⟨before, htext, by rw [Document.rootStop?, hfound, Option.map_some, hstop]⟩

/-- Without more than its final line end, a text that ends with a bracket and a line end is cut off
before the bracket. -/
theorem exists_cut_before {before kept cut : List Char} (h : before ++ '>' :: ['\n'] = kept ++ cut)
    (hempty : cut ≠ []) (hbreak : cut ≠ ['\n']) : ∃ cut', before = kept ++ cut' := by
  obtain ⟨extra, hkept, hcut⟩ | ⟨cut', hbefore, -⟩ := List.append_eq_append_iff.1 h
  · match extra with
    | [] => exact ⟨[], by rw [hkept, List.append_nil, List.append_nil]⟩
    | [_] => exact absurd (List.cons.inj hcut).2.symm hbreak
    | _ :: _ :: more =>
      have hnil := (List.cons.inj (List.cons.inj hcut).2).2
      exact absurd (List.append_eq_nil_iff.1 hnil.symm).2 hempty
  · exact ⟨cut', hbefore⟩

/-- A truncated resource never loads. Of a text that is accepted, whatever is kept when it is cut
off before the last bracket of its root element is malformed; of a written text, whatever is kept
when more than its final line end is cut off. -/
theorem parse_truncated :
    (∀ (text : String) (catalog : Catalog), (parse text).value = .ok catalog →
      ∃ before after : String, text = before ++ ">" ++ after ∧
        (Document.ofString text).rootStop? =
          some (Text.byteLength (dropMark (before ++ ">").toList)) ∧
        ∀ kept cut : String, before = kept ++ cut →
          ∃ fault position, (parse kept).value = .error (.malformed fault position)) ∧
      ∀ (catalog : Catalog) (kept cut : String), render catalog = kept ++ cut →
        cut ≠ "" → cut ≠ "\n" →
        ∃ fault position, (parse kept).value = .error (.malformed fault position) := by
  refine ⟨fun text catalog hparse => ?_, fun catalog kept cut hrender hempty hbreak => ?_⟩
  · obtain ⟨found, later, hfound⟩ := exists_pastElement hparse
    obtain ⟨before, after, -, htext, hstop, -⟩ := exists_rootEnd hfound
    have hroot : (Document.ofString text).rootStop? =
        some (Text.byteLength (dropMark (before ++ ['>']))) := by
      rw [Document.rootStop?, hfound, Option.map_some, hstop]
    refine ⟨String.ofList before, String.ofList after, ?_, ?_, fun kept cut hbefore => ?_⟩
    · rw [← String.toList_inj, htext]
      simp
    · rw [hroot, String.toList_append, String.toList_ofList]
      rfl
    · have hkept : before = kept.toList ++ cut.toList := by
        rw [← String.toList_append, ← hbefore, String.toList_ofList]
      have hmalformed := parse_kept htext hroot hkept
      rwa [String.ofList_toList] at hmalformed
  · obtain ⟨before, htext, hroot⟩ := exists_rootEnd_render catalog
    have hlists : before ++ '>' :: ['\n'] = kept.toList ++ cut.toList := by
      rw [← htext, hrender, String.toList_append]
    have hempty' : cut.toList ≠ [] := fun h => hempty (String.toList_inj.1 h)
    have hbreak' : cut.toList ≠ ['\n'] := fun h => hbreak (String.toList_inj.1 h)
    obtain ⟨cut', hbefore⟩ := exists_cut_before hlists hempty' hbreak'
    have hmalformed := parse_kept htext hroot hbefore
    rwa [String.ofList_toList] at hmalformed

/-- A resource with a reference, a comment, a section of character data and a byte in a message. -/
def nested : String :=
  "<TS><context><name>A</name><message><source>&lt;<!--c--><![CDATA[>]]><byte value='x41'/>" ++
    "</source></message></context></TS>\n"

/-- A catalog with an escaped and an encoded character and with two forms. -/
def nestedCatalog : Catalog where
  contexts :=
    #[{ name := "A", messages := #[{ source := "a<\x01b", translation := .forms ["x", "y"] }] }]

/-- The root element ends at its own bracket, whatever brackets come before: cut off anywhere before
it, the resource is malformed. So is what is written for the catalog when it is cut off inside of a
form. -/
theorem parse_truncated_nested :
    (∃ catalog, (parse nested).value = .ok catalog) ∧
      (∀ kept cut : String,
        "<TS><context><name>A</name><message><source>&lt;<!--c--><![CDATA[>]]><byte value='x41'/>" ++
          "</source></message></context></TS" = kept ++ cut →
        ∃ fault position, (parse kept).value = .error (.malformed fault position)) ∧
      ∃ fault position,
        (parse ("<?xml version=\"1.0\" encoding=\"utf-8\"?>\n<!DOCTYPE TS>\n<TS version=\"2.1\">\n" ++
          "  <context>\n    <name>A</name>\n    <message numerus=\"yes\">\n" ++
          "      <source>a&lt;<byte value=\"x1\"/>b</source>\n      <translation>\n" ++
          "        <numerusform>x")).value = .error (.malformed fault position) := by
  obtain ⟨catalog, hparse⟩ :=
    exists_of_isOk (show (parse nested).value.isOk = true by decide +kernel)
  have hstop : (Document.ofString nested).rootStop? = some 122 := by decide +kernel
  obtain ⟨before, after, htext, hroot, hkept⟩ := parse_truncated.1 nested catalog hparse
  refine ⟨⟨catalog, hparse⟩, fun kept cut hcut => ?_, ?_⟩
  · have hsplit : before.toList ++ '>' :: after.toList = (kept ++ cut).toList ++ '>' :: ['\n'] := by
      have hlists := congrArg String.toList htext
      rw [String.toList_append, String.toList_append, List.append_assoc] at hlists
      rw [← hcut]
      exact hlists.symm.trans (by decide +kernel)
    have hbytes : Text.byteLength (dropMark (before.toList ++ ['>'])) =
        Text.byteLength (dropMark ((kept ++ cut).toList ++ ['>'])) := by
      rw [hstop, String.toList_append] at hroot
      rw [← hcut]
      exact (Option.some.inj hroot).symm.trans (by decide +kernel)
    exact hkept kept cut (String.toList_inj.1 (eq_of_byteLength_eq hsplit hbytes))
  · exact parse_truncated.2 nestedCatalog _
      ("</numerusform>\n        <numerusform>y</numerusform>\n      </translation>\n" ++
        "    </message>\n  </context>\n</TS>\n") (by decide +kernel) (by decide) (by decide)

end Phrasebook.Resource
