import Phrasebook.Proofs.Markup.Spelling

/-!
# Truncated documents

Scanning looks no further than the event that it reads: what it reads from a text it also reads from
every longer text (`scan_extend`). Only character data can grow when the text goes on. So the events
of a document that was cut off are events of the whole document, apart from character data at the
cut (`events_truncated`).
-/

namespace Phrasebook.Markup

variable {cs rest later : List Char} {event : Event} {size : Nat}

/-! ## Cuts -/

theorem cutAt_eq {mark before after : List Char} (h : cutAt mark cs = some (before, after)) :
    cs = before ++ (mark ++ after) := by
  induction cs generalizing before after with
  | nil => cases h
  | cons c cs ih =>
    rw [cutAt] at h
    split at h
    · rename_i hmark
      obtain ⟨suffix, hsuffix⟩ := List.isPrefixOf_iff_prefix.1 hmark
      obtain ⟨rfl, rfl⟩ := by simpa using h
      rw [← hsuffix, List.drop_left, List.nil_append]
    · obtain ⟨⟨b, a⟩, hcut, heq⟩ := Option.map_eq_some_iff.1 h
      obtain ⟨rfl, rfl⟩ := by simpa using heq
      rw [ih hcut, List.cons_append]

theorem cutAt_extend {mark before after : List Char} (h : cutAt mark cs = some (before, after))
    (later : List Char) : cutAt mark (cs ++ later) = some (before, after ++ later) := by
  induction cs generalizing before after with
  | nil => cases h
  | cons c cs ih =>
    have hlength : mark.length ≤ (c :: cs).length := by
      rw [cutAt_eq h]
      simp only [List.length_append]
      omega
    -- the mark has room in the text, so what is appended cannot complete it any earlier
    have hsame : mark.isPrefixOf (c :: (cs ++ later)) = mark.isPrefixOf (c :: cs) := by
      rw [Bool.eq_iff_iff, List.isPrefixOf_iff_prefix, List.isPrefixOf_iff_prefix]
      constructor
      · intro hmark
        exact List.prefix_of_prefix_length_le hmark (List.prefix_append (c :: cs) later) hlength
      · intro hmark
        exact hmark.trans (List.prefix_append (c :: cs) later)
    rw [List.cons_append, cutAt, hsame]
    rw [cutAt] at h
    split at h
    · rename_i hmark
      obtain ⟨rfl, rfl⟩ := by simpa using h
      rw [if_pos hmark, ← List.cons_append, List.drop_append_of_le_length hlength]
    · rename_i hmark
      obtain ⟨⟨b, a⟩, hcut, heq⟩ := Option.map_eq_some_iff.1 h
      obtain ⟨rfl, rfl⟩ := by simpa using heq
      rw [if_neg hmark, ih hcut]
      rfl

theorem cutTag_eq {quote : Option Char} {tag : List Char} (h : cutTag quote cs = some (tag, rest)) :
    cs = tag ++ '>' :: rest := by
  induction cs generalizing quote tag with
  | nil => cases h
  | cons c cs ih =>
    cases quote <;> simp only [cutTag] at h
    case some =>
      obtain ⟨⟨t, r⟩, hcut, heq⟩ := Option.map_eq_some_iff.1 h
      obtain ⟨rfl, rfl⟩ := by simpa using heq
      rw [ih hcut, List.cons_append]
    case none =>
      split at h
      · rename_i hc
        obtain ⟨rfl, rfl⟩ := by simpa using h
        rw [hc, List.nil_append]
      · obtain ⟨⟨t, r⟩, hcut, heq⟩ := Option.map_eq_some_iff.1 h
        obtain ⟨rfl, rfl⟩ := by simpa using heq
        rw [ih hcut, List.cons_append]

theorem cutTag_extend {quote : Option Char} {tag : List Char}
    (h : cutTag quote cs = some (tag, rest)) (later : List Char) :
    cutTag quote (cs ++ later) = some (tag, rest ++ later) := by
  induction cs generalizing quote tag with
  | nil => cases h
  | cons c cs ih =>
    rw [List.cons_append]
    cases quote <;> simp only [cutTag] at h ⊢
    case some =>
      obtain ⟨⟨t, r⟩, hcut, heq⟩ := Option.map_eq_some_iff.1 h
      obtain ⟨rfl, rfl⟩ := by simpa using heq
      rw [ih hcut]
      rfl
    case none =>
      split at h
      · rename_i hc
        obtain ⟨rfl, rfl⟩ := by simpa using h
        rw [if_pos hc]
      · rename_i hc
        obtain ⟨⟨t, r⟩, hcut, heq⟩ := Option.map_eq_some_iff.1 h
        obtain ⟨rfl, rfl⟩ := by simpa using heq
        rw [if_neg hc, ih hcut]
        rfl

theorem cutDeclaration_eq {depth : Nat} {content : List Char}
    (h : cutDeclaration depth cs = some (content, rest)) : cs = content ++ '>' :: rest := by
  induction cs generalizing depth content with
  | nil => cases h
  | cons c cs ih =>
    rw [cutDeclaration] at h
    split at h
    · rename_i hc
      obtain ⟨rfl, rfl⟩ := by simpa using h
      rw [hc.1, List.nil_append]
    · obtain ⟨⟨b, a⟩, hcut, heq⟩ := Option.map_eq_some_iff.1 h
      obtain ⟨rfl, rfl⟩ := by simpa using heq
      rw [ih hcut, List.cons_append]

theorem cutDeclaration_extend {depth : Nat} {content : List Char}
    (h : cutDeclaration depth cs = some (content, rest)) (later : List Char) :
    cutDeclaration depth (cs ++ later) = some (content, rest ++ later) := by
  induction cs generalizing depth content with
  | nil => cases h
  | cons c cs ih =>
    rw [List.cons_append, cutDeclaration]
    rw [cutDeclaration] at h
    split at h
    · rename_i hc
      obtain ⟨rfl, rfl⟩ := by simpa using h
      rw [if_pos hc]
    · rename_i hc
      obtain ⟨⟨b, a⟩, hcut, heq⟩ := Option.map_eq_some_iff.1 h
      obtain ⟨rfl, rfl⟩ := by simpa using heq
      rw [if_neg hc]
      show (cutDeclaration _ (cs ++ later)).map _ = _
      rw [ih hcut]
      rfl

/-! ## Steps -/

/-- If the cut finds its end in the text, it finds the same end in the longer text. -/
theorem ofCut_extend {what : Unclosed} {shell : String} {make : List Char → Event}
    {cut cut' : Option (List Char × List Char)}
    (hcut : ∀ content rest, cut = some (content, rest) → cut' = some (content, rest ++ later))
    (h : Step.ofCut what shell make cut = .event event size rest) :
    Step.ofCut what shell make cut' = .event event size (rest ++ later) := by
  cases cut with
  | none => cases h
  | some pair =>
    rw [hcut pair.1 pair.2 rfl]
    cases h
    rfl

theorem scanDoctype_extend (h : scanDoctype cs = .event event size rest) (later : List Char) :
    scanDoctype (cs ++ later) = .event event size (rest ++ later) := by
  unfold scanDoctype at h ⊢
  split at h
  · rename_i hkeyword
    have hlength : doctypeKeyword.length ≤ cs.length := by
      have := congrArg List.length hkeyword
      rw [List.length_map, List.length_take] at this
      omega
    rw [List.take_append_of_le_length hlength, if_pos hkeyword,
      List.drop_append_of_le_length hlength]
    split at h
    · cases h
    · rename_i hcut
      rw [cutDeclaration_extend hcut]
      simp only at h ⊢
      split at h
      · cases h
      · rename_i hblank
        cases h
        rw [if_neg hblank]
  · cases h

theorem scanDeclaration_extend (h : scanDeclaration cs = .event event size rest)
    (later : List Char) :
    scanDeclaration (cs ++ later) = .event event size (rest ++ later) := by
  unfold scanDeclaration at h
  split at h
  · exact ofCut_extend (fun _ _ hcut => cutAt_extend hcut later) h
  · cases h
  · exact ofCut_extend (fun _ _ hcut => cutAt_extend hcut later) h
  · cases h
  · exact scanDoctype_extend h later
  · exact scanDoctype_extend h later
  · cases h

theorem scanInstruction_extend (h : scanInstruction cs = .event event size rest)
    (later : List Char) :
    scanInstruction (cs ++ later) = .event event size (rest ++ later) := by
  match cs with
  | [] => cases h
  | c :: cs =>
    rw [List.cons_append]
    unfold scanInstruction at h ⊢
    split at h
    · cases h
    · rename_i hne
      split
      · rename_i heq
        exact absurd (List.cons.inj heq).1 fun hc => hne cs (by rw [hc])
      · exact ofCut_extend (fun _ _ hcut => cutAt_extend hcut later) h

theorem scanMarkup_extend (h : scanMarkup cs = .event event size rest) (later : List Char) :
    scanMarkup (cs ++ later) = .event event size (rest ++ later) := by
  match cs with
  | [] => cases h
  | c :: cs =>
    rw [List.cons_append]
    unfold scanMarkup at h
    split at h
    · cases h
    · rename_i heq
      cases heq
      exact scanDeclaration_extend h later
    · rename_i heq
      cases heq
      exact scanInstruction_extend h later
    · rename_i heq
      cases heq
      exact ofCut_extend (fun _ _ hcut => cutTag_extend hcut later) h
    · rename_i hnil hbang hquery hslash
      unfold scanMarkup
      split
      · rename_i heq; cases heq
      · rename_i heq; exact absurd (List.cons.inj heq).1 fun hc => hbang cs (by rw [hc])
      · rename_i heq; exact absurd (List.cons.inj heq).1 fun hc => hquery cs (by rw [hc])
      · rename_i heq; exact absurd (List.cons.inj heq).1 fun hc => hslash cs (by rw [hc])
      · exact ofCut_extend (fun _ _ hcut => cutTag_extend hcut later) h

/-- Character data ends before the next bracket, so it does not grow if something follows it. -/
theorem scan_extend (h : Event.scan cs = .event event size rest)
    (hend : rest ≠ [] ∨ ∀ written, event ≠ .text written) (later : List Char) :
    Event.scan (cs ++ later) = .event event size (rest ++ later) := by
  match cs with
  | [] => cases h
  | c :: cs =>
    by_cases hc : c = '<'
    · subst hc
      exact scanMarkup_extend h later
    · rw [scan_text hc] at h
      cases h
      have hne : (c :: cs).dropWhile (· != '<') ≠ [] := hend.resolve_right fun hnot => hnot _ rfl
      have hlength : ((c :: cs).takeWhile (· != '<')).length ≠ (c :: cs).length := by
        intro hall
        have hsplit :=
          congrArg List.length (List.takeWhile_append_dropWhile (p := (· != '<')) (l := c :: cs))
        rw [List.length_append, hall] at hsplit
        exact hne (List.length_eq_zero_iff.1 (by omega))
      rw [List.cons_append, scan_text hc, ← List.cons_append, List.takeWhile_append,
        List.dropWhile_append, if_neg hlength, if_neg (by simpa using hne)]

/-! ## What an event takes -/

theorem utf8Size_toUpper (c : Char) : c.toUpper.utf8Size = c.utf8Size := by
  unfold Char.toUpper
  split
  · rename_i hlower
    have hlow : 97 ≤ c.val.toNat := UInt32.le_iff_toNat_le.1 hlower.1
    have hhigh : c.val.toNat ≤ 122 := UInt32.le_iff_toNat_le.1 hlower.2
    have hshift : ('A'.val - 'a'.val).toNat = 2 ^ 32 - 32 := by decide
    have hc : c.utf8Size = 1 := Char.utf8Size_eq_one_iff.2 (UInt32.le_trans hlower.2 (by decide))
    rw [hc, Char.utf8Size_eq_one_iff, UInt32.le_iff_toNat_le, UInt32.toNat_add, hshift]
    show _ ≤ 127
    omega
  · rfl

theorem byteLength_map_toUpper (cs : List Char) :
    Text.byteLength (cs.map Char.toUpper) = Text.byteLength cs := by
  induction cs with
  | nil => rfl
  | cons c cs ih =>
    rw [List.map_cons, Text.byteLength_cons, Text.byteLength_cons, utf8Size_toUpper, ih]

/-- Markup takes what is from its opening to its bracket. -/
theorem ofCut_eq (opening mark : List Char) {what : Unclosed} {shell : String}
    {make : List Char → Event} {cut : Option (List Char × List Char)} {body : List Char}
    (hcut : ∀ content rest, cut = some (content, rest) → body = content ++ (mark ++ '>' :: rest))
    (hshell : shell.utf8ByteSize = Text.byteLength opening + Text.byteLength mark + 1)
    (h : Step.ofCut what shell make cut = .event event size rest) :
    ∃ before, opening ++ body = before ++ '>' :: rest ∧ size = Text.byteLength before + 1 := by
  cases cut with
  | none => cases h
  | some pair =>
    cases h
    refine ⟨opening ++ pair.1 ++ mark, ?_, ?_⟩
    · rw [hcut _ _ rfl, List.append_assoc, List.append_assoc]
    · rw [Text.byteLength_append, Text.byteLength_append, hshell]
      omega

theorem scanDoctype_eq (h : scanDoctype cs = .event event size rest) :
    ∃ before, '<' :: '!' :: cs = before ++ '>' :: rest ∧ size = Text.byteLength before + 1 := by
  unfold scanDoctype at h
  split at h
  · rename_i hkeyword
    split at h
    · cases h
    · rename_i content rest' hcut
      simp only at h
      split at h
      · cases h
      · cases h
        have hlength : Text.byteLength (cs.take doctypeKeyword.length) = 7 := by
          rw [← byteLength_map_toUpper, hkeyword]
          rfl
        have hcs := List.take_append_drop doctypeKeyword.length cs
        rw [cutDeclaration_eq hcut] at hcs
        refine ⟨'<' :: '!' :: (cs.take doctypeKeyword.length ++ content), ?_, ?_⟩
        · rw [List.cons_append, List.cons_append, List.append_assoc, hcs]
        · rw [Text.byteLength_cons, Text.byteLength_cons, Text.byteLength_append, hlength]
          have hopening : "<!DOCTYPE".utf8ByteSize = '<'.utf8Size + ('!'.utf8Size + 7) := rfl
          omega
  · cases h

theorem scanMarkup_eq (h : scanMarkup cs = .event event size rest) :
    ∃ before, '<' :: cs = before ++ '>' :: rest ∧ size = Text.byteLength before + 1 := by
  have hcutAt (mark : List Char) {cut body content rest : List Char} (hmark : cut = mark ++ ['>'])
      (hcut : cutAt cut body = some (content, rest)) : body = content ++ (mark ++ '>' :: rest) := by
    rw [cutAt_eq hcut, hmark, List.append_assoc, List.singleton_append]
  unfold scanMarkup at h
  split at h
  · cases h
  · unfold scanDeclaration at h
    split at h
    · exact ofCut_eq ['<', '!', '-', '-'] ['-', '-'] (fun _ _ => hcutAt _ rfl) rfl h
    · cases h
    · exact ofCut_eq ['<', '!', '[', 'C', 'D', 'A', 'T', 'A', '['] [']', ']']
        (fun _ _ => hcutAt _ rfl) rfl h
    · cases h
    · exact scanDoctype_eq h
    · exact scanDoctype_eq h
    · cases h
  · unfold scanInstruction at h
    split at h
    · cases h
    · exact ofCut_eq ['<', '?'] ['?'] (fun _ _ => hcutAt _ rfl) rfl h
  · exact ofCut_eq ['<', '/'] [] (fun _ _ => cutTag_eq) rfl h
  · exact ofCut_eq ['<'] [] (fun _ _ => cutTag_eq) rfl h

/-- An event takes character data, or it is none and takes what ends with a bracket. -/
theorem scan_eq (h : Event.scan cs = .event event size rest) :
    (∃ written, event = .text written ∧ cs = written ++ rest ∧ size = Text.byteLength written) ∨
      (∀ written, event ≠ .text written) ∧
        ∃ before, cs = before ++ '>' :: rest ∧ size = Text.byteLength before + 1 := by
  match cs with
  | [] => cases h
  | c :: cs =>
    by_cases hc : c = '<'
    · subst hc
      exact .inr ⟨fun written heq => scanMarkup_ne_text (heq ▸ h), scanMarkup_eq h⟩
    · rw [scan_text hc] at h
      cases h
      exact .inl ⟨_, rfl, List.takeWhile_append_dropWhile.symm, rfl⟩

theorem scanMarkup_ne_finished : scanMarkup cs ≠ .finished := by
  refine @scanMarkup_cases (· ≠ .finished) ?_ ?_ ?_ cs
  · exact fun _ _ => Step.noConfusion
  · intro what shell make cut _
    cases cut <;> exact Step.noConfusion
  · exact fun _ _ => Step.noConfusion

theorem scan_eq_finished_iff : Event.scan cs = .finished ↔ cs = [] := by
  match cs with
  | [] => exact ⟨fun _ => rfl, fun _ => rfl⟩
  | c :: cs =>
    refine ⟨fun h => absurd h ?_, fun h => nomatch h⟩
    by_cases hc : c = '<'
    · subst hc
      exact scanMarkup_ne_finished
    · rw [scan_text hc]
      exact Step.noConfusion

open Document (scanFrom)

/-- The events of a text that goes on are those of its beginning, but the last of these may have
been character data that was cut off. -/
theorem events_truncated (names : List (List Char)) (offset : Nat) (cs later : List Char) :
    ∃ kept, kept <+: (scanFrom names offset (cs ++ later)).events ∧
      ((scanFrom names offset cs).events = kept ∨
        ∃ written stop, (scanFrom names offset cs).events = kept ++ [⟨.text written, stop⟩]) := by
  fun_induction scanFrom names offset cs with
  | case1 names offset cs h => exact ⟨[], List.nil_prefix, .inl rfl⟩
  | case2 names offset cs fault distance h => exact ⟨[], List.nil_prefix, .inl rfl⟩
  | case3 names offset cs event size rest h fault hadvance => exact ⟨[], List.nil_prefix, .inl rfl⟩
  | case4 names offset cs event size rest h names' hadvance ih =>
    -- character data that reaches the cut may go on behind it, so it is not kept; anything else is
    by_cases hcut : rest = [] ∧ ∃ written, event = .text written
    · obtain ⟨rfl, written, rfl⟩ := hcut
      refine ⟨[], List.nil_prefix, .inr ⟨written, offset + size, ?_⟩⟩
      rw [scanFrom_nil]
      rfl
    · have hend : rest ≠ [] ∨ ∀ written, event ≠ .text written :=
        (Decidable.em (rest = [])).symm.imp_right fun hrest written heq =>
          hcut ⟨hrest, written, heq⟩
      obtain ⟨kept, hkept, hevents⟩ := ih
      refine ⟨⟨event, offset + size⟩ :: kept, ?_, ?_⟩
      · rw [scanFrom_event (scan_extend h hend later) hadvance]
        exact List.cons_prefix_cons.2 ⟨rfl, hkept⟩
      · obtain hevents | ⟨written, stop, hevents⟩ := hevents
        · exact .inl (congrArg _ hevents)
        · exact .inr ⟨written, stop, congrArg _ hevents⟩

theorem eq_nil_of_scanFrom {names : List (List Char)} {offset length : Nat}
    (h : scanFrom names offset cs = ⟨[], .complete length⟩) : cs = [] := by
  rw [scanFrom] at h
  split at h
  · rename_i hscan
    exact scan_eq_finished_iff.1 hscan
  · cases h
  · split at h
    · cases h
    · cases h

theorem eq_of_scanFrom {names : List (List Char)} {offset length : Nat} {written : List Char}
    {events : List Located} (hevents : events.map Located.event = [.text written])
    (h : scanFrom names offset cs = ⟨events, .complete length⟩) : cs = written := by
  rw [scanFrom] at h
  split at h
  · cases h
    cases hevents
  · cases h
  · rename_i event size rest hscan
    split at h
    · cases h
    · rename_i names' hadvance
      cases hdocument : scanFrom names' (offset + size) rest with
      | mk later ending =>
        rw [hdocument] at h
        cases h
        obtain ⟨rfl, hlater⟩ := List.cons.inj hevents
        obtain rfl := List.map_eq_nil_iff.1 hlater
        obtain ⟨written', heq, hcs, -⟩ | ⟨hnot, -⟩ := scan_eq hscan
        · cases heq
          rw [hcs, eq_nil_of_scanFrom hdocument, List.append_nil]
        · exact absurd rfl (hnot written)

/-! ## The first element -/

namespace Document

/-- How many elements are open after an event that finds so many open; none if it ends the only
one. -/
def depthAfter? (depth : Nat) : Event → Option Nat
  | .opening _ => some (depth + 1)
  | .empty _ => if depth = 0 then none else some depth
  | .closing _ => if depth ≤ 1 then none else some (depth - 1)
  | .text _ | .cdata _ | .remark => some depth

/-- The event that ends the first element, when so many elements are open, and the events after
it. -/
def pastElement (depth : Nat) : List Located → Option (Located × List Located)
  | [] => none
  | located :: rest =>
    match depthAfter? depth located.event with
    | none => some (located, rest)
    | some depth => pastElement depth rest

/-- The byte offset just after the root element: after its end tag, or after its tag if it has no
content. -/
def rootStop? (document : Document) : Option Nat :=
  (pastElement 0 document.events).map fun found => found.1.stop

variable {depth : Nat} {located found : Located} {events later : List Located}

theorem pastElement_cons :
    pastElement depth (located :: events) = some (found, later) ↔
      (depthAfter? depth located.event = none ∧ located = found ∧ events = later) ∨
        ∃ depth', depthAfter? depth located.event = some depth' ∧
          pastElement depth' events = some (found, later) := by
  rw [pastElement]
  cases depthAfter? depth located.event with
  | none => simp
  | some depth' => simp

/-- Where the first element ends does not depend on what comes after it. -/
theorem pastElement_append (h : pastElement depth events = some (found, later))
    (more : List Located) :
    pastElement depth (events ++ more) = some (found, later ++ more) := by
  induction events generalizing depth with
  | nil => cases h
  | cons located rest ih =>
    rw [List.cons_append, pastElement_cons]
    obtain ⟨hends, rfl, rfl⟩ | ⟨depth', hdepth, hrest⟩ := pastElement_cons.1 h
    · exact .inl ⟨hends, rfl, rfl⟩
    · exact .inr ⟨depth', hdepth, ih hrest⟩

theorem pastElement_of_append_text {written : List Char} {stop : Nat}
    (h : pastElement depth (events ++ [⟨.text written, stop⟩]) = some (found, later)) :
    ∃ earlier, pastElement depth events = some (found, earlier) := by
  induction events generalizing depth with
  | nil => cases h
  | cons located rest ih =>
    rw [List.cons_append] at h
    obtain ⟨hends, rfl, -⟩ | ⟨depth', hdepth, hrest⟩ := pastElement_cons.1 h
    · exact ⟨rest, pastElement_cons.2 (.inl ⟨hends, rfl, rfl⟩)⟩
    · obtain ⟨earlier, hearlier⟩ := ih hrest
      exact ⟨earlier, pastElement_cons.2 (.inr ⟨depth', hdepth, hearlier⟩)⟩

/-- If the first element ends in the beginning of a text, it ends at the same place in the text. -/
theorem pastElement_scanFrom_append {names : List (List Char)} {offset : Nat} {cs : List Char}
    (h : pastElement depth (scanFrom names offset cs).events = some (found, later))
    (more : List Char) :
    ∃ later', pastElement depth (scanFrom names offset (cs ++ more)).events =
      some (found, later') := by
  obtain ⟨kept, ⟨others, hothers⟩, hevents⟩ := events_truncated names offset cs more
  have hkept : ∃ earlier, pastElement depth kept = some (found, earlier) := by
    obtain hevents | ⟨written, stop, hevents⟩ := hevents
    · exact ⟨later, hevents ▸ h⟩
    · exact pastElement_of_append_text (hevents ▸ h)
  obtain ⟨earlier, hearlier⟩ := hkept
  exact ⟨earlier ++ others, hothers ▸ pastElement_append hearlier others⟩

/-- The first element ends with a bracket, and the text after it is scanned from there. -/
theorem pastElement_scanFrom {names : List (List Char)} {offset : Nat} {cs : List Char}
    (h : pastElement depth (scanFrom names offset cs).events = some (found, later)) :
    ∃ before after names', cs = before ++ '>' :: after ∧
      found.stop = offset + Text.byteLength before + 1 ∧
        scanFrom names' found.stop after = ⟨later, (scanFrom names offset cs).ending⟩ := by
  fun_induction scanFrom names offset cs generalizing depth with
  | case1 names offset cs hscan => cases h
  | case2 names offset cs fault distance hscan => cases h
  | case3 names offset cs event size rest hscan fault hadvance => cases h
  | case4 names offset cs event size rest hscan names' hadvance ih =>
    obtain ⟨hends, rfl, rfl⟩ | ⟨depth', -, hrest⟩ := pastElement_cons.1 h
    · obtain ⟨written, rfl, -⟩ | ⟨-, before, hcs, hsize⟩ := scan_eq hscan
      · cases hends
      · exact ⟨before, rest, names', hcs, by rw [hsize, Nat.add_assoc], rfl⟩
    · obtain ⟨before, after, names'', hrest, hstop, hafter⟩ := ih hrest
      have hsize : ∃ start, cs = start ++ rest ∧ size = Text.byteLength start := by
        obtain ⟨written, -, hcs, hsize⟩ | ⟨-, start, hcs, hsize⟩ := scan_eq hscan
        · exact ⟨written, hcs, hsize⟩
        · refine ⟨start ++ ['>'], by rw [hcs, List.append_assoc, List.singleton_append], ?_⟩
          rw [hsize, Text.byteLength_append]
          rfl
      obtain ⟨start, hcs, hsize⟩ := hsize
      refine ⟨start ++ before, after, names'', by rw [hcs, hrest, List.append_assoc], ?_, hafter⟩
      rw [hstop, hsize, Text.byteLength_append, Nat.add_assoc offset]

end Document

/-! ## The first element of a tree -/

def Content.afterFirst? : Content → Option Content
  | .done => none
  | .text _ rest | .cdata _ rest | .remark rest => rest.afterFirst?
  | .empty _ rest | .element _ _ rest => some rest

namespace Document

variable {depth : Nat} {event : Event} {located : List Located} {later : List Event}

theorem map_event_eq_cons (h : located.map Located.event = event :: later) :
    ∃ stop rest, located = ⟨event, stop⟩ :: rest ∧ rest.map Located.event = later := by
  obtain ⟨first, rest, rfl, rfl, rfl⟩ := List.map_eq_cons_iff.1 h
  exact ⟨first.stop, rest, rfl, rfl⟩

/-- Inside of an element its content goes by without ending it. -/
theorem pastElement_inner (inner : Content)
    (h : located.map Located.event = inner.events ++ later) :
    ∃ rest, rest.map Located.event = later ∧
      pastElement (depth + 1) located = pastElement (depth + 1) rest := by
  induction inner generalizing depth located later with
  | done => exact ⟨located, h, rfl⟩
  | text written content ih =>
    obtain ⟨stop, rest, rfl, hrest⟩ := map_event_eq_cons h
    exact @ih depth rest later hrest
  | cdata data content ih =>
    obtain ⟨stop, rest, rfl, hrest⟩ := map_event_eq_cons h
    exact @ih depth rest later hrest
  | remark content ih =>
    obtain ⟨stop, rest, rfl, hrest⟩ := map_event_eq_cons h
    exact @ih depth rest later hrest
  | empty tag content ih =>
    obtain ⟨stop, rest, rfl, hrest⟩ := map_event_eq_cons h
    exact @ih depth rest later hrest
  | element tag inner content ihInner ihContent =>
    obtain ⟨stop, rest, rfl, hrest⟩ := map_event_eq_cons h
    -- one element deeper the inner content goes by, and then the end tag leads back to this depth
    change _ = inner.events ++ .closing (tagName tag) :: content.events ++ later at hrest
    rw [List.append_assoc] at hrest
    obtain ⟨closing, hclosing, hinner⟩ := @ihInner (depth + 1) rest _ hrest
    obtain ⟨stop', rest', rfl, hrest'⟩ := map_event_eq_cons hclosing
    obtain ⟨after, hafter, hcontent⟩ := @ihContent depth rest' later hrest'
    exact ⟨after, hafter, hinner.trans hcontent⟩

/-- The first element of a document that is a tree ends, and what comes after it is what the tree
says. -/
theorem pastElement_content {content after : Content} (hafter : content.afterFirst? = some after)
    (h : located.map Located.event = content.events) :
    ∃ found later, pastElement 0 located = some (found, later) ∧
      later.map Located.event = after.events := by
  induction content generalizing located with
  | done => cases hafter
  | text written content ih =>
    obtain ⟨stop, rest, rfl, hrest⟩ := map_event_eq_cons h
    exact @ih rest hafter hrest
  | cdata data content ih =>
    obtain ⟨stop, rest, rfl, hrest⟩ := map_event_eq_cons h
    exact @ih rest hafter hrest
  | remark content ih =>
    obtain ⟨stop, rest, rfl, hrest⟩ := map_event_eq_cons h
    exact @ih rest hafter hrest
  | empty tag content =>
    cases hafter
    obtain ⟨stop, rest, rfl, hrest⟩ := map_event_eq_cons h
    exact ⟨_, rest, rfl, hrest⟩
  | element tag inner content =>
    cases hafter
    obtain ⟨stop, rest, rfl, hrest⟩ := map_event_eq_cons h
    obtain ⟨closing, hclosing, hinner⟩ := @pastElement_inner 0 rest _ inner hrest
    obtain ⟨stop', rest', rfl, hrest'⟩ := map_event_eq_cons hclosing
    exact ⟨⟨.closing (tagName tag), stop'⟩, rest', hinner, hrest'⟩

/-! ## The byte order mark -/

/-- A byte order mark that is dropped is dropped from every beginning that is not empty. -/
theorem dropMark_append {cs : List Char} (hne : cs ≠ []) (later : List Char) :
    dropMark (cs ++ later) = dropMark cs ++ later := by
  match cs with
  | [] => exact absurd rfl hne
  | c :: cs =>
    rw [List.cons_append]
    unfold dropMark
    split
    · rename_i heq
      cases heq
      rfl
    · rename_i hmark
      split
      · rename_i heq
        cases heq
        exact absurd rfl (hmark (cs ++ later))
      · rfl

theorem dropMark_suffix (cs : List Char) : dropMark cs <:+ cs := by
  unfold dropMark
  split
  · exact List.suffix_cons _ _
  · exact List.suffix_refl _

end Document

end Phrasebook.Markup
