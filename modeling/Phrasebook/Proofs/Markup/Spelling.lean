import Phrasebook.Proofs.Markup.Content
import Phrasebook.Proofs.Markup.Reference

/-!
# Spelled content

`Spells cs content` says that the characters `cs` are scanned as the events of `content`, whatever
markup comes after them. Contents are spelled from the end: an element, a remark or character data
in front of something spelled is spelled again. Character data in front of character data is one
text, hence `Content.prependText`.
-/

namespace Phrasebook.Markup

/-! ## Names -/

/-- A name of an element or an attribute: letters, at least one. -/
def IsName (name : List Char) : Prop := name ≠ [] ∧ ∀ c ∈ name, c.isAlpha = true

instance (name : List Char) : Decidable (IsName name) :=
  decidable_of_iff (name ≠ [] ∧ name.all Char.isAlpha = true) (by rw [List.all_eq_true]; rfl)

theorem IsName.ne {name : List Char} (h : IsName name) {c x : Char} (hc : c ∈ name)
    (hx : x.isAlpha = false) : c ≠ x := by
  rintro rfl
  rw [h.2 c hc] at hx
  cases hx

theorem IsName.not_space {name : List Char} (h : IsName name) {c : Char} (hc : c ∈ name) :
    isSpace c = false := by
  have hspace : c ≠ ' ' := h.ne hc (by decide)
  have htab : c ≠ '\t' := h.ne hc (by decide)
  have hline : c ≠ '\n' := h.ne hc (by decide)
  have hreturn : c ≠ '\r' := h.ne hc (by decide)
  simp [isSpace, hspace, htab, hline, hreturn]

theorem closingName_of_isName {name : List Char} (h : IsName name) : closingName name = name := by
  have hnone : name.all isSpace = false := by
    obtain ⟨first, letters, rfl⟩ := List.exists_cons_of_ne_nil h.1
    rw [List.all_cons, h.not_space List.mem_cons_self]
    rfl
  have hdrop : name.reverse.dropWhile isSpace = name.reverse := by
    cases hreverse : name.reverse with
    | nil => rfl
    | cons last before =>
      have hlast : last ∈ name := List.mem_reverse.1 (hreverse ▸ List.mem_cons_self)
      rw [List.dropWhile_cons_of_neg (by simp [h.not_space hlast])]
  rw [closingName, hnone, if_neg (by decide), Text.dropTrailing, hdrop, List.reverse_reverse]

/-! ## Ends of tags -/

/-- No quotation is open after these characters and they do not end a tag. -/
def Whole (cs : List Char) : Prop :=
  ∀ rest, cutTag none (cs ++ rest) = (cutTag none rest).map fun cut => (cs ++ cut.1, cut.2)

theorem whole_nil : Whole [] := by
  intro rest
  cases h : cutTag none rest <;> simp [h]

theorem Whole.append {as bs : List Char} (ha : Whole as) (hb : Whole bs) : Whole (as ++ bs) := by
  intro rest
  rw [List.append_assoc, ha, hb, Option.map_map]
  simp [Function.comp_def]

theorem whole_singleton {c : Char} (h : c ∉ ['>', '"', '\x27']) : Whole [c] := by
  intro rest
  simp only [List.mem_cons, List.not_mem_nil, or_false, not_or] at h
  obtain ⟨hgt, hquote, happ⟩ := h
  rw [List.singleton_append, cutTag]
  simp [hgt, hquote, happ]

theorem whole_of_plain {cs : List Char} (h : ∀ c ∈ cs, c ∉ ['>', '"', '\x27']) : Whole cs := by
  induction cs with
  | nil => exact whole_nil
  | cons c cs ih =>
    exact (whole_singleton (h c List.mem_cons_self)).append
      (ih fun later hlater => h later (List.mem_cons_of_mem _ hlater))

theorem IsName.whole {name : List Char} (h : IsName name) : Whole name := by
  refine whole_of_plain fun c hc => ?_
  have hgt : c ≠ '>' := h.ne hc (by decide)
  have hquote : c ≠ '"' := h.ne hc (by decide)
  have happ : c ≠ '\x27' := h.ne hc (by decide)
  simp [hgt, hquote, happ]

/-- In quotation marks only the closing one matters. -/
theorem whole_quoted {cs : List Char} (h : '"' ∉ cs) : Whole ('"' :: (cs ++ ['"'])) := by
  have hinside (rest : List Char) : cutTag (some '"') (cs ++ '"' :: rest) =
      (cutTag none rest).map fun cut => (cs ++ '"' :: cut.1, cut.2) := by
    induction cs with
    | nil => simp [cutTag]
    | cons c cs ih =>
      rw [List.mem_cons, not_or] at h
      rw [List.cons_append, cutTag, if_neg (Ne.symm h.1), ih h.2, Option.map_map]
      rfl
  intro rest
  rw [List.cons_append, List.append_assoc, List.singleton_append, cutTag]
  simp [hinside, Function.comp_def]

theorem cutAt_quote {cs : List Char} (h : '"' ∉ cs) (rest : List Char) :
    cutAt ['"'] (cs ++ '"' :: rest) = some (cs, rest) := by
  induction cs with
  | nil => rfl
  | cons c cs ih =>
    rw [List.mem_cons, not_or] at h
    rw [List.cons_append, cutAt, if_neg (by simpa using h.1), ih h.2]
    rfl

/-! ## Scanning -/

open Document (scanFrom)

theorem scanFrom_nil (names : List (List Char)) (offset : Nat) :
    scanFrom names offset [] = ⟨[], .complete offset⟩ := by
  rw [scanFrom]
  rfl

theorem scanFrom_event {names names' : List (List Char)} {offset size : Nat} {cs rest : List Char}
    {event : Event} (hscan : Event.scan cs = .event event size rest)
    (hadvance : advance names event = .ok names') :
    scanFrom names offset cs =
      .cons ⟨event, offset + size⟩ (scanFrom names' (offset + size) rest) := by
  rw [scanFrom]
  split
  · rename_i h; rw [hscan] at h; cases h
  · rename_i h; rw [hscan] at h; cases h
  · rename_i h
    rw [hscan] at h
    cases h
    rw [hadvance]

/-- What comes next is markup or the end of the document. -/
def AtMarkup (rest : List Char) : Prop := ∀ c cs, rest = c :: cs → c = '<'

theorem atMarkup_nil : AtMarkup [] := by
  intro c cs h
  cases h

theorem atMarkup_cons (cs : List Char) : AtMarkup ('<' :: cs) := by
  intro c cs' h
  cases h
  rfl

/-- Scanning markup comes to a fault, to what is cut out of the text, or to a document type
declaration, which is a remark. -/
theorem scanMarkup_cases {P : Step → Prop} (hfault : ∀ fault distance, P (.fault fault distance))
    (hcut : ∀ what shell make cut, (∀ content written, make content ≠ .text written) →
      P (.ofCut what shell make cut))
    (hremark : ∀ size rest, P (.event .remark size rest)) (cs : List Char) : P (scanMarkup cs) := by
  have hdoctype (cs : List Char) : P (scanDoctype cs) := by
    unfold scanDoctype
    split
    · split
      · exact hfault _ _
      · simp only
        split
        · exact hfault _ _
        · exact hremark _ _
    · exact hfault _ _
  have hdeclaration (cs : List Char) : P (scanDeclaration cs) := by
    unfold scanDeclaration
    split
    · exact hcut _ _ _ _ fun _ _ => Event.noConfusion
    · exact hfault _ _
    · exact hcut _ _ _ _ fun _ _ => Event.noConfusion
    · exact hfault _ _
    · exact hdoctype _
    · exact hdoctype _
    · exact hfault _ _
  unfold scanMarkup
  split
  · exact hfault _ _
  · exact hdeclaration _
  · unfold scanInstruction
    split
    · exact hfault _ _
    · exact hcut _ _ _ _ fun _ _ => Event.noConfusion
  · exact hcut _ _ _ _ fun _ _ => Event.noConfusion
  · refine hcut _ _ _ _ fun content written => ?_
    unfold Event.ofTag
    split <;> exact Event.noConfusion

theorem scanMarkup_ne_text {cs rest written : List Char} {size : Nat} :
    scanMarkup cs ≠ .event (.text written) size rest := by
  refine @scanMarkup_cases (· ≠ .event (.text written) size rest) ?_ ?_ ?_ cs
  · exact fun _ _ => Step.noConfusion
  · intro what shell make cut hmake h
    obtain ⟨content, -, heq⟩ := Step.ofCut_eq_event h
    exact hmake content written heq.symm
  · intro size' rest' h
    cases h

/-- No text comes where markup comes. -/
theorem not_text_of_atMarkup {names : List (List Char)} {offset : Nat} {rest written : List Char}
    {later : List Event} (hrest : AtMarkup rest) :
    (scanFrom names offset rest).events.map Located.event ≠ .text written :: later := by
  intro h
  rw [scanFrom] at h
  split at h
  · cases h
  · cases h
  · rename_i event size after hscan
    split at h
    · cases h
    · obtain ⟨rfl, -⟩ := List.cons.inj h
      cases rest with
      | nil => cases hscan
      | cons c cs =>
        obtain rfl := hrest c cs rfl
        exact scanMarkup_ne_text hscan

/-! ## Spelling -/

/-- Character data in front of events, joined with the text that they start with. -/
def prependText (written : List Char) : List Event → List Event
  | .text more :: rest => .text (written ++ more) :: rest
  | events => if written = [] then events else .text written :: events

/-- Character data in front of a content. -/
def Content.prependText (written : List Char) : Content → Content
  | .text more rest => .text (written ++ more) rest
  | content => if written = [] then content else .text written content

theorem prependText_of_not_text {written : List Char} {later : List Event}
    (hlater : ∀ more rest, later ≠ .text more :: rest) :
    prependText written later = if written = [] then later else .text written :: later := by
  unfold prependText
  split
  · rename_i more rest
    exact absurd rfl (hlater more rest)
  · rfl

theorem events_prependText {written : List Char} {content : Content} {later : List Event}
    (hlater : ∀ more rest, later ≠ .text more :: rest) :
    (content.prependText written).events ++ later =
      prependText written (content.events ++ later) := by
  cases content with
  | done =>
    show (if written = [] then Content.done else _).events ++ later = prependText written later
    rw [prependText_of_not_text hlater]
    split <;> rfl
  | text more rest => rfl
  | cdata data rest =>
    show (if written = [] then _ else _ : Content).events ++ later = if written = [] then _ else _
    split <;> rfl
  | remark rest =>
    show (if written = [] then _ else _ : Content).events ++ later = if written = [] then _ else _
    split <;> rfl
  | empty tag rest =>
    show (if written = [] then _ else _ : Content).events ++ later = if written = [] then _ else _
    split <;> rfl
  | element tag inner rest =>
    show (if written = [] then _ else _ : Content).events ++ later = if written = [] then _ else _
    split <;> rfl

theorem Content.prependText_nil (content : Content) : content.prependText [] = content := by
  cases content <;> rfl

theorem Content.prependText_cases (written : List Char) (content : Content) :
    (∃ more rest, content = .text more rest ∧
        content.prependText written = .text (written ++ more) rest) ∨
      written = [] ∧ content.prependText written = content ∨
      content.prependText written = .text written content := by
  by_cases h : written = []
  · subst h
    exact .inr (.inl ⟨rfl, content.prependText_nil⟩)
  · cases content with
    | text more rest => exact .inl ⟨more, rest, rfl, rfl⟩
    | _ => exact .inr (.inr (if_neg h))

/-- The characters are scanned as a content, in whichever elements and whatever markup comes
next. -/
def Spells (cs : List Char) (content : Content) : Prop :=
  ∀ names offset rest, AtMarkup rest → ∃ offset',
    (scanFrom names offset (cs ++ rest)).events.map Located.event =
        content.events ++ (scanFrom names offset' rest).events.map Located.event ∧
      (scanFrom names offset (cs ++ rest)).ending = (scanFrom names offset' rest).ending

theorem spells_nil : Spells [] .done := by
  intro names offset rest _
  exact ⟨offset, rfl, rfl⟩

theorem scan_text {c : Char} (hc : c ≠ '<') (cs : List Char) :
    Event.scan (c :: cs) = .event (.text ((c :: cs).takeWhile (· != '<')))
      (Text.byteLength ((c :: cs).takeWhile (· != '<'))) ((c :: cs).dropWhile (· != '<')) := by
  unfold Event.scan
  split
  · rename_i h; cases h
  · rename_i h; exact absurd (List.cons.inj h).1 hc
  · rfl

theorem scan_append {written : List Char} (hne : written ≠ []) (hopen : '<' ∉ written)
    (cs : List Char) :
    Event.scan (written ++ cs) =
      .event (.text (written ++ cs.takeWhile (· != '<')))
        (Text.byteLength (written ++ cs.takeWhile (· != '<'))) (cs.dropWhile (· != '<')) := by
  have hkeep : ∀ c ∈ written, (fun c => c != '<') c = true := by
    intro c hc
    have hchar : c ≠ '<' := fun h => hopen (h ▸ hc)
    simpa using hchar
  obtain ⟨first, letters, rfl⟩ := List.exists_cons_of_ne_nil hne
  rw [← List.takeWhile_append_of_pos hkeep, ← List.dropWhile_append_of_pos hkeep]
  exact scan_text (fun h => hopen (h ▸ List.mem_cons_self)) _

theorem scanFrom_append {written : List Char} (hne : written ≠ []) (hopen : '<' ∉ written)
    (names : List (List Char)) (offset : Nat) (cs : List Char) :
    (scanFrom names offset (written ++ cs)).events.map Located.event =
        prependText written ((scanFrom names (offset + Text.byteLength written) cs).events.map
          Located.event) ∧
      (scanFrom names offset (written ++ cs)).ending =
        (scanFrom names (offset + Text.byteLength written) cs).ending := by
  have hfirst : scanFrom names offset (written ++ cs) =
      .cons ⟨.text (written ++ cs.takeWhile (· != '<')), _⟩ (scanFrom names _ _) :=
    scanFrom_event (scan_append hne hopen cs) rfl
  rw [hfirst]
  match cs with
  | [] =>
    rw [List.takeWhile_nil, List.dropWhile_nil, List.append_nil, scanFrom_nil]
    exact ⟨(if_neg hne).symm, rfl⟩
  | c :: cs =>
    by_cases hc : c = '<'
    · subst hc
      rw [List.takeWhile_cons_of_neg (by decide), List.dropWhile_cons_of_neg (by decide),
        List.append_nil, prependText_of_not_text fun more rest =>
          not_text_of_atMarkup (atMarkup_cons cs), if_neg hne]
      exact ⟨rfl, rfl⟩
    · have hsecond : scanFrom names (offset + Text.byteLength written) (c :: cs) =
          .cons ⟨.text ((c :: cs).takeWhile (· != '<')), _⟩ (scanFrom names _ _) :=
        scanFrom_event (scan_text hc cs) rfl
      rw [hsecond, Text.byteLength_append, Nat.add_assoc]
      exact ⟨rfl, rfl⟩

theorem Spells.prependText {written cs : List Char} {content : Content} (hopen : '<' ∉ written)
    (h : Spells cs content) : Spells (written ++ cs) (content.prependText written) := by
  by_cases hne : written = []
  · rw [hne, Content.prependText_nil]
    exact h
  · intro names offset rest hrest
    obtain ⟨offset', hevents, hending⟩ := h names (offset + Text.byteLength written) rest hrest
    obtain ⟨hfirst, hsame⟩ := scanFrom_append hne hopen names offset (cs ++ rest)
    refine ⟨offset', ?_, ?_⟩
    · rw [List.append_assoc, hfirst, hevents,
        events_prependText fun more later => not_text_of_atMarkup hrest]
    · rw [List.append_assoc, hsame, hending]

theorem Spells.item {markup cs : List Char} {event : Event} {content content' : Content}
    (hscan : ∀ rest, ∃ size, Event.scan (markup ++ rest) = .event event size rest)
    (hadvance : ∀ names, advance names event = .ok names)
    (hevents : content'.events = event :: content.events) (h : Spells cs content) :
    Spells (markup ++ cs) content' := by
  intro names offset rest hrest
  obtain ⟨size, hsize⟩ := hscan (cs ++ rest)
  obtain ⟨offset', hlater, hending⟩ := h names (offset + size) rest hrest
  refine ⟨offset', ?_, ?_⟩
  · rw [List.append_assoc, scanFrom_event hsize (hadvance names), hevents, List.cons_append,
      ← hlater]
    rfl
  · rw [List.append_assoc, scanFrom_event hsize (hadvance names), ← hending]
    rfl

/-- A tag as it can stand between angle brackets without being taken for anything else. -/
structure IsTag (tag : List Char) : Prop where
  whole : Whole tag
  name : IsName (tagName tag)
  last : tag.getLast? ≠ some '/'

theorem scanMarkup_tag {tag rest : List Char} (h : IsTag tag) :
    scanMarkup (tag ++ rest) = .ofCut .tag "<>" Event.ofTag (cutTag none (tag ++ rest)) := by
  obtain ⟨first, letters, hname⟩ := List.exists_cons_of_ne_nil h.name.1
  have hmem : first ∈ tagName tag := hname ▸ List.mem_cons_self
  match tag with
  | [] => cases hname
  | c :: cs =>
    have hc : c = first := by
      rw [tagName, List.takeWhile_cons] at hname
      split at hname
      · exact (List.cons.inj hname).1
      · cases hname
    subst hc
    have hbang : c ≠ '!' := h.name.ne hmem (by decide)
    have hquery : c ≠ '?' := h.name.ne hmem (by decide)
    have hslash : c ≠ '/' := h.name.ne hmem (by decide)
    unfold scanMarkup
    split
    · rename_i heq; cases heq
    · rename_i heq; exact absurd (List.cons.inj heq).1 hbang
    · rename_i heq; exact absurd (List.cons.inj heq).1 hquery
    · rename_i heq; exact absurd (List.cons.inj heq).1 hslash
    · rfl

theorem scan_opening {tag : List Char} (h : IsTag tag) (rest : List Char) :
    ∃ size, Event.scan ('<' :: (tag ++ '>' :: rest)) = .event (.opening tag) size rest := by
  have hcut : cutTag none (tag ++ '>' :: rest) = some (tag, rest) := by
    rw [h.whole, cutTag]
    simp
  have hscan : Event.scan ('<' :: (tag ++ '>' :: rest)) =
      .event (Event.ofTag tag) ("<>".utf8ByteSize + Text.byteLength tag) rest := by
    show scanMarkup _ = _
    rw [scanMarkup_tag h, hcut]
    rfl
  rw [Event.ofTag, if_neg h.last] at hscan
  exact ⟨_, hscan⟩

theorem scan_empty {tag : List Char} (h : IsTag tag) (rest : List Char) :
    ∃ size, Event.scan ('<' :: (tag ++ '/' :: '>' :: rest)) = .event (.empty tag) size rest := by
  have hcut : cutTag none (tag ++ '/' :: '>' :: rest) = some (tag ++ ['/'], rest) := by
    have hslash : Whole ['/'] := whole_singleton (by decide)
    rw [h.whole, ← List.singleton_append, hslash, cutTag]
    simp
  have hscan : Event.scan ('<' :: (tag ++ '/' :: '>' :: rest)) =
      .event (Event.ofTag (tag ++ ['/']))
        ("<>".utf8ByteSize + Text.byteLength (tag ++ ['/'])) rest := by
    show scanMarkup _ = _
    rw [scanMarkup_tag h, hcut]
    rfl
  rw [Event.ofTag, if_pos (by simp), List.dropLast_concat] at hscan
  exact ⟨_, hscan⟩

theorem scan_closing {name : List Char} (h : IsName name) (rest : List Char) :
    ∃ size, Event.scan ('<' :: '/' :: (name ++ '>' :: rest)) =
      .event (.closing name) size rest := by
  have hcut : cutTag none (name ++ '>' :: rest) = some (name, rest) := by
    rw [h.whole, cutTag]
    simp
  have hscan : Event.scan ('<' :: '/' :: (name ++ '>' :: rest)) =
      .event (.closing (closingName name)) ("</>".utf8ByteSize + Text.byteLength name) rest := by
    show Step.ofCut .tag "</>" _ (cutTag none (name ++ '>' :: rest)) = _
    rw [hcut]
    rfl
  rw [closingName_of_isName h] at hscan
  exact ⟨_, hscan⟩

theorem Spells.empty {tag cs : List Char} {content : Content} (htag : IsTag tag)
    (h : Spells cs content) : Spells ('<' :: (tag ++ '/' :: '>' :: cs)) (.empty tag content) := by
  have hitem : Spells (('<' :: (tag ++ ['/', '>'])) ++ cs) (.empty tag content) := by
    refine h.item (fun rest => ?_) (fun names => rfl) rfl
    rw [List.cons_append, List.append_assoc]
    exact scan_empty htag rest
  rwa [List.cons_append, List.append_assoc] at hitem

theorem Spells.element {tag within cs : List Char} {inner content : Content} (htag : IsTag tag)
    (hinner : Spells within inner) (h : Spells cs content) :
    Spells ('<' :: (tag ++ '>' :: (within ++ '<' :: '/' :: (tagName tag ++ '>' :: cs))))
      (.element tag inner content) := by
  intro names offset rest hrest
  have hsplit :
      '<' :: (tag ++ '>' :: (within ++ '<' :: '/' :: (tagName tag ++ '>' :: cs))) ++ rest =
        '<' :: (tag ++ '>' :: (within ++ '<' :: '/' :: (tagName tag ++ '>' :: (cs ++ rest)))) := by
    simp
  obtain ⟨size, hopening⟩ :=
    scan_opening htag (within ++ '<' :: '/' :: (tagName tag ++ '>' :: (cs ++ rest)))
  obtain ⟨offset', hwithin, hwithinEnding⟩ := hinner (tagName tag :: names) (offset + size)
    ('<' :: '/' :: (tagName tag ++ '>' :: (cs ++ rest))) (atMarkup_cons _)
  obtain ⟨size', hclosing⟩ := scan_closing htag.name (cs ++ rest)
  have hadvance : advance (tagName tag :: names) (.closing (tagName tag)) = .ok names := if_pos rfl
  obtain ⟨offset'', hlater, hending⟩ := h names (offset' + size') rest hrest
  have hfirst : scanFrom names offset _ = .cons _ (scanFrom _ _ _) := scanFrom_event hopening rfl
  have hlast : scanFrom (tagName tag :: names) offset' _ = .cons _ (scanFrom _ _ _) :=
    scanFrom_event hclosing hadvance
  rw [hsplit, hfirst]
  refine ⟨offset'', ?_, ?_⟩
  · show .opening tag :: (scanFrom _ _ _).events.map Located.event = _
    rw [hwithin, hlast]
    show .opening tag :: (inner.events ++ .closing (tagName tag) ::
      (scanFrom _ _ _).events.map Located.event) = _
    rw [hlater]
    simp [Content.events]
  · show (scanFrom _ _ _).ending = _
    rw [hwithinEnding, hlast]
    show (scanFrom _ _ _).ending = _
    exact hending

end Phrasebook.Markup
