import Phrasebook.Markup.Reference

/-!
# Markup events

A document is a sequence of events: pieces of character data, tags, and remarks that mean nothing
(comments, processing instructions, declarations). `Event.scan` reads the next event. An opening or
empty tag keeps its content as written, so that attributes are read only when someone asks for them.
-/

namespace Phrasebook.Markup

/-- White space of markup: space, tab and the two line end characters. -/
def isSpace (c : Char) : Bool := c == ' ' || c == '\t' || c == '\n' || c == '\r'

/-- A piece of a document. Tags hold what is between their angle brackets. -/
inductive Event where
  | opening (tag : List Char)
  | empty (tag : List Char)
  | closing (name : List Char)
  /-- Character data as written, with its references. -/
  | text (written : List Char)
  /-- Character data that is taken as it is. -/
  | cdata (content : List Char)
  | remark
  deriving DecidableEq, Repr

/-- The element name of a tag: what is before its first white space. -/
def tagName (tag : List Char) : List Char := tag.takeWhile fun c => !isSpace c

/-- The element name of an end tag: what is between its slash and its bracket, less the white space
at the end. An end tag of nothing but white space keeps it, so that only `</>` closes an element
with an empty name. -/
def closingName (written : List Char) : List Char :=
  if written.all isSpace then written else Text.dropTrailing isSpace written

/-- Splits a text around the first occurrence of a mark. -/
def cutAt (mark : List Char) : List Char → Option (List Char × List Char)
  | [] => none
  | c :: cs =>
    if mark.isPrefixOf (c :: cs) then some ([], (c :: cs).drop mark.length)
    else (cutAt mark cs).map fun (before, after) => (c :: before, after)

/-- Splits a text around the bracket that ends a tag. Brackets in quotes do not count; `quote` is
the quote that is open. -/
def cutTag (quote : Option Char) : List Char → Option (List Char × List Char)
  | [] => none
  | c :: cs =>
    match quote with
    | some q => (cutTag (if c = q then none else some q) cs).map fun (tag, rest) => (c :: tag, rest)
    | none =>
      if c = '>' then some ([], cs)
      else
        (cutTag (if c = '"' ∨ c = '\x27' then some c else none) cs).map
          fun (tag, rest) => (c :: tag, rest)

/-- Splits a text around the bracket that closes a declaration; `depth` brackets are open inside
it. -/
def cutDeclaration (depth : Nat) : List Char → Option (List Char × List Char)
  | [] => none
  | c :: cs =>
    if c = '>' ∧ depth = 0 then some ([], cs)
    else
      let depth := if c = '<' then depth + 1 else if c = '>' then depth - 1 else depth
      (cutDeclaration depth cs).map fun (before, after) => (c :: before, after)

/-- What the next event is, or why there is none. -/
inductive Step where
  | finished
  /-- An event that takes so many bytes, and what follows it. -/
  | event (event : Event) (size : Nat) (rest : List Char)
  /-- A fault at so many bytes from here. -/
  | fault (fault : Fault) (distance : Nat)
  deriving DecidableEq, Repr

namespace Step

/-- The step for markup that must end: the event made of what was found, or the fault. `shell` is
the markup without any content. -/
def ofCut (what : Unclosed) (shell : String) (event : List Char → Event) :
    Option (List Char × List Char) → Step
  | some (content, rest) =>
    .event (event content) (shell.utf8ByteSize + Text.byteLength content) rest
  | none => .fault (.unclosed what) 0

end Step

/-- The event of a tag that is no end tag: a slash before the bracket makes it an empty element. -/
def Event.ofTag (tag : List Char) : Event :=
  if tag.getLast? = some '/' then .empty tag.dropLast else .opening tag

def doctypeKeyword : List Char := "DOCTYPE".toList

def scanDoctype (cs : List Char) : Step :=
  if (cs.take doctypeKeyword.length).map Char.toUpper = doctypeKeyword then
    match cutDeclaration 0 (cs.drop doctypeKeyword.length) with
    | none => .fault (.unclosed .doctype) 0
    | some (content, rest) =>
      let distance := "<!DOCTYPE".utf8ByteSize + Text.byteLength content
      if content.all isSpace then .fault .namelessDoctype distance
      else .event .remark (distance + 1) rest
  else .fault (.unclosed .doctype) 0

def scanDeclaration (cs : List Char) : Step :=
  match cs with
  | '-' :: '-' :: body => .ofCut .comment "<!---->" (fun _ => .remark) (cutAt "-->".toList body)
  | '-' :: _ => .fault (.unclosed .comment) 0
  | '[' :: 'C' :: 'D' :: 'A' :: 'T' :: 'A' :: '[' :: body =>
    .ofCut .cdata "<![CDATA[]]>" .cdata (cutAt "]]>".toList body)
  | '[' :: _ => .fault (.unclosed .cdata) 0
  | 'D' :: _ | 'd' :: _ => scanDoctype cs
  | _ => .fault .unknownMarkup 0

def scanInstruction (cs : List Char) : Step :=
  match cs with
  | '>' :: _ => .fault (.unclosed .instruction) 0
  | _ => .ofCut .instruction "<??>" (fun _ => .remark) (cutAt "?>".toList cs)

def scanMarkup (cs : List Char) : Step :=
  match cs with
  | [] => .fault (.unclosed .tag) 0
  | '!' :: rest => scanDeclaration rest
  | '?' :: rest => scanInstruction rest
  | '/' :: rest =>
    .ofCut .tag "</>" (fun written => .closing (closingName written)) (cutTag none rest)
  | _ => .ofCut .tag "<>" Event.ofTag (cutTag none cs)

/-- Reads the next event: markup, or all character data up to the next markup. -/
def Event.scan (cs : List Char) : Step :=
  match cs with
  | [] => .finished
  | '<' :: rest => scanMarkup rest
  | _ =>
    let written := cs.takeWhile (· != '<')
    .event (.text written) (Text.byteLength written) (cs.dropWhile (· != '<'))

/-! ## Every event takes characters -/

theorem length_cutAt_le {mark cs before after : List Char}
    (h : cutAt mark cs = some (before, after)) : after.length ≤ cs.length := by
  induction cs generalizing before after with
  | nil => simp [cutAt] at h
  | cons c cs ih =>
    rw [cutAt] at h
    split at h
    · obtain ⟨rfl, rfl⟩ := by simpa using h
      simp
    · obtain ⟨⟨b, a⟩, hb, heq⟩ := Option.map_eq_some_iff.1 h
      obtain ⟨rfl, rfl⟩ := by simpa using heq
      exact Nat.le_succ_of_le (ih hb)

theorem length_cutTag_le {quote : Option Char} {cs tag rest : List Char}
    (h : cutTag quote cs = some (tag, rest)) : rest.length ≤ cs.length := by
  induction cs generalizing quote tag rest with
  | nil => simp [cutTag] at h
  | cons c cs ih =>
    cases quote <;> simp only [cutTag] at h
    case some =>
      obtain ⟨⟨t, r⟩, ht, heq⟩ := Option.map_eq_some_iff.1 h
      obtain ⟨rfl, rfl⟩ := by simpa using heq
      exact Nat.le_succ_of_le (ih ht)
    case none =>
      split at h
      · obtain ⟨rfl, rfl⟩ := by simpa using h
        simp
      · obtain ⟨⟨t, r⟩, ht, heq⟩ := Option.map_eq_some_iff.1 h
        obtain ⟨rfl, rfl⟩ := by simpa using heq
        exact Nat.le_succ_of_le (ih ht)

theorem length_cutDeclaration_le {depth : Nat} {cs before after : List Char}
    (h : cutDeclaration depth cs = some (before, after)) : after.length ≤ cs.length := by
  induction cs generalizing depth before after with
  | nil => simp [cutDeclaration] at h
  | cons c cs ih =>
    rw [cutDeclaration] at h
    split at h
    · obtain ⟨rfl, rfl⟩ := by simpa using h
      simp
    · obtain ⟨⟨b, a⟩, hb, heq⟩ := Option.map_eq_some_iff.1 h
      obtain ⟨rfl, rfl⟩ := by simpa using heq
      exact Nat.le_succ_of_le (ih hb)

theorem Step.ofCut_eq_event {what : Unclosed} {shell : String} {make : List Char → Event}
    {cut : Option (List Char × List Char)} {event : Event} {size : Nat} {rest : List Char}
    (h : Step.ofCut what shell make cut = .event event size rest) :
    ∃ content, cut = some (content, rest) ∧ event = make content := by
  cases cut with
  | none => simp [Step.ofCut] at h
  | some pair =>
    obtain ⟨rfl, -, rfl⟩ := by simpa [Step.ofCut] using h
    exact ⟨pair.1, rfl, rfl⟩

theorem length_scanDoctype_le {cs rest : List Char} {event : Event} {size : Nat}
    (h : scanDoctype cs = .event event size rest) : rest.length ≤ cs.length := by
  unfold scanDoctype at h
  split at h
  · split at h
    · simp at h
    · next hcut =>
      simp only at h
      split at h
      · simp at h
      · obtain ⟨-, -, rfl⟩ := by simpa using h
        have := length_cutDeclaration_le hcut
        simp at this
        omega
  · simp at h

theorem length_scanDeclaration_le {cs rest : List Char} {event : Event} {size : Nat}
    (h : scanDeclaration cs = .event event size rest) : rest.length ≤ cs.length := by
  unfold scanDeclaration at h
  split at h
  · obtain ⟨content, hcut, -⟩ := Step.ofCut_eq_event h
    have := length_cutAt_le hcut
    simp
    omega
  · simp at h
  · obtain ⟨content, hcut, -⟩ := Step.ofCut_eq_event h
    have := length_cutAt_le hcut
    simp
    omega
  · simp at h
  · exact length_scanDoctype_le h
  · exact length_scanDoctype_le h
  · simp at h

theorem length_scanInstruction_le {cs rest : List Char} {event : Event} {size : Nat}
    (h : scanInstruction cs = .event event size rest) : rest.length ≤ cs.length := by
  unfold scanInstruction at h
  split at h
  · simp at h
  · obtain ⟨content, hcut, -⟩ := Step.ofCut_eq_event h
    exact length_cutAt_le hcut

theorem length_scanMarkup_le {cs rest : List Char} {event : Event} {size : Nat}
    (h : scanMarkup cs = .event event size rest) : rest.length ≤ cs.length := by
  unfold scanMarkup at h
  split at h
  · simp at h
  · exact Nat.le_succ_of_le (length_scanDeclaration_le h)
  · exact Nat.le_succ_of_le (length_scanInstruction_le h)
  · obtain ⟨content, hcut, -⟩ := Step.ofCut_eq_event h
    exact Nat.le_succ_of_le (length_cutTag_le hcut)
  · obtain ⟨content, hcut, -⟩ := Step.ofCut_eq_event h
    exact length_cutTag_le hcut

theorem Event.length_scan_lt {cs rest : List Char} {event : Event} {size : Nat}
    (h : Event.scan cs = .event event size rest) : rest.length < cs.length := by
  unfold Event.scan at h
  split at h
  · simp at h
  · exact Nat.lt_succ_of_le (length_scanMarkup_le h)
  · next hnil hopen =>
    obtain ⟨-, -, rfl⟩ := by simpa using h
    match cs with
    | [] => exact absurd rfl hnil
    | c :: cs =>
      have hc : c ≠ '<' := fun heq => hopen cs (by rw [heq])
      rw [List.dropWhile_cons_of_pos (by simpa using hc)]
      exact Nat.lt_succ_of_le (length_dropWhile_le _ cs)

end Phrasebook.Markup
