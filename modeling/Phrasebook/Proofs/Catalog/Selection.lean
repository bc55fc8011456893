import Phrasebook.Proofs.Catalog.Lookup
import Phrasebook.Proofs.Catalog.Presentation
import Phrasebook.Proofs.Catalog.Rebuilding

/-!
# Which messages are shown

A request looks at the messages with its source text in its context, and of these only at their
keys: `Scan.choose` says which one it takes. What it shows of this message is a text of its
translation, and only if the message is finished. So all that requests ever see of a catalog is
`visible`, the keys of the messages with a source text and the finished ones among their
translations (`shown?_eq`).
-/

namespace Phrasebook

/-! ## Choosing by key -/

namespace Scan

variable {α β : Type}

/-- The element of a list that has no other. -/
def only : List α → Option α
  | [entry] => some entry
  | _ => none

/-- What a disambiguation chooses among entries with keys. -/
def choose (key : α → Key) (entries : List α) : Option String → Option α
  | some text =>
    (entries.find? fun entry => key entry = .comment text).or
      ((entries.find? fun entry => key entry = .extraComment text).or
        (entries.find? fun entry => key entry = .plain))
  | none => (entries.find? fun entry => key entry = .plain).or (only entries)

theorem first_eq_find? (messages : List Message) (source : String) (p : Message → Bool) :
    first messages source p = (messages.filter fun message => message.source = source).find? p := by
  rw [first, List.find?_filter]
  congr 1
  funext message
  simp

theorem sole_eq_only (messages : List Message) (source : String) :
    sole messages source = only (messages.filter fun message => message.source = source) := by
  unfold sole
  generalize messages.filter (fun message => message.source = source) = entries
  match entries with
  | [] | [_] | _ :: _ :: _ => rfl

/-- A request gets what its disambiguation chooses among the messages with its source text. -/
theorem resolved_eq_choose (messages : List Message) (source : String)
    (disambiguation : Option String) :
    resolved messages source disambiguation =
      choose Message.key (messages.filter fun message =>
        message.source = source) disambiguation := by
  cases disambiguation with
  | none =>
    simp only [resolved, choose, plain, first_eq_find?, Message.key_eq_plain_iff, sole_eq_only]
  | some text =>
    simp only [resolved, choose, plain, commented, noted, first_eq_find?, Message.key_eq_plain_iff,
      Message.key_eq_comment_iff, Message.key_eq_extraComment_iff]

theorem choose_map (key : β → Key) (f : α → β) (entries : List α) (disambiguation : Option String) :
    choose key (entries.map f) disambiguation =
      (choose (key ∘ f) entries disambiguation).map f := by
  have honly : only (entries.map f) = (only entries).map f := by
    match entries with
    | [] | [_] | _ :: _ :: _ => rfl
  cases disambiguation with
  | none =>
    rw [choose, choose, List.find?_map, honly, Option.map_or]
    rfl
  | some text =>
    rw [choose, choose, List.find?_map, List.find?_map, List.find?_map, Option.map_or,
      Option.map_or]
    rfl

/-- The choice has the wanted key, or there is no other. -/
theorem of_choose {key : α → Key} {entries : List α} {disambiguation : Option String} {entry : α}
    (h : choose key entries disambiguation = some entry) :
    entry ∈ entries ∧
      (key entry = .plain ∨ entries = [entry] ∧ disambiguation = none ∨
        ∃ text, disambiguation = some text ∧
          (key entry = .comment text ∨ key entry = .extraComment text)) := by
  have hfind {wanted : Key}
      (hfound : entries.find? (fun entry => key entry = wanted) = some entry) :
      entry ∈ entries ∧ key entry = wanted :=
    ⟨List.mem_of_find?_eq_some hfound, by simpa using List.find?_some hfound⟩
  cases disambiguation with
  | none =>
    obtain hplain | ⟨-, honly⟩ := Option.or_eq_some_iff.1 h
    · exact ⟨(hfind hplain).1, .inl (hfind hplain).2⟩
    · unfold only at honly
      split at honly
      · cases honly
        exact ⟨List.mem_singleton.2 rfl, .inr (.inl ⟨rfl, rfl⟩)⟩
      · cases honly
  | some text =>
    obtain hcomment | ⟨-, h⟩ := Option.or_eq_some_iff.1 h
    · exact ⟨(hfind hcomment).1, .inr (.inr ⟨text, rfl, .inl (hfind hcomment).2⟩)⟩
    · obtain hextra | ⟨-, hplain⟩ := Option.or_eq_some_iff.1 h
      · exact ⟨(hfind hextra).1, .inr (.inr ⟨text, rfl, .inr (hfind hextra).2⟩)⟩
      · exact ⟨(hfind hplain).1, .inl (hfind hplain).2⟩

end Scan

/-- The translation, once it is finished. -/
def Message.finished? (message : Message) : Option Translation :=
  if message.status = .finished then some message.translation else none

namespace Catalog

variable {catalog other : Catalog}

/-! ## What is shown -/

def about (catalog : Catalog) (context source : String) : List Message :=
  (catalog.contents.find? fun entry => entry.1 = context).elim [] fun entry =>
    entry.2.filter fun message => message.source = source

/-- The translation that a request shows. -/
def shown? (catalog : Catalog) (context source : String) (disambiguation : Option String) :
    Option Translation :=
  (catalog.presented? context source disambiguation).map Message.translation

/-- What requests see of the messages with a source text in a context: their keys and the finished
ones of their translations. -/
def visible (catalog : Catalog) (context source : String) : List (Key × Option Translation) :=
  (catalog.about context source).map fun message => (message.key, message.finished?)

theorem translate_eq_shown (catalog : Catalog) (context source : String)
    (disambiguation : Option String) :
    catalog.translate context source disambiguation =
      (catalog.shown? context source disambiguation).elim source Translation.uncounted := by
  unfold translate shown?
  cases catalog.presented? context source disambiguation <;> rfl

theorem pluralTemplate_eq_shown (catalog : Catalog) (context source : String)
    (disambiguation : Option String) (count : Int) :
    catalog.pluralTemplate context source disambiguation count =
      ((catalog.shown? context source disambiguation).bind (form? catalog.pluralRule count)).getD
        source := by
  unfold pluralTemplate shown?
  cases catalog.presented? context source disambiguation <;> rfl

theorem lookup?_eq_choose (h : catalog.WellFormed) (context source : String)
    (disambiguation : Option String) :
    catalog.lookup? context source disambiguation =
      Scan.choose Message.key (catalog.about context source) disambiguation := by
  rw [lookup?_eq_scan h, scan, about]
  cases catalog.contents.find? fun entry => entry.1 = context with
  | none => cases disambiguation <;> rfl
  | some entry => exact Scan.resolved_eq_choose entry.2 source disambiguation

/-- What a request shows is the translation of the message that its disambiguation chooses, if that
one is finished and has text. -/
theorem shown?_eq (h : catalog.WellFormed) (context source : String)
    (disambiguation : Option String) :
    catalog.shown? context source disambiguation =
      ((Scan.choose Prod.fst (catalog.visible context source) disambiguation).bind Prod.snd).filter
        (fun translation => !translation.isEmpty) := by
  rw [shown?, presented?, lookup?_eq_choose h, visible, Scan.choose_map]
  show _ = Option.filter _ (((Scan.choose Message.key _ disambiguation).map _).bind _)
  cases Scan.choose Message.key (catalog.about context source) disambiguation with
  | none => rfl
  | some message =>
    rw [Option.filter_some, Option.map_some, Option.bind_some, Message.finished?,
      Message.isPresentable]
    by_cases hfinished : message.status = .finished
    · rw [if_pos hfinished, hfinished, Option.filter_some]
      cases message.translation.isEmpty <;> rfl
    · rw [if_neg hfinished, beq_eq_false_iff_ne.2 hfinished]
      rfl

theorem shown?_congr (h : catalog.WellFormed) (hother : other.WellFormed) {context source : String}
    (hvisible : other.visible context source = catalog.visible context source)
    (disambiguation : Option String) :
    other.shown? context source disambiguation = catalog.shown? context source disambiguation := by
  rw [shown?_eq h, shown?_eq hother, hvisible]

theorem translate_congr {context source : String} {disambiguation : Option String}
    (hshown : other.shown? context source disambiguation =
      catalog.shown? context source disambiguation) :
    other.translate context source disambiguation =
      catalog.translate context source disambiguation := by
  rw [translate_eq_shown, translate_eq_shown, hshown]

theorem translateCounted_congr {context source : String} {disambiguation : Option String}
    (hrule : other.pluralRule = catalog.pluralRule)
    (hshown : other.shown? context source disambiguation =
      catalog.shown? context source disambiguation)
    (count : Int) :
    other.translateCounted context source disambiguation count =
      catalog.translateCounted context source disambiguation count := by
  rw [translateCounted, translateCounted, pluralTemplate_eq_shown, pluralTemplate_eq_shown, hshown,
    hrule]

/-! ## Eligible messages -/

/-- A stored message whose translation a request may show: it is in the context of the request, has
its source text, is finished and fits its disambiguation. -/
structure Eligible (catalog : Catalog) (context source : String) (disambiguation : Option String)
    (message : Message) : Prop where
  stored : ∃ found ∈ catalog.contexts.toList, found.name = context ∧ message ∈ found.messages.toList
  sameSource : message.source = source
  finished : message.status = .finished
  /-- A comment wins over an extra comment, and a message with neither always fits. Without a
  disambiguation the only message with the source text fits too. -/
  fits : (message.comment = none ∧ message.extraComment = none) ∨
    (∃ text, disambiguation = some text ∧
      (message.comment = some text ∨ message.comment = none ∧ message.extraComment = some text)) ∨
    (disambiguation = none ∧ catalog.about context source = [message])

theorem mem_about {context source : String} {message : Message}
    (h : message ∈ catalog.about context source) :
    (∃ found ∈ catalog.contexts.toList, found.name = context ∧ message ∈ found.messages.toList) ∧
      message.source = source := by
  unfold about at h
  cases hfind : catalog.contents.find? fun entry => entry.1 = context with
  | none =>
    rw [hfind] at h
    cases h
  | some entry =>
    rw [hfind] at h
    obtain ⟨hmem, hsource⟩ := List.mem_filter.1 h
    obtain ⟨found, hfound, rfl⟩ := List.mem_map.1 (List.mem_of_find?_eq_some hfind)
    exact ⟨⟨found, hfound, by simpa using List.find?_some hfind, hmem⟩, by simpa using hsource⟩

theorem eligible_of_presented? (h : catalog.WellFormed) {context source : String}
    {disambiguation : Option String} {message : Message}
    (hpresented : catalog.presented? context source disambiguation = some message) :
    Eligible catalog context source disambiguation message := by
  obtain ⟨hlookup, hpresentable⟩ := Option.filter_eq_some_iff.1 hpresented
  rw [lookup?_eq_choose h] at hlookup
  obtain ⟨hmem, hkey⟩ := Scan.of_choose hlookup
  obtain ⟨hstored, hsource⟩ := mem_about hmem
  refine ⟨hstored, hsource, (Message.isPresentable_iff.1 hpresentable).1, ?_⟩
  obtain hplain | ⟨honly, hnone⟩ | ⟨text, htext, hkey⟩ := hkey
  · exact .inl (Message.key_eq_plain_iff.1 hplain)
  · exact .inr (.inr ⟨hnone, honly⟩)
  · exact .inr (.inl ⟨text, htext, hkey.imp Message.key_eq_comment_iff.1
      Message.key_eq_extraComment_iff.1⟩)

/-- What a request without a count shows is its source text or the text of an eligible message. -/
theorem translate_eligible (h : catalog.WellFormed) (context source : String)
    (disambiguation : Option String) :
    catalog.translate context source disambiguation = source ∨
      ∃ message, Eligible catalog context source disambiguation message ∧
        catalog.translate context source disambiguation = message.translation.uncounted := by
  unfold translate
  cases hpresented : catalog.presented? context source disambiguation with
  | none => exact .inl rfl
  | some message => exact .inr ⟨message, eligible_of_presented? h hpresented, rfl⟩

theorem pluralTemplate_eligible (h : catalog.WellFormed) (context source : String)
    (disambiguation : Option String) (count : Int) :
    catalog.pluralTemplate context source disambiguation count = source ∨
      ∃ message, Eligible catalog context source disambiguation message ∧
        catalog.pluralTemplate context source disambiguation count ∈ message.translation.texts := by
  cases hform : (catalog.presented? context source disambiguation).bind fun message =>
      form? catalog.pluralRule count message.translation with
  | none => exact .inl (by rw [pluralTemplate, hform, Option.getD_none])
  | some text =>
    -- the form that is taken, at its index or the last one, is a text of the message that is
    -- presented
    obtain ⟨message, hpresented, htext⟩ := Option.bind_eq_some_iff.1 hform
    refine .inr ⟨message, eligible_of_presented? h hpresented, ?_⟩
    rw [pluralTemplate, hform, Option.getD_some]
    exact mem_of_form? htext

/-- Nothing but eligible messages is ever shown. An answer is the source text or a text of an
eligible message, and it stays the same when everything changes that is not visible: other contexts,
messages with other source texts, and the translations of messages that are not finished. -/
theorem Reachable.shows_eligible (hreachable : Reachable catalog) (context source : String)
    (disambiguation : Option String) :
    (catalog.translate context source disambiguation = source ∨
      ∃ message, Eligible catalog context source disambiguation message ∧
        catalog.translate context source disambiguation = message.translation.uncounted) ∧
    (∀ count,
      catalog.translateCounted context source disambiguation count =
          Template.withCount (catalog.pluralTemplate context source disambiguation count) count ∧
        (catalog.pluralTemplate context source disambiguation count = source ∨
          ∃ message, Eligible catalog context source disambiguation message ∧
            catalog.pluralTemplate context source disambiguation count ∈
              message.translation.texts)) ∧
    ∀ other, Reachable other → other.pluralRule = catalog.pluralRule →
      other.visible context source = catalog.visible context source →
        other.translate context source disambiguation =
            catalog.translate context source disambiguation ∧
          ∀ count, other.translateCounted context source disambiguation count =
            catalog.translateCounted context source disambiguation count := by
  have h := hreachable.wellFormed
  refine ⟨translate_eligible h context source disambiguation,
    fun count => ⟨rfl, pluralTemplate_eligible h context source disambiguation count⟩,
    fun other hother hrule hvisible => ?_⟩
  have hshown := shown?_congr h hother.wellFormed hvisible disambiguation
  exact ⟨translate_congr hshown, translateCounted_congr hrule hshown⟩

theorem pluralRule_build (builder : Builder) :
    builder.build.pluralRule = builder.language.elim .english Plural.Rule.ofLocale := rfl

theorem pluralRule_ofSteps {steps : List Step} (h : ∀ step ∈ steps, step.mention?.isSome) :
    (Run.ofSteps steps).builder.build.pluralRule = .english := by
  rw [pluralRule_build, Run.ofSteps, (header_foldl h {}).2.1]
  rfl

/-- A draft of a message in one context, and a message with the same source text in another. -/
def drafted (draft elsewhere : String) : List Step :=
  [.add "Player" { source := "Open", translation := .single draft, status := .unfinished },
    .add "Menu" { source := "Open", translation := .single elsewhere }]

/-- Neither the draft nor the message of the other context shows. -/
theorem Reachable.shows_eligible_drafted :
    Reachable (Run.ofSteps (drafted "Otwarte" "Otwórz")).builder.build ∧
      (Run.ofSteps (drafted "Otwarte" "Otwórz")).builder.build.visible "Player" "Open" =
          [(.plain, none)] ∧
        (Run.ofSteps (drafted "Tajne" "Inne")).builder.build.translate "Player" "Open" none =
          (Run.ofSteps (drafted "Otwarte" "Otwórz")).builder.build.translate
            "Player" "Open" none := by
  have hmentions (draft elsewhere : String) :
      ∀ step ∈ drafted draft elsewhere, step.mention?.isSome := by
    intro step hstep
    obtain rfl | rfl := by simpa [drafted] using hstep
    · rfl
    · rfl
  have hvisible : (Run.ofSteps (drafted "Otwarte" "Otwórz")).builder.build.visible "Player" "Open" =
      [(.plain, none)] := by
    rw [visible, about, Run.contents_ofSteps]
    decide
  have hother : (Run.ofSteps (drafted "Tajne" "Inne")).builder.build.visible "Player" "Open" =
      [(.plain, none)] := by
    rw [visible, about, Run.contents_ofSteps]
    decide
  have hsame :=
    (Reachable.shows_eligible (.built (drafted "Otwarte" "Otwórz")) "Player" "Open" none).2.2
      _ (.built (drafted "Tajne" "Inne"))
    (by rw [pluralRule_ofSteps (hmentions _ _), pluralRule_ofSteps (hmentions _ _)])
    (hother.trans hvisible.symm)
  exact ⟨.built _, hvisible, hsame.1⟩

end Catalog

end Phrasebook
