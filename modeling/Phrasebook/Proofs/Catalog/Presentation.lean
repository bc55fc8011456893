import Phrasebook.Proofs.Catalog.Run
import Phrasebook.Proofs.Template.Placeholder

/-!
# Shown texts

A request for a source text that is not empty is answered by a text that is not empty, with one
exception: without a count, the first form of a finished translation is shown even where it is empty
and only a later form has text (`translate_eq_empty_iff`). With a count, an empty form gives way to
the source text.
-/

namespace Phrasebook

/-! ## Templates -/

namespace Template

theorem integer_ne_nil (count : Int) : Text.integer count ≠ [] := by
  cases count with
  | ofNat n => exact Nat.toDigits_ne_nil
  | negSucc n => exact List.cons_ne_nil _ _

theorem fillCount_ne_nil {count cs : List Char} (hcount : count ≠ []) (hcs : cs ≠ []) :
    fillCount count cs ≠ [] := by
  unfold fillCount
  split
  · exact List.append_ne_nil_of_left_ne_nil hcount _
  · exact List.append_ne_nil_of_left_ne_nil hcount _
  · exact List.cons_ne_nil _ _
  · exact absurd rfl hcs

/-- Count markers are replaced by digits, so a template with text keeps some. -/
theorem withCount_ne_empty {template : String} (h : template ≠ "") (count : Int) :
    withCount template count ≠ "" := by
  intro hempty
  have hnil : fillCount (Text.integer count) template.toList = [] := by
    simpa [withCount_eq] using congrArg String.toList hempty
  exact fillCount_ne_nil (integer_ne_nil count) (by simpa using h) hnil

end Template

theorem Message.isPresentable_iff {message : Message} : message.isPresentable = true ↔
    message.status = .finished ∧ ∃ text ∈ message.translation.texts, text ≠ "" := by
  simp [isPresentable, Translation.isEmpty]

namespace Catalog

variable {catalog : Catalog} {context source : String} {disambiguation : Option String}

theorem lookup?_empty (context source : String) (disambiguation : Option String) :
    empty.lookup? context source disambiguation = none := by
  have hcontext : empty.context? context = none := by
    rw [context?, empty, Std.HashMap.getElem?_empty]
    rfl
  rw [lookup?, hcontext]
  rfl

theorem presented?_empty (context source : String) (disambiguation : Option String) :
    empty.presented? context source disambiguation = none := by
  rw [presented?, lookup?_empty]
  rfl

/-! ## Requests with a count -/

theorem mem_of_form? {rule : Plural.Rule} {count : Int} {translation : Translation} {text : String}
    (h : form? rule count translation = some text) : text ∈ translation.texts := by
  cases translation with
  | single shown =>
    cases h
    exact List.mem_cons_self
  | forms texts =>
    rcases Option.or_eq_some_iff.1 (Option.filter_eq_some_iff.1 h).1 with hform | ⟨-, hlast⟩
    · exact List.mem_of_getElem? hform
    · exact List.mem_of_getLast? hlast

theorem form?_ne_empty {rule : Plural.Rule} {count : Int} {message : Message} {text : String}
    (hpresentable : message.isPresentable = true)
    (h : form? rule count message.translation = some text) : text ≠ "" := by
  cases htranslation : message.translation with
  | single shown =>
    rw [htranslation] at h
    cases h
    obtain ⟨-, shown', hmem, hne⟩ := Message.isPresentable_iff.1 hpresentable
    rw [htranslation] at hmem
    exact List.mem_singleton.1 hmem ▸ hne
  | forms texts =>
    rw [htranslation] at h
    have hshown := (Option.filter_eq_some_iff.1 h).2
    rintro rfl
    simp at hshown

theorem pluralTemplate_ne_empty (hsource : source ≠ "") (count : Int) :
    catalog.pluralTemplate context source disambiguation count ≠ "" := by
  unfold pluralTemplate
  cases hform : (catalog.presented? context source disambiguation).bind fun message =>
      form? catalog.pluralRule count message.translation with
  | none => exact hsource
  | some text =>
    obtain ⟨message, hpresented, hform⟩ := Option.bind_eq_some_iff.1 hform
    exact form?_ne_empty (Option.filter_eq_some_iff.1 hpresented).2 hform

/-! ## Requests without a count -/

/-- A translation with text has an empty first text exactly when it has forms, the first of them is
empty and a later one is not. -/
theorem uncounted_eq_empty_iff {translation : Translation}
    (htext : ∃ text ∈ translation.texts, text ≠ "") :
    translation.uncounted = "" ↔
      ∃ rest, translation = .forms ("" :: rest) ∧ ∃ form ∈ rest, form ≠ "" := by
  obtain ⟨text, hmem, hne⟩ := htext
  constructor
  · intro hempty
    match translation with
    | .single shown =>
      obtain rfl : text = shown := List.mem_singleton.1 hmem
      exact absurd hempty hne
    | .forms [] => cases hmem
    | .forms (first :: rest) =>
      obtain rfl : first = "" := hempty
      rcases List.mem_cons.1 hmem with rfl | hrest
      · exact absurd rfl hne
      · exact ⟨rest, rfl, text, hrest, hne⟩
  · rintro ⟨rest, rfl, -⟩
    rfl

/-- A request for a source text is answered by an empty text exactly when its message is finished
and has an empty first form before a form with text. With a count that never happens. -/
theorem translate_eq_empty_iff (catalog : Catalog) (context source : String)
    (disambiguation : Option String) (hsource : source ≠ "") :
    (catalog.translate context source disambiguation = "" ↔
      ∃ message, catalog.lookup? context source disambiguation = some message ∧
        message.status = .finished ∧
          ∃ rest, message.translation = .forms ("" :: rest) ∧ ∃ form ∈ rest, form ≠ "") ∧
      ∀ count, catalog.translateCounted context source disambiguation count ≠ "" := by
  refine ⟨?_,
    fun count => Template.withCount_ne_empty (pluralTemplate_ne_empty hsource count) count⟩
  unfold translate presented?
  constructor
  · intro hempty
    cases hpresented :
        (catalog.lookup? context source disambiguation).filter Message.isPresentable with
    | none =>
      rw [hpresented] at hempty
      exact absurd hempty hsource
    | some message =>
      rw [hpresented] at hempty
      obtain ⟨hlookup, hpresentable⟩ := Option.filter_eq_some_iff.1 hpresented
      obtain ⟨hfinished, htext⟩ := Message.isPresentable_iff.1 hpresentable
      exact ⟨message, hlookup, hfinished, (uncounted_eq_empty_iff htext).1 hempty⟩
  · rintro ⟨message, hlookup, hfinished, rest, htranslation, form, hmem, hne⟩
    have hpresentable : message.isPresentable = true := by
      refine Message.isPresentable_iff.2 ⟨hfinished, form, ?_, hne⟩
      rw [htranslation]
      exact List.mem_cons_of_mem _ hmem
    rw [hlookup, Option.filter_some, if_pos hpresentable]
    show message.translation.uncounted = ""
    rw [htranslation]
    rfl

/-- A message without a key that was added to a fresh builder is found by its source text. -/
theorem lookup?_ofSteps_add {name : String} {message : Message} (hkey : message.key = .plain) :
    (Run.ofSteps [.add name message]).builder.build.lookup? name message.source none =
      some message := by
  rw [Run.ofSteps, List.foldl_cons, List.foldl_nil, lookup?, context?]
  show Option.bind (Option.bind (Builder.index _)[name]? fun i => (Builder.contexts _)[i]?) _ = _
  rw [Run.builder_perform_add]
  simp [Builder.add, Builder.openContext, Builder.position, Context.insert, Context.place,
    Context.positionOf?, Context.positions, Context.resolve?, Context.find?, Context.wantedKeys,
    Context.size, hkey]

def blankFirst : Message := { source := "A", translation := .forms ["", "x"] }

theorem lookup?_blankFirst :
    (Run.ofSteps [.add "X" blankFirst]).builder.build.lookup? "X" "A" none =
      some blankFirst := by
  have hkey : blankFirst.key = .plain := rfl
  exact lookup?_ofSteps_add hkey

theorem translate_blankFirst :
    "A" ≠ "" ∧ (Run.ofSteps [.add "X" blankFirst]).builder.build.translate "X" "A" none = "" := by
  have hsource : "A" ≠ "" := by decide
  refine ⟨hsource, (translate_eq_empty_iff _ "X" "A" none hsource).1.2
    ⟨blankFirst, lookup?_blankFirst, rfl, ["x"], rfl, "x", List.mem_singleton.2 rfl, ?_⟩⟩
  decide

/-- So a builder can make a catalog that answers a source text by an empty text. -/
theorem not_forall_translate_ne_empty :
    ¬ ∀ (steps : List Step) (context source : String) (disambiguation : Option String),
      source ≠ "" →
        (Run.ofSteps steps).builder.build.translate context source disambiguation ≠ "" := by
  intro h
  refine h [.add "X" blankFirst] "X" "A" none (by decide) ?_
  unfold translate presented?
  rw [lookup?_blankFirst]
  rfl

end Catalog

end Phrasebook
