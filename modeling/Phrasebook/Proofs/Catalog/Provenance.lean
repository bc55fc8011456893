import Mathlib.Data.List.Forall2
import Phrasebook.Proofs.Catalog.Selection
import Phrasebook.Proofs.Report.Consistency

/-!
# Provenance

Where a message comes from does not matter: its locations, its old source text, the translator's
comment and, beside a comment, the extra comment. Without them a message is its `essence`. A run of
a builder goes the same way on messages and on their essences (`Run.answers_essence`), and the
catalog it builds comes to the same contents up to essence (`Run.essences_ofSteps`), which are all
that requests and reports read. So runs whose operations agree are alike (`Run.alike_of_agrees`).
-/

namespace Phrasebook

/-! ## Messages -/

namespace Message

/-- What matters of a message. -/
def essence (message : Message) : Message where
  source := message.source
  comment := message.comment
  extraComment := if message.comment = none then message.extraComment else none
  translation := message.translation
  status := message.status

/-- Two messages that differ in nothing but where they come from. -/
structure Agrees (a b : Message) : Prop where
  source : a.source = b.source
  translation : a.translation = b.translation
  status : a.status = b.status
  comment : a.comment = b.comment
  /-- An extra comment matters only where there is no comment. -/
  extraComment : a.comment = none → a.extraComment = b.extraComment

theorem Agrees.essence_eq {a b : Message} (h : a.Agrees b) : a.essence = b.essence := by
  have hextra : (if a.comment = none then a.extraComment else none) =
      if b.comment = none then b.extraComment else none := by
    rw [← h.comment]
    split
    · rename_i hcomment
      exact h.extraComment hcomment
    · rfl
  rw [essence, essence, hextra, h.source, h.comment, h.translation, h.status]

@[simp] theorem key_essence (message : Message) : message.essence.key = message.key := by
  unfold key essence
  cases message.comment <;> rfl

@[simp] theorem identity_essence (message : Message) :
    message.essence.identity = message.identity := by
  rw [identity, identity, key_essence]
  rfl

@[simp] theorem essence_withLocations (message : Message) (locations : List Location) :
    (Context.withLocations message locations).essence = message.essence := rfl

end Message

open Message (essence)

/-! ## What is stored -/

theorem firstsOf_map_essence (pushed : List Message) :
    firstsOf (pushed.map essence) = (firstsOf pushed).map essence := by
  induction pushed with
  | nil => rfl
  | cons first rest ih =>
    rw [List.map_cons, firstsOf, firstsOf, List.map_cons, ih, List.filter_map]
    congr 3
    funext later
    simp

/-- Up to essence a context stores the first message of each source and key. -/
theorem storedOf_map_essence (pushed : List Message) :
    (storedOf pushed).map essence = firstsOf (pushed.map essence) := by
  rw [firstsOf_map_essence, storedOf, List.map_map]
  rfl

theorem contradicts_essence (earlier : List Message) (message : Message) :
    contradicts (earlier.map essence) message.essence = contradicts earlier message := by
  rw [contradicts, contradicts, List.find?_map, Option.any_map]
  simp only [Message.identity_essence, Function.comp_def]
  rfl

namespace Catalog

/-! ## Operations -/

def Step.essence : Step → Step
  | .add name message => .add name message.essence
  | step => step

/-- Two operations that are the same but for where their messages come from. -/
inductive Step.Agrees : Step → Step → Prop where
  | same (step : Step) : Agrees step step
  | add (name : String) {a b : Message} (h : a.Agrees b) : Agrees (.add name a) (.add name b)

theorem map_essence_eq {steps steps' : List Step} (h : List.Forall₂ Step.Agrees steps steps') :
    steps.map Step.essence = steps'.map Step.essence := by
  induction h with
  | nil => rfl
  | cons hstep _ ih =>
    rw [List.map_cons, List.map_cons, ih]
    cases hstep with
    | same step => rfl
    | add name hagrees => rw [Step.essence, Step.essence, hagrees.essence_eq]

theorem mentions_essence (steps : List Step) :
    mentions (steps.map Step.essence) = mentions steps := by
  rw [mentions, mentions, List.filterMap_map]
  congr 2
  funext step
  cases step <;> rfl

theorem pushedTo_essence (name : String) (steps : List Step) :
    pushedTo name (steps.map Step.essence) = (pushedTo name steps).map Message.essence := by
  rw [pushedTo, pushedTo, List.filterMap_map, List.map_filterMap]
  congr 1
  funext step
  cases step with
  | add other message =>
    show (if other = name then some message.essence else none) =
        Option.map _ (if other = name then _ else _)
    split <;> rfl
  | _ => rfl

/-! ## Runs -/

namespace Run

theorem answers_essence (steps : List Step) :
    (ofSteps (steps.map Step.essence)).answers = (ofSteps steps).answers := by
  induction steps using List.reverseRecOn with
  | nil => rfl
  | append_singleton steps step ih =>
    rw [List.map_append, List.map_singleton, ofSteps_append_singleton, ofSteps_append_singleton]
    cases step with
    | add name message =>
      show (ofSteps _).answers ++ [(ofSteps _).builder.accepts name message.essence] = _ ++ [_]
      rw [ih, accepts_ofSteps, accepts_ofSteps, pushedTo_essence, contradicts_essence]
    | _ => exact ih

theorem language_essence (steps : List Step) :
    (ofSteps (steps.map Step.essence)).builder.language = (ofSteps steps).builder.language := by
  induction steps using List.reverseRecOn with
  | nil => rfl
  | append_singleton steps step ih =>
    rw [List.map_append, List.map_singleton, ofSteps_append_singleton, ofSteps_append_singleton]
    cases step with
    | language text => rfl
    | openContext name =>
      have hkeeps (run : Run) :
          (run.perform (.openContext name)).builder.language = run.builder.language :=
        (header_perform rfl run).2.1
      exact (hkeeps _).trans (ih.trans (hkeeps _).symm)
    | add name message =>
      have hkeeps (message : Message) (run : Run) :
          (run.perform (.add name message)).builder.language = run.builder.language :=
        (header_perform rfl run).2.1
      exact (hkeeps _ _).trans (ih.trans (hkeeps _ _).symm)
    | _ => exact ih

theorem conflicts_eq_count (steps : List Step) :
    (ofSteps steps).builder.conflicts = (ofSteps steps).answers.count false := by
  induction steps using List.reverseRecOn with
  | nil => rfl
  | append_singleton steps step ih =>
    rw [ofSteps_append_singleton]
    cases step with
    | openContext name => exact (Builder.conflicts_openContext _ name).trans ih
    | add name message =>
      rw [builder_perform_add, Builder.conflicts_add, ih]
      show _ =
          ((ofSteps steps).answers ++ [(ofSteps steps).builder.accepts name message]).count false
      rw [List.count_append]
      cases (ofSteps steps).builder.accepts name message <;> rfl
    | _ => exact ih

end Run

/-! ## Catalogs -/

def essences (catalog : Catalog) : List (String × List Message) :=
  catalog.contents.map fun entry => (entry.1, entry.2.map Message.essence)

theorem Run.essences_ofSteps (steps : List Step) :
    (ofSteps steps).builder.build.essences =
      (mentions (steps.map Step.essence)).map fun name =>
        (name, firstsOf (pushedTo name (steps.map Step.essence))) := by
  rw [essences, contents_ofSteps, List.map_map, mentions_essence]
  refine List.map_congr_left fun name _ => ?_
  rw [Function.comp_apply, storedOf_map_essence, pushedTo_essence]

variable {catalog other : Catalog}

theorem messageCount_eq_essences (catalog : Catalog) :
    catalog.messageCount = catalog.essences.foldr (fun entry n => entry.2.length + n) 0 := by
  rw [messageCount, essences, contents]
  induction catalog.contexts.toList with
  | nil => rfl
  | cons context rest ih =>
    rw [List.foldr_cons, ih]
    simp [Context.size]

theorem about_map_essence (catalog : Catalog) (context source : String) :
    (catalog.about context source).map Message.essence =
      (catalog.essences.find? fun entry => entry.1 = context).elim [] fun entry =>
        entry.2.filter fun message => message.source = source := by
  rw [about, essences, List.find?_map]
  show _ = Option.elim (Option.map _ (catalog.contents.find? fun entry => entry.1 = context)) _ _
  cases catalog.contents.find? fun entry => entry.1 = context with
  | none => rfl
  | some entry =>
    show (entry.2.filter _).map Message.essence = (entry.2.map Message.essence).filter _
    rw [List.filter_map]
    rfl

theorem visible_eq_essences (catalog : Catalog) (context source : String) :
    catalog.visible context source =
      ((catalog.about context source).map Message.essence).map fun message =>
        (message.key, message.finished?) := by
  rw [visible, List.map_map]
  refine List.map_congr_left fun message _ => ?_
  rw [Function.comp_apply, Message.key_essence]
  rfl

theorem coverage_eq_essences (catalog : Catalog) :
    catalog.coverage =
      let contexts := catalog.essences.map fun entry =>
        ContextCoverage.mk entry.1 (.sum (entry.2.map Tally.ofMessage))
      ⟨catalog.language, .sum (contexts.map (·.tally)), contexts⟩ := by
  have hcontexts : catalog.contexts.toList.map Context.coverage = catalog.essences.map fun entry =>
      ContextCoverage.mk entry.1 (.sum (entry.2.map Tally.ofMessage)) := by
    rw [essences, contents, List.map_map, List.map_map]
    refine List.map_congr_left fun context _ => ?_
    simp only [Function.comp_apply, List.map_map]
    rfl
  rw [coverage, hcontexts]

theorem mismatches_eq_essences (catalog : Catalog) :
    catalog.mismatches = catalog.essences.flatMap fun entry =>
      entry.2.filterMap (Mismatch.ofMessage? entry.1) := by
  rw [mismatches_eq_contents, essences, List.flatMap_map]
  congr 1
  funext entry
  rw [List.filterMap_map]
  rfl

/-! ## Two runs -/

/-- Two runs that cannot be told apart by their answers and counts or by what the catalogs that they
build answer and report. -/
structure Run.Alike (run run' : Run) : Prop where
  answers : run'.answers = run.answers
  merged : run'.builder.merged = run.builder.merged
  conflicts : run'.builder.conflicts = run.builder.conflicts
  translate : ∀ context source disambiguation,
    run'.builder.build.translate context source disambiguation =
      run.builder.build.translate context source disambiguation
  translateWith : ∀ context source args disambiguation,
    run'.builder.build.translateWith context source args disambiguation =
      run.builder.build.translateWith context source args disambiguation
  translateCounted : ∀ context source disambiguation count,
    run'.builder.build.translateCounted context source disambiguation count =
      run.builder.build.translateCounted context source disambiguation count
  coverage : run'.builder.build.coverage = run.builder.build.coverage
  mismatches : run'.builder.build.mismatches = run.builder.build.mismatches

namespace Run

variable {steps steps' : List Step}

theorem answers_congr (h : steps.map Step.essence = steps'.map Step.essence) :
    (ofSteps steps').answers = (ofSteps steps).answers := by
  rw [← answers_essence, ← h, answers_essence]

theorem conflicts_congr (h : steps.map Step.essence = steps'.map Step.essence) :
    (ofSteps steps').builder.conflicts = (ofSteps steps).builder.conflicts := by
  rw [conflicts_eq_count, conflicts_eq_count, answers_congr h]

theorem essences_congr (h : steps.map Step.essence = steps'.map Step.essence) :
    (ofSteps steps').builder.build.essences = (ofSteps steps).builder.build.essences := by
  rw [essences_ofSteps, essences_ofSteps, h]

/-- The messages that were merged are those that were neither dropped nor stored. -/
theorem merged_congr (h : steps.map Step.essence = steps'.map Step.essence) :
    (ofSteps steps').builder.merged = (ofSteps steps).builder.merged := by
  have htally (steps : List Step) :
      (ofSteps steps).builder.merged + (ofSteps steps).builder.conflicts +
        (ofSteps steps).builder.build.messageCount = (ofSteps steps).answers.length :=
    (tally_ofSteps steps).trans (length_answers steps).symm
  have hsteps := htally steps
  have hsteps' := htally steps'
  rw [conflicts_congr h, answers_congr h, messageCount_eq_essences, essences_congr h,
    ← messageCount_eq_essences] at hsteps'
  omega

theorem language_congr (h : steps.map Step.essence = steps'.map Step.essence) :
    (ofSteps steps').builder.language = (ofSteps steps).builder.language := by
  rw [← language_essence, ← h, language_essence]

theorem shown?_congr (h : steps.map Step.essence = steps'.map Step.essence)
    (context source : String) (disambiguation : Option String) :
    (ofSteps steps').builder.build.shown? context source disambiguation =
      (ofSteps steps).builder.build.shown? context source disambiguation := by
  have hvisible : (ofSteps steps').builder.build.visible context source =
      (ofSteps steps).builder.build.visible context source := by
    rw [visible_eq_essences, visible_eq_essences, about_map_essence, about_map_essence,
      essences_congr h]
  exact Catalog.shown?_congr (wellFormed_ofSteps steps).build
    (wellFormed_ofSteps steps').build hvisible disambiguation

/-- Provenance never shows: runs whose operations differ in nothing but where their messages come
from are alike. -/
theorem alike_of_agrees (h : List.Forall₂ Step.Agrees steps steps') :
    Alike (ofSteps steps) (ofSteps steps') := by
  have hsame := map_essence_eq h
  have hlanguage :
      (ofSteps steps').builder.build.language = (ofSteps steps).builder.build.language :=
    language_congr hsame
  have hrule :
      (ofSteps steps').builder.build.pluralRule = (ofSteps steps).builder.build.pluralRule := by
    rw [pluralRule_build, pluralRule_build, language_congr hsame]
  have htranslate (context source : String) (disambiguation : Option String) :=
    translate_congr (shown?_congr hsame context source disambiguation)
  exact {
    answers := answers_congr hsame
    merged := merged_congr hsame
    conflicts := conflicts_congr hsame
    translate := htranslate
    translateWith := fun context source args disambiguation =>
      congrArg (Template.withArgs · args) (htranslate context source disambiguation)
    translateCounted := fun context source disambiguation count =>
      translateCounted_congr hrule (shown?_congr hsame context source disambiguation) count
    coverage := by
      rw [coverage_eq_essences, coverage_eq_essences, essences_congr hsame, hlanguage]
    mismatches := by
      rw [mismatches_eq_essences, mismatches_eq_essences, essences_congr hsame] }

/-- A message from a place, the same message from another place, and a message that contradicts
them. -/
def placed (file note : String) : List Step :=
  [.language "pl",
    .add "Player" { source := "Open", comment := some "verb", extraComment := some note,
                    translation := .single "Otwórz", locations := [⟨file, some 7⟩] },
    .add "Player" { source := "Open", comment := some "verb", translation := .single "Otwórz",
                    translatorComment := some note, oldSource := some file },
    .add "Player" { source := "Open", comment := some "verb", translation := .single "Otwarte",
                    locations := [⟨file, none⟩] }]

/-- Neither the places nor the notes make a difference. -/
theorem alike_of_agrees_placed :
    List.Forall₂ Step.Agrees (placed "player.cpp" "on a button") (placed "main.cpp" "in a menu") ∧
      Alike (ofSteps (placed "player.cpp" "on a button"))
        (ofSteps (placed "main.cpp" "in a menu")) := by
  have hagrees : List.Forall₂ Step.Agrees (placed "player.cpp" "on a button")
      (placed "main.cpp" "in a menu") := by
    refine .cons (.same _) (.cons (.add _ ?_) (.cons (.add _ ?_) (.cons (.add _ ?_) .nil)))
    · exact ⟨rfl, rfl, rfl, rfl, nofun⟩
    · exact ⟨rfl, rfl, rfl, rfl, nofun⟩
    · exact ⟨rfl, rfl, rfl, rfl, nofun⟩
  exact ⟨hagrees, alike_of_agrees hagrees⟩

end Run

end Catalog

end Phrasebook
