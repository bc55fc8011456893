import Mathlib.Data.List.Nodup
import Phrasebook.Proofs.Catalog.Provenance
import Phrasebook.Proofs.Report.Tally

/-!
# The order of additions

Additions about one source text in one context do not meet those about another. What they are
answered and what they leave behind is the same as in a run of them alone (`Run.logAbout_eq`,
`Run.about_ofSteps`), so it depends on nothing but the messages that are added there, in order
(`addedAbout`). Two runs that add the same there cannot be told apart there, whatever else they do
in between, and two runs that add the same everywhere come to the same numbers
(`Run.order_irrelevant`).
-/

namespace Phrasebook

/-! ## Messages with one source text -/

theorem firstsOf_filter_source (pushed : List Message) (source : String) :
    firstsOf (pushed.filter fun message => message.source = source) =
      (firstsOf pushed).filter fun message => message.source = source := by
  induction pushed with
  | nil => rfl
  | cons first rest ih =>
    by_cases hfirst : first.source = source
    · rw [List.filter_cons_of_pos (by simpa using hfirst), firstsOf, firstsOf, ih,
        List.filter_cons_of_pos (by simpa using hfirst), List.filter_comm]
    · -- the first message has another identity than any message with this source text
      rw [List.filter_cons_of_neg (by simpa using hfirst), ih, firstsOf,
        List.filter_cons_of_neg (by simpa using hfirst), List.filter_filter]
      apply List.filter_congr
      intro later _
      by_cases hlater : later.source = source
      · have hne : later.identity ≠ first.identity := by
          intro hsame
          exact hfirst ((congrArg Prod.fst hsame).symm.trans hlater)
        simp [hlater, hne]
      · simp [hlater]

/-- What is stored of the messages with a source text is stored of them alone. -/
theorem storedOf_filter_source (pushed : List Message) (source : String) :
    storedOf (pushed.filter fun message => message.source = source) =
      (storedOf pushed).filter fun message => message.source = source := by
  rw [storedOf, storedOf, List.filter_map, firstsOf_filter_source]
  refine List.map_congr_left fun first hfirst => ?_
  have hsource : first.source = source := by simpa using (List.mem_filter.1 hfirst).2
  have hrepeats : repeatsOf (pushed.filter fun message => message.source = source) first =
      repeatsOf pushed first := by
    unfold repeatsOf
    rw [List.filter_filter]
    congr 1
    apply List.filter_congr
    intro message _
    by_cases hsame : message.identity = first.identity
    · have hmessage : message.source = source := (congrArg Prod.fst hsame).trans hsource
      simp [hsame, hmessage]
    · simp [hsame]
  rw [hrepeats]

/-- A message can only contradict messages with its source text. -/
theorem contradicts_filter_source (earlier : List Message) (message : Message) :
    contradicts (earlier.filter fun other => other.source = message.source) message =
      contradicts earlier message := by
  unfold contradicts
  rw [List.find?_filter]
  congr 2
  ext first
  by_cases hsame : first.identity = message.identity
  · have hsource : first.source = message.source := congrArg Prod.fst hsame
    simp [hsame, hsource]
  · simp [hsame]

theorem nodup_storedOf (pushed : List Message) : (storedOf pushed).Nodup := by
  have hidentity : ((storedOf pushed).map Message.identity).Nodup := by
    rw [map_identity_storedOf]
    exact nodup_identity_firstsOf pushed
  exact hidentity.of_map _

namespace Catalog

/-! ## Additions about a source text -/

def Step.addition? : Step → Option (String × Message)
  | .add name message => some (name, message)
  | .version _ | .language _ | .sourceLanguage _ | .openContext _ => none

def additions (steps : List Step) : List (String × Message) := steps.filterMap Step.addition?

/-- The messages with a source text that operations add to a context, in order. -/
def addedAbout (context source : String) (steps : List Step) : List Message :=
  (pushedTo context steps).filter fun message => message.source = source

def aloneAbout (context source : String) (steps : List Step) : List Step :=
  (addedAbout context source steps).map (.add context)

/-- An addition with its answer is about a source text in a context. -/
def isAbout (context source : String) (entry : (String × Message) × Bool) : Bool :=
  entry.1.1 = context ∧ entry.1.2.source = source

theorem addedAbout_append (context source : String) (before after : List Step) :
    addedAbout context source (before ++ after) =
      addedAbout context source before ++ addedAbout context source after := by
  rw [addedAbout, pushedTo, List.filterMap_append, List.filter_append]
  rfl

theorem addedAbout_add (context source name : String) (message : Message) :
    addedAbout context source [.add name message] =
      if name = context ∧ message.source = source then [message] else [] := by
  unfold addedAbout pushedTo
  by_cases hname : name = context
  · by_cases hsource : message.source = source <;> simp [Step.pushed?, hname, hsource]
  · simp [Step.pushed?, hname]

theorem addedAbout_of_none (context source : String) {step : Step} (h : step.addition? = none) :
    addedAbout context source [step] = [] := by
  cases step with
  | add name message => cases h
  | _ => rfl

theorem addedAbout_add_of_ne {context source name : String} {message : Message}
    (hother : (context, source) ≠ (name, message.source)) (before after : List Step) :
    addedAbout context source (before ++ .add name message :: after) =
      addedAbout context source (before ++ after) := by
  have hnone : addedAbout context source [.add name message] = [] := by
    rw [addedAbout_add]
    apply if_neg
    rintro ⟨rfl, rfl⟩
    exact hother rfl
  rw [List.append_cons, addedAbout_append, addedAbout_append _ _ before, hnone, List.append_nil,
    ← addedAbout_append]

theorem pushedTo_of_notMem {context : String} {steps : List Step}
    (hcontext : context ∉ mentions steps) :
    pushedTo context steps = [] := by
  rw [pushedTo, List.filterMap_eq_nil_iff]
  intro step hstep
  cases step with
  | add name message =>
    apply if_neg
    rintro rfl
    exact hcontext (List.mem_eraseDups.2 (List.mem_filterMap.2 ⟨_, hstep, rfl⟩))
  | _ => rfl

theorem pushedTo_aloneAbout (context source : String) (steps : List Step) :
    pushedTo context (aloneAbout context source steps) = addedAbout context source steps := by
  rw [aloneAbout, pushedTo, List.filterMap_map]
  have hpushed : Step.pushed? context ∘ Step.add context = some := by
    ext message
    simp [Step.pushed?]
  rw [hpushed, List.filterMap_some]

def Step.language? : Step → Option String
  | .language text => some text
  | .version _ | .sourceLanguage _ | .openContext _ | .add _ _ => none

namespace Run

theorem language_perform (run : Run) (step : Step) :
    (run.perform step).builder.language = step.language?.or run.builder.language := by
  cases step with
  | openContext name => exact (header_perform rfl run).2.1
  | add name message => exact (header_perform rfl run).2.1
  | _ => rfl

theorem language_ofSteps (steps : List Step) :
    (ofSteps steps).builder.language = (steps.filterMap Step.language?).getLast? := by
  induction steps using List.reverseRecOn with
  | nil => rfl
  | append_singleton steps step ih =>
    rw [ofSteps_append_singleton, language_perform, ih, List.filterMap_append, List.getLast?_append]
    cases hstep : step.language? <;> simp [hstep]

theorem language_add (before after : List Step) (name : String) (message : Message) :
    (ofSteps (before ++ .add name message :: after)).builder.language =
      (ofSteps (before ++ after)).builder.language := by
  rw [language_ofSteps, language_ofSteps, List.filterMap_append, List.filterMap_append,
    List.filterMap_cons_none rfl]

/-! ## What additions are answered -/

/-- The additions of a run with their answers, in order. -/
def log (steps : List Step) : List ((String × Message) × Bool) :=
  (additions steps).zip (ofSteps steps).answers

theorem length_additions (steps : List Step) :
    (additions steps).length = (ofSteps steps).answers.length := by
  rw [length_answers, additions]
  induction steps with
  | nil => rfl
  | cons step rest ih =>
    cases step with
    | add name message => exact congrArg Nat.succ ih
    | _ => exact ih

theorem map_snd_log (steps : List Step) : (log steps).map Prod.snd = (ofSteps steps).answers :=
  List.map_snd_zip (length_additions steps).ge

theorem length_log (steps : List Step) : (log steps).length = (ofSteps steps).answers.length := by
  rw [← map_snd_log, List.length_map]

theorem log_append_of_none (steps : List Step) {step : Step} (h : step.addition? = none) :
    log (steps ++ [step]) = log steps := by
  have hanswers : (ofSteps (steps ++ [step])).answers = (ofSteps steps).answers := by
    rw [ofSteps_append_singleton]
    cases step with
    | add name message => cases h
    | _ => rfl
  rw [log, hanswers, additions, List.filterMap_append, List.filterMap_cons_none h,
    List.filterMap_nil, List.append_nil]
  rfl

theorem log_append_add (steps : List Step) (name : String) (message : Message) :
    log (steps ++ [.add name message]) =
      log steps ++ [((name, message), !contradicts (pushedTo name steps) message)] := by
  have hanswers : (ofSteps (steps ++ [.add name message])).answers =
      (ofSteps steps).answers ++ [!contradicts (pushedTo name steps) message] := by
    rw [ofSteps_append_singleton, ← accepts_ofSteps]
    rfl
  rw [log, hanswers, additions, List.filterMap_append, ← additions,
    List.zip_append (length_additions steps)]
  rfl

/-- Additions about a source text in a context are answered as if there were no others. -/
theorem logAbout_eq (context source : String) (steps : List Step) :
    (log steps).filter (isAbout context source) = log (aloneAbout context source steps) := by
  induction steps using List.reverseRecOn with
  | nil => rfl
  | append_singleton steps step ih =>
    cases hstep : step.addition? with
    | none =>
      rw [log_append_of_none steps hstep, ih, aloneAbout, aloneAbout, addedAbout_append,
        addedAbout_of_none _ _ hstep, List.append_nil]
    | some addition =>
      obtain ⟨name, message, rfl⟩ : ∃ name message, step = .add name message := by
        cases step with
        | add name message => exact ⟨name, message, rfl⟩
        | _ => cases hstep
      rw [log_append_add, List.filter_append, ih, aloneAbout, aloneAbout, addedAbout_append,
        addedAbout_add, List.map_append, ← aloneAbout]
      by_cases habout : name = context ∧ message.source = source
      · obtain ⟨rfl, rfl⟩ := habout
        rw [if_pos ⟨rfl, rfl⟩, List.map_singleton, log_append_add, pushedTo_aloneAbout, addedAbout,
          contradicts_filter_source, List.filter_cons_of_pos (by simp [isAbout]), List.filter_nil]
      · rw [if_neg habout, List.map_nil, List.append_nil,
          List.filter_cons_of_neg (by simpa [isAbout] using habout), List.filter_nil,
          List.append_nil]

/-! ## What is left behind -/

theorem about_ofSteps (context source : String) (steps : List Step) :
    (ofSteps steps).builder.build.about context source =
      storedOf (addedAbout context source steps) := by
  rw [about, addedAbout, storedOf_filter_source]
  by_cases hcontext : context ∈ mentions steps
  · have hentry : (context, storedOf (pushedTo context steps)) ∈
        (ofSteps steps).builder.build.contents := by
      rw [contents_ofSteps]
      exact List.mem_map_of_mem hcontext
    rw [(find?_eq_some_iff_of_nodup (nodup_contents steps)).2 ⟨hentry, rfl⟩]
    rfl
  · have hnone :
        (ofSteps steps).builder.build.contents.find? (fun entry => entry.1 = context) = none := by
      rw [contents_ofSteps, List.find?_eq_none]
      intro entry hentry
      obtain ⟨name, hname, rfl⟩ := List.mem_map.1 hentry
      simpa using ne_of_mem_of_not_mem hname hcontext
    rw [hnone, pushedTo_of_notMem hcontext]
    rfl

/-- A lookup chooses among the messages that were added with its source text to its context. -/
theorem lookup?_ofSteps (steps : List Step) (context source : String)
    (disambiguation : Option String) :
    (ofSteps steps).builder.build.lookup? context source disambiguation =
      Scan.choose Message.key (storedOf (addedAbout context source steps)) disambiguation := by
  rw [lookup?_eq_choose (wellFormed_ofSteps steps).build, about_ofSteps]

end Run

/-! ## What is stored altogether -/

def filed (catalog : Catalog) : List (String × Message) :=
  catalog.contents.flatMap fun entry => entry.2.map (Prod.mk entry.1)

theorem messageCount_eq_length_filed (catalog : Catalog) :
    catalog.messageCount = catalog.filed.length := by
  rw [messageCount, filed, contents]
  induction catalog.contexts.toList with
  | nil => rfl
  | cons context rest ih =>
    rw [List.foldr_cons, ih]
    simp [Context.size]

theorem totals_eq_sum_filed (catalog : Catalog) :
    catalog.coverage.totals = .sum (catalog.filed.map fun entry => Tally.ofMessage entry.2) := by
  have htallies : catalog.filed.map (fun entry => Tally.ofMessage entry.2) =
      catalog.contexts.toList.flatMap fun context =>
        context.messages.toList.map Tally.ofMessage := by
    rw [filed, contents, List.flatMap_map, List.map_flatMap]
    simp only [List.map_map]
    rfl
  rw [htallies, Tally.sum_flatMap, coverage, List.map_map]
  rfl

theorem mem_filed_ofSteps {steps : List Step} {context : String} {message : Message} :
    (context, message) ∈ (Run.ofSteps steps).builder.build.filed ↔
      message ∈ storedOf (addedAbout context message.source steps) := by
  rw [addedAbout, storedOf_filter_source, List.mem_filter, filed, Run.contents_ofSteps]
  simp only [List.mem_flatMap, List.mem_map, Prod.mk.injEq, decide_true, and_true]
  constructor
  · rintro ⟨_, ⟨name, -, rfl⟩, stored, hstored, rfl, rfl⟩
    exact hstored
  · intro hstored
    have hcontext : context ∈ mentions steps := by
      by_contra hcontext
      rw [pushedTo_of_notMem hcontext] at hstored
      cases hstored
    exact ⟨_, ⟨context, hcontext, rfl⟩, message, hstored, rfl, rfl⟩

theorem nodup_filed_ofSteps (steps : List Step) :
    (Run.ofSteps steps).builder.build.filed.Nodup := by
  rw [filed, Run.contents_ofSteps, List.flatMap_map, List.nodup_flatMap]
  constructor
  · intro name _
    exact (nodup_storedOf _).map (Prod.mk_right_injective name)
  · have hmentions : (mentions steps).Nodup := by
      rw [← Run.names_ofSteps]
      exact (Run.wellFormed_ofSteps steps).nodup
    refine hmentions.imp fun {name other} hne => ?_
    intro entry hentry hentry'
    obtain ⟨_, -, rfl⟩ := List.mem_map.1 hentry
    obtain ⟨_, -, hsame⟩ := List.mem_map.1 hentry'
    exact hne (congrArg Prod.fst hsame).symm

namespace Run

variable {steps steps' : List Step}

/-! ## Two runs -/

/-- Lists that agree on what is about each source text in each context have the same elements. -/
theorem perm_of_filter_isAbout {log log' : List ((String × Message) × Bool)}
    (h : ∀ context source, log'.filter (isAbout context source) =
      log.filter (isAbout context source)) :
    log'.Perm log := by
  rw [List.perm_iff_count]
  intro entry
  have habout : isAbout entry.1.1 entry.1.2.source entry = true := by simp [isAbout]
  rw [← List.count_filter habout, h, List.count_filter habout]

/-- Two runs cannot be told apart by what they answer about a source text in a context: the
additions there are the same and have the same answers, and so have all requests to the catalogs
that are built. -/
structure SameAbout (steps steps' : List Step) (context source : String) : Prop where
  log : (log steps').filter (isAbout context source) = (log steps).filter (isAbout context source)
  lookup : ∀ disambiguation,
    (ofSteps steps').builder.build.lookup? context source disambiguation =
      (ofSteps steps).builder.build.lookup? context source disambiguation
  translate : ∀ disambiguation,
    (ofSteps steps').builder.build.translate context source disambiguation =
      (ofSteps steps).builder.build.translate context source disambiguation
  translateWith : ∀ args disambiguation,
    (ofSteps steps').builder.build.translateWith context source args disambiguation =
      (ofSteps steps).builder.build.translateWith context source args disambiguation
  translateCounted : (ofSteps steps').builder.language = (ofSteps steps).builder.language →
    ∀ disambiguation count,
      (ofSteps steps').builder.build.translateCounted context source disambiguation count =
        (ofSteps steps).builder.build.translateCounted context source disambiguation count

theorem sameAbout_of_addedAbout {context source : String}
    (h : addedAbout context source steps' = addedAbout context source steps) :
    SameAbout steps steps' context source := by
  have hlookup (disambiguation : Option String) :
      (ofSteps steps').builder.build.lookup? context source disambiguation =
        (ofSteps steps).builder.build.lookup? context source disambiguation := by
    rw [lookup?_ofSteps, lookup?_ofSteps, h]
  have hshown (disambiguation : Option String) :
      (ofSteps steps').builder.build.shown? context source disambiguation =
        (ofSteps steps).builder.build.shown? context source disambiguation := by
    rw [shown?, shown?, presented?, presented?, hlookup]
  exact {
    log := by rw [logAbout_eq, logAbout_eq, aloneAbout, aloneAbout, h]
    lookup := hlookup
    translate := fun disambiguation => translate_congr (hshown disambiguation)
    translateWith := fun args disambiguation =>
      congrArg (Template.withArgs · args) (translate_congr (hshown disambiguation))
    translateCounted := fun hlanguage disambiguation count => by
      refine translateCounted_congr ?_ (hshown disambiguation) count
      rw [pluralRule_build, pluralRule_build, hlanguage] }

/-! ### The same additions everywhere -/

section Everywhere

variable (h : ∀ context source, addedAbout context source steps' = addedAbout context source steps)
include h

theorem perm_log :
    (log steps').Perm (log steps) :=
  perm_of_filter_isAbout fun context source => (sameAbout_of_addedAbout (h context source)).log

theorem perm_filed :
    (ofSteps steps').builder.build.filed.Perm (ofSteps steps).builder.build.filed := by
  rw [List.perm_ext_iff_of_nodup (nodup_filed_ofSteps steps') (nodup_filed_ofSteps steps)]
  rintro ⟨context, message⟩
  rw [mem_filed_ofSteps, mem_filed_ofSteps, h]

theorem conflicts_of_addedAbout :
    (ofSteps steps').builder.conflicts = (ofSteps steps).builder.conflicts := by
  rw [conflicts_eq_count, conflicts_eq_count, ← map_snd_log, ← map_snd_log]
  exact ((perm_log h).map Prod.snd).count_eq false

theorem merged_of_addedAbout :
    (ofSteps steps').builder.merged = (ofSteps steps).builder.merged := by
  have htally (steps : List Step) :
      (ofSteps steps).builder.merged + (ofSteps steps).builder.conflicts +
        (ofSteps steps).builder.build.filed.length = (log steps).length := by
    rw [← messageCount_eq_length_filed, length_log, length_answers, ← tally_ofSteps]
    rfl
  have hsteps := htally steps
  have hsteps' := htally steps'
  rw [conflicts_of_addedAbout h, (perm_filed h).length_eq, (perm_log h).length_eq] at hsteps'
  omega

theorem totals_of_addedAbout :
    (ofSteps steps').builder.build.coverage.totals =
      (ofSteps steps).builder.build.coverage.totals := by
  rw [totals_eq_sum_filed, totals_eq_sum_filed]
  exact Tally.sum_perm ((perm_filed h).map _)

end Everywhere

/-- The order of additions matters only among those about one source text in one context. Two runs
that add the same messages there, in the same order, are the same there, whatever they add
elsewhere. If they add the same everywhere, they merge and drop as many messages and come to the
same totals. So an addition never changes an answer about another source text or in another
context. -/
theorem order_irrelevant (steps steps' : List Step) :
    (∀ context source, addedAbout context source steps' = addedAbout context source steps →
      SameAbout steps steps' context source) ∧
    ((∀ context source, addedAbout context source steps' = addedAbout context source steps) →
      (ofSteps steps').builder.merged = (ofSteps steps).builder.merged ∧
      (ofSteps steps').builder.conflicts = (ofSteps steps).builder.conflicts ∧
      (ofSteps steps').builder.build.coverage.totals =
        (ofSteps steps).builder.build.coverage.totals) ∧
    ∀ before name message after,
      steps = before ++ after → steps' = before ++ .add name message :: after →
      (ofSteps steps').builder.language = (ofSteps steps).builder.language ∧
      ∀ context source, (context, source) ≠ (name, message.source) →
        SameAbout steps steps' context source := by
  refine ⟨fun context source => sameAbout_of_addedAbout, fun h => ?_, ?_⟩
  · exact ⟨merged_of_addedAbout h, conflicts_of_addedAbout h, totals_of_addedAbout h⟩
  · rintro before name message after rfl rfl
    refine ⟨language_add before after name message, fun context source hother => ?_⟩
    exact sameAbout_of_addedAbout (addedAbout_add_of_ne hother before after)

/-- A message, a second one that contradicts it, and one with the same source text in another
context. -/
def shuffled : List Step :=
  [.add "Player" { source := "Open", translation := .single "Otwórz" },
    .add "Player" { source := "Open", translation := .single "Otwarte" },
    .add "Menu" { source := "Open", translation := .single "Rozwiń" }]

/-- The same additions, those to the other context first. -/
def reshuffled : List Step :=
  [.add "Menu" { source := "Open", translation := .single "Rozwiń" },
    .add "Player" { source := "Open", translation := .single "Otwórz" },
    .add "Player" { source := "Open", translation := .single "Otwarte" }]

theorem order_irrelevant_shuffled :
    (∀ context source, addedAbout context source reshuffled = addedAbout context source shuffled) ∧
      (ofSteps reshuffled).builder.conflicts = (ofSteps shuffled).builder.conflicts ∧
      (log reshuffled).filter (isAbout "Player" "Open") =
        (log shuffled).filter (isAbout "Player" "Open") ∧
      (ofSteps reshuffled).builder.build.lookup? "Menu" "Open" none =
        (ofSteps shuffled).builder.build.lookup? "Menu" "Open" none := by
  have hadded (context source : String) :
      addedAbout context source reshuffled = addedAbout context source shuffled := by
    unfold addedAbout pushedTo
    by_cases hplayer : "Player" = context
    · subst hplayer
      rfl
    · simp [shuffled, reshuffled, List.filterMap_cons, Step.pushed?, hplayer]
  obtain ⟨hsame, hnumbers, -⟩ := order_irrelevant shuffled reshuffled
  have hplayer := hsame "Player" "Open" (hadded _ _)
  have hmenu := hsame "Menu" "Open" (hadded _ _)
  exact ⟨hadded, (hnumbers hadded).2.1, hplayer.log, hmenu.lookup none⟩

end Run

end Catalog

end Phrasebook
