import Phrasebook.Proofs.Catalog.Run

/-!
# Building a catalog again

A catalog lists the operations that build it: its header, then each context with its messages
(`rebuild`). A fresh builder that takes them ends with the same contents (`contents_rebuild`).
Nothing is merged on the way: names are mentioned once, and messages of one source and key have met
in the first run.
-/

namespace Phrasebook

/-- Messages that differ in source or key are stored as they come. -/
theorem storedOf_of_nodup {messages : List Message} (h : (messages.map Message.identity).Nodup) :
    storedOf messages = messages := by
  induction messages using List.reverseRecOn with
  | nil => rfl
  | append_singleton earlier message ih =>
    rw [List.map_append, List.nodup_append] at h
    obtain ⟨hearlier, -, hdiffer⟩ := h
    have hnew : message.identity ∉ earlier.map Message.identity := fun hmem =>
      hdiffer _ hmem _ List.mem_cons_self rfl
    rw [storedOf_append_singleton, ih hearlier, settle, if_neg hnew]

theorem storedOf_storedOf (pushed : List Message) :
    storedOf (storedOf pushed) = storedOf pushed := by
  refine storedOf_of_nodup ?_
  rw [map_identity_storedOf]
  exact nodup_identity_firstsOf pushed

namespace Catalog

/-- The operations that build a context with its messages. -/
def stepsOf (context : String × List Message) : List Step :=
  .openContext context.1 :: context.2.map (.add context.1)

/-- The operations that build a catalog of this version with the other header fields and the
contents of `catalog`. -/
def rebuild (version : String) (catalog : Catalog) : List Step :=
  .version version :: (catalog.language.toList.map .language ++
    catalog.sourceLanguage.toList.map .sourceLanguage) ++ catalog.contents.flatMap stepsOf

variable {contents : List (String × List Message)}

/-! ## Contexts -/

theorem mentions_stepsOf (context : String × List Message) :
    (stepsOf context).filterMap Step.mention? = context.1 :: context.2.map fun _ => context.1 := by
  have hname : (Step.openContext context.1).mention? = some context.1 := rfl
  rw [stepsOf, List.filterMap_cons_some hname, List.filterMap_map]
  exact congrArg _ (List.filterMap_eq_map_iff_forall_eq_some.2 fun _ _ => rfl)

theorem eraseDups_mentions (h : (contents.map Prod.fst).Nodup) :
    (contents.flatMap fun context => (stepsOf context).filterMap Step.mention?).eraseDups =
      contents.map Prod.fst := by
  induction contents with
  | nil => rfl
  | cons context rest ih =>
    rw [List.map_cons, List.nodup_cons] at h
    -- the later mentions of this context are dropped, those of the other contexts are not
    have hsame :
        (context.2.map fun _ => context.1).filter (fun name => !name == context.1) = [] := by
      simp
    have hlater : (rest.flatMap fun later => (stepsOf later).filterMap Step.mention?).filter
        (fun name => !name == context.1) =
          rest.flatMap fun later => (stepsOf later).filterMap Step.mention? := by
      refine List.filter_eq_self.2 fun name hname => ?_
      obtain ⟨later, hmem, hmention⟩ := List.mem_flatMap.1 hname
      have hlater : name = later.1 := by
        rw [mentions_stepsOf] at hmention
        rcases List.mem_cons.1 hmention with heq | hadded
        · exact heq
        · obtain ⟨message, -, rfl⟩ := List.mem_map.1 hadded
          rfl
      have hne : name ≠ context.1 := fun heq =>
        h.1 (List.mem_map.2 ⟨later, hmem, hlater.symm.trans heq⟩)
      simpa using hne
    rw [List.flatMap_cons, mentions_stepsOf, List.cons_append, List.eraseDups_cons,
      List.filter_append, hsame, hlater, List.nil_append, ih h.2, List.map_cons]

theorem pushedTo_stepsOf (name : String) (context : String × List Message) :
    pushedTo name (stepsOf context) = if context.1 = name then context.2 else [] := by
  rw [pushedTo, stepsOf, List.filterMap_cons_none rfl, List.filterMap_map]
  split
  · rename_i hname
    have hpushed : Step.pushed? name ∘ Step.add context.1 = some := by
      funext message
      exact if_pos hname
    rw [hpushed, List.filterMap_some]
  · rename_i hname
    exact List.filterMap_eq_nil_iff.2 fun message _ => if_neg hname

theorem pushedTo_flatMap (h : (contents.map Prod.fst).Nodup) {context : String × List Message}
    (hmem : context ∈ contents) : pushedTo context.1 (contents.flatMap stepsOf) = context.2 := by
  have hsplit : pushedTo context.1 (contents.flatMap stepsOf) =
      contents.flatMap fun other => pushedTo context.1 (stepsOf other) := List.filterMap_flatMap
  rw [hsplit]
  obtain ⟨before, after, rfl⟩ := List.append_of_mem hmem
  rw [List.map_append, List.map_cons, List.nodup_append, List.nodup_cons] at h
  obtain ⟨-, ⟨hafter, -⟩, hbefore⟩ := h
  have hnone (others : List (String × List Message)) (hother : context.1 ∉ others.map Prod.fst) :
      (others.flatMap fun other => pushedTo context.1 (stepsOf other)) = [] := by
    refine List.flatMap_eq_nil_iff.2 fun other hmem => ?_
    rw [pushedTo_stepsOf, if_neg fun heq => hother (List.mem_map.2 ⟨other, hmem, heq⟩)]
  rw [List.flatMap_append, List.flatMap_cons, hnone before, hnone after hafter, pushedTo_stepsOf,
    if_pos rfl, List.append_nil, List.nil_append]
  exact fun hmem => hbefore _ hmem _ List.mem_cons_self rfl

/-! ## Catalogs -/

theorem nodup_contents (steps : List Step) :
    ((Run.ofSteps steps).builder.build.contents.map Prod.fst).Nodup := by
  have hnames : (Run.ofSteps steps).builder.build.contents.map Prod.fst =
      (Run.ofSteps steps).builder.names := by
    unfold contents
    rw [List.map_map]
    rfl
  rw [hnames]
  exact (Run.wellFormed_ofSteps steps).nodup

theorem mentions_rebuild (version : String) {catalog : Catalog}
    (h : (catalog.contents.map Prod.fst).Nodup) :
    mentions (rebuild version catalog) = catalog.contents.map Prod.fst := by
  rw [← eraseDups_mentions h, mentions, rebuild, List.filterMap_append, List.filterMap_flatMap]
  cases catalog.language <;> cases catalog.sourceLanguage <;> rfl

theorem pushedTo_rebuild (version name : String) (catalog : Catalog) :
    pushedTo name (rebuild version catalog) = pushedTo name (catalog.contents.flatMap stepsOf) := by
  rw [pushedTo, rebuild, List.filterMap_append]
  cases catalog.language <;> cases catalog.sourceLanguage <;> rfl

/-- What was built is built again. -/
theorem contents_rebuild (version : String) (steps : List Step) :
    (Run.ofSteps (rebuild version (Run.ofSteps steps).builder.build)).builder.build.contents =
      (Run.ofSteps steps).builder.build.contents := by
  have hnodup := nodup_contents steps
  rw [Run.contents_ofSteps, mentions_rebuild version hnodup, List.map_map]
  refine (List.map_congr_left fun context hmem => ?_).trans (List.map_id _)
  have hstored : storedOf context.2 = context.2 := by
    rw [Run.contents_ofSteps] at hmem
    obtain ⟨name, -, rfl⟩ := List.mem_map.1 hmem
    exact storedOf_storedOf _
  rw [Function.comp_apply, pushedTo_rebuild, pushedTo_flatMap hnodup hmem, hstored]
  rfl

theorem header_perform {step : Step} (h : step.mention?.isSome) (run : Run) :
    (run.perform step).builder.version = run.builder.version ∧
      (run.perform step).builder.language = run.builder.language ∧
        (run.perform step).builder.sourceLanguage = run.builder.sourceLanguage := by
  have hopen (name : String) : (run.builder.openContext name).version = run.builder.version ∧
      (run.builder.openContext name).language = run.builder.language ∧
        (run.builder.openContext name).sourceLanguage = run.builder.sourceLanguage := by
    unfold Builder.openContext
    split <;> exact ⟨rfl, rfl, rfl⟩
  cases step with
  | openContext name => exact hopen name
  | add name message =>
    rw [Run.builder_perform_add]
    exact hopen name
  | _ => cases h

theorem header_foldl {steps : List Step} (h : ∀ step ∈ steps, step.mention?.isSome) (run : Run) :
    (steps.foldl Run.perform run).builder.version = run.builder.version ∧
      (steps.foldl Run.perform run).builder.language = run.builder.language ∧
        (steps.foldl Run.perform run).builder.sourceLanguage = run.builder.sourceLanguage := by
  induction steps generalizing run with
  | nil => exact ⟨rfl, rfl, rfl⟩
  | cons step rest ih =>
    obtain ⟨hversion, hlanguage, hsource⟩ := header_perform (h step List.mem_cons_self) run
    obtain ⟨hversions, hlanguages, hsources⟩ :=
      ih (fun later hlater => h later (List.mem_cons_of_mem _ hlater)) (run.perform step)
    exact ⟨hversions.trans hversion, hlanguages.trans hlanguage, hsources.trans hsource⟩

theorem header_rebuild (version : String) (catalog : Catalog) :
    (Run.ofSteps (rebuild version catalog)).builder.version = some version ∧
      (Run.ofSteps (rebuild version catalog)).builder.language = catalog.language ∧
        (Run.ofSteps (rebuild version catalog)).builder.sourceLanguage =
          catalog.sourceLanguage := by
  have hcontexts : ∀ step ∈ catalog.contents.flatMap stepsOf, step.mention?.isSome := by
    intro step hstep
    obtain ⟨context, -, hmem⟩ := List.mem_flatMap.1 hstep
    rcases List.mem_cons.1 hmem with rfl | hadd
    · rfl
    · obtain ⟨message, -, rfl⟩ := List.mem_map.1 hadd
      rfl
  rw [rebuild, Run.ofSteps_append]
  obtain ⟨hversion, hlanguage, hsource⟩ := header_foldl hcontexts
    (Run.ofSteps (.version version :: (catalog.language.toList.map .language ++
      catalog.sourceLanguage.toList.map .sourceLanguage)))
  rw [hversion, hlanguage, hsource]
  cases catalog.language <;> cases catalog.sourceLanguage <;> exact ⟨rfl, rfl, rfl⟩

end Catalog

end Phrasebook
