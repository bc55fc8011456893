import Mathlib.Data.List.Induction
import Phrasebook.Proofs.Catalog.Builder
import Phrasebook.Resource.Reader

/-!
# Runs of a builder

A run takes the operations of a builder one after another from a fresh builder and keeps what each
addition answers and what it tells. What a run leaves behind is said without builders: the contexts
are the names in the order of their first mention (`names_ofSteps`), the messages of a context are
the first ones of each source and key, with the locations of the later ones that agree with them
(`context_ofSteps`), and each addition is answered by what came before it (`answers_ofSteps`).
-/

namespace Phrasebook

/-! ## The messages that are stored -/

/-- The messages of a list that are the first ones of their source and key. -/
def firstsOf : List Message → List Message
  | [] => []
  | message :: rest =>
    message :: (firstsOf rest).filter fun later => later.identity ≠ message.identity

/-- The messages of a list with the source and key of `first`, less the first of them. -/
def repeatsOf (pushed : List Message) (first : Message) : List Message :=
  (pushed.filter fun message => message.identity = first.identity).tail

/-- What a context stores of the messages that were pushed: the first one of each source and key,
followed by the locations of the later ones with the same translation in the same state. -/
def storedOf (pushed : List Message) : List Message :=
  (firstsOf pushed).map fun first =>
    Context.withLocations first
      (((repeatsOf pushed first).filter first.sameTranslation).flatMap Message.locations)

/-- A message contradicts the first one of its source and key among those before it. -/
def contradicts (earlier : List Message) (message : Message) : Bool :=
  (earlier.find? fun first => first.identity = message.identity).any fun first =>
    !first.sameTranslation message

theorem mem_of_mem_firstsOf {pushed : List Message} {message : Message}
    (hmem : message ∈ firstsOf pushed) : message ∈ pushed := by
  induction pushed with
  | nil => exact hmem
  | cons first rest ih =>
    rw [firstsOf, List.mem_cons, List.mem_filter] at hmem
    rcases hmem with rfl | ⟨hrest, -⟩
    · exact List.mem_cons_self
    · exact List.mem_cons_of_mem _ (ih hrest)

theorem mem_identity_firstsOf {pushed : List Message} {id : String × Key} :
    id ∈ (firstsOf pushed).map Message.identity ↔ id ∈ pushed.map Message.identity := by
  induction pushed with
  | nil => rfl
  | cons first rest ih =>
    rw [firstsOf, List.map_cons, List.map_cons, List.mem_cons, List.mem_cons, ← ih]
    by_cases hid : id = first.identity
    · simp [hid]
    · refine or_congr_right ?_
      simp only [List.mem_map, List.mem_filter]
      constructor
      · rintro ⟨message, ⟨hmem, -⟩, hmessage⟩
        exact ⟨message, hmem, hmessage⟩
      · rintro ⟨message, hmem, rfl⟩
        exact ⟨message, ⟨hmem, by simpa using hid⟩, rfl⟩

theorem nodup_identity_firstsOf (pushed : List Message) :
    ((firstsOf pushed).map Message.identity).Nodup := by
  induction pushed with
  | nil => exact List.nodup_nil
  | cons first rest ih =>
    rw [firstsOf, List.map_cons, List.nodup_cons]
    refine ⟨fun hmem => ?_, ih.sublist (List.filter_sublist.map _)⟩
    obtain ⟨later, hlater, hsame⟩ := List.mem_map.1 hmem
    simp [hsame] at hlater

theorem firstsOf_append_singleton (pushed : List Message) (message : Message) :
    firstsOf (pushed ++ [message]) =
      firstsOf pushed ++
        if message.identity ∈ pushed.map Message.identity then [] else [message] := by
  induction pushed with
  | nil => rfl
  | cons first rest ih =>
    rw [List.cons_append, firstsOf, ih, List.filter_append, firstsOf, List.cons_append]
    congr 2
    by_cases hid : message.identity ∈ rest.map Message.identity
    · simp [hid]
    · by_cases hfirst : message.identity = first.identity <;> simp [hid, hfirst]

theorem find?_firstsOf (pushed : List Message) (id : String × Key) :
    (firstsOf pushed).find? (fun first => first.identity = id) =
      pushed.find? fun first => first.identity = id := by
  induction pushed with
  | nil => rfl
  | cons first rest ih =>
    rw [firstsOf]
    by_cases hid : first.identity = id
    · rw [List.find?_cons_of_pos (by simpa using hid), List.find?_cons_of_pos (by simpa using hid)]
    · rw [List.find?_cons_of_neg (by simpa using hid), List.find?_cons_of_neg (by simpa using hid),
        ← ih, List.find?_filter]
      congr 1
      funext later
      by_cases hlater : later.identity = id
      · simp [hlater, Ne.symm hid]
      · simp [hlater]

/-- A first message keeps its later companions and gets one more if the new message is one. -/
theorem repeatsOf_append_singleton {pushed : List Message} {first : Message}
    (hfirst : first ∈ pushed) (message : Message) :
    repeatsOf (pushed ++ [message]) first =
      repeatsOf pushed first ++ if first.identity = message.identity then [message] else [] := by
  have hne : (pushed.filter fun message => message.identity = first.identity) ≠ [] :=
    List.ne_nil_of_mem (List.mem_filter.2 ⟨hfirst, by simp⟩)
  rw [repeatsOf, List.filter_append, List.tail_append_of_ne_nil hne, repeatsOf]
  by_cases hid : first.identity = message.identity
  · simp [hid]
  · simp [hid, Ne.symm hid]

theorem map_identity_storedOf (pushed : List Message) :
    (storedOf pushed).map Message.identity = (firstsOf pushed).map Message.identity := by
  rw [storedOf, List.map_map]; rfl

/-- One more message changes what is stored as `settle` says. -/
theorem storedOf_append_singleton (pushed : List Message) (message : Message) :
    storedOf (pushed ++ [message]) = settle (storedOf pushed) message := by
  unfold settle
  rw [map_identity_storedOf, storedOf, firstsOf_append_singleton, List.map_append]
  by_cases hid : message.identity ∈ pushed.map Message.identity
  · rw [if_pos hid, if_pos (mem_identity_firstsOf.2 hid), List.map_nil, List.append_nil, storedOf,
      List.map_map]
    refine List.map_congr_left fun first hfirst => ?_
    rw [repeatsOf_append_singleton (mem_of_mem_firstsOf hfirst), List.filter_append,
      List.flatMap_append, withLocations_append, Function.comp_apply, identity_withLocations,
      sameTranslation_withLocations]
    by_cases hsame : first.identity = message.identity ∧ first.sameTranslation message = true
    · rw [if_pos hsame, if_pos hsame.1, List.filter_cons_of_pos hsame.2, List.filter_nil,
        List.flatMap_singleton]
    · rw [if_neg hsame]
      by_cases hfirstId : first.identity = message.identity
      · rw [if_pos hfirstId, List.filter_cons_of_neg fun hjoin => hsame ⟨hfirstId, hjoin⟩]
        exact withLocations_nil _
      · rw [if_neg hfirstId]
        exact withLocations_nil _
  · -- a new source and key: what was stored stays, and the message is stored as it came
    rw [if_neg hid, if_neg fun hmem => hid (mem_identity_firstsOf.1 hmem), storedOf]
    congr 1
    · refine List.map_congr_left fun first hfirst => ?_
      rw [repeatsOf_append_singleton (mem_of_mem_firstsOf hfirst), if_neg, List.append_nil]
      intro hsame
      exact hid (List.mem_map.2 ⟨first, mem_of_mem_firstsOf hfirst, hsame⟩)
    · have halone : (pushed ++ [message]).filter (fun later => later.identity = message.identity) =
          [message] := by
        rw [List.filter_append, List.filter_eq_nil_iff.2]
        · simp
        · intro later hlater hsame
          exact hid (List.mem_map.2 ⟨later, hlater, by simpa using hsame⟩)
      rw [List.map_singleton, repeatsOf, halone]
      exact congrArg (fun m => [m]) (withLocations_nil message)

/-- A message contradicts what came before it exactly when it contradicts a stored message. -/
theorem contradicts_iff (pushed : List Message) (message : Message) :
    contradicts pushed message = true ↔ ∃ first ∈ storedOf pushed,
      first.identity = message.identity ∧ first.sameTranslation message = false := by
  rw [contradicts, ← find?_firstsOf, Option.any_eq_true]
  constructor
  · rintro ⟨first, hfind, hdiffers⟩
    refine ⟨_, List.mem_map.2 ⟨first, List.mem_of_find?_eq_some hfind, rfl⟩, ?_⟩
    exact ⟨by simpa using List.find?_some hfind, by simpa using hdiffers⟩
  · rintro ⟨_, hmem, hid, hdiffers⟩
    obtain ⟨first, hfirst, rfl⟩ := List.mem_map.1 hmem
    rw [identity_withLocations] at hid
    cases hfind : (firstsOf pushed).find? fun first => first.identity = message.identity with
    | none =>
      have := List.find?_eq_none.1 hfind first hfirst
      simp [hid] at this
    | some found =>
      have hfound : found = first :=
        List.inj_on_of_nodup_map (nodup_identity_firstsOf pushed)
          (List.mem_of_find?_eq_some hfind) hfirst
          (Eq.trans (by simpa using List.find?_some hfind) hid.symm)
      subst hfound
      exact ⟨found, rfl, by simpa using hdiffers⟩

namespace Catalog

/-- The contexts of a catalog with their messages, in order. -/
def contents (catalog : Catalog) : List (String × List Message) :=
  catalog.contexts.toList.map fun context => (context.name, context.messages.toList)

/-! ## Runs -/

/-- An operation on a builder. -/
inductive Step where
  | version (text : String)
  | language (text : String)
  | sourceLanguage (text : String)
  | openContext (name : String)
  | add (name : String) (message : Message)

def Step.mention? : Step → Option String
  | .openContext name | .add name _ => some name
  | .version _ | .language _ | .sourceLanguage _ => none

def Step.pushed? (name : String) : Step → Option Message
  | .add other message => if other = name then some message else none
  | .version _ | .language _ | .sourceLanguage _ | .openContext _ => none

def Step.isAdd : Step → Bool
  | .add _ _ => true
  | .version _ | .language _ | .sourceLanguage _ | .openContext _ => false

/-- The names that operations mention, each at its first mention. -/
def mentions (steps : List Step) : List String := (steps.filterMap Step.mention?).eraseDups

/-- The messages that operations add to a context, in order. -/
def pushedTo (name : String) (steps : List Step) : List Message :=
  steps.filterMap (Step.pushed? name)

/-- A builder after some operations, what its additions answered and what it told. -/
structure Run where
  builder : Builder := {}
  answers : List Bool := []
  notices : List Notice := []

def Run.perform (run : Run) : Step → Run
  | .version text => { run with builder.version := some text }
  | .language text => { run with builder.language := some text }
  | .sourceLanguage text => { run with builder.sourceLanguage := some text }
  | .openContext name => { run with builder := run.builder.openContext name }
  | .add name message =>
    let added := Resource.Reader.addMessages name run.builder [message]
    { builder := added.value
      answers := run.answers ++ [run.builder.accepts name message]
      notices := run.notices ++ added.notices }

def Run.ofSteps (steps : List Step) : Run := steps.foldl perform {}

namespace Run

theorem ofSteps_append (before after : List Step) :
    ofSteps (before ++ after) = after.foldl perform (ofSteps before) := List.foldl_append

theorem ofSteps_append_singleton (steps : List Step) (step : Step) :
    ofSteps (steps ++ [step]) = (ofSteps steps).perform step := ofSteps_append steps [step]

theorem builder_perform_add (run : Run) (name : String) (message : Message) :
    (run.perform (.add name message)).builder = run.builder.add name message := by
  simp only [perform, Resource.Reader.addMessages]
  split <;> rfl

theorem notices_perform_add (run : Run) (name : String) (message : Message) :
    (run.perform (.add name message)).notices =
      run.notices ++ if run.builder.accepts name message = true then []
        else [.messageDropped name message.source] := by
  simp only [perform, Resource.Reader.addMessages]
  split <;> rfl

theorem wellFormed_perform {run : Run} (h : run.builder.WellFormed) (step : Step) :
    (run.perform step).builder.WellFormed := by
  cases step with
  | version text => exact ⟨h.index_eq, h.nodup, h.contexts⟩
  | language text => exact ⟨h.index_eq, h.nodup, h.contexts⟩
  | sourceLanguage text => exact ⟨h.index_eq, h.nodup, h.contexts⟩
  | openContext name => exact h.openContext name
  | add name message =>
    rw [builder_perform_add]
    exact h.add name message

theorem wellFormed_ofSteps (steps : List Step) : (ofSteps steps).builder.WellFormed := by
  induction steps using List.reverseRecOn with
  | nil => exact Builder.wellFormed_empty none none none
  | append_singleton steps step ih =>
    rw [ofSteps_append_singleton]
    exact wellFormed_perform ih step

/-! ## The contexts and their messages -/

theorem mentions_append_of_none (steps : List Step) {step : Step} (h : step.mention? = none) :
    mentions (steps ++ [step]) = mentions steps := by
  rw [mentions, List.filterMap_append, List.filterMap_cons_none h, List.filterMap_nil,
    List.append_nil, mentions]

theorem mentions_append_of_some (steps : List Step) {step : Step} {name : String}
    (h : step.mention? = some name) :
    mentions (steps ++ [step]) =
      mentions steps ++ if name ∈ mentions steps then [] else [name] := by
  rw [mentions, List.filterMap_append, List.filterMap_cons_some h, List.filterMap_nil,
    List.eraseDups_append, mentions]
  generalize steps.filterMap Step.mention? = earlier
  congr 1
  by_cases hname : name ∈ earlier
  · rw [if_pos (List.mem_eraseDups.2 hname)]
    simp [List.removeAll, hname]
  · rw [if_neg fun hmem => hname (List.mem_eraseDups.1 hmem)]
    simp [List.removeAll, hname, List.eraseDups_cons]

theorem names_ofSteps (steps : List Step) : (ofSteps steps).builder.names = mentions steps := by
  induction steps using List.reverseRecOn with
  | nil => rfl
  | append_singleton steps step ih =>
    have h := wellFormed_ofSteps steps
    rw [ofSteps_append_singleton]
    cases step with
    | version text => rw [mentions_append_of_none _ rfl, ← ih]; rfl
    | language text => rw [mentions_append_of_none _ rfl, ← ih]; rfl
    | sourceLanguage text => rw [mentions_append_of_none _ rfl, ← ih]; rfl
    | openContext name =>
      rw [mentions_append_of_some _ rfl, ← ih]
      exact Builder.names_openContext h name
    | add name message =>
      rw [mentions_append_of_some _ rfl, ← ih, builder_perform_add, Builder.names_add h]
      exact Builder.names_openContext h name

theorem pushedTo_append_singleton (name : String) (steps : List Step) (step : Step) :
    pushedTo name (steps ++ [step]) = pushedTo name steps ++ (step.pushed? name).toList := by
  rw [pushedTo, List.filterMap_append, ← pushedTo]
  cases hstep : step.pushed? name <;> simp [hstep]

/-- A context stores what the messages pushed to it come to. -/
theorem context_ofSteps (steps : List Step) (name : String) :
    ((ofSteps steps).builder.context name).messages.toList = storedOf (pushedTo name steps) := by
  induction steps using List.reverseRecOn with
  | nil => rfl
  | append_singleton steps step ih =>
    have h := wellFormed_ofSteps steps
    rw [ofSteps_append_singleton, pushedTo_append_singleton]
    cases step with
    | version text => rwa [Step.pushed?, Option.toList_none, List.append_nil]
    | language text => rwa [Step.pushed?, Option.toList_none, List.append_nil]
    | sourceLanguage text => rwa [Step.pushed?, Option.toList_none, List.append_nil]
    | openContext other =>
      rwa [Step.pushed?, Option.toList_none, List.append_nil, perform,
        Builder.context_openContext h]
    | add other message =>
      rw [builder_perform_add, Builder.context_add h, Step.pushed?]
      by_cases hname : name = other
      · subst hname
        rw [if_pos rfl, if_pos rfl, Context.toList_insert (Builder.context_wellFormed h name), ih,
          Option.toList_some, storedOf_append_singleton]
      · rw [if_neg hname, if_neg (Ne.symm hname), Option.toList_none, List.append_nil, ih]

theorem contents_ofSteps (steps : List Step) :
    (ofSteps steps).builder.build.contents =
      (mentions steps).map fun name => (name, storedOf (pushedTo name steps)) := by
  have h := wellFormed_ofSteps steps
  show (ofSteps steps).builder.contexts.toList.map _ = _
  rw [Builder.contexts_eq_map h, names_ofSteps, List.map_map]
  refine List.map_congr_left fun name _ => ?_
  rw [Function.comp_apply, Builder.name_context h, context_ofSteps]

/-! ## What the additions answer -/

theorem accepts_ofSteps (steps : List Step) (name : String) (message : Message) :
    (ofSteps steps).builder.accepts name message =
      !contradicts (pushedTo name steps) message := by
  have h := Builder.context_wellFormed (wellFormed_ofSteps steps) name
  have hiff : (ofSteps steps).builder.accepts name message = false ↔
      contradicts (pushedTo name steps) message = true := by
    rw [Builder.accepts_eq_false_iff, Builder.place, Context.place_conflicts_iff h, context_ofSteps,
      contradicts_iff]
  cases hcontradicts : contradicts (pushedTo name steps) message with
  | true => exact hiff.2 hcontradicts
  | false =>
    rw [Bool.not_false, ← Bool.not_eq_false]
    exact fun hrejected => by simp [hiff.1 hrejected] at hcontradicts

theorem answers_prefix (before after : List Step) :
    (ofSteps before).answers <+: (ofSteps (before ++ after)).answers := by
  induction after using List.reverseRecOn with
  | nil => exact ⟨[], by rw [List.append_nil, List.append_nil]⟩
  | append_singleton after step ih =>
    rw [← List.append_assoc, ofSteps_append_singleton]
    refine ih.trans ?_
    cases step with
    | add name message => exact List.prefix_append _ _
    | _ => exact List.prefix_rfl

theorem length_answers (steps : List Step) :
    (ofSteps steps).answers.length = (steps.filter Step.isAdd).length := by
  induction steps using List.reverseRecOn with
  | nil => rfl
  | append_singleton steps step ih =>
    rw [ofSteps_append_singleton, List.filter_append, List.length_append, ← ih]
    cases step with
    | add name message => exact List.length_append
    | _ => rfl

/-- Each addition is answered by whether it contradicts what came to its context before it. -/
theorem answers_ofSteps (before after : List Step) (name : String) (message : Message) :
    (ofSteps (before ++ .add name message :: after)).answers[(before.filter Step.isAdd).length]? =
      some (!contradicts (pushedTo name before) message) := by
  obtain ⟨later, hlater⟩ := answers_prefix (before ++ [.add name message]) after
  rw [List.append_assoc, List.singleton_append] at hlater
  rw [← hlater, ofSteps_append_singleton]
  show ((ofSteps before).answers ++ [_] ++ later)[_]? = _
  rw [← length_answers, List.append_assoc, List.getElem?_append_right (Nat.le_refl _),
    Nat.sub_self, accepts_ofSteps]
  rfl

/-! ## Nothing is lost -/

theorem tally_ofSteps (steps : List Step) :
    (ofSteps steps).builder.tally = (steps.filter Step.isAdd).length := by
  induction steps using List.reverseRecOn with
  | nil => rfl
  | append_singleton steps step ih =>
    rw [ofSteps_append_singleton, List.filter_append, List.length_append, ← ih]
    cases step with
    | openContext name => exact Builder.tally_openContext _ name
    | add name message =>
      rw [builder_perform_add]
      exact Builder.tally_add (wellFormed_ofSteps steps) name message
    | _ => rfl

theorem notices_ofSteps (steps : List Step) :
    (ofSteps steps).notices.length = (ofSteps steps).builder.conflicts ∧
      ∀ notice ∈ (ofSteps steps).notices, notice.severity = .warn := by
  induction steps using List.reverseRecOn with
  | nil => exact ⟨rfl, by simp [ofSteps]⟩
  | append_singleton steps step ih =>
    rw [ofSteps_append_singleton]
    cases step with
    | openContext name => exact ⟨ih.1.trans (Builder.conflicts_openContext _ name).symm, ih.2⟩
    | add name message =>
      rw [notices_perform_add, builder_perform_add, Builder.conflicts_add, ← ih.1,
        List.length_append]
      split
      · exact ⟨rfl, by rw [List.append_nil]; exact ih.2⟩
      · refine ⟨rfl, fun notice hmem => ?_⟩
        rcases List.mem_append.1 hmem with hold | hnew
        · exact ih.2 notice hold
        · rw [List.mem_singleton.1 hnew]
          rfl
    | _ => exact ih

end Run

end Catalog

end Phrasebook
