import Phrasebook.Catalog.Builder
import Phrasebook.Proofs.Context.Placement

/-!
# One step of a builder

A well-formed builder has contexts of different names, an index that leads to them, and well-formed
contexts; opening a context and adding a message keep that. What they change is said by four views:
the list of names (`names_openContext`, `names_add`), the context of each name
(`context_openContext`, `context_add`), and the three numbers that tell where the messages went
(`tally_add`).
-/

namespace Phrasebook.Catalog.Builder

def names (builder : Builder) : List String := builder.contexts.toList.map Context.name

/-- The index agrees with the contexts, which are well-formed and differ in name. -/
structure WellFormed (builder : Builder) : Prop where
  index_eq : ∀ (name : String) (i : Nat), builder.index[name]? = some i ↔
    builder.contexts[i]?.map Context.name = some name
  nodup : builder.names.Nodup
  contexts : ∀ context ∈ builder.contexts.toList, context.WellFormed

theorem wellFormed_empty (version language sourceLanguage : Option String) :
    WellFormed { version, language, sourceLanguage } where
  index_eq name i := by simp
  nodup := List.nodup_nil
  contexts := by simp

variable {builder : Builder}

/-! ## The context of a name -/

theorem names_getElem? (i : Nat) :
    builder.names[i]? = builder.contexts[i]?.map Context.name := by
  rw [names, List.getElem?_map, Array.getElem?_toList]

theorem exists_of_mem_names {name : String} (hname : name ∈ builder.names) :
    ∃ (i : Nat) (context : Context), builder.contexts[i]? = some context ∧ context.name = name := by
  obtain ⟨i, hi⟩ := List.mem_iff_getElem?.1 hname
  rw [names_getElem?] at hi
  obtain ⟨context, hcontext, hctx⟩ := Option.map_eq_some_iff.1 hi
  exact ⟨i, context, hcontext, hctx⟩

theorem contains_index_iff (h : builder.WellFormed) {name : String} :
    builder.index.contains name = true ↔ name ∈ builder.names := by
  rw [Std.HashMap.contains_eq_isSome_getElem?, Option.isSome_iff_exists, List.mem_iff_getElem?]
  simp only [names_getElem?, h.index_eq]

theorem position_eq (h : builder.WellFormed) {i : Nat} {context : Context}
    (hi : builder.contexts[i]? = some context) : builder.position context.name = i := by
  have hindex : builder.index[context.name]? = some i := by
    rw [h.index_eq, hi, Option.map_some]
  rw [position, Std.HashMap.getD_eq_getD_getElem?, hindex, Option.getD_some]

theorem context_of_getElem? (h : builder.WellFormed) {i : Nat} {context : Context}
    (hi : builder.contexts[i]? = some context) : builder.context context.name = context := by
  rw [Builder.context, position_eq h hi, Array.getD_eq_getD_getElem?, hi, Option.getD_some]

theorem context_of_mem (h : builder.WellFormed) {context : Context}
    (hmem : context ∈ builder.contexts.toList) : builder.context context.name = context := by
  obtain ⟨i, hi⟩ := List.mem_iff_getElem?.1 hmem
  rw [Array.getElem?_toList] at hi
  exact context_of_getElem? h hi

theorem context_of_new (h : builder.WellFormed) {name : String} (hname : name ∉ builder.names) :
    builder.context name = { name } := by
  have hindex : builder.index[name]? = none := by
    rw [← Option.not_isSome_iff_eq_none, ← Std.HashMap.contains_eq_isSome_getElem?]
    exact fun hcontains => hname ((contains_index_iff h).1 hcontains)
  rw [Builder.context, position, Std.HashMap.getD_eq_getD_getElem?, hindex, Option.getD_none,
    Array.getD_eq_getD_getElem?, Array.getElem?_eq_none (Nat.le_refl _), Option.getD_none]

theorem contexts_eq_map (h : builder.WellFormed) :
    builder.contexts.toList = builder.names.map builder.context := by
  rw [names, List.map_map]
  exact ((List.map_congr_left fun context hmem => context_of_mem h hmem).trans (List.map_id _)).symm

theorem context_wellFormed (h : builder.WellFormed) (name : String) :
    (builder.context name).WellFormed := by
  by_cases hname : name ∈ builder.names
  · obtain ⟨i, context, hi, rfl⟩ := exists_of_mem_names hname
    rw [context_of_getElem? h hi]
    rw [← Array.getElem?_toList] at hi
    exact h.contexts context (List.mem_of_getElem? hi)
  · rw [context_of_new h hname]
    exact Context.wellFormed_empty name

theorem name_context (h : builder.WellFormed) (name : String) :
    (builder.context name).name = name := by
  by_cases hname : name ∈ builder.names
  · obtain ⟨i, context, hi, rfl⟩ := exists_of_mem_names hname
    rw [context_of_getElem? h hi]
  · rw [context_of_new h hname]

/-! ## Opening a context -/

theorem openContext_of_mem (h : builder.WellFormed) {name : String} (hname : name ∈ builder.names) :
    builder.openContext name = builder := by
  rw [openContext, if_pos ((contains_index_iff h).2 hname)]

theorem openContext_of_new (h : builder.WellFormed) {name : String}
    (hname : name ∉ builder.names) :
    builder.openContext name =
      { builder with
        contexts := builder.contexts.push { name }
        index := builder.index.insert name builder.contexts.size } := by
  rw [openContext, if_neg fun hcontains => hname ((contains_index_iff h).1 hcontains)]

theorem names_openContext (h : builder.WellFormed) (name : String) :
    (builder.openContext name).names =
      builder.names ++ if name ∈ builder.names then [] else [name] := by
  split
  · rename_i hname
    rw [openContext_of_mem h hname, List.append_nil]
  · rename_i hname
    rw [openContext_of_new h hname, names, Array.toList_push, List.map_append]
    rfl

theorem mem_names_openContext (h : builder.WellFormed) (name : String) :
    name ∈ (builder.openContext name).names := by
  rw [names_openContext h]
  by_cases hname : name ∈ builder.names <;> simp [hname]

theorem WellFormed.openContext (h : builder.WellFormed) (name : String) :
    (builder.openContext name).WellFormed := by
  by_cases hname : name ∈ builder.names
  · rwa [openContext_of_mem h hname]
  · have hnames := names_openContext h name
    rw [if_neg hname] at hnames
    refine ⟨fun other i => ?_, ?_, ?_⟩
    · rw [openContext_of_new h hname]
      show (builder.index.insert name _)[other]? = _ ↔ (builder.contexts.push _)[i]?.map _ = _
      rw [Std.HashMap.getElem?_insert, Array.getElem?_push]
      by_cases hother : name = other
      · subst hother
        rw [if_pos (beq_self_eq_true name)]
        by_cases hi : i = builder.contexts.size
        · simp [hi]
        · rw [if_neg hi, ← names_getElem?]
          constructor
          · intro hsome
            exact absurd (Option.some.inj hsome).symm hi
          · intro hsome
            exact absurd (List.mem_of_getElem? hsome) hname
      · rw [if_neg (by rwa [beq_iff_eq]), h.index_eq]
        by_cases hi : i = builder.contexts.size
        · simp [hi, hother]
        · rw [if_neg hi]
    · rw [hnames]
      exact List.nodup_append.2 ⟨h.nodup, List.nodup_singleton _, by
        rintro a ha b hb rfl
        exact hname (List.mem_singleton.1 hb ▸ ha)⟩
    · rw [openContext_of_new h hname]
      intro context hmem
      rw [Array.toList_push, List.mem_append, List.mem_singleton] at hmem
      rcases hmem with hmem | rfl
      · exact h.contexts context hmem
      · exact Context.wellFormed_empty name

theorem context_openContext (h : builder.WellFormed) (name other : String) :
    (builder.openContext name).context other = builder.context other := by
  by_cases hname : name ∈ builder.names
  · rw [openContext_of_mem h hname]
  · have hopen := h.openContext name
    by_cases hother : other ∈ builder.names
    · obtain ⟨i, context, hi, rfl⟩ := exists_of_mem_names hother
      rw [context_of_getElem? h hi]
      refine context_of_mem hopen ?_
      rw [openContext_of_new h hname, Array.toList_push]
      exact List.mem_append_left _ (List.mem_of_getElem? (Array.getElem?_toList.trans hi))
    · rw [context_of_new h hother]
      by_cases hsame : other = name
      · subst hsame
        have hmem :
            ({ name := other } : Context) ∈ (builder.openContext other).contexts.toList := by
          rw [openContext_of_new h hname, Array.toList_push]
          exact List.mem_append_right _ (List.mem_singleton_self _)
        exact context_of_mem hopen hmem
      · refine context_of_new hopen ?_
        rw [names_openContext h, if_neg hname]
        simp [hother, hsame]

/-! ## Adding a message -/

theorem getElem?_position_openContext (h : builder.WellFormed) (name : String) :
    (builder.openContext name).contexts[(builder.openContext name).position name]? =
      some (builder.context name) := by
  have hopen := h.openContext name
  obtain ⟨i, context, hi, rfl⟩ := exists_of_mem_names (mem_names_openContext h name)
  rw [position_eq hopen hi, hi, ← context_openContext h context.name, context_of_getElem? hopen hi]

theorem toList_contexts_add (h : builder.WellFormed) (name : String) (message : Message) :
    (builder.add name message).contexts.toList =
      (builder.openContext name).contexts.toList.map fun context =>
        if context.name = name then context.insert message else context := by
  have hget := getElem?_position_openContext h name
  rw [← Array.getElem?_toList] at hget
  show ((builder.openContext name).contexts.modify _ _).toList = _
  rw [Array.toList_modify, modify_eq_map_of_nodup (h.openContext name).nodup hget, name_context h]

theorem names_add (h : builder.WellFormed) (name : String) (message : Message) :
    (builder.add name message).names = (builder.openContext name).names := by
  rw [names, toList_contexts_add h, List.map_map]
  refine List.map_congr_left fun context _ => ?_
  rw [Function.comp_apply]
  split
  · exact Context.name_insert context message
  · rfl

theorem WellFormed.add (h : builder.WellFormed) (name : String) (message : Message) :
    (builder.add name message).WellFormed where
  index_eq other i := by
    show (builder.openContext name).index[other]? = some i ↔ _
    rw [(h.openContext name).index_eq, ← names_getElem?, ← names_getElem?, names_add h]
  nodup := by
    rw [names_add h]
    exact (h.openContext name).nodup
  contexts context hmem := by
    rw [toList_contexts_add h] at hmem
    obtain ⟨before, hbefore, rfl⟩ := List.mem_map.1 hmem
    have hwf := (h.openContext name).contexts before hbefore
    split
    · exact hwf.insert message
    · exact hwf

theorem context_add (h : builder.WellFormed) (name other : String) (message : Message) :
    (builder.add name message).context other =
      if other = name then (builder.context name).insert message else builder.context other := by
  have hopen := h.openContext name
  have hadd := h.add name message
  -- a context is found by its place in the list, so both sides are compared there
  by_cases hother : other ∈ (builder.openContext name).names
  · obtain ⟨i, context, hi, rfl⟩ := exists_of_mem_names hother
    have hmem : (if context.name = name then context.insert message else context) ∈
        (builder.add name message).contexts.toList := by
      rw [toList_contexts_add h]
      exact List.mem_map.2 ⟨context, List.mem_of_getElem? (Array.getElem?_toList.trans hi), rfl⟩
    have hcontext : builder.context context.name = context := by
      rw [← context_openContext h name, context_of_getElem? hopen hi]
    by_cases hname : context.name = name
    · subst hname
      rw [if_pos rfl] at hmem ⊢
      have hget := context_of_mem hadd hmem
      rw [Context.name_insert] at hget
      rw [hget, hcontext]
    · rw [if_neg hname] at hmem ⊢
      rw [hcontext, context_of_mem hadd hmem]
  · have hne : other ≠ name := by
      rintro rfl
      exact hother (mem_names_openContext h other)
    rw [if_neg hne, context_of_new hadd (by rwa [names_add h]), ← context_openContext h name,
      context_of_new hopen hother]

/-! ## Where the messages went -/

/-- Number of messages in contexts. -/
def total (contexts : List Context) : Nat :=
  contexts.foldr (fun context n => context.size + n) 0

theorem messageCount_build (builder : Builder) :
    builder.build.messageCount = total builder.contexts.toList := rfl

theorem total_append (as bs : List Context) : total (as ++ bs) = total as + total bs := by
  induction as with
  | nil => simp [total]
  | cons context as ih =>
    show context.size + total (as ++ bs) = context.size + total as + total bs
    rw [ih, Nat.add_assoc]

theorem total_modify {contexts : List Context} {i : Nat} {context : Context}
    (hi : contexts[i]? = some context) (change : Context → Context) :
    total (contexts.modify i change) + context.size = total contexts + (change context).size := by
  induction contexts generalizing i with
  | nil => simp at hi
  | cons first rest ih =>
    cases i with
    | zero =>
      obtain rfl : first = context := by simpa using hi
      show (change first).size + total rest + first.size = first.size + total rest + _
      omega
    | succ i =>
      have := ih (by simpa using hi : rest[i]? = some context)
      show first.size + total (rest.modify i change) + context.size = first.size + total rest + _
      omega

/-- Number of messages that came: those that joined another one, those that were dropped and those
that are stored. -/
def tally (builder : Builder) : Nat :=
  builder.merged + builder.conflicts + builder.build.messageCount

theorem tally_openContext (builder : Builder) (name : String) :
    (builder.openContext name).tally = builder.tally := by
  unfold tally openContext
  split
  · rfl
  · simp only [messageCount_build, Array.toList_push, total_append]
    rfl

theorem size_insert (context : Context) (message : Message) :
    (context.insert message).size =
      context.size + if context.place message matches .fresh then 1 else 0 := by
  unfold Context.insert
  cases context.place message with
  | fresh => exact Array.size_push _
  | merges i => exact Array.size_modify
  | conflicts i => rfl

theorem count_placement (placement : Placement) :
    ((if placement matches .merges _ then 1 else 0) +
      (if placement matches .conflicts _ then 1 else 0) +
      if placement matches .fresh then 1 else 0) = 1 := by
  cases placement <;> rfl

theorem tally_add (h : builder.WellFormed) (name : String) (message : Message) :
    (builder.add name message).tally = builder.tally + 1 := by
  have hget := getElem?_position_openContext h name
  rw [← Array.getElem?_toList] at hget
  have htotal := total_modify hget (·.insert message)
  rw [size_insert] at htotal
  have hcontexts : (builder.add name message).build.messageCount =
      total ((builder.openContext name).contexts.toList.modify
        ((builder.openContext name).position name) (·.insert message)) :=
    congrArg total Array.toList_modify
  have hmerged : (builder.add name message).merged = (builder.openContext name).merged +
      if builder.place name message matches .merges _ then 1 else 0 := rfl
  have hconflicts : (builder.add name message).conflicts = (builder.openContext name).conflicts +
      if builder.place name message matches .conflicts _ then 1 else 0 := rfl
  have hone := count_placement (builder.place name message)
  have hopen := tally_openContext builder name
  unfold tally at hopen ⊢
  rw [hcontexts, hmerged, hconflicts]
  rw [messageCount_build (builder.openContext name)] at hopen
  change _ = _ + (_ + if builder.place name message matches .fresh then 1 else 0) at htotal
  omega

theorem accepts_eq_false_iff {name : String} {message : Message} :
    builder.accepts name message = false ↔ ∃ i, builder.place name message = .conflicts i := by
  unfold accepts
  cases builder.place name message <;> simp

theorem conflicts_openContext (builder : Builder) (name : String) :
    (builder.openContext name).conflicts = builder.conflicts := by
  unfold openContext
  split <;> rfl

theorem conflicts_add (builder : Builder) (name : String) (message : Message) :
    (builder.add name message).conflicts =
      builder.conflicts + if builder.accepts name message = true then 0 else 1 := by
  show (builder.openContext name).conflicts + _ = _
  rw [conflicts_openContext]
  unfold accepts
  cases builder.place name message <;> rfl

end Phrasebook.Catalog.Builder
