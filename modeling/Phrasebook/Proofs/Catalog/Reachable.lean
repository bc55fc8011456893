import Phrasebook.Proofs.Resource.Acceptance

/-!
# Reachable catalogs

Catalogs come from builders and from resources. A resource is read by a builder too, so every
catalog is what some run of a builder comes to (`Reachable.exists_steps`), and what runs keep holds
of it: its index leads from each name to the context of this name, and its contexts are well-formed
(`Reachable.wellFormed`). Asking for a context is then going through the list of contexts
(`context?_eq_some_iff`).
-/

namespace Phrasebook.Catalog

/-- The catalog was built by a builder or read from a resource. -/
inductive Reachable : Catalog → Prop where
  | built (steps : List Step) : Reachable (Run.ofSteps steps).builder.build
  | read {text : String} {catalog : Catalog} (h : (Resource.parse text).value = .ok catalog) :
    Reachable catalog

/-- The index agrees with the contexts, which are well-formed and differ in name. -/
structure WellFormed (catalog : Catalog) : Prop where
  index_eq : ∀ (name : String) (i : Nat), catalog.index[name]? = some i ↔
    catalog.contexts[i]?.map Context.name = some name
  nodup : (catalog.contexts.toList.map Context.name).Nodup
  contexts : ∀ context ∈ catalog.contexts.toList, context.WellFormed

variable {catalog : Catalog}

theorem Reachable.exists_steps (h : Reachable catalog) :
    ∃ steps, catalog = (Run.ofSteps steps).builder.build := by
  cases h with
  | built steps => exact ⟨steps, rfl⟩
  | @read text _ hvalue =>
    obtain ⟨content, -, -, -, hcatalog, -⟩ :=
      Resource.parse_eq_iff.1 (show Resource.parse text = ⟨.ok catalog, _⟩ by rw [← hvalue])
    exact ⟨Resource.steps content, hcatalog⟩

theorem Builder.WellFormed.build {builder : Builder} (h : builder.WellFormed) :
    builder.build.WellFormed where
  index_eq := h.index_eq
  nodup := h.nodup
  contexts := h.contexts

theorem Reachable.wellFormed (h : Reachable catalog) : catalog.WellFormed := by
  obtain ⟨steps, rfl⟩ := h.exists_steps
  exact (Run.wellFormed_ofSteps steps).build

theorem context?_eq_some_iff (h : catalog.WellFormed) {name : String} {context : Context} :
    catalog.context? name = some context ↔
      context ∈ catalog.contexts.toList ∧ context.name = name := by
  rw [context?, Option.bind_eq_some_iff]
  constructor
  · rintro ⟨i, hindex, hi⟩
    have hname := (h.index_eq name i).1 hindex
    rw [hi] at hname
    rw [← Array.getElem?_toList] at hi
    exact ⟨List.mem_of_getElem? hi, Option.some.inj hname⟩
  · rintro ⟨hmem, rfl⟩
    obtain ⟨i, hi⟩ := List.mem_iff_getElem?.1 hmem
    rw [Array.getElem?_toList] at hi
    exact ⟨i, (h.index_eq _ i).2 (by rw [hi, Option.map_some]), hi⟩

end Phrasebook.Catalog
