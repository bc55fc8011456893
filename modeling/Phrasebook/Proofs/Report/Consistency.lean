import Mathlib.Data.List.Sort
import Phrasebook.CommandLine.Outcome
import Phrasebook.Proofs.Ascending
import Phrasebook.Proofs.Catalog.Lookup
import Phrasebook.Proofs.Catalog.Presentation

/-!
# Placeholder consistency

A report without mismatches says of each message that may be shown that all of its texts have the
placeholders of its source text (`mismatches_eq_nil_iff`). Whatever a request is answered by is one
of these texts, or the source text of the request, which is that of the message
(`indices_translate`, `indices_pluralTemplate`). So a check that finds nothing guarantees that no
lookup loses or adds a placeholder.
-/

namespace Phrasebook

namespace Template

/-- Indices are told by which of them occur. -/
theorem indices_eq_iff {a b : String} :
    indices a = indices b ↔ indices a ⊆ indices b ∧ indices b ⊆ indices a := by
  constructor
  · intro h
    rw [h]
    exact ⟨List.Subset.refl _, List.Subset.refl _⟩
  · rintro ⟨hab, hba⟩
    exact List.Subset.antisymm_of_pairwise (Ascending.pairwise_ofList _)
      (Ascending.pairwise_ofList _) hab hba

end Template

/-! ## Messages without a mismatch -/

/-- All texts that the message may show have the placeholders of its source text. -/
def Message.Consistent (message : Message) : Prop :=
  message.isPresentable = true →
    ∀ text ∈ message.translation.texts, Template.indices text = message.placeholders

namespace Mismatch

theorem mem_difference {as bs : List Nat} {i : Nat} : i ∈ difference as bs ↔ i ∈ as ∧ i ∉ bs := by
  simp [difference]

theorem difference_eq_nil_iff {as bs : List Nat} : difference as bs = [] ↔ as ⊆ bs := by
  rw [List.eq_nil_iff_forall_not_mem, List.subset_def]
  simp only [mem_difference, not_and_not_right]

theorem flatMap_difference_eq_nil_iff {texts : List String} {source : String} :
    ((texts.map Template.indices).flatMap (difference (Template.indices source)) = [] ∧
      (texts.map Template.indices).flatMap (difference · (Template.indices source)) = []) ↔
    ∀ text ∈ texts, Template.indices text = Template.indices source := by
  simp only [List.flatMap_eq_nil_iff, List.forall_mem_map, difference_eq_nil_iff,
    Template.indices_eq_iff]
  constructor
  · rintro ⟨hmissing, hunexpected⟩ text htext
    exact ⟨hunexpected text htext, hmissing text htext⟩
  · intro h
    exact ⟨fun text htext => (h text htext).2, fun text htext => (h text htext).1⟩

theorem ofMessage?_eq_none_iff {context : String} {message : Message} :
    ofMessage? context message = none ↔ message.Consistent := by
  have hempty := @flatMap_difference_eq_nil_iff message.translation.texts message.source
  rw [← Ascending.ofList_eq_nil_iff, ← List.isEmpty_iff,
    ← @Ascending.ofList_eq_nil_iff _ _ _ _ (List.flatMap (difference · _) _), ← List.isEmpty_iff,
    ← Bool.and_eq_true] at hempty
  unfold ofMessage? Message.Consistent Message.placeholders
  by_cases hpresentable : message.isPresentable = true
  · simp only [hpresentable, Bool.true_and, forall_const, ← hempty, ite_eq_right_iff, reduceCtorEq,
      imp_false, Bool.not_eq_true', Bool.not_eq_false]
  · simp [hpresentable]

end Mismatch

namespace Catalog

variable {catalog : Catalog}

theorem mismatches_eq_nil_iff : catalog.mismatches = [] ↔
    ∀ context ∈ catalog.contexts.toList, ∀ message ∈ context.messages.toList,
      message.Consistent := by
  unfold mismatches
  simp only [List.flatMap_eq_nil_iff, List.filterMap_eq_nil_iff, Mismatch.ofMessage?_eq_none_iff]

theorem mismatches_eq_contents (catalog : Catalog) :
    catalog.mismatches = catalog.contents.flatMap fun (name, messages) =>
      messages.filterMap (Mismatch.ofMessage? name) := by
  rw [contents, List.flatMap_map]
  rfl

/-! ## Texts that are shown -/

theorem mem_of_isPresentable {message : Message} (h : message.isPresentable = true) :
    message.translation.uncounted ∈ message.translation.texts := by
  obtain ⟨-, text, hmem, -⟩ := Message.isPresentable_iff.1 h
  match message.translation, hmem with
  | .single shown, _ => exact List.mem_cons_self
  | .forms (first :: rest), _ => exact List.mem_cons_self

variable {context source : String} {disambiguation : Option String}

/-- The message that is shown for a request is consistent and has the source text of the request. -/
theorem consistent_of_presented? (hreachable : Reachable catalog) (hclean : catalog.mismatches = [])
    {message : Message}
    (hpresented : catalog.presented? context source disambiguation = some message) :
    message.source = source ∧ ∀ text ∈ message.translation.texts,
      Template.indices text = Template.indices source := by
  obtain ⟨hlookup, hpresentable⟩ := Option.filter_eq_some_iff.1 hpresented
  obtain ⟨⟨found, hfound, hmem⟩, rfl⟩ := mem_of_lookup? hreachable.wellFormed hlookup
  exact ⟨rfl, mismatches_eq_nil_iff.1 hclean found hfound message hmem hpresentable⟩

theorem indices_translate (hreachable : Reachable catalog) (hclean : catalog.mismatches = []) :
    Template.indices (catalog.translate context source disambiguation) =
      Template.indices source := by
  unfold translate
  cases hpresented : catalog.presented? context source disambiguation with
  | none => rfl
  | some message =>
    have hpresentable := (Option.filter_eq_some_iff.1 hpresented).2
    exact (consistent_of_presented? hreachable hclean hpresented).2 _
      (mem_of_isPresentable hpresentable)

theorem indices_pluralTemplate (hreachable : Reachable catalog) (hclean : catalog.mismatches = [])
    (count : Int) :
    Template.indices (catalog.pluralTemplate context source disambiguation count) =
      Template.indices source := by
  unfold pluralTemplate
  cases hform : (catalog.presented? context source disambiguation).bind fun message =>
      form? catalog.pluralRule count message.translation with
  | none => rfl
  | some text =>
    obtain ⟨message, hpresented, htext⟩ := Option.bind_eq_some_iff.1 hform
    exact (consistent_of_presented? hreachable hclean hpresented).2 _ (mem_of_form? htext)

/-! ## The check -/

/-- A check of a file that can be read ends with status zero exactly when there is no mismatch. -/
theorem exitStatus_check_eq_zero_iff {session : CommandLine.Session} {settings : Settings}
    {file : String} {json : Bool}
    (hparse : (Resource.parseFile session.files file).value = .ok catalog) :
    (CommandLine.execute session settings (.check file json)).exitStatus = 0 ↔
      catalog.mismatches = [] := by
  show (CommandLine.withResource session file _).exitStatus = 0 ↔ _
  rw [CommandLine.withResource, hparse]
  show Option.elim (if catalog.mismatches.isEmpty then _ else _) _ _ = 0 ↔ _
  cases catalog.mismatches with
  | nil => exact iff_of_true rfl rfl
  | cons mismatch rest =>
    have hstatus : (1 : UInt32) ≠ 0 := by decide
    exact iff_of_false hstatus (List.cons_ne_nil _ _)

/-- A clean check makes lookups safe: where the check of a file that reads as the catalog succeeds,
which is where there is no mismatch, every request is answered from a template with exactly the
placeholders of its source text. With a count, this is the template that the count goes into. -/
theorem clean_check_safe (hreachable : Reachable catalog) :
    (∀ (session : CommandLine.Session) (settings : Settings) (file : String) (json : Bool),
      (Resource.parseFile session.files file).value = .ok catalog →
        ((CommandLine.execute session settings (.check file json)).exitStatus = 0 ↔
          catalog.mismatches = [])) ∧
      (catalog.mismatches = [] → ∀ (context source : String) (disambiguation : Option String),
        Template.indices (catalog.translate context source disambiguation) =
            Template.indices source ∧
          ∀ count,
            catalog.translateCounted context source disambiguation count =
                Template.withCount (catalog.pluralTemplate context source disambiguation
                  count) count ∧
              Template.indices (catalog.pluralTemplate context source disambiguation count) =
                Template.indices source) := by
  refine ⟨fun _ _ _ _ hparse => exitStatus_check_eq_zero_iff hparse, fun hclean _ _ _ => ?_⟩
  exact ⟨indices_translate hreachable hclean,
    fun count => ⟨rfl, indices_pluralTemplate hreachable hclean count⟩⟩

def counted : Message where
  source := "%n in %1"
  translation := .forms ["%n w %1", "%n we %1"]

theorem clean_check_safe_counted :
    Reachable (Run.ofSteps [.add "Player" counted]).builder.build ∧
      (Run.ofSteps [.add "Player" counted]).builder.build.mismatches = [] ∧
      Template.indices ((Run.ofSteps [.add "Player" counted]).builder.build.translate
        "Player" "%n in %1" none) = Template.indices "%n in %1" ∧
      Template.indices ((Run.ofSteps [.add "Player" counted]).builder.build.pluralTemplate
        "Player" "%n in %1" none 2) = Template.indices "%n in %1" := by
  have hreachable : Reachable _ := .built [.add "Player" counted]
  have hclean : (Run.ofSteps [.add "Player" counted]).builder.build.mismatches = [] := by
    rw [mismatches_eq_contents, Run.contents_ofSteps]
    decide +kernel
  obtain ⟨huncounted, hcounted⟩ :=
    (clean_check_safe hreachable).2 hclean "Player" "%n in %1" none
  exact ⟨hreachable, hclean, huncounted, (hcounted 2).2⟩

end Catalog

end Phrasebook
