import Mathlib.Data.List.Forall2
import Phrasebook.Proofs.Report.Consistency
import Phrasebook.Proofs.Template.Arguments

/-!
# What the placeholder report lists

The report has one mismatch for each message that may be shown and has a text whose placeholders
name other arguments than those of its source text, in resource order, and nothing else
(`mismatches_exact`). A mismatch lists the indices that some text lacks and those that some text
adds (`Mismatch.Describes`); how often they are lacking and in which texts does not show.
-/

namespace Phrasebook

open Template (Names mem_indices_iff_names)

/-- Where elements either satisfy `p` and are mapped to what `R` asks for, or are mapped to nothing,
mapping takes one after the other all elements that satisfy `p`. -/
theorem forall₂_filter_filterMap {α β : Type} {p : α → Prop} [DecidablePred p] {f : α → Option β}
    {R : α → β → Prop} {l : List α}
    (h : ∀ a ∈ l, (p a ∧ ∃ b, f a = some b ∧ R a b) ∨ (¬ p a ∧ f a = none)) :
    List.Forall₂ R (l.filter p) (l.filterMap f) := by
  induction l with
  | nil => exact .nil
  | cons a rest ih =>
    obtain ⟨hfirst, hrest⟩ := List.forall_mem_cons.1 h
    rcases hfirst with ⟨hp, b, hb, hR⟩ | ⟨hp, hnone⟩
    · rw [List.filter_cons_of_pos (by simpa using hp), List.filterMap_cons_some hb]
      exact .cons hR (ih hrest)
    · rw [List.filter_cons_of_neg (by simpa using hp), List.filterMap_cons_none hnone]
      exact ih hrest

/-! ## Messages that are reported -/

/-- The message may be shown, and some text of its translation does not name the arguments that its
source text names. -/
structure Message.Mismatched (message : Message) : Prop where
  finished : message.status = .finished
  hasText : ∃ text ∈ message.translation.texts, text ≠ ""
  differs : ∃ text ∈ message.translation.texts, ∃ i, ¬ (Names text i ↔ Names message.source i)

theorem Message.mismatched_iff {message : Message} : message.Mismatched ↔ ¬ message.Consistent := by
  have hdiffers (text : String) :
      (∃ i, ¬ (Names text i ↔ Names message.source i)) ↔
        Template.indices text ≠ message.placeholders := by
    rw [ne_eq, placeholders, Template.indices_eq_iff, ← not_forall]
    simp only [← mem_indices_iff_names, List.subset_def, iff_def, forall_and]
  unfold Consistent
  rw [Classical.not_imp, isPresentable_iff]
  simp only [not_forall, exists_prop, ← hdiffers]
  constructor
  · rintro ⟨hfinished, htext, hdiffers⟩
    exact ⟨⟨hfinished, htext⟩, hdiffers⟩
  · rintro ⟨⟨hfinished, htext⟩, hdiffers⟩
    exact ⟨hfinished, htext, hdiffers⟩

instance : DecidablePred Message.Consistent := fun message =>
  inferInstanceAs (Decidable (message.isPresentable = true →
    ∀ text ∈ message.translation.texts, Template.indices text = message.placeholders))

instance : DecidablePred Message.Mismatched :=
  fun _ => decidable_of_iff _ Message.mismatched_iff.symm

namespace Mismatch

/-- What a mismatch says of a message in a context. -/
structure Describes (mismatch : Mismatch) (name : String) (message : Message) : Prop where
  context_eq : mismatch.context = name
  source_eq : mismatch.source = message.source
  /-- In the source text, but not in some text of the translation. -/
  mem_missing : ∀ i, i ∈ mismatch.missing ↔
    Names message.source i ∧ ∃ text ∈ message.translation.texts, ¬ Names text i
  /-- In some text of the translation, but not in the source text. -/
  mem_unexpected : ∀ i, i ∈ mismatch.unexpected ↔
    (∃ text ∈ message.translation.texts, Names text i) ∧ ¬ Names message.source i
  ascending_missing : mismatch.missing.Pairwise (· < ·)
  ascending_unexpected : mismatch.unexpected.Pairwise (· < ·)
  disjoint : mismatch.missing.Disjoint mismatch.unexpected
  ne_nil : mismatch.missing ≠ [] ∨ mismatch.unexpected ≠ []

theorem mem_missing_iff {texts : List String} {source : String} {i : Nat} :
    i ∈ Ascending.ofList ((texts.map Template.indices).flatMap fun used =>
        difference (Template.indices source) used) ↔
      Names source i ∧ ∃ text ∈ texts, ¬ Names text i := by
  rw [Ascending.mem_ofList, List.flatMap_map, List.mem_flatMap]
  simp only [mem_difference, mem_indices_iff_names]
  constructor
  · rintro ⟨text, htext, hsource, hlacking⟩
    exact ⟨hsource, text, htext, hlacking⟩
  · rintro ⟨hsource, text, htext, hlacking⟩
    exact ⟨text, htext, hsource, hlacking⟩

theorem mem_unexpected_iff {texts : List String} {source : String} {i : Nat} :
    i ∈ Ascending.ofList ((texts.map Template.indices).flatMap fun used =>
        difference used (Template.indices source)) ↔
      (∃ text ∈ texts, Names text i) ∧ ¬ Names source i := by
  rw [Ascending.mem_ofList, List.flatMap_map, List.mem_flatMap]
  simp only [mem_difference, mem_indices_iff_names]
  constructor
  · rintro ⟨text, htext, hadded, hsource⟩
    exact ⟨⟨text, htext, hadded⟩, hsource⟩
  · rintro ⟨⟨text, htext, hadded⟩, hsource⟩
    exact ⟨text, htext, hadded, hsource⟩

/-- The mismatch of a message describes it. -/
theorem describes_of_ofMessage? {name : String} {message : Message} {mismatch : Mismatch}
    (h : ofMessage? name message = some mismatch) : mismatch.Describes name message := by
  unfold ofMessage? at h
  obtain ⟨hreported, hvalue⟩ := Option.ite_none_right_eq_some.1 h
  obtain rfl := Option.some.inj hvalue
  refine
    { context_eq := rfl
      source_eq := rfl
      mem_missing := fun i => mem_missing_iff
      mem_unexpected := fun i => mem_unexpected_iff
      ascending_missing := Ascending.pairwise_ofList _
      ascending_unexpected := Ascending.pairwise_ofList _
      disjoint := ?_
      ne_nil := ?_ }
  · intro i hmissing hunexpected
    exact (mem_unexpected_iff.1 hunexpected).2 (mem_missing_iff.1 hmissing).1
  · rw [← not_and_or]
    rintro ⟨hmissing, hunexpected⟩
    simp only at hmissing hunexpected
    simp [hmissing, hunexpected] at hreported

/-- One form lacks a placeholder and adds another twice, the other one adds a third. -/
example : ofMessage? "Player" { source := "%1", translation := .forms ["%3, %03", "%1 of %2"] } =
    some { context := "Player", source := "%1", missing := [1], unexpected := [2, 3] } := by
  decide +kernel

end Mismatch

/-! ## The report of a catalog -/

namespace Catalog

/-- The messages of a catalog in resource order, each with the name of its context. -/
def entries (catalog : Catalog) : List (String × Message) :=
  catalog.contents.flatMap fun (name, messages) => messages.map fun message => (name, message)

theorem mismatches_eq_entries (catalog : Catalog) :
    catalog.mismatches = catalog.entries.filterMap fun (name, message) =>
      Mismatch.ofMessage? name message := by
  rw [mismatches_eq_contents, entries, List.filterMap_flatMap]
  simp only [List.filterMap_map]
  rfl

/-- The report has exactly one mismatch for each mismatched message, in resource order, and it
describes this message. -/
theorem mismatches_exact (catalog : Catalog) :
    List.Forall₂ (fun entry mismatch => mismatch.Describes entry.1 entry.2)
      (catalog.entries.filter fun entry => entry.2.Mismatched) catalog.mismatches := by
  rw [mismatches_eq_entries]
  refine forall₂_filter_filterMap fun (name, message) _ => ?_
  cases hmismatch : Mismatch.ofMessage? name message with
  | none =>
    have hconsistent := Mismatch.ofMessage?_eq_none_iff.1 hmismatch
    exact .inr ⟨fun hmismatched => Message.mismatched_iff.1 hmismatched hconsistent, hmismatch⟩
  | some mismatch =>
    have hmismatched : message.Mismatched := by
      rw [Message.mismatched_iff, ← Mismatch.ofMessage?_eq_none_iff, hmismatch]
      exact Option.some_ne_none mismatch
    exact .inl ⟨hmismatched, mismatch, hmismatch, Mismatch.describes_of_ofMessage? hmismatch⟩

end Catalog

end Phrasebook
