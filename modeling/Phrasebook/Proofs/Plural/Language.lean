import Phrasebook.Proofs.Catalog.Selection
import Phrasebook.Proofs.Locale.Canonical
import Phrasebook.Proofs.Text.Padding

/-!
# The language of a plural rule

A plural rule goes by what stands before the first separator of an identifier, a locale by the first
part that is not empty, without the blanks around it. Where an identifier leads with its language
the two are the same (`language_of_leads`); where it starts with a blank or a separator, or has a
blank behind the language, the rule is the English one, whatever the language
(`ofLocale_of_not_leads`).
-/

namespace Phrasebook

namespace Plural

open Text

/-- What stands before the first separator. -/
def heading (identifier : String) : List Char :=
  identifier.toList.takeWhile fun c => !isTagSeparator c

/-- The identifier starts with its language: something stands before its first separator, and no
blank does. -/
structure Leads (identifier : String) : Prop where
  ne_nil : heading identifier ≠ []
  solid : IsSolid (heading identifier)

instance (identifier : String) : Decidable (Leads identifier) :=
  decidable_of_iff (heading identifier ≠ [] ∧ IsSolid (heading identifier))
    ⟨fun ⟨hne, hsolid⟩ => ⟨hne, hsolid⟩, fun ⟨hne, hsolid⟩ => ⟨hne, hsolid⟩⟩

namespace Rule

theorem ofLocale_eq (identifier : String) :
    ofLocale identifier = ofLanguage (String.ofList ((heading identifier).map Char.toLower)) := rfl

/-! ## Languages -/

def languages : List String :=
  ["fr", "ru", "uk", "be", "pl", "ar", "ja", "zh", "ko", "vi", "th", "id", "ms"]

theorem ofLanguage_of_not_mem {language : String} (hlanguage : language ∉ languages) :
    ofLanguage language = .english := by
  simp only [languages, List.mem_cons, List.not_mem_nil, or_false, not_or] at hlanguage
  simp [ofLanguage, hlanguage]

theorem isWord_of_mem_languages : ∀ language ∈ languages, Locale.IsWord language := by decide

theorem ofLocale_of_not_leads {identifier : String} (hleads : ¬ Leads identifier) :
    ofLocale identifier = .english := by
  rw [ofLocale_eq]
  refine ofLanguage_of_not_mem fun hlanguage => hleads ?_
  have hword := isWord_of_mem_languages _ hlanguage
  constructor
  · intro hnil
    rw [hnil] at hword
    exact hword.1 rfl
  · intro c hc
    exact Locale.not_isBlank_of_isAlphanum (hword.isAlphanum_of_lower hc)

end Rule

end Plural

/-! ## The part that is the language -/

namespace Locale

variable {identifier : String} {locale : Locale}

/-- The heading ends at the first separator of the stem. -/
theorem heading_eq (identifier : String) :
    Plural.heading identifier = (stem identifier.toList).takeWhile fun c => !isSeparator c := by
  have hseparator (c : Char) :
      (!Plural.isTagSeparator c) = decide (!isSeparator c ∧ !isSuffixMark c) := by
    rw [Plural.isTagSeparator, Bool.or_assoc, Bool.not_or, Bool.decide_and, Bool.decide_eq_true,
      Bool.decide_eq_true]
    rfl
  rw [stem, List.takeWhile_takeWhile, Plural.heading, funext hseparator]

theorem exists_parts_eq_cons {front : List Char} (hne : front ≠ [])
    (hfront : ∀ c ∈ front, isSeparator c = false) {rest : List Char}
    (hrest : ∀ c ∈ rest.head?, isSeparator c = true) :
    ∃ later, parts (front ++ rest) = front :: later := by
  have hkeep : (!front.isEmpty) = true := by simp [hne]
  cases rest with
  | nil =>
    refine ⟨[], ?_⟩
    rw [List.append_nil, parts, List.splitOnP_eq_singleton hfront, List.filter_cons, if_pos hkeep,
      List.filter_nil]
  | cons mark rest =>
    refine ⟨parts rest, ?_⟩
    rw [parts, List.splitOnP_append_cons_of_forall_mem hfront mark (hrest mark rfl),
      List.filter_cons, if_pos hkeep, parts]

theorem language_of_leads (hlocale : parse? identifier = some locale)
    (hleads : Plural.Leads identifier) :
    locale.language = String.ofList ((Plural.heading identifier).map Char.toLower) := by
  obtain ⟨hne, hsolid⟩ := hleads
  rw [heading_eq] at hne hsolid ⊢
  simp only [parse?] at hlocale
  generalize stem identifier.toList = cs at hne hsolid hlocale ⊢
  have hfront : ∀ c ∈ cs.takeWhile fun c => !isSeparator c, isSeparator c = false := by
    intro c hc
    simpa using List.mem_takeWhile_imp hc
  have hrest : ∀ c ∈ (Text.dropTrailing Text.isBlank (cs.dropWhile fun c => !isSeparator c)).head?,
      isSeparator c = true := by
    intro c hc
    have hhead := List.head?_dropWhile_not (fun c => !isSeparator c) cs
    rw [Option.mem_def.1 (Text.mem_head?_of_dropTrailing hc)] at hhead
    simpa using hhead
  have htrim : Text.trim cs = (cs.takeWhile fun c => !isSeparator c) ++
      Text.dropTrailing Text.isBlank (cs.dropWhile fun c => !isSeparator c) := by
    rw [← Text.trim_append_of_solid hsolid hne, List.takeWhile_append_dropWhile]
  obtain ⟨later, hparts⟩ := exists_parts_eq_cons hne hfront hrest
  rw [htrim, hparts] at hlocale
  split at hlocale
  · cases hlocale
    rfl
  · cases hlocale

end Locale

/-! ## Rules of catalogs -/

theorem Catalog.Reachable.pluralRule_eq {catalog : Catalog} (hreachable : Reachable catalog) :
    catalog.pluralRule = catalog.language.elim .english Plural.Rule.ofLocale := by
  obtain ⟨steps, rfl⟩ := hreachable.exists_steps
  exact pluralRule_build _

namespace Plural.Rule

variable {identifier : String} {locale : Locale}

theorem not_isTagSeparator_of_isAlphanum {c : Char} (hc : c.isAlphanum = true) :
    isTagSeparator c = false := by
  refine Locale.of_isAlphanum hc ?_
  decide

theorem ofLocale_language (hlocale : locale.IsCanonical) :
    ofLocale locale.language = ofLanguage locale.language := by
  have hheading : heading locale.language = locale.language.toList := by
    refine List.takeWhile_eq_self_iff.2 fun c hc => ?_
    rw [not_isTagSeparator_of_isAlphanum (hlocale.language.2 c hc)]
    rfl
  rw [ofLocale_eq, hheading, Locale.ofList_map_of_fixed hlocale.lower]

theorem ofLocale_of_leads (hlocale : Locale.parse? identifier = some locale)
    (hleads : Leads identifier) :
    ofLocale identifier = ofLocale locale.language := by
  rw [ofLocale_language (Locale.isCanonical_of_parse? hlocale), ofLocale_eq,
    Locale.language_of_leads hlocale hleads]

/-- An identifier has the plural rule of the language that its locale has exactly where it leads
with it, or this rule is the English one, which all other identifiers have. A catalog in such a
language has the same rule as its identifier. -/
theorem ofLocale_eq_language_iff (hlocale : Locale.parse? identifier = some locale) :
    (ofLocale identifier = ofLocale locale.language ↔
        Leads identifier ∨ ofLocale locale.language = .english) ∧
      (¬ Leads identifier → ofLocale identifier = .english) ∧
      ∀ catalog, Catalog.Reachable catalog → catalog.language = some identifier →
        (catalog.pluralRule = ofLocale locale.language ↔
          Leads identifier ∨ ofLocale locale.language = .english) := by
  have hiff : ofLocale identifier = ofLocale locale.language ↔
      Leads identifier ∨ ofLocale locale.language = .english := by
    by_cases hleads : Leads identifier
    · exact iff_of_true (ofLocale_of_leads hlocale hleads) (.inl hleads)
    · rw [ofLocale_of_not_leads hleads, or_iff_right hleads]
      exact eq_comm
  refine ⟨hiff, ofLocale_of_not_leads, fun catalog hreachable hlanguage => ?_⟩
  rw [hreachable.pluralRule_eq, hlanguage]
  exact hiff

/-- Polish is read from both identifiers, and a catalog has its rule only where nothing stands
before it. -/
theorem ofLocale_eq_language_iff_polish :
    Locale.parse? "PL-pl.UTF-8" = some ⟨"pl", some "PL"⟩ ∧ Locale.parse? "_PL" = some ⟨"pl", none⟩ ∧
      (Catalog.Run.ofSteps [.language "PL-pl.UTF-8"]).builder.build.pluralRule = ofLocale "pl" ∧
      (Catalog.Run.ofSteps [.language "_PL"]).builder.build.pluralRule ≠ ofLocale "pl" := by
  have hleading : Locale.parse? "PL-pl.UTF-8" = some ⟨"pl", some "PL"⟩ := by decide
  have hseparated : Locale.parse? "_PL" = some ⟨"pl", none⟩ := by decide
  have hleads : Leads "PL-pl.UTF-8" := by decide
  have hnone : ¬ Leads "_PL" := by decide
  obtain ⟨-, -, hsame⟩ := ofLocale_eq_language_iff hleading
  obtain ⟨-, -, hother⟩ := ofLocale_eq_language_iff hseparated
  refine ⟨hleading, hseparated, (hsame _ (.built [.language "PL-pl.UTF-8"]) rfl).2 (.inl hleads),
    fun hrule => ?_⟩
  obtain hleads | henglish := (hother _ (.built [.language "_PL"]) rfl).1 hrule
  · exact hnone hleads
  · revert henglish
    decide

/-- So the plural rule of an identifier is not always that of the language read from it. -/
theorem not_forall_ofLocale_eq_language :
    ¬ ∀ (identifier : String) (locale : Locale), Locale.parse? identifier = some locale →
      ofLocale identifier = ofLocale locale.language := by
  intro h
  have hsame := h " pl" ⟨"pl", none⟩ (by decide)
  revert hsame
  decide

end Plural.Rule

end Phrasebook
