import Phrasebook.Proofs.Locale.Canonical
import Phrasebook.Settings

/-!
# Which locale comes first

The variable of the program is read in two places: it overrides the settings, and it is the first of
the variables that the environment is asked for. `preferred` says once what comes before what. Both
ways come to it when the settings pass their check (`startLocale_override`): a value that the search
would pass over because it cannot be read does not pass, so the two never differ.
-/

namespace Phrasebook

namespace Locale

/-- A setting that ends the search: it is not blank, and it asks for the source language or can be
read. -/
def isDecisive (setting : String) : Bool :=
  !(Text.trim setting.toList).isEmpty && (asksForSource setting || (parse? setting).isSome)

theorem locale_select (values : List String) :
    (select values).locale = (values.find? isDecisive).bind ofSetting? := by
  induction values with
  | nil => rfl
  | cons setting rest ih =>
    by_cases hblank : (Text.trim setting.toList).isEmpty = true
    · have hpassed : isDecisive setting = false := by rw [isDecisive, hblank]; rfl
      rw [select, if_pos hblank, List.find?_cons_of_neg (by simp [hpassed]), ih]
    · by_cases hsource : asksForSource setting = true
      · have hdecisive : isDecisive setting = true := by simp [isDecisive, hblank, hsource]
        rw [select, if_neg hblank, if_pos hsource, List.find?_cons_of_pos hdecisive,
          Option.bind_some, ofSetting?, if_pos hsource]
      · rw [select, if_neg hblank, if_neg hsource]
        cases hparse : parse? setting with
        | none =>
          have hpassed : isDecisive setting = false := by simp [isDecisive, hsource, hparse]
          rw [List.find?_cons_of_neg (by simp [hpassed])]
          exact ih
        | some locale =>
          have hdecisive : isDecisive setting = true := by simp [isDecisive, hblank, hparse]
          rw [List.find?_cons_of_pos hdecisive, Option.bind_some, ofSetting?, if_neg hsource,
            hparse]

theorem parse?_name_of_ofSetting? {setting : String} {locale : Locale}
    (hlocale : ofSetting? setting = some locale) : parse? locale.name = some locale := by
  unfold ofSetting? at hlocale
  split at hlocale
  · cases hlocale
  · exact parse?_name hlocale

end Locale

namespace Settings

variable {settings valid : Settings} {environment : Environment}

/-- The locale that the environment sets for the program. A blank value sets none. -/
def programLocale? (environment : Environment) : Option String :=
  (environment.get? "TSCAT_LOCALE").filter fun setting => !(Text.trim setting.toList).isEmpty

/-- The locales that the environment sets for all programs, in order of precedence. -/
def systemLocales (environment : Environment) : List String :=
  ["LC_ALL", "LC_MESSAGES", "LANG"].filterMap environment.get?

/-- The locale that comes first: that of the variable of the program, else that of the settings,
else that of the first variable for all programs that decides anything. -/
def preferred (settings : Settings) (environment : Environment) : Option Locale :=
  match (programLocale? environment).or settings.locale with
  | some setting => Locale.ofSetting? setting
  | none => ((systemLocales environment).find? Locale.isDecisive).bind Locale.ofSetting?

/-- Settings pass as they are, and with a locale that can be read. -/
theorem of_checked_eq_ok (hvalid : settings.checked = .ok valid) :
    valid = settings ∧ ∀ setting ∈ settings.locale, (Locale.parse? setting).isSome = true := by
  unfold checked at hvalid
  split at hvalid
  · rename_i hproblems
    cases hvalid
    refine ⟨rfl, fun setting hsetting => ?_⟩
    rw [List.isEmpty_iff, problems, List.append_eq_nil_iff, Option.toList_eq_nil_iff,
      Option.map_eq_none_iff, Option.filter_eq_none_iff] at hproblems
    have hreadable : ¬ (Locale.parse? setting).isNone = true := hproblems.2 setting hsetting
    simpa [Option.isSome_iff_ne_none] using hreadable
  · cases hvalid

theorem locale_override :
    (settings.override environment).locale = (programLocale? environment).or settings.locale := rfl

theorem locale_selection : environment.selection.locale =
    (((environment.get? "TSCAT_LOCALE").toList ++ systemLocales environment).find?
      Locale.isDecisive).bind Locale.ofSetting? := by
  have hvariables : Environment.localeVariables.filterMap environment.get? =
      (environment.get? "TSCAT_LOCALE").toList ++ systemLocales environment := by
    rw [Environment.localeVariables, Environment.localeVariable, List.filterMap_cons]
    cases environment.get? "TSCAT_LOCALE" <;> rfl
  rw [Environment.selection, Locale.locale_select, hvariables]

theorem locale_selection_of_none (hnone : programLocale? environment = none) :
    environment.selection.locale =
      ((systemLocales environment).find? Locale.isDecisive).bind Locale.ofSetting? := by
  rw [locale_selection]
  cases hsetting : environment.get? "TSCAT_LOCALE" with
  | none => rfl
  | some setting =>
    rw [programLocale?, hsetting, Option.filter_eq_none_iff] at hnone
    have hblank : Locale.isDecisive setting = false := by
      rw [Locale.isDecisive, Bool.eq_false_iff.2 (hnone setting rfl), Bool.false_and]
    rw [Option.toList_some, List.singleton_append, List.find?_cons_of_neg (by simp [hblank])]

theorem locale_selection_of_some {setting : String}
    (hsome : programLocale? environment = some setting)
    (hparse : (Locale.parse? setting).isSome = true) :
    environment.selection.locale = Locale.ofSetting? setting := by
  obtain ⟨hsetting, hblank⟩ := Option.filter_eq_some_iff.1 hsome
  have hdecisive : Locale.isDecisive setting = true := by
    rw [Locale.isDecisive, hblank, hparse, Bool.or_true, Bool.true_and]
  rw [locale_selection, hsetting, Option.toList_some, List.singleton_append,
    List.find?_cons_of_pos hdecisive, Option.bind_some]

theorem startLocale_override_eq :
    (settings.override environment).startLocale environment =
      (settings.preferred environment).map Locale.name := by
  unfold startLocale preferred
  rw [locale_override]
  cases hchosen : (programLocale? environment).or settings.locale with
  | none =>
    dsimp only
    rw [locale_selection_of_none (Option.or_eq_none_iff.1 hchosen).1]
  | some setting => rfl

theorem parse?_name_of_preferred {locale : Locale}
    (hlocale : settings.preferred environment = some locale) :
    Locale.parse? locale.name = some locale := by
  unfold preferred at hlocale
  split at hlocale
  · exact Locale.parse?_name_of_ofSetting? hlocale
  · obtain ⟨setting, -, hsetting⟩ := Option.bind_eq_some_iff.1 hlocale
    exact Locale.parse?_name_of_ofSetting? hsetting

/-- Settings that pass after they were overridden start with the locale that comes first, in its
canonical spelling, which is read back as that locale. Where the settings have no locale of their
own, it is the one that they start with when nothing overrides them. -/
theorem startLocale_override (hvalid : (settings.override environment).checked = .ok valid) :
    valid.startLocale environment = (settings.preferred environment).map Locale.name ∧
      (settings.locale = none →
        valid.startLocale environment = settings.startLocale environment) ∧
      ∀ identifier, valid.startLocale environment = some identifier →
        ∃ locale, settings.preferred environment = some locale ∧ identifier = locale.name ∧
          Locale.parse? identifier = some locale := by
  obtain ⟨rfl, hlocales⟩ := of_checked_eq_ok hvalid
  refine ⟨startLocale_override_eq, fun hnone => ?_, fun identifier hstart => ?_⟩
  · have hbare :
        settings.startLocale environment = environment.selection.locale.map Locale.name := by
      rw [startLocale, hnone]
    rw [locale_override, hnone, Option.or_none] at hlocales
    rw [startLocale_override_eq, hbare, preferred, hnone, Option.or_none]
    cases hchosen : programLocale? environment with
    | none => rw [locale_selection_of_none hchosen]
    | some setting => rw [locale_selection_of_some hchosen (hlocales setting hchosen)]
  · rw [startLocale_override_eq] at hstart
    obtain ⟨locale, hlocale, rfl⟩ := Option.map_eq_some_iff.1 hstart
    exact ⟨locale, hlocale, rfl, parse?_name_of_preferred hlocale⟩

def twoLocales : Environment :=
  [("LANG", "pl"), ("TSCAT_TRANSLATIONS_DIR", "t"), ("TSCAT_LOCALE", "pt-br.UTF-8")]

/-- The variable of the program comes before the others, whether it overrides the settings or
not. -/
theorem startLocale_override_twoLocales :
    (({} : Settings).override twoLocales).checked =
        .ok { directories := ["t", "translations"], locale := some "pt-br.UTF-8" } ∧
      ({ directories := ["t", "translations"],
         locale := some "pt-br.UTF-8" } : Settings).startLocale twoLocales = some "pt_BR" ∧
      ({} : Settings).startLocale twoLocales = some "pt_BR" := by
  have hvalid : (({} : Settings).override twoLocales).checked =
      .ok { directories := ["t", "translations"], locale := some "pt-br.UTF-8" } := by decide
  obtain ⟨hstart, hsame, -⟩ := startLocale_override hvalid
  have hchosen : (({} : Settings).preferred twoLocales).map Locale.name = some "pt_BR" := by decide
  exact ⟨hvalid, hstart.trans hchosen, (hsame rfl).symm.trans (hstart.trans hchosen)⟩

end Settings

end Phrasebook
