import Phrasebook.Proofs.Catalog.Lookup
import Phrasebook.Proofs.CommandLine.Answer
import Phrasebook.Proofs.CommandLine.Session
import Phrasebook.Proofs.FileSystem.Writing
import Phrasebook.Proofs.Loader.Listing
import Phrasebook.Proofs.Resource.RoundTrip
import Phrasebook.Proofs.Translator.History

/-!
# Lookups without a file

A lookup without a file is answered from the catalog of a locale. One that the request names has to
load; for any other, and where there is none, the source language stands in (`resolved`). The
catalog goes by way of the translator, which all lookups of a process share, but nothing of what was
active before is left there (`catalogFor_eq`). So a lookup comes to the same whatever lookups there
were before it (`showTranslation_afterLookups`).
-/

namespace Phrasebook

/-- Where loading fails, the catalog is that of the source language. -/
theorem Loader.value_loadOrSource (loader : Loader) (files : FileSystem) (identifier : String) :
    (loader.loadOrSource files identifier).value =
      (loader.load files identifier).value.toOption.getD .empty := by
  unfold loadOrSource
  dsimp only
  split <;> rename_i hload <;> rw [hload] <;> rfl

namespace Translator

variable (translator : Translator) (loader : Loader) (files : FileSystem) (identifier : String)

theorem translator_switch : (translator.switch loader files identifier).translator =
    ⟨(loader.loadOrSource files identifier).value⟩ := by
  rw [switch_eq_publish, Loader.value_loadOrSource]
  dsimp only
  cases (loader.load files identifier).value <;> rfl

theorem outcome_switch : (translator.switch loader files identifier).outcome =
    (loader.load files identifier).value.map fun _ => () := by
  rw [switch_eq_publish]

end Translator

namespace CommandLine

variable {session : Session} {settings : Settings} {request : LookupRequest} {catalog : Catalog}

/-! ## The catalog -/

/-- The catalog that answers a request without a file. A locale that the request names has to
load. -/
def resolved (session : Session) (settings : Settings) (request : LookupRequest) :
    Except LoadError Catalog :=
  match request.locale with
  | some locale => (settings.loader.load session.files locale).value
  | none =>
    .ok ((settings.startLocale session.environment).elim .empty fun locale =>
      (settings.loader.loadOrSource session.files locale).value)

/-- A locale that loads is the one that is answered from, whoever asks for it. -/
theorem resolved_of_load {locale : String}
    (hchosen : request.locale.or (settings.startLocale session.environment) = some locale)
    (hload : (settings.loader.load session.files locale).value = .ok catalog) :
    resolved session settings request = .ok catalog := by
  unfold resolved
  cases hlocale : request.locale with
  | some asked =>
    rw [hlocale, Option.some_or] at hchosen
    cases hchosen
    exact hload
  | none =>
    rw [hlocale, Option.none_or] at hchosen
    rw [hchosen, Option.elim_some, Loader.value_loadOrSource, hload]
    rfl

/-- Where the request names no locale and no other one loads, the source language answers. -/
theorem resolved_of_nothing_loads (hlocale : request.locale = none)
    (hstart : ∀ locale, settings.startLocale session.environment = some locale →
      ∃ error, (settings.loader.load session.files locale).value = .error error) :
    resolved session settings request = .ok .empty := by
  rw [resolved, hlocale]
  dsimp only
  cases hchosen : settings.startLocale session.environment with
  | none => rfl
  | some locale =>
    obtain ⟨error, hload⟩ := hstart locale hchosen
    rw [Option.elim_some, Loader.value_loadOrSource, hload]
    rfl

/-- A lookup without a file leaves the catalog active that answers it, or the source language. -/
theorem catalogFor_eq (hfile : request.file = none) :
    catalogFor session settings request =
      (resolved session settings request,
        { session with
          translator := ⟨(resolved session settings request).toOption.getD .empty⟩ }) := by
  unfold catalogFor resolved
  rw [hfile]
  cases hlocale : request.locale with
  | some locale =>
    dsimp only [Option.some_or]
    rw [Translator.translator_switch, Translator.outcome_switch, Loader.value_loadOrSource]
    cases (settings.loader.load session.files locale).value <;> rfl
  | none =>
    dsimp only [Option.none_or]
    cases settings.startLocale session.environment with
    | none => rfl
    | some locale =>
      dsimp only
      rw [Translator.translator_switch, Translator.outcome_switch]
      cases (settings.loader.load session.files locale).value <;> rfl

theorem showTranslation_of_error {error : LoadError} (hfile : request.file = none)
    (hresolved : resolved session settings request = .error error) :
    showTranslation session settings request =
      .failed { session with translator := ⟨.empty⟩ } (.load error) := by
  rw [showTranslation, catalogFor_eq hfile, hresolved]
  rfl

theorem showTranslation_of_ok (hfile : request.file = none)
    (hresolved : resolved session settings request = .ok catalog) :
    showTranslation session settings request =
      if countFits catalog request then
        .printed { session with translator := ⟨catalog⟩ } (answer catalog request ++ "\n")
      else
        .failed { session with translator := ⟨catalog⟩ }
          (.countWithoutForms request.source request.context) := by
  rw [showTranslation, catalogFor_eq hfile, hresolved]
  rfl

theorem error_eq_load_iff (hfile : request.file = none) (error : LoadError) :
    (showTranslation session settings request).error = some (.load error) ↔
      resolved session settings request = .error error := by
  cases hresolved : resolved session settings request with
  | error cause =>
    rw [showTranslation_of_error hfile hresolved]
    constructor
    · intro herror
      cases herror
      rfl
    · intro hcause
      cases hcause
      rfl
  | ok catalog =>
    rw [showTranslation_of_ok hfile hresolved]
    apply iff_of_false
    · split <;> nofun
    · nofun

/-! ## The answer -/

/-- The request is answered from a catalog: by the text of its message, or by the form for its
count. A count is refused where the message has no forms. -/
structure AnsweredFrom (catalog : Catalog) (request : LookupRequest)
    (outcome : Outcome) : Prop where
  plain : request.count = none →
    outcome.output = Template.withArgs (catalog.translate request.context request.source
        request.disambiguation) request.args ++ "\n" ∧
      outcome.error = none
  counted : ∀ count, request.count = some count →
    (∀ message, catalog.lookup? request.context request.source request.disambiguation =
      some message → message.hasForms = true) →
    outcome.output = Template.withArgs (catalog.translateCounted request.context request.source
        request.disambiguation count) request.args ++ "\n" ∧
      outcome.error = none
  refused : ∀ count message, request.count = some count →
    catalog.lookup? request.context request.source request.disambiguation = some message →
      message.hasForms = false → outcome.output = "" ∧
        outcome.error = some (.countWithoutForms request.source request.context)

theorem countFits_of_none (hcount : request.count = none) : countFits catalog request = true := by
  rw [countFits, hcount]
  rfl

theorem countFits_iff {count : Int} (hcount : request.count = some count) :
    countFits catalog request = true ↔
      ∀ message, catalog.lookup? request.context request.source request.disambiguation =
        some message → message.hasForms = true := by
  rw [countFits, hcount, Option.isNone_some, Bool.false_or, Option.all_eq_true_iff_get]
  constructor
  · intro hforms message hmessage
    simpa [hmessage] using hforms
  · intro hforms hsome
    exact hforms _ (Option.some_get hsome).symm

theorem printed_of_ok (hfile : request.file = none)
    (hresolved : resolved session settings request = .ok catalog)
    (hfits : countFits catalog request = true) :
    (showTranslation session settings request).output = answer catalog request ++ "\n" ∧
      (showTranslation session settings request).error = none := by
  rw [showTranslation_of_ok hfile hresolved, if_pos hfits]
  exact ⟨rfl, rfl⟩

theorem answeredFrom_of_ok (hfile : request.file = none)
    (hresolved : resolved session settings request = .ok catalog) :
    AnsweredFrom catalog request (showTranslation session settings request) where
  plain hcount := by
    have hprinted := printed_of_ok hfile hresolved (countFits_of_none hcount)
    rwa [answer, hcount] at hprinted
  counted count hcount hforms := by
    have hprinted := printed_of_ok hfile hresolved ((countFits_iff hcount).2 hforms)
    rwa [answer, hcount] at hprinted
  refused count message hcount hmessage hforms := by
    have hfits : ¬ countFits catalog request = true := by
      rw [countFits_iff hcount]
      intro hall
      rw [hall message hmessage] at hforms
      cases hforms
    rw [showTranslation_of_ok hfile hresolved, if_neg hfits]
    exact ⟨rfl, rfl⟩

/-- The source text of a request with the count and the arguments filled in. -/
def inSource (request : LookupRequest) : String :=
  match request.count with
  | some count => Template.withArgs (Template.withCount request.source count) request.args
  | none => Template.withArgs request.source request.args

theorem answer_source (request : LookupRequest) : answer .empty request = inSource request := by
  unfold inSource
  split
  · rename_i count hcount
    rw [answer_of_count hcount, selected_empty]
  · rename_i hcount
    rw [answer, hcount]
    dsimp only
    rw [Catalog.translateWith, Catalog.translate, Catalog.presented?_empty]

theorem countFits_source (request : LookupRequest) : countFits .empty request = true := by
  rw [countFits, Catalog.lookup?_empty]
  exact Bool.or_true _

/-! ## Lookups before -/

/-- The session after lookups, each with its settings. -/
def afterLookups (session : Session) (earlier : List (Settings × LookupRequest)) : Session :=
  earlier.foldl (fun session lookup => (showTranslation session lookup.1 lookup.2).session) session

/-- A lookup changes nothing but the active catalog. -/
theorem exists_translator_showTranslation (session : Session) (settings : Settings)
    (request : LookupRequest) :
    ∃ translator, (showTranslation session settings request).session =
      { session with translator } := by
  cases hfile : request.file with
  | some file =>
    refine ⟨session.translator, ?_⟩
    unfold showTranslation catalogFor
    rw [hfile]
    dsimp only
    split
    · rfl
    · split <;> rfl
  | none =>
    cases hresolved : resolved session settings request with
    | error error =>
      rw [showTranslation_of_error hfile hresolved]
      exact ⟨_, rfl⟩
    | ok catalog =>
      rw [showTranslation_of_ok hfile hresolved]
      refine ⟨⟨catalog⟩, ?_⟩
      split <;> rfl

theorem exists_translator_afterLookups (session : Session)
    (earlier : List (Settings × LookupRequest)) :
    ∃ translator, afterLookups session earlier = { session with translator } := by
  induction earlier generalizing session with
  | nil => exact ⟨session.translator, rfl⟩
  | cons first rest ih =>
    obtain ⟨translator, hfirst⟩ := exists_translator_showTranslation session first.1 first.2
    obtain ⟨last, hrest⟩ := ih { session with translator }
    refine ⟨last, ?_⟩
    rw [afterLookups, List.foldl_cons, hfirst]
    exact hrest

theorem showTranslation_translator (hfile : request.file = none) (translator : Translator) :
    showTranslation { session with translator } settings request =
      showTranslation session settings request := by
  rw [showTranslation, showTranslation, catalogFor_eq hfile, catalogFor_eq hfile]
  rfl

theorem showTranslation_afterLookups (hfile : request.file = none)
    (earlier : List (Settings × LookupRequest)) :
    showTranslation (afterLookups session earlier) settings request =
      showTranslation session settings request := by
  obtain ⟨translator, hearlier⟩ := exists_translator_afterLookups session earlier
  rw [hearlier, showTranslation_translator hfile]

/-! ## The outcome -/

/-- What a lookup without a file comes to. -/
structure Resolves (session : Session) (settings : Settings) (request : LookupRequest)
    (outcome : Outcome) : Prop where
  /-- A locale that the request names has to load. -/
  required : ∀ locale, request.locale = some locale → ∀ error,
    outcome.error = some (.load error) ↔
      (settings.loader.load session.files locale).value = .error error
  /-- No other locale has to. -/
  lenient : request.locale = none → ∀ error, outcome.error ≠ some (.load error)
  inSource : request.locale = none →
    (∀ locale, settings.startLocale session.environment = some locale →
      ∃ error, (settings.loader.load session.files locale).value = .error error) →
    outcome.output = inSource request ++ "\n" ∧ outcome.error = none
  loaded : ∀ locale catalog,
    request.locale.or (settings.startLocale session.environment) = some locale →
    (settings.loader.load session.files locale).value = .ok catalog →
    AnsweredFrom catalog request outcome

/-- A lookup without a file resolves its locale, whatever catalog is active, and it comes to the
same after any other lookups. -/
theorem showTranslation_resolves (hfile : request.file = none) :
    Resolves session settings request (showTranslation session settings request) ∧
      (∀ translator, showTranslation { session with translator } settings request =
        showTranslation session settings request) ∧
      ∀ earlier, showTranslation (afterLookups session earlier) settings request =
        showTranslation session settings request := by
  refine ⟨?_, showTranslation_translator hfile, showTranslation_afterLookups hfile⟩
  constructor
  · intro locale hlocale error
    rw [error_eq_load_iff hfile, resolved, hlocale]
  · intro hlocale error herror
    rw [error_eq_load_iff hfile, resolved, hlocale] at herror
    cases herror
  · intro hlocale hstart
    rw [← answer_source]
    exact printed_of_ok hfile (resolved_of_nothing_loads hlocale hstart) (countFits_source request)
  · intro locale catalog hchosen hload
    exact answeredFrom_of_ok hfile (resolved_of_load hchosen hload)

/-- A request with a count and an argument that leaves the locale to the environment. -/
def trackRequest : LookupRequest where
  context := "Player"
  source := "%n track(s) in %1"
  args := ["Rock"]
  count := some 5

/-- A message with three forms. -/
def tracks : Message where
  source := "%n track(s) in %1"
  translation := .forms ["%n utwór w %1", "%n utwory w %1", "%n utworów w %1"]

def trackSteps : List Catalog.Step := [.add "Player" tracks, .language "pl"]

/-- Settings with one directory. -/
def trackSettings : Settings := { directories := ["t"] }

/-- A session with a Polish resource in this directory. -/
def trackSession (environment : Environment) : Session where
  files :=
    { nodes := [(["t"], .directory), (["pl.ts", "t"],
        .file (Resource.render (Catalog.Run.ofSteps trackSteps).builder.build).toUTF8)] }
  environment := environment

/-- The Polish resource loads for a Polish region and answers with the third form for five. -/
theorem exists_load_tracks (environment : Environment) : ∃ catalog,
    (trackSettings.loader.load (trackSession environment).files "pl_PL").value = .ok catalog ∧
      catalog.lookup? "Player" "%n track(s) in %1" none = some tracks ∧
      catalog.translateCounted "Player" "%n track(s) in %1" none 5 = "5 utworów w %1" := by
  have hlocale : Locale.parse? "pl_PL" = some ⟨"pl", some "PL"⟩ := by decide
  have hread : (trackSession environment).files.read "t/pl.ts" =
      .ok (Resource.render (Catalog.Run.ofSteps trackSteps).builder.build).toUTF8 := rfl
  have hfind : (trackSettings.loader.probes ⟨"pl", some "PL"⟩).find?
      (trackSession environment).files.isFile = some "t/pl.ts" := rfl
  obtain ⟨catalog, hparse, -, -, hrule, hcontents, -⟩ := Resource.exists_parse_render trackSteps
  have hfound : catalog.lookup? "Player" "%n track(s) in %1" none = some tracks := by
    rw [Catalog.lookup?_eq_scan (Catalog.Reachable.read hparse).wellFormed, Catalog.scan, hcontents,
      Catalog.Run.contents_ofSteps]
    decide
  refine ⟨catalog, ?_, hfound, ?_⟩
  · rw [Loader.load_of_find?_eq_some hlocale hfind, Resource.parseFile,
      FileSystem.readText_of_read hread]
    exact hparse
  · have hpolish : catalog.pluralRule = .polish := by
      rw [hrule]
      show Plural.Rule.ofLocale "pl" = .polish
      decide
    rw [Catalog.translateCounted, Catalog.pluralTemplate, Catalog.presented?, hfound, hpolish]
    decide +kernel

/-- The resource of the environment's locale answers where it loads, and the source language where
there is none; a locale that the request names has to load. -/
theorem showTranslation_resolves_tracks :
    trackRequest.file = none ∧
      (showTranslation (trackSession [("LANG", "pl_PL.UTF-8")]) trackSettings trackRequest).output =
        "5 utworów w Rock\n" ∧
      (showTranslation (trackSession [("LANG", "de_DE.UTF-8")]) trackSettings trackRequest).output =
        "5 track(s) in Rock\n" ∧
      (showTranslation (trackSession [("LANG", "pl_PL.UTF-8")]) trackSettings
        { trackRequest with locale := some "de_DE" }).error =
          some (.load (.notFound "de_DE" ["t/de_DE.ts", "t/de.ts"])) := by
  have hgerman : Locale.parse? "de_DE" = some ⟨"de", some "DE"⟩ := by decide
  have hmissing (environment : Environment) :
      (trackSettings.loader.load (trackSession environment).files "de_DE").value =
        .error (.notFound "de_DE" ["t/de_DE.ts", "t/de.ts"]) := by
    rw [Loader.load_of_find?_eq_none hgerman rfl]
    rfl
  refine ⟨rfl, ?_, ?_, ?_⟩
  · obtain ⟨catalog, hload, hfound, htext⟩ := exists_load_tracks [("LANG", "pl_PL.UTF-8")]
    obtain ⟨hresolves, -⟩ := @showTranslation_resolves (trackSession [("LANG", "pl_PL.UTF-8")])
      trackSettings trackRequest rfl
    have hanswered := hresolves.loaded "pl_PL" catalog (by decide) hload
    rw [(hanswered.counted 5 rfl ?_).1]
    · show Template.withArgs
          (catalog.translateCounted "Player" "%n track(s) in %1" none 5) _ ++ _ = _
      rw [htext]
      decide +kernel
    · intro message hmessage
      obtain rfl := Option.some.inj (hfound.symm.trans hmessage)
      rfl
  · obtain ⟨hresolves, -⟩ := @showTranslation_resolves (trackSession [("LANG", "de_DE.UTF-8")])
      trackSettings trackRequest rfl
    rw [(hresolves.inSource rfl ?_).1]
    · decide +kernel
    · have hstart : trackSettings.startLocale [("LANG", "de_DE.UTF-8")] = some "de_DE" := by decide
      intro locale hlocale
      obtain rfl := Option.some.inj (hstart.symm.trans hlocale)
      exact ⟨_, hmissing _⟩
  · obtain ⟨hresolves, -⟩ := @showTranslation_resolves (trackSession [("LANG", "pl_PL.UTF-8")])
      trackSettings { trackRequest with locale := some "de_DE" } rfl
    exact (hresolves.required "de_DE" rfl _).2 (hmissing _)

end CommandLine

end Phrasebook
