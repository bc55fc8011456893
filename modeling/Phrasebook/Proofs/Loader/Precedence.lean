import Phrasebook.Proofs.Loader.Listing
import Phrasebook.Proofs.Loader.Notices
import Phrasebook.Proofs.Locale.Canonical

/-!
# Which resource is loaded

The search goes through the candidates of a locale, and for each candidate through the directories.
It ends at the first file (`FirstHit`, `find?_probes_eq_some_iff`), and what this file holds is the
result, good or bad: nothing that comes later can stand in for it or hide it. If no path leads to a
file, all of them are reported (`load_searches`).
-/

namespace Phrasebook.Loader

variable {loader : Loader} {files files' : FileSystem} {locale : Locale} {identifier path : String}
  {candidate directory : String}

/-- The search ends at this candidate and this directory: there is a file, but none for the
candidate in a directory that comes before, and none in any directory for a candidate that comes
before. -/
structure FirstHit (loader : Loader) (files : FileSystem) (locale : Locale)
    (candidate directory : String) : Prop where
  isFile : files.isFile (loader.pathOf directory candidate) = true
  nearest : ∃ nearer farther, loader.directories = nearer ++ directory :: farther ∧
    ∀ other ∈ nearer, files.isFile (loader.pathOf other candidate) = false
  best : ∃ better worse, locale.resourceNames = better ++ candidate :: worse ∧
    ∀ name ∈ better, ∀ other ∈ loader.directories, files.isFile (loader.pathOf other name) = false

/-! ## The search -/

theorem find?_candidate_eq_none_iff :
    (loader.directories.map fun other => loader.pathOf other candidate).find? files.isFile = none ↔
      ∀ other ∈ loader.directories, files.isFile (loader.pathOf other candidate) = false := by
  rw [List.find?_eq_none]
  simp

theorem find?_candidate_eq_some_iff :
    (loader.directories.map fun other => loader.pathOf other candidate).find? files.isFile =
      some path ↔
      ∃ directory, path = loader.pathOf directory candidate ∧ files.isFile path = true ∧
        ∃ nearer farther, loader.directories = nearer ++ directory :: farther ∧
          ∀ other ∈ nearer, files.isFile (loader.pathOf other candidate) = false := by
  rw [List.find?_map, Option.map_eq_some_iff]
  simp only [List.find?_eq_some_iff_append, Function.comp_apply, Bool.not_eq_true']
  constructor
  · rintro ⟨directory, ⟨hfile, nearer, farther, hdirectories, hnearer⟩, rfl⟩
    exact ⟨directory, rfl, hfile, nearer, farther, hdirectories, hnearer⟩
  · rintro ⟨directory, rfl, hfile, nearer, farther, hdirectories, hnearer⟩
    exact ⟨directory, ⟨hfile, nearer, farther, hdirectories, hnearer⟩, rfl⟩

/-- The search goes by candidates first, and by directories within a candidate. -/
theorem find?_probes_eq_some_iff : (loader.probes locale).find? files.isFile = some path ↔
    ∃ candidate directory, loader.FirstHit files locale candidate directory ∧
      path = loader.pathOf directory candidate := by
  rw [probes, List.find?_flatMap, List.findSome?_eq_some_iff]
  simp only [find?_candidate_eq_none_iff, find?_candidate_eq_some_iff]
  constructor
  · rintro ⟨better, candidate, worse, hnames, ⟨directory, rfl, hfile, hnearest⟩, hbetter⟩
    exact ⟨candidate, directory, ⟨hfile, hnearest, better, worse, hnames, hbetter⟩, rfl⟩
  · rintro ⟨candidate, directory, ⟨hfile, hnearest, better, worse, hnames, hbetter⟩, rfl⟩
    exact ⟨better, candidate, worse, hnames, ⟨directory, rfl, hfile, hnearest⟩, hbetter⟩

theorem FirstHit.find?_probes (h : loader.FirstHit files locale candidate directory) :
    (loader.probes locale).find? files.isFile = some (loader.pathOf directory candidate) :=
  find?_probes_eq_some_iff.2 ⟨candidate, directory, h, rfl⟩

/-- A file for the full name of the locale ends the search before any other name comes up. -/
theorem exists_firstHit_name (hdirectory : directory ∈ loader.directories)
    (hfile : files.isFile (loader.pathOf directory locale.name) = true) :
    ∃ nearest ∈ loader.directories, loader.FirstHit files locale locale.name nearest := by
  obtain ⟨worse, hworse⟩ := List.head?_eq_some_iff.1 (Locale.head?_resourceNames locale)
  have hsome : ((loader.directories.map fun other => loader.pathOf other locale.name).find?
      files.isFile).isSome := by
    rw [List.find?_isSome]
    exact ⟨_, List.mem_map_of_mem hdirectory, hfile⟩
  obtain ⟨path, hpath⟩ := Option.isSome_iff_exists.1 hsome
  obtain ⟨nearest, rfl, hnearest, nearer, farther, hdirectories, hnearer⟩ :=
    find?_candidate_eq_some_iff.1 hpath
  refine ⟨nearest, by simp [hdirectories], hnearest, ⟨nearer, farther, hdirectories, hnearer⟩, ?_⟩
  exact ⟨[], worse, hworse, fun name hname => absurd hname List.not_mem_nil⟩

/-! ## What loading comes to -/

/-- What a loader says when it has found a resource: what reading the resource says. -/
def resultAt (files : FileSystem) (identifier path : String) : Noted (Except LoadError Catalog) :=
  let parsed := Resource.parseFile files path
  ⟨parsed.value, .resourceFound identifier path :: parsed.notices⟩

theorem FirstHit.load_eq (h : loader.FirstHit files locale candidate directory)
    (hlocale : Locale.parse? identifier = some locale) :
    loader.load files identifier =
      resultAt files identifier (loader.pathOf directory candidate) := by
  simp only [load, hlocale, h.find?_probes]
  rfl

theorem resultAt_congr (hread : files'.read path = files.read path) :
    resultAt files' identifier path = resultAt files identifier path := by
  unfold resultAt Resource.parseFile FileSystem.readText
  rw [hread]

theorem load_of_no_file (hlocale : Locale.parse? identifier = some locale)
    (hnone : ∀ path ∈ loader.probes locale, files.isFile path = false) :
    loader.load files identifier = ⟨.error (.notFound identifier (loader.probes locale)), []⟩ := by
  have hfind : (loader.probes locale).find? files.isFile = none := by
    rw [List.find?_eq_none]
    intro path hpath
    rw [hnone path hpath]
    exact Bool.false_ne_true
  simp only [load, hlocale, hfind]

/-- The order in which a resource is searched for, and what comes of the search. -/
structure Searches (loader : Loader) (files : FileSystem) (identifier : String) (locale : Locale) :
    Prop where
  /-- If there is a file at all, there is one where the search ends. -/
  hit : (∃ path ∈ loader.probes locale, files.isFile path = true) →
    ∃ candidate directory, loader.FirstHit files locale candidate directory
  /-- What it holds is the result, whatever it is. -/
  loaded : ∀ candidate directory, loader.FirstHit files locale candidate directory →
    loader.load files identifier = resultAt files identifier (loader.pathOf directory candidate)
  /-- The result is a catalog, a fault of this file or the reason why its text cannot be had. -/
  faulty : ∀ candidate directory error, loader.FirstHit files locale candidate directory →
    (loader.load files identifier).value = .error error →
      (∃ fault position, error = .malformed fault position) ∨
        ∃ cause, error = .unreadable (loader.pathOf directory candidate) cause
  /-- What the paths hold that come later makes no difference. -/
  unmasked : ∀ candidate directory files', loader.FirstHit files locale candidate directory →
    loader.FirstHit files' locale candidate directory →
    files'.read (loader.pathOf directory candidate) =
      files.read (loader.pathOf directory candidate) →
      loader.load files' identifier = loader.load files identifier
  /-- A file for the language and the region, in any directory, comes before all files for the
  language. -/
  specific : ∀ directory ∈ loader.directories,
    files.isFile (loader.pathOf directory locale.name) = true →
      ∃ nearest ∈ loader.directories,
        loader.load files identifier = resultAt files identifier (loader.pathOf nearest locale.name)
  missing : (∀ path ∈ loader.probes locale, files.isFile path = false) →
    loader.load files identifier = ⟨.error (.notFound identifier (loader.probes locale)), []⟩
  /-- Where the source language may stand in, it does so for an error only, and this is told
  once. -/
  kept : ∀ catalog, (loader.load files identifier).value = .ok catalog →
    loader.loadOrSource files identifier = ⟨catalog, (loader.load files identifier).notices⟩
  replaced : ∀ error, (loader.load files identifier).value = .error error →
    loader.loadOrSource files identifier =
      ⟨.empty, (loader.load files identifier).notices ++ [.resourceUnavailable identifier error]⟩
  /-- The other warnings are those of the parser. -/
  warned : ∀ notice ∈ (loader.load files identifier).notices, notice.severity = .warn →
    ∃ context source, notice = .messageDropped context source

theorem load_searches (loader : Loader) (files : FileSystem)
    (hlocale : Locale.parse? identifier = some locale) :
    loader.Searches files identifier locale where
  hit := by
    rintro ⟨path, hpath, hfile⟩
    have hsome : ((loader.probes locale).find? files.isFile).isSome := by
      rw [List.find?_isSome]
      exact ⟨path, hpath, hfile⟩
    obtain ⟨first, hfirst⟩ := Option.isSome_iff_exists.1 hsome
    obtain ⟨candidate, directory, hhit, -⟩ := find?_probes_eq_some_iff.1 hfirst
    exact ⟨candidate, directory, hhit⟩
  loaded candidate directory hhit := hhit.load_eq hlocale
  faulty candidate directory error hhit herror := by
    rw [hhit.load_eq hlocale] at herror
    exact Resource.malformed_or_unreadable_of_parseFile herror
  unmasked candidate directory files' hhit hhit' hread := by
    rw [hhit'.load_eq hlocale, hhit.load_eq hlocale, resultAt_congr hread]
  specific directory hdirectory hfile := by
    obtain ⟨nearest, hnearest, hhit⟩ := exists_firstHit_name hdirectory hfile
    exact ⟨nearest, hnearest, hhit.load_eq hlocale⟩
  missing := load_of_no_file hlocale
  kept catalog hload := by simp only [loadOrSource, hload]
  replaced error hload := by simp only [loadOrSource, hload]
  warned notice hmem := dropped_of_mem_load hmem

/-- A directory named like the first resource, a file that is no text, and a file for the
language. -/
def maskedFiles : FileSystem where
  nodes := [(["a"], .directory), (["app_pt_BR.ts", "a"], .directory),
    (["app_pt.ts", "a"], .file ByteArray.empty), (["b"], .directory),
    (["app_pt_BR.ts", "b"], .file ⟨#[0xff]⟩)]

/-- The file that is no text is the one that is reported. -/
theorem load_searches_masked :
    (Loader.mk ["a", "b", "a"] "app_").FirstHit maskedFiles ⟨"pt", some "BR"⟩ "pt_BR" "b" ∧
      ((Loader.mk ["a", "b", "a"] "app_").load maskedFiles "pt-br.UTF-8").value =
        .error (.unreadable "b/app_pt_BR.ts" .notText) ∧
      (Loader.mk ["a", "b", "a"] "app_").loadOrSource maskedFiles "pt-br.UTF-8" =
        ⟨.empty, [.resourceFound "pt-br.UTF-8" "b/app_pt_BR.ts",
          .resourceUnavailable "pt-br.UTF-8" (.unreadable "b/app_pt_BR.ts" .notText)]⟩ := by
  have hsearches := load_searches (Loader.mk ["a", "b", "a"] "app_") maskedFiles
    (show Locale.parse? "pt-br.UTF-8" = some ⟨"pt", some "BR"⟩ by decide)
  have hhit :
      (Loader.mk ["a", "b", "a"] "app_").FirstHit maskedFiles ⟨"pt", some "BR"⟩ "pt_BR" "b" :=
    ⟨by decide, ⟨["a"], ["a"], rfl, by decide⟩, [], ["pt"], by decide, by decide⟩
  have hresult : resultAt maskedFiles "pt-br.UTF-8" "b/app_pt_BR.ts" =
      ⟨.error (.unreadable "b/app_pt_BR.ts" .notText),
        [.resourceFound "pt-br.UTF-8" "b/app_pt_BR.ts"]⟩ := by
    rfl
  have hload := (hsearches.loaded "pt_BR" "b" hhit).trans hresult
  refine ⟨hhit, by rw [hload], ?_⟩
  rw [hsearches.replaced _ (by rw [hload]), hload]
  rfl

end Phrasebook.Loader
