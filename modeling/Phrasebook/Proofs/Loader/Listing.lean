import Phrasebook.Proofs.FileSystem.Entry
import Phrasebook.Loader

/-!
# Listed locales

A loader lists the locales that the entries of its directories are named after, and finds the
resource of a locale at the paths that the candidates of the locale name. `mem_available_iff` says
which names are listed, `finds_iff` which locales are found. The two meet in
`finds_of_mem_available`: a listed locale is found unless its entry is spelled as no candidate is,
or is a directory.
-/

namespace Phrasebook

theorem Path.eq_of_splitExtension? {cs stem suffix : List Char}
    (hsplit : splitExtension? cs = some (stem, suffix)) : cs = stem ++ '.' :: suffix := by
  simp only [splitExtension?] at hsplit
  split at hsplit
  · rename_i mark c inner hdrop
    obtain ⟨rfl, rfl⟩ : (c :: inner).reverse = stem ∧
        (cs.reverse.takeWhile (· != '.')).reverse = suffix := by simpa using hsplit
    have hmark : mark = '.' := by
      have hhead := List.head?_dropWhile_not (· != '.') cs.reverse
      rw [hdrop] at hhead
      simpa using hhead
    calc cs = (cs.reverse.takeWhile (· != '.') ++ cs.reverse.dropWhile (· != '.')).reverse := by
          rw [List.takeWhile_append_dropWhile, List.reverse_reverse]
      _ = _ := by
          rw [hdrop, hmark]
          simp
  · cases hsplit

/-- A name splits at its last dot, unless nothing stands before it. -/
theorem Path.splitExtension?_append {stem suffix : List Char} (hstem : stem ≠ [])
    (hsuffix : '.' ∉ suffix) :
    splitExtension? (stem ++ '.' :: suffix) = some (stem, suffix) := by
  have hreverse : (stem ++ '.' :: suffix).reverse = suffix.reverse ++ '.' :: stem.reverse := by simp
  have hplain : ∀ c ∈ suffix.reverse, (c != '.') = true := by
    intro c hc
    exact bne_iff_ne.mpr (ne_of_mem_of_not_mem (List.mem_reverse.mp hc) hsuffix)
  obtain ⟨c, inner, hinner⟩ := List.exists_cons_of_ne_nil (mt List.reverse_eq_nil_iff.mp hstem)
  simp only [splitExtension?, hreverse, List.dropWhile_append_of_pos hplain,
    List.takeWhile_append_of_pos hplain]
  rw [List.dropWhile_cons_of_neg (by decide), List.takeWhile_cons_of_neg (by decide), hinner]
  simp [← hinner]

namespace Resource

theorem Reader.exists_malformed_of_conclude {stop : Stop} {ending : Markup.Ending}
    {error : LoadError} (hconclude : conclude stop ending = .error error) :
    ∃ fault position, error = .malformed fault position := by
  unfold conclude at hconclude
  split at hconclude
  · cases hconclude
    exact ⟨_, _, rfl⟩
  · cases hconclude
    exact ⟨_, _, rfl⟩
  · unfold finish at hconclude
    split at hconclude
    · cases hconclude
      exact ⟨_, _, rfl⟩
    · split at hconclude <;> cases hconclude
      exact ⟨_, _, rfl⟩

theorem exists_malformed_of_parse {text : String} {error : LoadError}
    (hparse : (parse text).value = .error error) :
    ∃ fault position, error = .malformed fault position := by
  simp only [parse, ofDocument] at hparse
  split at hparse
  · rename_i fault hconclude
    cases hparse
    exact Reader.exists_malformed_of_conclude hconclude
  · cases hparse

theorem malformed_or_unreadable_of_parseFile {files : FileSystem} {path : String}
    {error : LoadError} (hparse : (parseFile files path).value = .error error) :
    (∃ fault position, error = .malformed fault position) ∨
      ∃ cause, error = .unreadable path cause := by
  unfold parseFile at hparse
  split at hparse
  · exact .inl (exists_malformed_of_parse hparse)
  · cases hparse
    exact .inr ⟨_, rfl⟩

end Resource

namespace Loader

variable {loader : Loader} {files : FileSystem} {name identifier : String} {locale : Locale}

/-- The name of the resource file of a candidate. -/
def fileName (loader : Loader) (candidate : String) : String :=
  loader.filePrefix ++ candidate ++ "." ++ extension

theorem pathOf_eq_join (directory candidate : String) :
    loader.pathOf directory candidate = Path.join directory (loader.fileName candidate) := rfl

/-! ### What is listed -/

/-- A file has an identifier exactly if its name is the one that the identifier gives back. -/
theorem identifierOf?_eq_some_iff {file : String} (hname : name ≠ "") :
    loader.identifierOf? file = some name ↔ file = loader.fileName name := by
  constructor
  · intro hfile
    unfold identifierOf? at hfile
    split at hfile
    · cases hfile
    · rename_i stem suffix hsplit
      split at hfile
      · rename_i hparts
        obtain ⟨rfl, hprefix⟩ := hparts
        obtain ⟨rest, rfl⟩ := List.isPrefixOf_iff_prefix.mp hprefix
        rw [List.drop_left] at hfile
        cases hfile
        rw [← String.toList_inj, Path.eq_of_splitExtension? hsplit]
        simp [fileName]
      · cases hfile
  · rintro rfl
    have hne : loader.filePrefix.toList ++ name.toList ≠ [] := by simp [hname]
    have hcut : (loader.fileName name).toList =
        (loader.filePrefix.toList ++ name.toList) ++ '.' :: extension.toList := by simp [fileName]
    rw [identifierOf?, hcut, Path.splitExtension?_append hne (by decide)]
    simp

theorem ne_empty_of_parse? (hlocale : (Locale.parse? name).isSome) : name ≠ "" := by
  rintro rfl
  revert hlocale
  decide

theorem localeOfFile?_eq_some_iff {file : String} : loader.localeOfFile? file = some name ↔
    file = loader.fileName name ∧ (Locale.parse? name).isSome := by
  rw [localeOfFile?, Option.filter_eq_some_iff]
  constructor
  · rintro ⟨hidentifier, hlocale⟩
    exact ⟨(identifierOf?_eq_some_iff (ne_empty_of_parse? hlocale)).mp hidentifier, hlocale⟩
  · rintro ⟨hfile, hlocale⟩
    exact ⟨(identifierOf?_eq_some_iff (ne_empty_of_parse? hlocale)).mpr hfile, hlocale⟩

/-- The listed names are the locales after which an entry of one of the directories is named. -/
theorem mem_available_iff :
    name ∈ loader.available files ↔ (Locale.parse? name).isSome ∧
      ∃ directory ∈ loader.directories, ∃ place, files.locate directory = .ok place ∧
        files.nodeAt? place = some .directory ∧
        (files.nodeAt? (loader.fileName name :: place)).isSome := by
  simp only [available, Ascending.mem_ofList, List.mem_flatMap, List.mem_filterMap,
    localeOfFile?_eq_some_iff]
  constructor
  · rintro ⟨directory, hdirectory, file, hfile, rfl, hlocale⟩
    exact ⟨hlocale, directory, hdirectory, FileSystem.mem_list?_iff.mp hfile⟩
  · rintro ⟨hlocale, directory, hdirectory, hentry⟩
    exact ⟨directory, hdirectory, _, FileSystem.mem_list?_iff.mpr hentry, rfl, hlocale⟩

/-! ### What is found -/

/-- Loading a locale gets as far as a resource file, whatever is in it. -/
def Finds (loader : Loader) (files : FileSystem) (identifier : String) : Prop :=
  ∀ error, (loader.load files identifier).value = .error error →
    (∀ locale searched, error ≠ .notFound locale searched) ∧ ∀ text, error ≠ .invalidLocale text

theorem load_of_find?_eq_none (hlocale : Locale.parse? identifier = some locale)
    (hfind : (loader.probes locale).find? files.isFile = none) :
    (loader.load files identifier).value =
      .error (.notFound identifier (loader.probes locale)) := by
  simp only [load, hlocale, hfind]

theorem load_of_find?_eq_some (hlocale : Locale.parse? identifier = some locale) {path : String}
    (hfind : (loader.probes locale).find? files.isFile = some path) :
    (loader.load files identifier).value = (Resource.parseFile files path).value := by
  simp only [load, hlocale, hfind]

/-- Loading finds a resource exactly if there is a file at one of the paths of the search. -/
theorem finds_iff (hlocale : Locale.parse? identifier = some locale) :
    loader.Finds files identifier ↔ ∃ path ∈ loader.probes locale, files.isFile path = true := by
  cases hfind : (loader.probes locale).find? files.isFile with
  | none =>
    refine iff_of_false ?_ ?_
    · intro hfinds
      exact (hfinds _ (load_of_find?_eq_none hlocale hfind)).1 _ _ rfl
    · rintro ⟨path, hpath, hfile⟩
      exact List.find?_eq_none.mp hfind path hpath hfile
  | some path =>
    refine iff_of_true ?_ ⟨path, List.mem_of_find?_eq_some hfind, List.find?_some hfind⟩
    intro error herror
    rw [load_of_find?_eq_some hlocale hfind] at herror
    obtain ⟨fault, position, rfl⟩ | ⟨cause, rfl⟩ :=
      Resource.malformed_or_unreadable_of_parseFile herror
    · exact ⟨nofun, nofun⟩
    · exact ⟨nofun, nofun⟩

/-- A listed locale is found exactly if there is a file at a path of its search. Where there is
none, its entry is spelled as no candidate of the locale is, or is a directory. -/
theorem finds_of_mem_available (hfiles : files.WellFormed) (hname : name ∈ loader.available files) :
    ∃ locale, Locale.parse? name = some locale ∧
      (loader.Finds files name ↔ ∃ path ∈ loader.probes locale, files.isFile path = true) ∧
      (loader.Finds files name ∨ name ∉ locale.resourceNames ∨
        ∃ directory ∈ loader.directories, ∃ place, files.locate directory = .ok place ∧
          files.nodeAt? (loader.fileName name :: place) = some .directory) := by
  obtain ⟨hparse, directory, hdirectory, place, hlocate, hplace, hentry⟩ :=
    mem_available_iff.mp hname
  obtain ⟨locale, hlocale⟩ := Option.isSome_iff_exists.mp hparse
  obtain ⟨node, hnode⟩ := Option.isSome_iff_exists.mp hentry
  refine ⟨locale, hlocale, finds_iff hlocale, ?_⟩
  rw [finds_iff hlocale]
  by_cases hspelled : name ∈ locale.resourceNames
  · cases node with
    | file content =>
      refine .inl ⟨loader.pathOf directory name, ?_, ?_⟩
      · exact List.mem_flatMap.mpr ⟨name, hspelled, List.mem_map_of_mem hdirectory⟩
      · rw [pathOf_eq_join,
          FileSystem.isFile_join_iff hlocate hplace (hfiles.isEntryName_of_nodeAt? hnode)]
        exact ⟨content, hnode⟩
    | directory => exact .inr (.inr ⟨directory, hdirectory, place, hlocate, hnode⟩)
  · exact .inr (.inl hspelled)

/-- A directory with a resource, one whose name is not spelled as its locale is, and a directory. -/
def mixedFiles : FileSystem where
  nodes := [(["d"], .directory), (["fr_CA.ts", "d"], .file ByteArray.empty),
    (["de-DE.ts", "d"], .file ByteArray.empty), (["pl.ts", "d"], .directory)]

theorem mixedFiles_wellFormed : mixedFiles.WellFormed where
  nodes := by decide
  workingDirectory := by decide

theorem finds_of_mem_available_mixedFiles :
    mixedFiles.WellFormed ∧ "fr_CA" ∈ (Loader.mk ["d"] "").available mixedFiles ∧
      (Loader.mk ["d"] "").Finds mixedFiles "fr_CA" := by
  have hname : "fr_CA" ∈ (Loader.mk ["d"] "").available mixedFiles := by decide
  obtain ⟨locale, hlocale, hfinds, -⟩ := finds_of_mem_available mixedFiles_wellFormed hname
  have hcanadian : locale = ⟨"fr", some "CA"⟩ := by
    rw [show Locale.parse? "fr_CA" = some ⟨"fr", some "CA"⟩ by decide] at hlocale
    exact (Option.some.inj hlocale).symm
  refine ⟨mixedFiles_wellFormed, hname, hfinds.mpr ?_⟩
  rw [hcanadian]
  decide

/-- Some listed locales are not found: neither the name that is not spelled as a candidate, nor the
directory. -/
theorem listed_not_found_mixedFiles :
    mixedFiles.WellFormed ∧
      (Loader.mk ["d"] "").available mixedFiles = ["de-DE", "fr_CA", "pl"] ∧
      ¬ (Loader.mk ["d"] "").Finds mixedFiles "de-DE" ∧
      ¬ (Loader.mk ["d"] "").Finds mixedFiles "pl" := by
  have hgerman : Locale.parse? "de-DE" = some ⟨"de", some "DE"⟩ := by decide
  have hpolish : Locale.parse? "pl" = some ⟨"pl", none⟩ := by decide
  refine ⟨mixedFiles_wellFormed, by decide, ?_, ?_⟩
  · rw [finds_iff hgerman]
    decide
  · rw [finds_iff hpolish]
    decide

end Loader

end Phrasebook
