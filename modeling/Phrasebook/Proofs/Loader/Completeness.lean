import Mathlib.Data.String.Basic
import Phrasebook.Proofs.Ascending
import Phrasebook.Proofs.Loader.Containment
import Phrasebook.Proofs.Locale.Canonical

/-!
# What is found is listed

A path that leads to a file inside a directory leads through the directory
(`exists_of_locate_join`), and there the file is an entry. So the candidate under which a loader
finds a resource is one of the locales that it lists, in strictly ascending order whatever the
directories are (`available_complete`).
-/

namespace Phrasebook

namespace FileSystem

variable {files : FileSystem} {directory name : String} {target : Place}

/-- Where a name can be gone to, there is an entry of that name. -/
theorem of_enter {place : Place} (hname : IsEntryName name)
    (henter : files.enter place name = .ok target) :
    files.nodeAt? place = some .directory ∧ target = name :: place ∧
      (files.nodeAt? (name :: place)).isSome = true := by
  have hplace := nodeAt?_of_enter henter
  obtain rfl := eq_cons_of_enter hname henter
  refine ⟨hplace, rfl, ?_⟩
  rw [enter_of_isEntryName hplace hname] at henter
  by_contra hnone
  rw [if_neg hnone] at henter
  cases henter

/-- A path into a directory leads to an entry of it. -/
theorem exists_of_locate_join (hdirectory : directory ≠ "") (hname : IsEntryName name)
    (hlocate : files.locate (Path.join directory name) = .ok target) :
    ∃ place, files.locate directory = .ok place ∧ files.nodeAt? place = some .directory ∧
      target = name :: place ∧ (files.nodeAt? (name :: place)).isSome = true := by
  rw [locate_join_eq_foldlM files hdirectory hname] at hlocate
  rw [locate_of_ne_empty hdirectory]
  rcases Path.parts_join hdirectory hname with hparts | ⟨before, hbefore, hparts⟩
  · rw [hparts, foldlM_enter_concat] at hlocate
    obtain ⟨place, hplace, henter⟩ := bind_eq_ok_iff.1 hlocate
    exact ⟨place, hplace, of_enter hname henter⟩
  · -- the slash at the end of the directory leaves an empty part, which goes nowhere
    rw [hparts, foldlM_enter_concat] at hlocate
    obtain ⟨place, hplace, henter⟩ := bind_eq_ok_iff.1 hlocate
    refine ⟨place, ?_, of_enter hname henter⟩
    have hstay : files.enter place "" = .ok place := by rw [enter, (of_enter hname henter).1]; rfl
    rw [hbefore, foldlM_enter_concat, hplace]
    exact hstay

end FileSystem

namespace Loader

variable {loader : Loader} {files : FileSystem} {identifier name candidate : String}

/-! ## What is read -/

/-- Loading an identifier comes to reading the resource of a candidate of its locale in one of the
directories. -/
def ReadsFor (loader : Loader) (files : FileSystem) (identifier candidate : String) : Prop :=
  ∃ locale directory, Locale.parse? identifier = some locale ∧ candidate ∈ locale.resourceNames ∧
    directory ∈ loader.directories ∧
      let path := loader.pathOf directory candidate
      loader.load files identifier = ⟨(Resource.parseFile files path).value,
        .resourceFound identifier path :: (Resource.parseFile files path).notices⟩

/-- What is read is a file. -/
theorem isFile_of_load {path : String} {value : Except LoadError Catalog} {later : List Notice}
    (hload : loader.load files identifier = ⟨value, .resourceFound identifier path :: later⟩) :
    files.isFile path = true := by
  unfold load at hload
  split at hload
  · cases hload
  · dsimp only at hload
    split at hload
    · cases hload
    · rename_i found hfind
      cases hload
      exact List.find?_some hfind

/-- Loading gets as far as a resource file exactly if it reads the file of a candidate. -/
theorem finds_iff_exists_readsFor :
    loader.Finds files identifier ↔ ∃ candidate, loader.ReadsFor files identifier candidate := by
  constructor
  · intro hfinds
    cases hlocale : Locale.parse? identifier with
    | none =>
      have hload : (loader.load files identifier).value = .error (.invalidLocale identifier) := by
        simp only [load, hlocale]
      exact absurd rfl ((hfinds _ hload).2 identifier)
    | some locale =>
      cases hfind : (loader.probes locale).find? files.isFile with
      | none => exact absurd rfl ((hfinds _ (load_of_find?_eq_none hlocale hfind)).1 _ _)
      | some path =>
        obtain ⟨candidate, hcandidate, hpath⟩ :=
          List.mem_flatMap.1 (List.mem_of_find?_eq_some hfind)
        obtain ⟨directory, hdirectory, rfl⟩ := List.mem_map.1 hpath
        refine ⟨candidate, locale, directory, hlocale, hcandidate, hdirectory, ?_⟩
        simp only [load, hlocale, hfind]
  · rintro ⟨candidate, locale, directory, hlocale, hcandidate, hdirectory, hload⟩
    rw [finds_iff hlocale]
    refine ⟨loader.pathOf directory candidate, ?_, isFile_of_load hload⟩
    exact List.mem_flatMap.2 ⟨candidate, hcandidate, List.mem_map_of_mem hdirectory⟩

theorem mem_available_of_readsFor (hdirectories : ∀ directory ∈ loader.directories, directory ≠ "")
    (hslash : '/' ∉ loader.filePrefix.toList)
    (hreads : loader.ReadsFor files identifier candidate) :
    candidate ∈ loader.available files := by
  obtain ⟨locale, directory, hlocale, hcandidate, hdirectory, hload⟩ := hreads
  have hentry : IsEntryName (loader.fileName candidate) := by
    have hplain := Locale.isPlain_of_mem_resourceNames hlocale hcandidate
    refine isEntryName_fileName (Locale.of_mem_resourceNames hlocale hcandidate).1 ?_
    rw [toList_fileName, String.toList_append, List.mem_append, List.mem_append, not_or, not_or]
    exact ⟨⟨hslash, fun hmem => (hplain _ hmem).1 rfl⟩, by decide⟩
  obtain ⟨content, hread⟩ := FileSystem.isFile_iff.1 (isFile_of_load hload)
  obtain ⟨target, htarget, -⟩ := FileSystem.read_eq_ok_iff.1 hread
  obtain ⟨place, hlocate, hplace, -, hnode⟩ :=
    FileSystem.exists_of_locate_join (hdirectories directory hdirectory) hentry htarget
  exact mem_available_iff.2
    ⟨Locale.isSome_of_mem_resourceNames hlocale hcandidate, directory, hdirectory,
    place, hlocate, hplace, hnode⟩

/-! ## What is listed -/

theorem splitExtension?_eq_some_iff {entry : String} (hname : name ≠ "") :
    Path.splitExtension? entry.toList =
      some ((loader.filePrefix ++ name).toList, extension.toList) ↔
      entry = loader.fileName name := by
  have hfile : (loader.fileName name).toList =
      (loader.filePrefix ++ name).toList ++ '.' :: extension.toList := toList_fileName name
  have hne : (loader.filePrefix ++ name).toList ≠ [] := by simp [hname]
  constructor
  · intro hsplit
    rw [← String.toList_inj, Path.eq_of_splitExtension? hsplit, hfile]
  · rintro rfl
    rw [hfile, Path.splitExtension?_append hne (by decide)]

theorem mem_available_iff_exists_entry : name ∈ loader.available files ↔
    (Locale.parse? name).isSome = true ∧ ∃ directory ∈ loader.directories, ∃ entries,
      files.list? directory = some entries ∧ ∃ entry ∈ entries,
        Path.splitExtension? entry.toList =
          some ((loader.filePrefix ++ name).toList, extension.toList) := by
  simp only [available, Ascending.mem_ofList, List.mem_flatMap, List.mem_filterMap,
    localeOfFile?_eq_some_iff]
  constructor
  · rintro ⟨directory, hdirectory, entry, hentry, hfile, hlocale⟩
    refine ⟨hlocale, directory, hdirectory, ?_⟩
    cases hlist : files.list? directory with
    | none =>
      rw [hlist] at hentry
      cases hentry
    | some entries =>
      rw [hlist, Option.getD_some] at hentry
      exact ⟨entries, rfl, entry, hentry,
        (splitExtension?_eq_some_iff (ne_empty_of_parse? hlocale)).2 hfile⟩
  · rintro ⟨hlocale, directory, hdirectory, entries, hlist, entry, hentry, hsplit⟩
    refine ⟨directory, hdirectory, entry, ?_, ?_, hlocale⟩
    · rwa [hlist]
    · exact (splitExtension?_eq_some_iff (ne_empty_of_parse? hlocale)).1 hsplit

/-- Whatever loading finds is listed, under the candidate that it was found for, as long as the
directories have a path and the prefix divides none. The list is strictly ascending, and the names
in it are those that stand between the prefix and the extension of an entry of a directory and can
be read as a locale. -/
theorem available_complete (loader : Loader) (files : FileSystem) :
    ((∀ directory ∈ loader.directories, directory ≠ "") → '/' ∉ loader.filePrefix.toList →
      ∀ identifier,
        (loader.Finds files identifier ↔ ∃ candidate, loader.ReadsFor files identifier candidate) ∧
          ∀ candidate, loader.ReadsFor files identifier candidate →
            candidate ∈ loader.available files) ∧
    (loader.available files).Pairwise (· < ·) ∧
    ∀ name, name ∈ loader.available files ↔
      (Locale.parse? name).isSome = true ∧ ∃ directory ∈ loader.directories, ∃ entries,
        files.list? directory = some entries ∧ ∃ entry ∈ entries,
          Path.splitExtension? entry.toList =
            some ((loader.filePrefix ++ name).toList, extension.toList) := by
  refine ⟨fun hdirectories hslash identifier => ?_, Ascending.pairwise_ofList _, fun name => ?_⟩
  · refine ⟨finds_iff_exists_readsFor, fun candidate hreads => ?_⟩
    exact mem_available_of_readsFor hdirectories hslash hreads
  · exact mem_available_iff_exists_entry

/-- Directories with resources of a prefix that has dots and looks like a locale itself. -/
def prefixedFiles : FileSystem where
  nodes := [(["a"], .directory), (["en.v2_pt.ts", "a"], .file ByteArray.empty), (["b"], .directory),
    (["en.v2_pt_BR.ts", "b"], .file ByteArray.empty), (["en.v2_-.ts", "b"], .file ByteArray.empty)]

theorem available_complete_prefixed :
    (Loader.mk ["a", "b", "a"] "en.v2_").ReadsFor prefixedFiles "PT-br.UTF-8" "pt_BR" ∧
      "pt_BR" ∈ (Loader.mk ["a", "b", "a"] "en.v2_").available prefixedFiles ∧
      (Loader.mk ["a", "b", "a"] "en.v2_").available prefixedFiles = ["pt", "pt_BR"] := by
  have hlocale : Locale.parse? "PT-br.UTF-8" = some ⟨"pt", some "BR"⟩ := by decide
  have hfind : ((Loader.mk ["a", "b", "a"] "en.v2_").probes ⟨"pt", some "BR"⟩).find?
      prefixedFiles.isFile =
        some ((Loader.mk ["a", "b", "a"] "en.v2_").pathOf "b" "pt_BR") := by decide
  have hreads :
      (Loader.mk ["a", "b", "a"] "en.v2_").ReadsFor prefixedFiles "PT-br.UTF-8" "pt_BR" := by
    refine ⟨⟨"pt", some "BR"⟩, "b", hlocale, by decide, by decide, ?_⟩
    simp only [load, hlocale, hfind]
  refine ⟨hreads, ?_, by decide⟩
  exact ((available_complete _ prefixedFiles).1 (by decide) (by decide) "PT-br.UTF-8").2
    "pt_BR" hreads

end Loader

end Phrasebook
