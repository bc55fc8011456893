import Phrasebook.Proofs.Loader.Listing
import Phrasebook.Proofs.Locale.Names
import Phrasebook.Settings

/-!
# Where a loader looks

A loader asks the file system about one path after the other, until there is a file at one
(`probed`). What is at these paths decides what it answers (`load_congr`), and where nothing is
found they are the paths that the error lists (`searched_eq_probed`). With a prefix that was
checked, each of them is the path of an entry of one of the directories (`inside_pathOf`): a locale
can neither name a path nor a hidden file.
-/

namespace Phrasebook

/-- A text has none of the characters that divide paths and file names. -/
def IsPlain (text : String) : Prop := ∀ c ∈ text.toList, c ≠ '/' ∧ c ≠ '.'

theorem IsPlain.append {text text' : String} (h : IsPlain text) (h' : IsPlain text') :
    IsPlain (text ++ text') := by
  intro c hc
  rw [String.toList_append, List.mem_append] at hc
  obtain hc | hc := hc
  · exact h c hc
  · exact h' c hc

theorem Locale.isPlain_of_mem_resourceNames {identifier name : String} {locale : Locale}
    (hlocale : parse? identifier = some locale) (hname : name ∈ locale.resourceNames) :
    IsPlain name := by
  intro c hc
  obtain hword | rfl := (of_mem_resourceNames hlocale hname).2 c hc
  · constructor <;> rintro rfl <;> revert hword <;> decide
  · decide

/-- A path leads to a resource file directly inside a directory. -/
structure Inside (directory name path : String) : Prop where
  joined : path = Path.join directory name
  slash : '/' ∉ name.toList
  dots : name.toList.count '.' = 1
  stem : ∃ stem, stem ≠ "" ∧ name = stem ++ "." ++ Loader.extension
  relative : Path.isAbsolute name = false
  shown : name.toList.head? ≠ some '.'
  /-- The path is absolute only where the directory is. -/
  absolute : Path.isAbsolute path = Path.isAbsolute directory
  /-- Wherever the path leads, it leads to the entry of that name of the directory. -/
  target : ∀ (files : FileSystem) (place target : Place), files.locate directory = .ok place →
    files.locate path = .ok target → target = name :: place

theorem FileSystem.eq_cons_of_enter {files : FileSystem} {place next : Place} {name : String}
    (hname : IsEntryName name) (henter : files.enter place name = .ok next) :
    next = name :: place := by
  rw [enter_of_isEntryName (nodeAt?_of_enter henter) hname] at henter
  split at henter <;> cases henter
  rfl

namespace Loader

variable {loader : Loader} {files files' : FileSystem} {identifier : String}

/-! ## What is asked -/

/-- The paths that are tried, up to the first one with a file. -/
def tried (files : FileSystem) : List String → List String
  | [] => []
  | path :: rest => if files.isFile path then [path] else path :: tried files rest

/-- The paths that loading a locale asks about. -/
def probed (loader : Loader) (files : FileSystem) (identifier : String) : List String :=
  match Locale.parse? identifier with
  | none => []
  | some locale => tried files (loader.probes locale)

theorem tried_subset (paths : List String) : tried files paths ⊆ paths := by
  induction paths with
  | nil => exact List.Subset.refl _
  | cons path rest ih =>
    rw [tried]
    split
    · exact List.cons_subset_cons _ (List.nil_subset _)
    · exact List.cons_subset_cons _ ih

/-- Where there is no file at all, every path is tried. -/
theorem tried_of_find?_eq_none {paths : List String} (hfind : paths.find? files.isFile = none) :
    tried files paths = paths := by
  induction paths with
  | nil => rfl
  | cons path rest ih =>
    have hfile : files.isFile path = false := by
      simpa using List.find?_eq_none.1 hfind path List.mem_cons_self
    rw [List.find?_cons_of_neg (by simp [hfile])] at hfind
    rw [tried, hfile, ih hfind]
    rfl

theorem mem_tried_of_find? {paths : List String} {path : String}
    (hfind : paths.find? files.isFile = some path) : path ∈ tried files paths := by
  induction paths with
  | nil => cases hfind
  | cons first rest ih =>
    rw [tried]
    rw [List.find?_cons] at hfind
    split at hfind
    · rename_i hfile
      cases hfind
      rw [if_pos hfile]
      exact List.mem_cons_self
    · rename_i hfile
      rw [hfile]
      exact List.mem_cons_of_mem _ (ih hfind)

/-- The search ends at the same path wherever the same is at the paths that are tried. -/
theorem find?_congr_of_tried {paths : List String}
    (hread : ∀ path ∈ tried files paths, files'.read path = files.read path) :
    paths.find? files'.isFile = paths.find? files.isFile := by
  induction paths with
  | nil => rfl
  | cons path rest ih =>
    rw [tried] at hread
    have hfile : files'.isFile path = files.isFile path := by
      rw [FileSystem.isFile, FileSystem.isFile, hread path (by split <;> exact List.mem_cons_self)]
    rw [List.find?_cons, List.find?_cons, hfile]
    split
    · rfl
    · rename_i hnone
      rw [hnone] at hread
      apply ih
      intro later hlater
      exact hread later (List.mem_cons_of_mem _ hlater)

/-- Loading depends on nothing but what is at the paths that it asks about. -/
theorem load_congr
    (hread : ∀ path ∈ loader.probed files identifier, files'.read path = files.read path) :
    loader.load files' identifier = loader.load files identifier := by
  unfold probed at hread
  unfold load
  split
  · rfl
  · rename_i locale hlocale
    rw [hlocale] at hread
    dsimp only
    rw [find?_congr_of_tried hread]
    split
    · rfl
    · rename_i path hfind
      have hparse : Resource.parseFile files' path = Resource.parseFile files path := by
        unfold Resource.parseFile FileSystem.readText
        rw [hread path (mem_tried_of_find? hfind)]
      rw [hparse]

/-- A search that finds nothing lists the paths that it asked about. -/
theorem searched_eq_probed {name : String} {searched : List String}
    (hload : (loader.load files identifier).value = .error (.notFound name searched)) :
    searched = loader.probed files identifier := by
  cases hlocale : Locale.parse? identifier with
  | none =>
    simp only [load, hlocale] at hload
    cases hload
  | some locale =>
    cases hfind : (loader.probes locale).find? files.isFile with
    | none =>
      rw [load_of_find?_eq_none hlocale hfind] at hload
      cases hload
      simp only [probed, hlocale, tried_of_find?_eq_none hfind]
    | some path =>
      rw [load_of_find?_eq_some hlocale hfind] at hload
      obtain ⟨_, _, hfault⟩ | ⟨_, hfault⟩ := Resource.malformed_or_unreadable_of_parseFile hload
      · cases hfault
      · cases hfault

/-! ## Where it is -/

/-- The characters of a name are those of its stem, and then the extension. -/
theorem toList_fileName (candidate : String) : (loader.fileName candidate).toList =
    (loader.filePrefix ++ candidate).toList ++ ['.', 't', 's'] := by
  rw [fileName, String.toList_append, String.toList_append, List.append_assoc]
  rfl

theorem isEntryName_fileName {candidate : String} (hcandidate : candidate ≠ "")
    (hslash : '/' ∉ (loader.fileName candidate).toList) :
    IsEntryName (loader.fileName candidate) := by
  have hlength : 3 < (loader.fileName candidate).toList.length := by
    have hpos : 0 < candidate.toList.length := List.length_pos_iff.2 (by simpa using hcandidate)
    rw [toList_fileName, String.toList_append, List.length_append, List.length_append]
    simp only [List.length_cons, List.length_nil]
    omega
  refine ⟨?_, ?_, ?_, hslash⟩ <;> intro hname <;> rw [hname] at hlength <;>
    revert hlength <;> decide

/-- A path that is joined from a directory and a proper name is absolute only where the directory
is. -/
theorem isAbsolute_pathOf {candidate : String} (hentry : IsEntryName (loader.fileName candidate))
    (directory : String) :
    Path.isAbsolute (loader.pathOf directory candidate) = Path.isAbsolute directory := by
  rw [pathOf_eq_join]
  by_cases hdirectory : directory = ""
  · rw [hdirectory, Path.join_of_isEntryName hentry, if_pos (by decide), String.empty_append,
      hentry.not_isAbsolute]
    rfl
  · exact Path.isAbsolute_join hdirectory hentry

/-- With a plain prefix, the paths of a candidate lead into the directories. -/
theorem inside_pathOf (hstart : IsPlain loader.filePrefix) {candidate : String}
    (hcandidate : candidate ≠ "") (hplain : IsPlain candidate) (directory : String) :
    Inside directory (loader.fileName candidate) (loader.pathOf directory candidate) := by
  have hne : (loader.filePrefix ++ candidate).toList ≠ [] := by simp [hcandidate]
  -- the only dot is that of the extension
  have hstem : IsPlain (loader.filePrefix ++ candidate) := hstart.append hplain
  have hslash : '/' ∉ (loader.fileName candidate).toList := by
    rw [toList_fileName, List.mem_append, not_or]
    exact ⟨fun hmem => (hstem _ hmem).1 rfl, by decide⟩
  have hentry := isEntryName_fileName hcandidate hslash
  exact {
    joined := pathOf_eq_join directory candidate
    slash := hslash
    dots := by
      rw [toList_fileName, List.count_append,
        List.count_eq_zero_of_not_mem fun hmem => (hstem _ hmem).2 rfl]
      rfl
    stem := ⟨loader.filePrefix ++ candidate, by simpa using hne, rfl⟩
    relative := hentry.not_isAbsolute
    shown := by
      rw [toList_fileName, List.head?_append, List.head?_eq_some_head hne, Option.some_or]
      intro hdot
      exact (hstem _ (List.head_mem hne)).2 (Option.some.inj hdot)
    absolute := isAbsolute_pathOf hentry directory
    target := by
      intro files place target hdirectory htarget
      rw [pathOf_eq_join, FileSystem.locate_join hdirectory hentry] at htarget
      exact FileSystem.eq_cons_of_enter hentry htarget }

theorem exists_inside_of_mem_probed (hstart : IsPlain loader.filePrefix) {path : String}
    (hpath : path ∈ loader.probed files identifier) :
    ∃ directory ∈ loader.directories, ∃ name, Inside directory name path := by
  unfold probed at hpath
  split at hpath
  · cases hpath
  · rename_i locale hlocale
    obtain ⟨candidate, hcandidate, hpath⟩ := List.mem_flatMap.1 (tried_subset _ hpath)
    obtain ⟨directory, hdirectory, rfl⟩ := List.mem_map.1 hpath
    have hplain := Locale.isPlain_of_mem_resourceNames hlocale hcandidate
    have hne := (Locale.of_mem_resourceNames hlocale hcandidate).1
    exact ⟨directory, hdirectory, _, inside_pathOf hstart hne hplain directory⟩

end Loader

namespace Settings

variable {settings valid : Settings}

theorem isPlain_of_checked_eq_ok (hvalid : settings.checked = .ok valid) :
    IsPlain valid.filePrefix := by
  unfold checked at hvalid
  split at hvalid
  · rename_i hproblems
    cases hvalid
    intro c hc
    simp only [problems, List.isEmpty_iff, List.append_eq_nil_iff, ite_eq_right_iff,
      List.cons_ne_nil, imp_false, Bool.not_eq_true, List.any_eq_false] at hproblems
    simpa using hproblems.1.2 c hc
  · cases hvalid

/-- With settings that pass, a text that is no locale is refused without a look at any file, and
whatever else is asked for, each path that is asked about or listed leads to a file inside one of
the directories. -/
theorem load_contained (hvalid : settings.checked = .ok valid) (identifier : String) :
    (∀ files files' : FileSystem,
      (∀ path ∈ valid.loader.probed files identifier, files'.read path = files.read path) →
        valid.loader.load files' identifier = valid.loader.load files identifier) ∧
    ((Locale.parse? identifier = none ∧ ∀ files,
        valid.loader.load files identifier = ⟨.error (.invalidLocale identifier), []⟩ ∧
          valid.loader.probed files identifier = []) ∨
      (Locale.parse? identifier).isSome ∧ ∀ files path,
        (path ∈ valid.loader.probed files identifier ∨
          ∃ name searched,
            (valid.loader.load files identifier).value = .error (.notFound name searched) ∧
              path ∈ searched) →
        ∃ directory ∈ valid.directories, ∃ name, Inside directory name path) := by
  have hstart := isPlain_of_checked_eq_ok hvalid
  constructor
  · intro files files' hread
    exact Loader.load_congr hread
  · cases hlocale : Locale.parse? identifier with
    | none =>
      refine .inl ⟨rfl, fun files => ?_⟩
      constructor
      · simp only [Loader.load, hlocale]
      · simp only [Loader.probed, hlocale]
    | some locale =>
      refine .inr ⟨rfl, ?_⟩
      rintro files path (hprobed | ⟨name, searched, hload, hsearched⟩)
      · exact Loader.exists_inside_of_mem_probed hstart hprobed
      · rw [Loader.searched_eq_probed hload] at hsearched
        exact Loader.exists_inside_of_mem_probed hstart hsearched

/-- With a prefix, the region of a locale still names a file of the directory. -/
theorem load_contained_prefixed :
    checked { directories := ["d"], filePrefix := "app_" } =
        .ok { directories := ["d"], filePrefix := "app_" } ∧
      ∃ name, Inside "d" name "d/app_pl_PL.ts" := by
  have hvalid : checked { directories := ["d"], filePrefix := "app_" } =
      .ok { directories := ["d"], filePrefix := "app_" } := rfl
  refine ⟨hvalid, ?_⟩
  obtain ⟨-, ⟨hrefused, -⟩ | ⟨-, hinside⟩⟩ := load_contained hvalid "pl-pl.UTF-8"
  · exact absurd hrefused (by decide)
  · obtain ⟨directory, hdirectory, name, hname⟩ := hinside {} "d/app_pl_PL.ts" (.inl (by decide))
    obtain rfl := List.mem_singleton.1 hdirectory
    exact ⟨name, hname⟩

end Settings

end Phrasebook
