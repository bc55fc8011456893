import Phrasebook.Proofs.Loader.Containment
import Phrasebook.Proofs.Loader.Notices
import Phrasebook.Proofs.Locale.Canonical

/-!
# Loading by the canonical name

A loader goes by the locale that it reads from an identifier, so all spellings of one locale are
loaded alike: the same paths are asked about and the same is found. Only what repeats the identifier
differs, the name in an error and in the notice of a find (`load_respelled`). The canonical name is
one of these spellings, and the resource names are canonical names themselves (`name_canonical`).
-/

namespace Phrasebook

/-! ## What repeats the identifier -/

/-- The error with another name for the locale that was not found. -/
def LoadError.renamed (name : String) : LoadError → LoadError
  | .notFound _ searched => .notFound name searched
  | error => error

/-- The notice with another name for the locale that was found. -/
def Notice.renamed (name : String) : Notice → Notice
  | .resourceFound _ path => .resourceFound name path
  | notice => notice

/-- What loading one identifier gives, said of another one. -/
def Noted.renamed {α : Type} (name : String) (loaded : Noted (Except LoadError α)) :
    Noted (Except LoadError α) :=
  ⟨loaded.value.mapError (LoadError.renamed name), loaded.notices.map (Notice.renamed name)⟩

/-- Reading a resource file tells nothing of the locale that it was found for. -/
theorem Resource.renamed_parseFile (files : FileSystem) (path name : String) :
    (parseFile files path).renamed name = parseFile files path := by
  have hvalue : (parseFile files path).value.mapError (LoadError.renamed name) =
      (parseFile files path).value := by
    cases hparse : (parseFile files path).value with
    | ok catalog => rfl
    | error error =>
      obtain ⟨fault, position, rfl⟩ | ⟨cause, rfl⟩ := malformed_or_unreadable_of_parseFile hparse
      · rfl
      · rfl
  have hnotice : ∀ notice ∈ (parseFile files path).notices, notice.renamed name = notice := by
    intro notice hmem
    unfold parseFile at hmem
    split at hmem
    · obtain ⟨context, source, rfl⟩ | ⟨builder, rfl⟩ := of_mem_parse hmem
      · rfl
      · rfl
    · cases hmem
  rw [Noted.renamed, hvalue, List.map_congr_left hnotice, List.map_id']

namespace Loader

variable {identifier other : String} {locale : Locale}

/-- Two spellings of one locale lead to the same paths. -/
theorem probed_respelled (hsame : Locale.parse? other = Locale.parse? identifier) (loader : Loader)
    (files : FileSystem) : loader.probed files other = loader.probed files identifier := by
  rw [probed, hsame, probed]

theorem load_respelled (hidentifier : Locale.parse? identifier = some locale)
    (hother : Locale.parse? other = some locale) (loader : Loader) (files : FileSystem) :
    loader.load files other = (loader.load files identifier).renamed other := by
  simp only [load, hidentifier, hother]
  cases hfind : (loader.probes locale).find? files.isFile with
  | none => rfl
  | some path =>
    have hsame := Resource.renamed_parseFile files path other
    have hvalue := congrArg Noted.value hsame
    have hnotices := congrArg Noted.notices hsame
    dsimp only [Noted.renamed] at hvalue hnotices ⊢
    rw [hvalue, List.map_cons, hnotices]
    rfl

/-- The name of a locale is read back as the locale, and so is each of its resource names, which go
without repetition from the name to the language. Loading the name asks about the same paths as
loading any other spelling, in the same order, and gives the same, except that an error or a notice
repeats the name. These paths are all that loading looks at, and they are what an error lists. -/
theorem name_canonical (hlocale : Locale.parse? identifier = some locale) :
    Locale.parse? locale.name = some locale ∧
      (locale.resourceNames.head? = some locale.name ∧
        locale.resourceNames.getLast? = some locale.language ∧ locale.resourceNames.Nodup ∧
        ∀ candidate ∈ locale.resourceNames, ∃ named, Locale.parse? candidate = some named ∧
          named.name = candidate ∧ named.language = locale.language) ∧
      ∀ (loader : Loader) (files : FileSystem),
        loader.probed files locale.name = loader.probed files identifier ∧
          loader.load files locale.name = (loader.load files identifier).renamed locale.name ∧
          (∀ files' : FileSystem,
            (∀ path ∈ loader.probed files identifier, files'.read path = files.read path) →
              loader.load files' identifier = loader.load files identifier) ∧
          ∀ name searched, (loader.load files identifier).value = .error (.notFound name searched) →
            searched = loader.probed files identifier := by
  have hname := Locale.parse?_name hlocale
  exact ⟨hname,
    ⟨locale.head?_resourceNames, locale.getLast?_resourceNames, locale.nodup_resourceNames,
      fun candidate => Locale.exists_name_of_mem_resourceNames hlocale⟩,
    fun loader files => ⟨probed_respelled (hname.trans hlocale.symm) loader files,
      load_respelled hlocale hname loader files, fun _ => load_congr,
      fun _ _ => searched_eq_probed⟩⟩

/-- What is not found under another spelling is not found under the name, at the same paths. -/
theorem name_canonical_respelled :
    Locale.parse? " pt--br_x.UTF-8" = some ⟨"pt", some "BR"⟩ ∧
      Loader.load { directories := ["t", "u"] } {} "pt_BR" =
        ⟨.error (.notFound "pt_BR" ["t/pt_BR.ts", "u/pt_BR.ts", "t/pt.ts", "u/pt.ts"]), []⟩ ∧
      Loader.probed { directories := ["t", "u"] } {} "pt_BR" =
        ["t/pt_BR.ts", "u/pt_BR.ts", "t/pt.ts", "u/pt.ts"] := by
  have hlocale : Locale.parse? " pt--br_x.UTF-8" = some ⟨"pt", some "BR"⟩ := by decide
  have hload : Loader.load { directories := ["t", "u"] } {} " pt--br_x.UTF-8" =
      ⟨.error (.notFound " pt--br_x.UTF-8" ["t/pt_BR.ts", "u/pt_BR.ts", "t/pt.ts", "u/pt.ts"]),
        []⟩ := by
    rfl
  obtain ⟨-, -, hsame⟩ := name_canonical hlocale
  obtain ⟨hprobed, hrenamed, -, hsearched⟩ := hsame { directories := ["t", "u"] } {}
  have hlisted := hsearched " pt--br_x.UTF-8" _ (by rw [hload])
  refine ⟨hlocale, hrenamed.trans ?_, hprobed.trans hlisted.symm⟩
  rw [hload]
  rfl

end Loader

end Phrasebook
