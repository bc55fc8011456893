import Phrasebook.Locale
import Phrasebook.Resource.Reader

/-!
# Finding the resource of a locale

A loader looks for resource files in directories. The file of a locale is named by one of its
candidates; all directories are tried for the first candidate before the next one, so a region
anywhere beats a bare language everywhere.
-/

namespace Phrasebook

/-- Where resources are. -/
structure Loader where
  directories : List String := []
  filePrefix : String := ""
  deriving DecidableEq, Repr

namespace Loader

def extension : String := "ts"

def pathOf (loader : Loader) (directory candidate : String) : String :=
  Path.join directory (loader.filePrefix ++ candidate ++ "." ++ extension)

/-- The paths at which the resource of a locale can be, in the order of the search. -/
def probes (loader : Loader) (locale : Locale) : List String :=
  locale.resourceNames.flatMap fun candidate =>
    loader.directories.map fun directory => loader.pathOf directory candidate

/-- Loads the first resource of a locale. -/
def load (loader : Loader) (files : FileSystem) (identifier : String) :
    Noted (Except LoadError Catalog) :=
  match Locale.parse? identifier with
  | none => ⟨.error (.invalidLocale identifier), []⟩
  | some locale =>
    let paths := loader.probes locale
    match paths.find? files.isFile with
    | none => ⟨.error (.notFound identifier paths), []⟩
    | some path =>
      let parsed := Resource.parseFile files path
      ⟨parsed.value, .resourceFound identifier path :: parsed.notices⟩

/-- Loads the resource of a locale; where that fails, the source language stands in. -/
def loadOrSource (loader : Loader) (files : FileSystem) (identifier : String) : Noted Catalog :=
  let loaded := loader.load files identifier
  match loaded.value with
  | .ok catalog => ⟨catalog, loaded.notices⟩
  | .error error => ⟨.empty, loaded.notices ++ [.resourceUnavailable identifier error]⟩

/-- What stands between the start and the extension of the name of a resource file. -/
def identifierOf? (loader : Loader) (name : String) : Option String :=
  match Path.splitExtension? name.toList with
  | none => none
  | some (stem, suffix) =>
    if suffix = extension.toList ∧ loader.filePrefix.toList.isPrefixOf stem then
      some (String.ofList (stem.drop loader.filePrefix.toList.length))
    else none

/-- The locale that a file name stands for, as it is spelled there. -/
def localeOfFile? (loader : Loader) (name : String) : Option String :=
  (loader.identifierOf? name).filter fun identifier => (Locale.parse? identifier).isSome

/-- The locales with a resource in any directory, in ascending order. -/
def available (loader : Loader) (files : FileSystem) : List String :=
  Ascending.ofList (loader.directories.flatMap fun directory =>
    ((files.list? directory).getD []).filterMap loader.localeOfFile?)

end Loader

end Phrasebook
