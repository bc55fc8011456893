import Phrasebook.Environment
import Phrasebook.Loader
import Phrasebook.Settings.Document

/-!
# Settings

Where resources live and which locale to start with. Settings come from a document, with defaults
for what it leaves out; the environment may override them; `checked` checks them.
-/

namespace Phrasebook

structure Settings where
  directories : List String := ["translations"]
  filePrefix : String := ""
  /-- The locale to start with; without one the environment decides. -/
  locale : Option String := none
  deriving DecidableEq, Repr, Inhabited

namespace Settings

inductive Problem where
  | noDirectory
  | badPrefix (filePrefix : String)
  | badLocale (locale : String)
  deriving DecidableEq, Repr

def Problem.message : Problem → String
  | .noDirectory => "translations_dirs must name at least one directory"
  | .badPrefix filePrefix =>
    s!"file_prefix must not contain path separators or '.', got '{filePrefix}'"
  | .badLocale locale => s!"locale '{locale}' is not a valid locale identifier"

inductive Error where
  | unreadable (cause : FileError)
  | malformed
  | invalid (problems : List Problem)
  deriving DecidableEq, Repr

def Error.message : Error → String
  | .unreadable cause => "I/O error: " ++ cause.message
  | .malformed => "TOML parse error"
  | .invalid problems => "validation errors: " ++ "; ".intercalate (problems.map Problem.message)

/-- The settings with one more entry. Each key has a type, and unknown keys are refused. -/
def set? (settings : Settings) (key : String) (value : Document.Value) : Option Settings :=
  match key, value with
  | "translations_dirs", .list items => some { settings with directories := items }
  | "file_prefix", .text text => some { settings with filePrefix := text }
  | "locale", .text text => some { settings with locale := some text }
  | _, _ => none

/-- The settings of a list of entries, no two of which have the same key. -/
def ofEntries? (entries : List (String × Document.Value)) : Option Settings :=
  let keys := entries.map (·.1)
  if keys.eraseDups.length = keys.length then
    entries.foldlM (fun settings entry => settings.set? entry.1 entry.2) {}
  else none

def parse (text : String) : Except Error Settings :=
  match (Document.entries? text).bind ofEntries? with
  | some settings => .ok settings
  | none => .error .malformed

def parseFile (files : FileSystem) (path : String) : Except Error Settings :=
  match files.readText path with
  | .ok text => parse text
  | .error cause => .error (.unreadable cause)

/-- The settings with a locale and a directory from the environment. A blank locale and an empty
directory override nothing. -/
def override (settings : Settings) (environment : Environment) : Settings where
  directories :=
    ((environment.get? Environment.directoryVariable).filter (!·.isEmpty)).toList ++
      settings.directories
  filePrefix := settings.filePrefix
  locale :=
    ((environment.get? Environment.localeVariable).filter fun locale =>
      !(Text.trim locale.toList).isEmpty).or settings.locale

def problems (settings : Settings) : List Problem :=
  (if settings.directories.isEmpty then [.noDirectory] else []) ++
    (if settings.filePrefix.toList.any fun c => c == '/' || c == '.' then
      [.badPrefix settings.filePrefix] else []) ++
    ((settings.locale.filter fun locale =>
      (Locale.parse? locale).isNone).map Problem.badLocale).toList

def checked (settings : Settings) : Except Error Settings :=
  if settings.problems.isEmpty then .ok settings else .error (.invalid settings.problems)

/-- The loader over the directories of the settings. -/
def loader (settings : Settings) : Loader := ⟨settings.directories, settings.filePrefix⟩

/-- The locale to start with, in its canonical spelling: the one of the settings, else that of the
environment. None means the source language. -/
def startLocale (settings : Settings) (environment : Environment) : Option String :=
  match settings.locale with
  | some setting => (Locale.ofSetting? setting).map Locale.name
  | none => environment.selection.locale.map Locale.name

end Settings

end Phrasebook
