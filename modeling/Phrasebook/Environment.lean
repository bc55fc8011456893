import Phrasebook.Locale
import Phrasebook.Notice

/-!
# The environment

Environment variables and the locale that they ask for. The program's own variable comes before
those of the operating system.
-/

namespace Phrasebook

abbrev Environment := List (String × String)

namespace Environment

def get? (environment : Environment) (name : String) : Option String :=
  environment.lookup name

def localeVariable : String := "TSCAT_LOCALE"

/-- Names a directory to search before all others. -/
def directoryVariable : String := "TSCAT_TRANSLATIONS_DIR"

/-- The variables that set a locale, in order of precedence. -/
def localeVariables : List String := [localeVariable, "LC_ALL", "LC_MESSAGES", "LANG"]

def selection (environment : Environment) : Locale.Selection :=
  Locale.select (localeVariables.filterMap environment.get?)

/-- The locale that the environment asks for; none means the source language. -/
def locale? (environment : Environment) : Noted (Option Locale) :=
  ⟨environment.selection.locale, environment.selection.ignored.map .settingIgnored⟩

end Environment

end Phrasebook
