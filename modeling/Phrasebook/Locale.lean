import Phrasebook.Text.Blank

/-!
# Locales

A locale is a language with an optional region. `parse?` reads the usual spellings
`language[_REGION][.encoding][@modifier]`: suffixes are dropped, both `_` and `-` separate parts,
and anything but ASCII letters, digits and separators is refused, so a locale can never name a path.
`select` chooses among settings in order of precedence.
-/

namespace Phrasebook

structure Locale where
  language : String
  region : Option String
  deriving DecidableEq, Repr

namespace Locale

/-- Starts the encoding or the modifier of an identifier. -/
def isSuffixMark (c : Char) : Bool := c == '.' || c == '@'

def isSeparator (c : Char) : Bool := c == '_' || c == '-'

/-- A character that an identifier may hold before its suffix. -/
def isAllowed (c : Char) : Bool := c.isAlphanum || isSeparator c

/-- An identifier without its encoding and modifier. -/
def stem (cs : List Char) : List Char := cs.takeWhile fun c => !isSuffixMark c

def parts (cs : List Char) : List (List Char) :=
  (cs.splitOnP isSeparator).filter fun part => !part.isEmpty

/-- The locale whose language and region are the first two of these parts. -/
def ofParts? : List (List Char) → Option Locale
  | [] => none
  | language :: rest =>
    some {
      language := String.ofList (language.map Char.toLower)
      region := rest.head?.map fun region => String.ofList (region.map Char.toUpper) }

def parse? (identifier : String) : Option Locale :=
  let base := Text.trim (stem identifier.toList)
  if base.all isAllowed then ofParts? (parts base) else none

/-- A setting that asks for the source language: `C` or `POSIX` in any case, with any suffix. -/
def asksForSource (setting : String) : Bool :=
  let base := (stem setting.toList).map Char.toLower
  base == "c".toList || base == "posix".toList

def ofSetting? (setting : String) : Option Locale :=
  if asksForSource setting then none else parse? setting

/-- The canonical spelling. -/
def name (locale : Locale) : String :=
  match locale.region with
  | some region => locale.language ++ "_" ++ region
  | none => locale.language

/-- The resource names to try for a locale, the most specific first. -/
def resourceNames (locale : Locale) : List String :=
  match locale.region with
  | some _ => [locale.name, locale.language]
  | none => [locale.language]

structure Selection where
  /-- The locale chosen; none means the source language. -/
  locale : Option Locale
  /-- The values that were passed over because they cannot be read. -/
  ignored : List String
  deriving DecidableEq, Repr

/-- Chooses the first usable setting. Blank settings are skipped without notice, and one that asks
for the source language ends the search. -/
def select : List String → Selection
  | [] => ⟨none, []⟩
  | setting :: rest =>
    if (Text.trim setting.toList).isEmpty then select rest
    else if asksForSource setting then ⟨none, []⟩
    else
      match parse? setting with
      | some locale => ⟨some locale, []⟩
      | none =>
        let later := select rest
        ⟨later.locale, setting :: later.ignored⟩

end Locale

end Phrasebook
