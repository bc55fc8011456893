import Phrasebook.Loader
import Phrasebook.Text.Quoted

/-!
# The active catalog

A translator holds the catalog in use. Publishing another one tells which one it took the place of.
A switch of locale loads first and then publishes once: the loaded catalog, or the source language
if loading failed.
-/

namespace Phrasebook

/-- The holder of the catalog in use. -/
structure Translator where
  active : Catalog := .empty

namespace Translator

instance : Inhabited Translator := ⟨{}⟩

structure Publication where
  translator : Translator
  previous : Catalog
  notice : Notice

def publish (translator : Translator) (catalog : Catalog) : Publication where
  translator := ⟨catalog⟩
  previous := translator.active
  notice := .catalogReplaced translator.active.language catalog.language catalog.messageCount

def reset (translator : Translator) : Publication := translator.publish .empty

/-- The outcome of a switch of locale. -/
structure Switch where
  translator : Translator
  outcome : Except LoadError Unit
  notices : List Notice

/-- Loads a locale and publishes it. -/
def switch (translator : Translator) (loader : Loader) (files : FileSystem) (identifier : String) :
    Switch :=
  let loaded := loader.load files identifier
  match loaded.value with
  | .ok catalog =>
    let publication := translator.publish catalog
    ⟨publication.translator, .ok (), loaded.notices ++ [publication.notice]⟩
  | .error error =>
    let publication := translator.reset
    ⟨publication.translator, .error error,
      loaded.notices ++ [.switchFailed identifier error, publication.notice]⟩

def translate (translator : Translator) (context source : String) (disambiguation : Option String) :
    String :=
  translator.active.translate context source disambiguation

/-- The translated text of a request without disambiguation, with its placeholders replaced. -/
def translateWith (translator : Translator) (context source : String) (args : List String) :
    String :=
  translator.active.translateWith context source args none

/-- The form for a count of a request without disambiguation, with its count markers replaced. -/
def translateCounted (translator : Translator) (context source : String) (count : Int) : String :=
  translator.active.translateCounted context source none count

def describe (translator : Translator) : String :=
  let language :=
    match translator.active.language with
    | some language => "Some(" ++ Text.quoted language ++ ")"
    | none => "None"
  "Translator \x7b language: " ++ language ++
    s!", messages: {translator.active.messageCount}" ++ " \x7d"

end Translator

end Phrasebook
