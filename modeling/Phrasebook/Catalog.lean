import Phrasebook.Context
import Phrasebook.Plural

/-!
# Catalogs

A catalog is a list of contexts with the language they translate into. Looking up never fails: a
request without a message that may be shown is answered by its own source text.
-/

namespace Phrasebook

/-- A loaded translation resource. -/
structure Catalog where
  version : Option String := none
  language : Option String := none
  sourceLanguage : Option String := none
  pluralRule : Plural.Rule := .english
  contexts : Array Context := #[]
  index : Std.HashMap String Nat := ∅

namespace Catalog

/-- The catalog of the source language: it answers every request by the request's source text. -/
def empty : Catalog := {}

instance : Inhabited Catalog := ⟨empty⟩

/-- No context holds a message. -/
def isEmpty (catalog : Catalog) : Bool := catalog.contexts.all Context.isEmpty

def messageCount (catalog : Catalog) : Nat :=
  catalog.contexts.toList.foldr (fun context n => context.size + n) 0

def context? (catalog : Catalog) (name : String) : Option Context :=
  catalog.index[name]?.bind (catalog.contexts[·]?)

/-- The message that a request consults, whatever its state. -/
def lookup? (catalog : Catalog) (context source : String) (disambiguation : Option String) :
    Option Message :=
  (catalog.context? context).bind (·.resolve? source disambiguation)

/-- The message that a request consults, if its translation may be shown. -/
def presented? (catalog : Catalog) (context source : String) (disambiguation : Option String) :
    Option Message :=
  (catalog.lookup? context source disambiguation).filter Message.isPresentable

/-- The translated text, or the source text. -/
def translate (catalog : Catalog) (context source : String) (disambiguation : Option String) :
    String :=
  match catalog.presented? context source disambiguation with
  | some message => message.translation.uncounted
  | none => source

def translateWith (catalog : Catalog) (context source : String) (args : List String)
    (disambiguation : Option String) : String :=
  Template.withArgs (catalog.translate context source disambiguation) args

/-- The form of a translation for a count: the one at its index, else the last one, unless it is
empty. -/
def form? (rule : Plural.Rule) (count : Int) : Translation → Option String
  | .single text => some text
  | .forms texts => (texts[rule.position count]?.or texts.getLast?).filter fun form => !form.isEmpty

/-- The template into which a count goes. -/
def pluralTemplate (catalog : Catalog) (context source : String) (disambiguation : Option String)
    (count : Int) : String :=
  ((catalog.presented? context source disambiguation).bind fun message =>
    form? catalog.pluralRule count message.translation).getD source

/-- The form for a count with its count markers replaced. -/
def translateCounted (catalog : Catalog) (context source : String) (disambiguation : Option String)
    (count : Int) : String :=
  Template.withCount (catalog.pluralTemplate context source disambiguation count) count

end Catalog

end Phrasebook
