import Phrasebook.Catalog

/-!
# Building catalogs

A builder takes messages one by one and opens contexts on the way. It counts the messages that
repeated an earlier one and those that contradicted one.
-/

namespace Phrasebook.Catalog

/-- A catalog under construction. -/
structure Builder where
  version : Option String := none
  language : Option String := none
  sourceLanguage : Option String := none
  contexts : Array Context := #[]
  index : Std.HashMap String Nat := ∅
  /-- Number of messages that joined an earlier one. -/
  merged : Nat := 0
  /-- Number of messages that were dropped. -/
  conflicts : Nat := 0

namespace Builder

instance : Inhabited Builder := ⟨{}⟩

def openContext (builder : Builder) (name : String) : Builder :=
  if builder.index.contains name then builder
  else
    { builder with
      contexts := builder.contexts.push { name }
      index := builder.index.insert name builder.contexts.size }

/-- The position of a context; a name without one stands past the end. -/
def position (builder : Builder) (name : String) : Nat :=
  builder.index.getD name builder.contexts.size

/-- The context of a name; a name without one stands for an empty context. -/
def context (builder : Builder) (name : String) : Context :=
  builder.contexts.getD (builder.position name) { name }

def place (builder : Builder) (name : String) (message : Message) : Placement :=
  (builder.context name).place message

/-- Adds a message to a context, which is opened if need be. -/
def add (builder : Builder) (name : String) (message : Message) : Builder :=
  let placement := builder.place name message
  let opened := builder.openContext name
  { opened with
    contexts := opened.contexts.modify (opened.position name) (·.insert message)
    merged := opened.merged + if placement matches .merges _ then 1 else 0
    conflicts := opened.conflicts + if placement matches .conflicts _ then 1 else 0 }

/-- The message was kept: it did not contradict an earlier one. -/
def accepts (builder : Builder) (name : String) (message : Message) : Bool :=
  !(builder.place name message matches .conflicts _)

def build (builder : Builder) : Catalog where
  version := builder.version
  language := builder.language
  sourceLanguage := builder.sourceLanguage
  pluralRule := builder.language.elim .english Plural.Rule.ofLocale
  contexts := builder.contexts
  index := builder.index

end Builder

end Phrasebook.Catalog
