import Phrasebook.Catalog

/-!
# Placeholder consistency

A translation that may be shown should use the placeholders of its source text, in every form. A
mismatch lists the indices that some form lacks and those that some form adds.
-/

namespace Phrasebook

/-- A translation whose placeholders differ from those of its source text. -/
structure Mismatch where
  context : String
  source : String
  missing : List Nat
  unexpected : List Nat
  deriving DecidableEq, Repr

namespace Mismatch

/-- The elements of one list that are not in another. -/
def difference (as bs : List Nat) : List Nat := as.filter fun i => !bs.contains i

def ofMessage? (context : String) (message : Message) : Option Mismatch :=
  let expected := message.placeholders
  let used := message.translation.texts.map Template.indices
  let missing := Ascending.ofList (used.flatMap fun indices => difference expected indices)
  let unexpected := Ascending.ofList (used.flatMap fun indices => difference indices expected)
  if message.isPresentable && !(missing.isEmpty && unexpected.isEmpty) then
    some ⟨context, message.source, missing, unexpected⟩
  else none

end Mismatch

def Catalog.mismatches (catalog : Catalog) : List Mismatch :=
  catalog.contexts.toList.flatMap fun context =>
    context.messages.toList.filterMap (Mismatch.ofMessage? context.name)

end Phrasebook
