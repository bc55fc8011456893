import Phrasebook.Catalog
import Phrasebook.Decimal.Shortest

/-!
# Coverage

How many messages have a translation that may be shown. Retired messages are counted but do not
enter the percentage.
-/

namespace Phrasebook

/-- Messages by what their translation is good for. -/
structure Tally where
  finished : Nat := 0
  unfinished : Nat := 0
  /-- Messages that no longer belong to the application. -/
  retired : Nat := 0
  deriving DecidableEq, Repr, Inhabited

namespace Tally

/-- The tally of one message. A finished translation without text counts as unfinished. -/
def ofMessage (message : Message) : Tally :=
  match message.status with
  | .finished => if message.translation.isEmpty then { unfinished := 1 } else { finished := 1 }
  | .unfinished => { unfinished := 1 }
  | .obsolete | .vanished => { retired := 1 }

def add (a b : Tally) : Tally :=
  ⟨a.finished + b.finished, a.unfinished + b.unfinished, a.retired + b.retired⟩

def sum (tallies : List Tally) : Tally := tallies.foldl add {}

/-- Number of messages that the application uses. -/
def active (tally : Tally) : Nat := tally.finished + tally.unfinished

def total (tally : Tally) : Nat := tally.active + tally.retired

/-- The finished share of the active messages in percent; a hundred if there are none. -/
def percent (tally : Tally) : Single :=
  if tally.active = 0 then .ofNat 100
  else ((Single.ofNat tally.finished).div (.ofNat tally.active)).mul (.ofNat 100)

end Tally

structure ContextCoverage where
  context : String
  tally : Tally
  deriving DecidableEq, Repr

structure Coverage where
  language : Option String
  totals : Tally
  contexts : List ContextCoverage
  deriving DecidableEq, Repr

def Context.coverage (context : Context) : ContextCoverage :=
  ⟨context.name, .sum (context.messages.toList.map Tally.ofMessage)⟩

def Catalog.coverage (catalog : Catalog) : Coverage :=
  let contexts := catalog.contexts.toList.map Context.coverage
  ⟨catalog.language, .sum (contexts.map (·.tally)), contexts⟩

/-- How percentages are shown: a half goes up, and whole numbers have no point. -/
def Coverage.shown : Decimal.Format := ⟨.up, false⟩

/-- How percentages are exported: a half goes to the even digit, and whole numbers have a zero after
the point. -/
def Coverage.exported : Decimal.Format := ⟨.even, true⟩

end Phrasebook
