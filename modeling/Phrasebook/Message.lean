import Phrasebook.Template

/-!
# Messages

A message is a source text with its translation, the state of that translation and the notes that
came with it. Within a context a message is identified by its source text and its key: the comment,
else the extra comment, else nothing.
-/

namespace Phrasebook

/-- The review state of a translation. -/
inductive Status where
  | finished
  | unfinished
  /-- No longer part of the application. -/
  | obsolete
  /-- The source text is gone from the application. -/
  | vanished
  deriving DecidableEq, Repr, Inhabited

namespace Status

/-- The state that a resource names; finished translations carry no name. -/
def ofName? (name : String) : Option Status :=
  if name = "unfinished" then some .unfinished
  else if name = "obsolete" then some .obsolete
  else if name = "vanished" then some .vanished
  else none

def name? : Status → Option String
  | .finished => none
  | .unfinished => some "unfinished"
  | .obsolete => some "obsolete"
  | .vanished => some "vanished"

/-- The messages in this state no longer belong to the application. -/
def isRetired : Status → Bool
  | .obsolete | .vanished => true
  | .finished | .unfinished => false

@[simp] theorem ofName?_of_name? {status : Status} {name : String} (h : status.name? = some name) :
    ofName? name = some status := by
  cases status <;> simp [name?] at h <;> subst h <;> decide

end Status

/-- A translated text, or one for each plural category. -/
inductive Translation where
  | single (text : String)
  | forms (texts : List String)
  deriving DecidableEq, Repr

namespace Translation

instance : Inhabited Translation := ⟨.single ""⟩

/-- All texts of the translation. -/
def texts : Translation → List String
  | .single text => [text]
  | .forms texts => texts

/-- The text for requests without a count: the single text or the first form. -/
def uncounted : Translation → String
  | .single text => text
  | .forms texts => texts.head?.getD ""

/-- No text of the translation has a character. -/
def isEmpty (translation : Translation) : Bool := translation.texts.all String.isEmpty

def hasForms : Translation → Bool
  | .single _ => false
  | .forms _ => true

end Translation

structure Location where
  filename : String
  line : Option UInt32
  deriving DecidableEq, Repr

structure Message where
  source : String := ""
  oldSource : Option String := none
  /-- Tells messages with the same source apart. -/
  comment : Option String := none
  /-- A developer's note; it tells messages apart where there is no comment. -/
  extraComment : Option String := none
  translatorComment : Option String := none
  translation : Translation := default
  status : Status := .finished
  locations : List Location := []
  deriving DecidableEq, Repr, Inhabited

/-- What identifies a message besides its source text. -/
inductive Key where
  | plain
  | comment (text : String)
  | extraComment (text : String)
  deriving DecidableEq, Repr

def Key.text? : Key → Option String
  | .plain => none
  | .comment text | .extraComment text => some text

namespace Message

/-- The key of a message: a comment and an extra comment with the same text are different keys. -/
def key (message : Message) : Key :=
  match message.comment, message.extraComment with
  | some comment, _ => .comment comment
  | none, some note => .extraComment note
  | none, none => .plain

/-- The text that tells this message apart from others with the same source. -/
def disambiguation (message : Message) : Option String := message.key.text?

def hasForms (message : Message) : Bool := message.translation.hasForms

/-- The translation may be shown. -/
def isPresentable (message : Message) : Bool :=
  message.status == .finished && !message.translation.isEmpty

def placeholders (message : Message) : List Nat := Template.indices message.source

def sameTranslation (a b : Message) : Bool := a.translation == b.translation && a.status == b.status

end Message

end Phrasebook
