import Std.Data.HashMap
import Phrasebook.Message

/-!
# Contexts

A context is a named group of messages in resource order. An index leads from a source text to the
positions of its messages. `place` says where a new message would go, and `insert` puts it there: a
message whose source and key are taken either joins the one it repeats or is dropped.
-/

namespace Phrasebook

/-- A named group of messages. -/
structure Context where
  name : String
  messages : Array Message := #[]
  /-- The positions of the messages with a source text, in ascending order. -/
  index : Std.HashMap String (List Nat) := ∅

inductive Placement where
  /-- Its source and key are new: it goes to the end. -/
  | fresh
  /-- It repeats the message at a position, which takes over its locations. -/
  | merges (position : Nat)
  /-- It contradicts the message at a position and is dropped. -/
  | conflicts (position : Nat)
  deriving DecidableEq, Repr

namespace Context

def size (context : Context) : Nat := context.messages.size

def isEmpty (context : Context) : Bool := context.messages.isEmpty

def positions (context : Context) (source : String) : List Nat := context.index.getD source []

/-- The first of these positions whose message has a key. -/
def positionOf? (context : Context) (positions : List Nat) (key : Key) : Option Nat :=
  positions.find? fun i => (context.messages[i]?.map Message.key) == some key

/-- The keys that answer a disambiguation, the preferred one first. -/
def wantedKeys : Option String → List Key
  | some text => [.comment text, .extraComment text]
  | none => [.plain]

/-- The message with a source text and exactly this disambiguation. One whose comment matches wins
over one whose extra comment does. -/
def find? (context : Context) (source : String) (disambiguation : Option String) : Option Message :=
  let positions := context.positions source
  let position? := (wantedKeys disambiguation).findSome? (context.positionOf? positions)
  position?.bind (context.messages[·]?)

/-- The message that stands in when nothing matches exactly: for a request without disambiguation,
the only message with the source text. -/
def sole? (context : Context) (source : String) : Option String → Option Message
  | some _ => none
  | none =>
    match context.positions source with
    | [only] => context.messages[only]?
    | _ => none

/-- The message that a request resolves to: an exact match, then the message without a key, then the
sole message. -/
def resolve? (context : Context) (source : String) (disambiguation : Option String) :
    Option Message :=
  (context.find? source disambiguation).or
    ((context.find? source none).or (context.sole? source disambiguation))

def place (context : Context) (message : Message) : Placement :=
  match context.positionOf? (context.positions message.source) message.key with
  | none => .fresh
  | some i =>
    if context.messages[i]?.any (·.sameTranslation message) then .merges i else .conflicts i

def withLocations (message : Message) (locations : List Location) : Message :=
  { message with locations := message.locations ++ locations }

def insert (context : Context) (message : Message) : Context :=
  match context.place message with
  | .fresh =>
    { context with
      messages := context.messages.push message
      index := context.index.insert message.source
        (context.positions message.source ++ [context.size]) }
  | .merges i =>
    { context with messages := context.messages.modify i (withLocations · message.locations) }
  | .conflicts _ => context

end Context

end Phrasebook
