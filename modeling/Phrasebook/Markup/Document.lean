import Phrasebook.Markup.Event

/-!
# Documents

A document in full: its events, each with the byte offset just after it, and how it ends. Scanning
stops at the first fault. Whether an end tag closes the innermost open element is checked here, so
in what precedes the end every closing event answers an opening one.
-/

namespace Phrasebook.Markup

/-- An event and the byte offset just after it. -/
structure Located where
  event : Event
  stop : Nat
  deriving DecidableEq, Repr

/-- How scanning ends. -/
inductive Ending where
  /-- At the end of the document, which has this many bytes. -/
  | complete (length : Nat)
  /-- At a fault, at a byte offset. -/
  | broken (fault : Fault) (offset : Nat)
  deriving DecidableEq, Repr

structure Document where
  events : List Located
  ending : Ending
  deriving DecidableEq, Repr

/-- The names of the open elements after an event, innermost first, or why there can be no such
event. -/
def advance (names : List (List Char)) : Event → Except Fault (List (List Char))
  | .opening tag => .ok (tagName tag :: names)
  | .closing name =>
    match names with
    | [] => .error (.unmatchedEnd (String.ofList name))
    | expected :: outer =>
      if name = expected then .ok outer
      else .error (.mismatchedEnd (String.ofList expected) (String.ofList name))
  | _ => .ok names

namespace Document

def cons (located : Located) (document : Document) : Document :=
  { document with events := located :: document.events }

/-- The rest of a document, from a byte offset on and with these elements open. -/
def scanFrom (names : List (List Char)) (offset : Nat) (cs : List Char) : Document :=
  match _h : Event.scan cs with
  | .finished => ⟨[], .complete offset⟩
  | .fault fault distance => ⟨[], .broken fault (offset + distance)⟩
  | .event event size rest =>
    match advance names event with
    | .error fault => ⟨[], .broken fault offset⟩
    | .ok names => cons ⟨event, offset + size⟩ (scanFrom names (offset + size) rest)
termination_by cs.length
decreasing_by exact Event.length_scan_lt (by assumption)

/-- A byte order mark at the very start is no part of a document. -/
def dropMark : List Char → List Char
  | '\uFEFF' :: cs => cs
  | cs => cs

def ofString (text : String) : Document := scanFrom [] 0 (dropMark text.toList)

end Document

end Phrasebook.Markup
