import Phrasebook.Catalog.Builder
import Phrasebook.Markup.Attribute
import Phrasebook.Markup.Document
import Phrasebook.Notice

/-!
# Reading translation resources

The reader goes through the events of a document with the path of open elements, the character data
of the innermost text element and what is known so far of the message and the context at hand. It is
strict about structure and lenient about content: unknown elements are skipped and an unknown state
of a translation counts as unfinished. A fault in the structure is reported just after the event
that shows it.
-/

namespace Phrasebook.Resource

open Catalog (Builder)

/-- A message whose element is still open. -/
structure OpenMessage where
  message : Message := {}
  hasSource : Bool := false
  plural : Bool := false
  forms : List String := []
  deriving DecidableEq, Repr, Inhabited

/-- The translation of a message with a text: its forms, if it has any or says so, else the text. -/
def OpenMessage.translation (draft : OpenMessage) (text : String) : Translation :=
  if draft.plural || !draft.forms.isEmpty then .forms draft.forms else .single text

/-- A context whose element is still open. -/
structure OpenContext where
  name : Option String := none
  messages : List Message := []
  deriving DecidableEq, Repr, Inhabited

/-- A reader in the middle of a document. -/
structure Reader where
  /-- The open elements, innermost first. -/
  path : List Element := []
  /-- The character data of the innermost text element so far. -/
  text : String := ""
  /-- Present once the root element has started. -/
  builder : Option Builder := none
  context : Option OpenContext := none
  message : Option OpenMessage := none
  notices : List Notice := []

namespace Reader

def updateMessage (reader : Reader) (change : OpenMessage → OpenMessage) : Reader :=
  { reader with message := reader.message.map change }

def updateContext (reader : Reader) (change : OpenContext → OpenContext) : Reader :=
  { reader with context := reader.context.map change }

/-- The character that the value of a byte element stands for: a hexadecimal code after an `x`, else
a decimal one. -/
def byteChar? (value : String) : Option Char :=
  let code? :=
    match value.toList with
    | 'x' :: digits | 'X' :: digits => Text.unsigned? 16 Text.wordBound digits
    | digits => Text.unsigned? 10 Text.wordBound digits
  code?.bind Markup.charOfCode?

def tagValue? (tag : List Char) (key : String) : Except Fault (Option String) :=
  (Markup.Attribute.value? tag key).mapError .markup

def openRoot (reader : Reader) (tag : List Char) : Except Fault Reader := do
  if reader.builder.isSome then throw .repeatedRoot
  let version ← tagValue? tag "version"
  let language ← tagValue? tag "language"
  let sourceLanguage ← tagValue? tag "sourcelanguage"
  pure { reader with builder := some { version, language, sourceLanguage } }

def openMessage (reader : Reader) (tag : List Char) : Except Fault Reader := do
  let plural ← tagValue? tag "numerus"
  pure { reader with message := some { plural := plural == some "yes" } }

/-- Adds a location to the message. A line that is no number is left out. -/
def openLocation (reader : Reader) (tag : List Char) : Except Fault Reader := do
  let filename ← tagValue? tag "filename"
  let line ← tagValue? tag "line"
  let location := ⟨filename.getD "", line.bind fun digits => Text.word? digits.toList⟩
  pure (reader.updateMessage fun draft =>
    { draft with message.locations := draft.message.locations ++ [location] })

def openTranslation (reader : Reader) (tag : List Char) : Except Fault Reader := do
  let state ← tagValue? tag "type"
  let status := state.elim .finished fun name => (Status.ofName? name).getD .unfinished
  pure (reader.updateMessage fun draft => { draft with message.status := status })

/-- Adds the character of a byte element to the text around it. -/
def openByte (reader : Reader) (tag : List Char) : Except Fault Reader := do
  let some value ← tagValue? tag "value" | throw .byteWithoutValue
  let some c := byteChar? value | throw (.badByteValue value)
  if reader.path.head?.any Element.collectsText then
    pure { reader with text := reader.text.push c }
  else pure reader

/-- Does what the start of an element in its place asks for. -/
def enterElement (reader : Reader) (element : Element) (tag : List Char) : Except Fault Reader :=
  match element with
  | .root => reader.openRoot tag
  | .context => .ok { reader with context := some {} }
  | .message => reader.openMessage tag
  | .location => reader.openLocation tag
  | .translation => reader.openTranslation tag
  | .byte => reader.openByte tag
  | .name | .source | .oldSource | .comment | .extraComment | .translatorComment | .form
  | .unknown => .ok reader

def checkParent (element parent : Element) : Except Fault Unit :=
  match element.parent? with
  | none => .ok ()
  | some expected =>
    if parent = expected then .ok () else .error (.misplaced element expected parent)

/-- Puts an element on the path; a text element starts without text. -/
def push (reader : Reader) (element : Element) : Reader :=
  { reader with
    path := element :: reader.path
    text := if element.collectsText then "" else reader.text }

def openElement (reader : Reader) (tag : List Char) : Except Fault Reader := do
  let name := Markup.tagName tag
  let element := Element.ofName name
  match reader.path.head? with
  | some .unknown => pure (reader.push .unknown)
  | some parent =>
    checkParent element parent
    let reader ← reader.enterElement element tag
    pure (reader.push element)
  | none =>
    if element ≠ .root then throw (.otherRoot (String.ofList name))
    let reader ← reader.enterElement element tag
    pure (reader.push element)

/-- Adds the messages of a finished context to the builder, with a notice for each one that is
dropped. -/
def addMessages (name : String) (builder : Builder) : List Message → Noted Builder
  | [] => ⟨builder, []⟩
  | message :: rest =>
    let later := addMessages name (builder.add name message) rest
    if builder.accepts name message then later
    else ⟨later.value, .messageDropped name message.source :: later.notices⟩

def closeMessage (reader : Reader) : Except Fault Reader :=
  let draft := reader.message.getD {}
  if draft.hasSource then
    .ok (({ reader with message := none } : Reader).updateContext fun context =>
      { context with messages := context.messages ++ [draft.message] })
  else .error .messageWithoutSource

def closeContext (reader : Reader) : Except Fault Reader :=
  let draft := reader.context.getD {}
  match draft.name with
  | none => .error .contextWithoutName
  | some name =>
    match reader.builder with
    | none => .ok { reader with context := none }
    | some builder =>
      let added := addMessages name (builder.openContext name) draft.messages
      .ok { reader with
        context := none
        builder := some added.value
        notices := reader.notices ++ added.notices }

def leaveElement (reader : Reader) (element : Element) (text : String) : Except Fault Reader :=
  match element with
  | .name => .ok (reader.updateContext ({ · with name := some text }))
  | .source =>
    .ok (reader.updateMessage ({ · with message.source := text, hasSource := true }))
  | .oldSource => .ok (reader.updateMessage ({ · with message.oldSource := some text }))
  | .comment => .ok (reader.updateMessage ({ · with message.comment := some text }))
  | .extraComment => .ok (reader.updateMessage ({ · with message.extraComment := some text }))
  | .translatorComment =>
    .ok (reader.updateMessage ({ · with message.translatorComment := some text }))
  | .form => .ok (reader.updateMessage fun draft => { draft with forms := draft.forms ++ [text] })
  | .translation =>
    .ok (reader.updateMessage fun draft =>
      { draft with message.translation := draft.translation text, forms := [] })
  | .message => reader.closeMessage
  | .context => reader.closeContext
  | .root | .location | .byte | .unknown => .ok reader

/-- The end of the innermost element. -/
def closeElement (reader : Reader) : Except Fault Reader :=
  match reader.path with
  | [] => .error .unbalancedEnd
  | element :: outer =>
    let reader := { reader with path := outer }
    if outer.head? = some .unknown then .ok reader
    else if element.collectsText then
      { reader with text := "" }.leaveElement element reader.text
    else reader.leaveElement element ""

/-- Takes character data: it counts in a text element and must be blank outside of the root. -/
def addText (reader : Reader) (text : List Char) : Except Fault Reader :=
  match reader.path.head? with
  | some element =>
    .ok (if element.collectsText then { reader with text := reader.text ++ String.ofList text }
      else reader)
  | none => if text.all Text.isBlank then .ok reader else .error .textOutsideRoot

def step (reader : Reader) : Markup.Event → Except Fault Reader
  | .opening tag => reader.openElement tag
  | .empty tag => do (← reader.openElement tag).closeElement
  | .closing _ => reader.closeElement
  | .text written => do
    let text ← (Markup.unescape written).mapError .markup
    reader.addText text
  | .cdata content => reader.addText content
  | .remark => .ok reader

/-- A reader that stopped, and where and why it could not go on. -/
structure Stop where
  reader : Reader
  cause : Option (Fault × Nat) := none

/-- Takes events up to the first fault. -/
def run (reader : Reader) : List Markup.Located → Stop
  | [] => ⟨reader, none⟩
  | located :: rest =>
    match reader.step located.event with
    | .ok next => run next rest
    | .error fault => ⟨reader, some (fault, located.stop)⟩

/-- The catalog of a document that was read to its end, which has this many bytes. -/
def finish (reader : Reader) (length : Nat) : Except LoadError Builder :=
  match reader.path with
  | element :: _ => .error (.malformed (.endInside element) length)
  | [] =>
    match reader.builder with
    | none => .error (.malformed .missingRoot length)
    | some builder => .ok builder

def conclude (stop : Stop) (ending : Markup.Ending) : Except LoadError Builder :=
  match stop.cause, ending with
  | some (fault, position), _ => .error (.malformed fault position)
  | none, .broken fault offset => .error (.malformed (.markup fault) offset)
  | none, .complete length => stop.reader.finish length

end Reader

def readNotice (builder : Builder) : Notice :=
  let catalog := builder.build
  .resourceRead catalog.language catalog.contexts.size catalog.messageCount builder.merged
    builder.conflicts

def ofDocument (document : Markup.Document) : Noted (Except LoadError Catalog) :=
  let stop := Reader.run {} document.events
  match Reader.conclude stop document.ending with
  | .error error => ⟨.error error, stop.reader.notices⟩
  | .ok builder => ⟨.ok builder.build, stop.reader.notices ++ [readNotice builder]⟩

def parse (text : String) : Noted (Except LoadError Catalog) :=
  ofDocument (Markup.Document.ofString text)

def parseFile (files : FileSystem) (path : String) : Noted (Except LoadError Catalog) :=
  match files.readText path with
  | .ok text => parse text
  | .error cause => ⟨.error (.unreadable path cause), []⟩

end Phrasebook.Resource
