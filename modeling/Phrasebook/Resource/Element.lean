/-!
# Elements of a translation resource

The elements that a resource may have, the element that each one has to be in, and the names that
diagnostics use for them.
-/

namespace Phrasebook.Resource

/-- An element of a resource. -/
inductive Element where
  | root
  | context
  | name
  | message
  | location
  | source
  | oldSource
  | comment
  | extraComment
  | translatorComment
  | translation
  | form
  /-- A character given by its code. -/
  | byte
  /-- An element without a meaning here; everything in it is skipped. -/
  | unknown
  deriving DecidableEq, Repr

namespace Element

def ofName (name : List Char) : Element :=
  if name = "TS".toList then .root
  else if name = "context".toList then .context
  else if name = "name".toList then .name
  else if name = "message".toList then .message
  else if name = "location".toList then .location
  else if name = "source".toList then .source
  else if name = "oldsource".toList then .oldSource
  else if name = "comment".toList then .comment
  else if name = "extracomment".toList then .extraComment
  else if name = "translatorcomment".toList then .translatorComment
  else if name = "translation".toList then .translation
  else if name = "numerusform".toList ∨ name = "lengthvariant".toList then .form
  else if name = "byte".toList then .byte
  else .unknown

/-- The character data of the element counts. -/
def collectsText : Element → Bool
  | .name | .source | .oldSource | .comment | .extraComment | .translatorComment | .translation
  | .form => true
  | .root | .context | .message | .location | .byte | .unknown => false

/-- The element that this one has to be in, where there is only one. -/
def parent? : Element → Option Element
  | .context => some .root
  | .name | .message => some .context
  | .location | .source | .oldSource | .comment | .extraComment | .translatorComment
  | .translation => some .message
  | .form => some .translation
  | .root | .byte | .unknown => none

/-- The name of the element as a container, in diagnostics. -/
def label : Element → String
  | .root => "Ts"
  | .context => "Context"
  | .name => "Name"
  | .message => "Message"
  | .location => "Location"
  | .source => "Source"
  | .oldSource => "OldSource"
  | .comment => "Comment"
  | .extraComment => "ExtraComment"
  | .translatorComment => "TranslatorComment"
  | .translation => "Translation"
  | .form => "NumerusForm"
  | .byte => "Byte"
  | .unknown => "Other"

/-- The name of a misplaced element, in diagnostics. -/
def role : Element → String
  | .root => "TS"
  | .context => "context"
  | .name => "name"
  | .message => "message"
  | .location => "location"
  | .source | .oldSource | .comment | .extraComment | .translatorComment => "text element"
  | .translation => "translation"
  | .form => "numerusform"
  | .byte => "byte"
  | .unknown => "unknown"

end Element

end Phrasebook.Resource
