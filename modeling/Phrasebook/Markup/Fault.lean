import Phrasebook.Text.Numeral

/-!
# Faults of markup

What can be wrong with a document before anyone asks what its elements mean, with the wording of
each cause. Byte offsets inside a text or a tag are part of the fault; the position in the document
is not.
-/

namespace Phrasebook.Markup

inductive Unclosed where
  | tag
  | comment
  | cdata
  | doctype
  | instruction
  deriving DecidableEq, Repr

def Unclosed.message : Unclosed → String
  | .tag => "tag not closed: `>` not found before end of input"
  | .comment => "comment not closed: `-->` not found before end of input"
  | .cdata => "CDATA not closed: `]]>` not found before end of input"
  | .doctype => "DOCTYPE not closed: `>` not found before end of input"
  | .instruction =>
    "processing instruction or xml declaration not closed: `?>` not found before end of input"

/-- Why a character reference names no character. -/
inductive ReferenceFault where
  | sign
  | numeral (fault : Text.NumeralFault)
  | zero
  | notCharacter (code : Nat)
  deriving DecidableEq, Repr

def ReferenceFault.message : ReferenceFault → String
  | .sign => "unexpected number sign"
  | .numeral .empty => "cannot parse integer from empty string"
  | .numeral .invalidDigit => "invalid digit found in string"
  | .numeral .tooLarge => "number too large to fit in target type"
  | .zero => "0x0 character is not permitted in XML"
  | .notCharacter code => s!"`{code}` is not a valid codepoint"

inductive Fault where
  | unclosed (what : Unclosed)
  | unknownMarkup
  | namelessDoctype
  | mismatchedEnd (expected found : String)
  | unmatchedEnd (found : String)
  /-- An ampersand at a byte offset of a text of some length starts no reference. -/
  | unterminatedReference (start length : Nat)
  /-- A reference whose name takes these bytes of its text stands for nothing. -/
  | unknownEntity (start stop : Nat) (name : String)
  | badReference (fault : ReferenceFault)
  | keyWithoutEquals (offset : Nat)
  | missingValue (offset : Nat)
  | unquotedValue (offset : Nat)
  | unclosedQuote (offset : Nat) (quote : Char)
  deriving DecidableEq, Repr

def Fault.message : Fault → String
  | .unclosed what => "syntax error: " ++ what.message
  | .unknownMarkup => "syntax error: unknown or missed symbol in markup"
  | .namelessDoctype =>
    "ill-formed document: `<!DOCTYPE>` declaration does not contain a name of a document type"
  | .mismatchedEnd expected found =>
    s!"ill-formed document: expected `</{expected}>`, but `</{found}>` was found"
  | .unmatchedEnd found =>
    s!"ill-formed document: close tag `</{found}>` does not match any open tag"
  | .unterminatedReference start length =>
    s!"Error while escaping character at range {start}..{length}: Cannot find ';' after '&'"
  | .unknownEntity start stop name => s!"at {start}..{stop}: unrecognized entity `{name}`"
  | .badReference fault => "invalid character reference: " ++ fault.message
  | .keyWithoutEquals offset =>
    s!"position {offset}: attribute key must be directly followed by `=` or space"
  | .missingValue offset => s!"position {offset}: `=` must be followed by an attribute value"
  | .unquotedValue offset =>
    s!"position {offset}: attribute value must be enclosed in `\"` or `'`"
  | .unclosedQuote offset quote =>
    s!"position {offset}: missing closing quote `{quote}` in attribute value"

end Phrasebook.Markup
