import Phrasebook.Catalog
import Phrasebook.Markup.Reference

/-!
# Writing translation resources

The canonical form of a catalog: two spaces for each level, one element a line, attributes and
elements in a fixed order. In element text, control characters other than line ends and tabs become
byte elements.
-/

namespace Phrasebook.Resource.Writer

open Markup (escape escapeChar)

/-- The format version of a resource whose catalog names none. -/
def defaultVersion : String := "2.1"

/-- A control character that cannot stand in element text. -/
def needsByte (c : Char) : Bool := Text.isControl c && c != '\n' && c != '\t' && c != '\r'

def escapeTextChar (c : Char) : List Char :=
  if needsByte c then "<byte value=\"x".toList ++ Text.hexadecimal c.toNat ++ "\"/>".toList
  else escapeChar c

def escapeText (text : String) : List Char := text.toList.flatMap escapeTextChar

/-- An attribute, with the space before it. -/
def tagAttribute (name value : String) : List Char :=
  " ".toList ++ name.toList ++ "=\"".toList ++ escape value.toList ++ "\"".toList

def tagAttribute? (name : String) : Option String → List Char
  | some value => tagAttribute name value
  | none => []

def elementLine (indent : Nat) (name text : String) : List Char :=
  List.replicate indent ' ' ++ "<".toList ++ name.toList ++ ">".toList ++ escapeText text ++
    "</".toList ++ name.toList ++ ">\n".toList

def elementLine? (indent : Nat) (name : String) : Option String → List Char
  | some text => elementLine indent name text
  | none => []

def locationLine (location : Location) : List Char :=
  "      <location".toList ++ tagAttribute "filename" location.filename ++
    tagAttribute? "line" (location.line.map fun line => String.ofList (Text.decimal line.toNat)) ++
    "/>\n".toList

def translationBody : Translation → List Char
  | .single text => escapeText text
  | .forms texts => "\n".toList ++ texts.flatMap (elementLine 8 "numerusform") ++ "      ".toList

def translationLines (message : Message) : List Char :=
  "      <translation".toList ++ tagAttribute? "type" message.status.name? ++ ">".toList ++
    translationBody message.translation ++ "</translation>\n".toList

def messageLines (message : Message) : List Char :=
  "    <message".toList ++ (if message.hasForms then tagAttribute "numerus" "yes" else []) ++
    ">\n".toList ++
    message.locations.flatMap locationLine ++
    elementLine 6 "source" message.source ++
    elementLine? 6 "oldsource" message.oldSource ++
    elementLine? 6 "comment" message.comment ++
    elementLine? 6 "extracomment" message.extraComment ++
    elementLine? 6 "translatorcomment" message.translatorComment ++
    translationLines message ++
    "    </message>\n".toList

def contextLines (context : Context) : List Char :=
  "  <context>\n".toList ++ elementLine 4 "name" context.name ++
    context.messages.toList.flatMap messageLines ++ "  </context>\n".toList

def prolog : List Char :=
  "<?xml version=\"1.0\" encoding=\"utf-8\"?>\n<!DOCTYPE TS>\n".toList

def rootLine (catalog : Catalog) : List Char :=
  "<TS".toList ++ tagAttribute "version" (catalog.version.getD defaultVersion) ++
    tagAttribute? "language" catalog.language ++
    tagAttribute? "sourcelanguage" catalog.sourceLanguage ++ ">\n".toList

/-- The canonical form of a catalog, as characters. -/
def write (catalog : Catalog) : List Char :=
  prolog ++ rootLine catalog ++ catalog.contexts.toList.flatMap contextLines ++ "</TS>\n".toList

end Phrasebook.Resource.Writer

namespace Phrasebook.Resource

/-- The canonical form of a catalog. -/
def render (catalog : Catalog) : String := String.ofList (Writer.write catalog)

end Phrasebook.Resource
