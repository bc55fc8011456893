import Phrasebook.Text.Numeral

/-!
# JSON texts

JSON values and their two written forms: compact, without any space, and indented, with two spaces
for each level and one item a line. Numbers are kept as they are written.
-/

namespace Phrasebook

inductive Json where
  | null
  | number (text : String)
  | string (text : String)
  | array (items : List Json)
  | object (fields : List (String × Json))

namespace Json

def ofNat (n : Nat) : Json := .number (String.ofList (Text.decimal n))

def ofText? : Option String → Json
  | some text => .string text
  | none => .null

/-- A character inside a JSON text. Only quotes, backslashes and the C0 controls are escaped. -/
def escapeChar (c : Char) : List Char :=
  if c = '"' then "\\\"".toList
  else if c = '\\' then "\\\\".toList
  else if c = '\x08' then "\\b".toList
  else if c = '\x0C' then "\\f".toList
  else if c = '\n' then "\\n".toList
  else if c = '\r' then "\\r".toList
  else if c = '\t' then "\\t".toList
  else if c.toNat < 0x20 then
    let digits := Text.hexadecimal c.toNat
    "\\u".toList ++ List.replicate (4 - digits.length) '0' ++ digits
  else [c]

def quoted (text : String) : String :=
  String.ofList ('"' :: text.toList.flatMap escapeChar ++ ['"'])

mutual

/-- The compact form of a value. -/
def compact : Json → String
  | .null => "null"
  | .number text => text
  | .string text => quoted text
  | .array items => "[" ++ ",".intercalate (compactItems items) ++ "]"
  | .object fields => "\x7b" ++ ",".intercalate (compactFields fields) ++ "\x7d"

def compactItems : List Json → List String
  | [] => []
  | item :: rest => item.compact :: compactItems rest

def compactFields : List (String × Json) → List String
  | [] => []
  | (name, value) :: rest => (quoted name ++ ":" ++ value.compact) :: compactFields rest

end

def newline (level : Nat) : String := String.ofList ('\n' :: List.replicate (2 * level) ' ')

/-- Lines between brackets; no lines leave the brackets together. -/
def bracketed (level : Nat) (first last : String) (lines : List String) : String :=
  if lines.isEmpty then first ++ last
  else
    first ++ newline (level + 1) ++ ("," ++ newline (level + 1)).intercalate lines ++
      newline level ++ last

mutual

/-- The indented form of a value that stands at a level. -/
def indentedAt (level : Nat) : Json → String
  | .null => "null"
  | .number text => text
  | .string text => quoted text
  | .array items => bracketed level "[" "]" (indentedItems (level + 1) items)
  | .object fields => bracketed level "\x7b" "\x7d" (indentedFields (level + 1) fields)

def indentedItems (level : Nat) : List Json → List String
  | [] => []
  | item :: rest => item.indentedAt level :: indentedItems level rest

def indentedFields (level : Nat) : List (String × Json) → List String
  | [] => []
  | (name, value) :: rest =>
    (quoted name ++ ": " ++ value.indentedAt level) :: indentedFields level rest

end

def indented (value : Json) : String := value.indentedAt 0

end Json

end Phrasebook
