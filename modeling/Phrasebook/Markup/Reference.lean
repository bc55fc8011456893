import Phrasebook.Markup.Fault
import Phrasebook.Text.Blank

/-!
# References

Written text stands for five characters by name and for any character by number. `escape` writes the
five names where they are needed, `unescape` reads names and numbers back, from the left and up to
the first fault.
-/

namespace Phrasebook.Markup

/-- The written form of a character. -/
def escapeChar (c : Char) : List Char :=
  if c = '<' then "&lt;".toList
  else if c = '>' then "&gt;".toList
  else if c = '&' then "&amp;".toList
  else if c = '\x27' then "&apos;".toList
  else if c = '"' then "&quot;".toList
  else [c]

def escape (cs : List Char) : List Char := cs.flatMap escapeChar

/-- The character that a name stands for. -/
def namedChar? (name : List Char) : Option Char :=
  if name = "lt".toList then some '<'
  else if name = "gt".toList then some '>'
  else if name = "amp".toList then some '&'
  else if name = "apos".toList then some '\x27'
  else if name = "quot".toList then some '"'
  else none

/-- The character with a code, if it is a Unicode scalar value. -/
def charOfCode? (code : Nat) : Option Char :=
  if h : code.isValidChar then some (Char.ofNatAux code h) else none

/-- The code that the digits of a character reference name; signs are refused. -/
def readCode (base : Nat) (digits : List Char) : Except ReferenceFault Nat :=
  match digits with
  | '+' :: _ | '-' :: _ => .error .sign
  | _ =>
    match Text.readUnsigned base Text.wordBound digits with
    | .ok code => .ok code
    | .error fault => .error (.numeral fault)

def readCharRef (digits : List Char) : Except ReferenceFault Char := do
  let code ← match digits with
    | 'x' :: hex => readCode 16 hex
    | _ => readCode 10 digits
  if code = 0 then throw .zero
  match charOfCode? code with
  | some c => pure c
  | none => throw (.notCharacter code)

/-- The character that a reference stands for, given what is between its ampersand, at a byte
offset, and its semicolon. -/
def resolve (offset : Nat) (name : List Char) : Except Fault Char :=
  match name with
  | '#' :: digits => (readCharRef digits).mapError .badReference
  | _ =>
    match namedChar? name with
    | some c => .ok c
    | none =>
      .error (.unknownEntity (offset + 1) (offset + 1 + Text.byteLength name) (String.ofList name))

/-- Ends the search for the end of a reference. -/
def isReferenceMark (c : Char) : Bool := c == '&' || c == ';'

theorem length_dropWhile_le (p : Char → Bool) (cs : List Char) :
    (cs.dropWhile p).length ≤ cs.length :=
  (List.dropWhile_sublist p).length_le

/-- Does the work of `unescape` from a byte offset on, for a text of `total` bytes. -/
def unescapeFrom (total : Nat) (offset : Nat) : List Char → Except Fault (List Char)
  | [] => .ok []
  | c :: cs =>
    if c = '&' then
      let name := cs.takeWhile fun c => !isReferenceMark c
      match h : cs.dropWhile fun c => !isReferenceMark c with
      | ';' :: rest => do
        let character ← resolve offset name
        let later ← unescapeFrom total (offset + Text.byteLength name + 2) rest
        pure (character :: later)
      | _ => .error (.unterminatedReference offset total)
    else do
      let later ← unescapeFrom total (offset + c.utf8Size) cs
      pure (c :: later)
termination_by cs => cs.length
decreasing_by
  · have := length_dropWhile_le (fun c => !isReferenceMark c) cs
    simp_all
    omega
  · exact Nat.lt_succ_self _

/-- The text that a written text stands for. -/
def unescape (cs : List Char) : Except Fault (List Char) :=
  unescapeFrom (Text.byteLength cs) 0 cs

end Phrasebook.Markup
