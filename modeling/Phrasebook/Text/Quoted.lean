import Phrasebook.Text.Numeral
import Phrasebook.Text.Unprintable

/-!
# Quoted texts

How a text is shown in messages: between double quotes, with backslashes before quotes and
backslashes, letters for the usual control characters, and codes for what cannot be shown.
-/

namespace Phrasebook.Text

def quoteChar (c : Char) : List Char :=
  if c = '"' then "\\\"".toList
  else if c = '\\' then "\\\\".toList
  else if c = '\n' then "\\n".toList
  else if c = '\r' then "\\r".toList
  else if c = '\t' then "\\t".toList
  else if c.toNat = 0 then "\\0".toList
  else if isUnprintable c then "\\u\x7b".toList ++ hexadecimal c.toNat ++ "\x7d".toList
  else [c]

def quoted (text : String) : String :=
  String.ofList ('"' :: text.toList.flatMap quoteChar ++ ['"'])

end Phrasebook.Text
