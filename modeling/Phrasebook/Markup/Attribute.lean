import Phrasebook.Markup.Event

/-!
# Attributes

A tag is searched for an attribute by name, from the left and only up to the first attribute of that
name: what follows is not looked at. Faults name byte offsets inside the tag.
-/

namespace Phrasebook.Markup

structure Attribute where
  key : List Char
  value : List Char
  rest : List Char
  deriving DecidableEq, Repr

namespace Attribute

/-- Reads the value after an equals sign. A fault names an offset as the length of what is left
there. -/
def scanValue (total : Nat) (key cs : List Char) : Except Fault Attribute :=
  match cs.dropWhile isSpace with
  | [] => .error (.missingValue total)
  | quote :: rest =>
    if quote = '"' ∨ quote = '\x27' then
      match cutAt [quote] rest with
      | some (value, rest) => .ok ⟨key, value, rest⟩
      | none => .error (.unclosedQuote total quote)
    else .error (.unquotedValue (total - Text.byteLength (quote :: rest)))

/-- Reads the attribute at the start of a text, in a tag of `total` bytes. The first character
belongs to the key whatever it is; the key ends before an equals sign or white space. -/
def scan (total : Nat) (first : Char) (cs : List Char) : Except Fault Attribute :=
  let isKeyChar := fun c => c != '=' && !isSpace c
  let key := first :: cs.takeWhile isKeyChar
  match (cs.dropWhile isKeyChar).dropWhile isSpace with
  | [] => .error (.keyWithoutEquals total)
  | c :: rest =>
    if c = '=' then scanValue total key rest
    else .error (.keyWithoutEquals (total - Text.byteLength (c :: rest)))

theorem length_scanValue_le {total : Nat} {key cs : List Char} {found : Attribute}
    (h : scanValue total key cs = .ok found) : found.rest.length ≤ cs.length := by
  unfold scanValue at h
  have hdrop := length_dropWhile_le isSpace cs
  split at h
  · simp at h
  · next heq =>
    rw [heq] at hdrop
    split at h
    · split at h
      · next hcut =>
        obtain rfl := by simpa using h
        have := length_cutAt_le hcut
        simp at hdrop ⊢
        omega
      · simp at h
    · simp at h

theorem length_scan_le {total : Nat} {first : Char} {cs : List Char} {found : Attribute}
    (h : scan total first cs = .ok found) : found.rest.length ≤ cs.length := by
  unfold scan at h
  have hkey := length_dropWhile_le (fun c => c != '=' && !isSpace c) cs
  have hdrop := length_dropWhile_le isSpace (cs.dropWhile fun c => c != '=' && !isSpace c)
  simp only at h
  split at h
  · simp at h
  · next heq =>
    rw [heq] at hdrop
    split at h
    · have := length_scanValue_le h
      simp at hdrop
      omega
    · simp at h

def findFrom (total : Nat) (key : List Char) (cs : List Char) : Except Fault (Option (List Char)) :=
  match _hskip : cs.dropWhile isSpace with
  | [] => .ok none
  | first :: rest =>
    match _hscan : scan total first rest with
    | .error fault => .error fault
    | .ok found =>
      if found.key = key then .ok (some found.value)
      else findFrom total key found.rest
termination_by cs.length
decreasing_by
  have hle := length_scan_le _hscan
  have hdrop := length_dropWhile_le isSpace cs
  rw [_hskip] at hdrop
  simp at hdrop
  omega

/-- The written value of the first attribute of a tag with a name. -/
def find? (tag : List Char) (key : String) : Except Fault (Option (List Char)) :=
  findFrom (Text.byteLength tag) key.toList (tag.drop (tagName tag).length)

def value? (tag : List Char) (key : String) : Except Fault (Option String) := do
  match ← find? tag key with
  | none => pure none
  | some written => pure (some (String.ofList (← unescape written)))

end Attribute

end Phrasebook.Markup
