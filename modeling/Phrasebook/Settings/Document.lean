import Phrasebook.Settings.Document.Quotation

/-!
# Settings documents

A settings document is a list of lines `key = value`, with comments after a number sign. A key is
bare or quoted; a value is a text or a list of texts. Tables, numbers, dates and truth values do not
occur in settings, so a document that holds any of them is refused like one that is malformed.
-/

namespace Phrasebook.Settings.Document

inductive Value where
  | text (value : String)
  | list (items : List String)
  deriving DecidableEq, Repr

def isKeyChar (c : Char) : Bool := c.isAlphanum || c == '_' || c == '-'

/-- The items of a list, from after its opening bracket. A comma may follow the last one. -/
def readItems (cs : List Char) : Read (List String) :=
  match skipLines true cs with
  | ']' :: rest => some ([], rest)
  | _ =>
    match _htext : readText (skipLines true cs) with
    | none => none
    | some (text, after) =>
      match _hafter : skipLines true after with
      | ']' :: rest => some ([String.ofList text], rest)
      | ',' :: rest =>
        (readItems rest).map fun (items, rest) => (String.ofList text :: items, rest)
      | _ => none
termination_by cs.length
decreasing_by
  have := length_readText_le _htext
  have := length_skipLines_le true cs
  have := length_skipLines_le true after
  simp only [_hafter, List.length_cons] at this
  omega

theorem length_readItems_le {cs rest : List Char} {items : List String}
    (h : readItems cs = some (items, rest)) : rest.length ≤ cs.length := by
  fun_induction readItems cs generalizing items with
  | case1 cs next hskip =>
    obtain ⟨-, rfl⟩ := by simpa using h
    have := length_skipLines_le true cs
    simp only [hskip, List.length_cons] at this
    omega
  | case2 => simp at h
  | case3 cs text after htext next hafter _ =>
    obtain ⟨-, rfl⟩ := by simpa using h
    have := length_readText_le htext
    have := length_skipLines_le true cs
    have := length_skipLines_le true after
    simp only [hafter, List.length_cons] at this
    omega
  | case4 cs text after htext next hafter _ ih =>
    obtain ⟨⟨items', rest'⟩, hread, heq⟩ := Option.map_eq_some_iff.1 h
    obtain ⟨-, rfl⟩ := by simpa using heq
    have := ih hread
    have := length_readText_le htext
    have := length_skipLines_le true cs
    have := length_skipLines_le true after
    simp only [hafter, List.length_cons] at this
    omega
  | case5 => simp at h

def readValue : List Char → Read Value
  | '[' :: rest => (readItems rest).map fun (items, rest) => (.list items, rest)
  | cs => (readText cs).map fun (text, rest) => (.text (String.ofList text), rest)

theorem length_readValue_le {cs rest : List Char} {value : Value}
    (h : readValue cs = some (value, rest)) : rest.length ≤ cs.length := by
  unfold readValue at h
  split at h
  · obtain ⟨⟨items, rest'⟩, hread, heq⟩ := Option.map_eq_some_iff.1 h
    obtain ⟨-, rfl⟩ := by simpa using heq
    exact Nat.le_succ_of_le (length_readItems_le hread)
  · obtain ⟨⟨text, rest'⟩, hread, heq⟩ := Option.map_eq_some_iff.1 h
    obtain ⟨-, rfl⟩ := by simpa using heq
    exact length_readText_le hread

def readKey (cs : List Char) : Read String :=
  match cs with
  | '"' :: rest => (readBasic rest).map fun (key, rest) => (String.ofList key, rest)
  | '\x27' :: rest => (readLiteral rest).map fun (key, rest) => (String.ofList key, rest)
  | _ =>
    let key := cs.takeWhile isKeyChar
    if key.isEmpty then none else some (String.ofList key, cs.dropWhile isKeyChar)

theorem length_readKey_le {cs rest : List Char} {key : String}
    (h : readKey cs = some (key, rest)) : rest.length ≤ cs.length := by
  unfold readKey at h
  split at h
  · obtain ⟨⟨text, rest'⟩, hread, heq⟩ := Option.map_eq_some_iff.1 h
    obtain ⟨-, rfl⟩ := by simpa using heq
    exact Nat.le_succ_of_le (length_readBasic_le hread)
  · obtain ⟨⟨text, rest'⟩, hread, heq⟩ := Option.map_eq_some_iff.1 h
    obtain ⟨-, rfl⟩ := by simpa using heq
    exact Nat.le_succ_of_le (length_readLiteral_le hread)
  · simp only at h
    split at h
    · simp at h
    · obtain ⟨-, rfl⟩ := by simpa using h
      exact Markup.length_dropWhile_le isKeyChar cs

/-- What follows the equals sign after a key, and the space around it. -/
def readEquals (cs : List Char) : Option (List Char) :=
  match skipGap cs with
  | '=' :: rest => some (skipGap rest)
  | _ => none

theorem length_readEquals_le {cs rest : List Char} (h : readEquals cs = some rest) :
    rest.length ≤ cs.length := by
  unfold readEquals at h
  have hgap := length_skipGap_le cs
  split at h
  · next next heq =>
    obtain rfl := by simpa using h
    have := length_skipGap_le next
    simp only [heq, List.length_cons] at hgap
    omega
  · simp at h

def readEntry (cs : List Char) : Option ((String × Value) × List Char) := do
  let (key, rest) ← readKey cs
  let (value, rest) ← readValue (← readEquals rest)
  pure ((key, value), rest)

theorem length_readEntry_le {cs rest : List Char} {entry : String × Value}
    (h : readEntry cs = some (entry, rest)) : rest.length ≤ cs.length := by
  simp only [readEntry, Option.bind_eq_bind, Option.bind_eq_some_iff] at h
  obtain ⟨⟨key, afterKey⟩, hkey, afterEquals, hequals, ⟨value, afterValue⟩, hvalue, heq⟩ := h
  obtain ⟨-, rfl⟩ := by simpa using heq
  exact Nat.le_trans (length_readValue_le hvalue)
    (Nat.le_trans (length_readEquals_le hequals) (length_readKey_le hkey))

/-- The entry of a line, if the line has one, and what is left of the line after its comment. -/
def readLine (cs : List Char) : Read (Option (String × Value)) :=
  let line := skipGap cs
  match line with
  | [] | '#' :: _ | '\n' :: _ | '\r' :: _ => some (none, skipComment line)
  | _ => (readEntry line).map fun (entry, rest) => (some entry, skipComment (skipGap rest))

theorem length_readLine_le {cs rest : List Char} {entry : Option (String × Value)}
    (h : readLine cs = some (entry, rest)) : rest.length ≤ cs.length := by
  have hgap := length_skipGap_le cs
  have hblank : (skipComment (skipGap cs)).length ≤ cs.length :=
    Nat.le_trans (length_skipComment_le _) hgap
  unfold readLine at h
  simp only at h
  split at h
  case h_5 =>
    obtain ⟨⟨entry', after⟩, hread, heq⟩ := Option.map_eq_some_iff.1 h
    obtain ⟨-, rfl⟩ := by simpa using heq
    have := length_readEntry_le hread
    have := length_skipGap_le after
    have := length_skipComment_le (skipGap after)
    omega
  all_goals
    obtain ⟨-, rfl⟩ := by simpa using h
    simpa [*] using hblank

def readEntries (cs : List Char) : Option (List (String × Value)) :=
  match _hread : readLine cs with
  | none => none
  | some (entry, left) =>
    if left.isEmpty then some entry.toList
    else
      match _hline : lineEnd? left with
      | none => none
      | some next => (readEntries next).map (entry.toList ++ ·)
termination_by cs.length
decreasing_by exact Nat.lt_of_lt_of_le (length_lt_of_lineEnd? _hline) (length_readLine_le _hread)

/-- The entries of a document. A byte order mark at the very start is skipped. -/
def entries? (text : String) : Option (List (String × Value)) :=
  match text.toList with
  | '\uFEFF' :: cs => readEntries cs
  | cs => readEntries cs

end Phrasebook.Settings.Document
