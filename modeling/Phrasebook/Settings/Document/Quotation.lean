import Phrasebook.Settings.Document.Layout

/-!
# Texts in settings documents

Texts are basic, with escapes, or literal. Between single marks they stand on one line, between
three marks on several.
-/

namespace Phrasebook.Settings.Document

def readCode (width : Nat) (cs : List Char) : Read Char :=
  let digits := cs.take width
  if digits.length = width then
    ((Text.readUnsigned 16 Text.wordBound digits).toOption.bind Markup.charOfCode?).map
      fun c => (c, cs.drop width)
  else none

def readEscape : List Char → Read Char
  | 'b' :: rest => some ('\x08', rest)
  | 't' :: rest => some ('\t', rest)
  | 'n' :: rest => some ('\n', rest)
  | 'f' :: rest => some ('\x0C', rest)
  | 'r' :: rest => some ('\r', rest)
  | '"' :: rest => some ('"', rest)
  | '\\' :: rest => some ('\\', rest)
  | 'u' :: rest => readCode 4 rest
  | 'U' :: rest => readCode 8 rest
  | _ => none

theorem length_readCode_le {width : Nat} {cs rest : List Char} {c : Char}
    (h : readCode width cs = some (c, rest)) : rest.length ≤ cs.length := by
  unfold readCode at h
  simp only at h
  split at h
  · obtain ⟨d, -, heq⟩ := Option.map_eq_some_iff.1 h
    obtain ⟨-, rfl⟩ := by simpa using heq
    simp
  · simp at h

theorem length_readEscape_le {cs rest : List Char} {c : Char}
    (h : readEscape cs = some (c, rest)) : rest.length ≤ cs.length := by
  unfold readEscape at h
  split at h
  case h_8 => exact Nat.le_succ_of_le (length_readCode_le h)
  case h_9 => exact Nat.le_succ_of_le (length_readCode_le h)
  case h_10 => simp at h
  all_goals
    obtain ⟨-, rfl⟩ := by simpa using h
    simp

def cons (c : Char) (read : Read (List Char)) : Read (List Char) :=
  read.map fun (cs, rest) => (c :: cs, rest)

def readBasic (cs : List Char) : Read (List Char) :=
  match cs with
  | [] => none
  | '"' :: rest => some ([], rest)
  | '\\' :: escape =>
    match _h : readEscape escape with
    | some (c, rest) => cons c (readBasic rest)
    | none => none
  | c :: rest => if isPlain c then cons c (readBasic rest) else none
termination_by cs.length
decreasing_by
  · exact Nat.lt_succ_of_le (length_readEscape_le _h)
  · exact Nat.lt_succ_self _

theorem length_le_of_cons {c : Char} {read : Read (List Char)} {text rest : List Char} {bound : Nat}
    (h : cons c read = some (text, rest))
    (hread : ∀ text, read = some (text, rest) → rest.length ≤ bound) : rest.length ≤ bound := by
  obtain ⟨⟨text', rest'⟩, hsome, heq⟩ := Option.map_eq_some_iff.1 h
  obtain ⟨-, rfl⟩ := by simpa using heq
  exact hread text' hsome

theorem length_readBasic_le {cs text rest : List Char} (h : readBasic cs = some (text, rest)) :
    rest.length ≤ cs.length := by
  fun_induction readBasic cs generalizing text with
  | case1 => simp at h
  | case2 rest' =>
    obtain ⟨-, rfl⟩ := by simpa using h
    simp
  | case3 escape c next hescape ih =>
    refine length_le_of_cons h fun text' hread => ?_
    have := ih hread
    have := length_readEscape_le hescape
    simp only [List.length_cons]
    omega
  | case4 => simp at h
  | case5 c rest' _ _ _ ih =>
    exact length_le_of_cons h fun text' hread => Nat.le_succ_of_le (ih hread)
  | case6 => simp at h

def readLiteral (cs : List Char) : Read (List Char) :=
  let isContent := fun c => isPlain c && c != '\x27'
  match cs.dropWhile isContent with
  | '\x27' :: rest => some (cs.takeWhile isContent, rest)
  | _ => none

theorem length_readLiteral_le {cs text rest : List Char} (h : readLiteral cs = some (text, rest)) :
    rest.length ≤ cs.length := by
  unfold readLiteral at h
  have hdrop := Markup.length_dropWhile_le (fun c => isPlain c && c != '\x27') cs
  simp only at h
  split at h
  · next heq =>
    obtain ⟨-, rfl⟩ := by simpa using h
    rw [heq] at hdrop
    exact Nat.le_of_succ_le hdrop
  · simp at h

/-- The end of a text of several lines, if three quotes or more are next: up to two of them before
the last three belong to the text. -/
def closing? (quote : Char) (cs : List Char) : Read (List Char) :=
  let run := min 5 (cs.takeWhile (· == quote)).length
  if 3 ≤ run then some (List.replicate (run - 3) quote, cs.drop run) else none

theorem length_closing?_le {quote : Char} {cs text rest : List Char}
    (h : closing? quote cs = some (text, rest)) : rest.length ≤ cs.length := by
  unfold closing? at h
  simp only at h
  split at h
  · obtain ⟨-, rfl⟩ := by simpa using h
    simp
  · simp at h

/-- A text of several lines up to its three closing quotes. Line ends are kept as line feeds. With
`escapes`, a backslash at the end of a line takes all space and line ends after it out of the
text. -/
def readMultiline (escapes : Bool) (quote : Char) (cs : List Char) : Read (List Char) :=
  match closing? quote cs with
  | some done => some done
  | none =>
    match _hline : lineEnd? cs with
    | some rest => cons '\n' (readMultiline escapes quote rest)
    | none =>
      match cs with
      | [] => none
      | c :: rest =>
        if escapes && c == '\\' then
          match _hskip : lineEnd? (skipGap rest) with
          | some after => readMultiline escapes quote (skipLines false after)
          | none =>
            match _hescape : readEscape rest with
            | some (c, next) => cons c (readMultiline escapes quote next)
            | none => none
        else if isPlain c then cons c (readMultiline escapes quote rest)
        else none
termination_by cs.length
decreasing_by
  · exact length_lt_of_lineEnd? _hline
  · have := length_lt_of_lineEnd? _hskip
    have := length_skipGap_le rest
    have := length_skipLines_le false after
    simp only [List.length_cons]
    omega
  · exact Nat.lt_succ_of_le (length_readEscape_le _hescape)
  · exact Nat.lt_succ_self _

theorem length_readMultiline_le {escapes : Bool} {quote : Char} {cs text rest : List Char}
    (h : readMultiline escapes quote cs = some (text, rest)) : rest.length ≤ cs.length := by
  fun_induction readMultiline escapes quote cs generalizing text with
  | case1 cs done hclosing => exact length_closing?_le (hclosing.trans h)
  | case2 cs _ next hline ih =>
    refine length_le_of_cons h fun text' hread => ?_
    have := ih hread
    have := length_lt_of_lineEnd? hline
    omega
  | case3 => simp at h
  | case4 c next _ _ after hskip _ ih =>
    have := ih h
    have := length_lt_of_lineEnd? hskip
    have := length_skipGap_le next
    have := length_skipLines_le false after
    simp only [List.length_cons]
    omega
  | case5 c next _ _ _ c' after hescape _ ih =>
    refine length_le_of_cons h fun text' hread => ?_
    have := ih hread
    have := length_readEscape_le hescape
    simp only [List.length_cons]
    omega
  | case6 => simp at h
  | case7 c next _ _ _ _ ih =>
    exact length_le_of_cons h fun text' hread => Nat.le_succ_of_le (ih hread)
  | case8 => simp at h

/-- A text of any kind. A line end right after three opening quotes is no part of it. -/
def readText (cs : List Char) : Read (List Char) :=
  match cs with
  | '"' :: '"' :: '"' :: rest => readMultiline true '"' (dropLineEnd rest)
  | '"' :: rest => readBasic rest
  | '\x27' :: '\x27' :: '\x27' :: rest => readMultiline false '\x27' (dropLineEnd rest)
  | '\x27' :: rest => readLiteral rest
  | _ => none

theorem length_readText_le {cs text rest : List Char} (h : readText cs = some (text, rest)) :
    rest.length ≤ cs.length := by
  unfold readText at h
  split at h
  · next inner =>
    have := length_readMultiline_le h
    have := length_dropLineEnd_le inner
    simp only [List.length_cons]
    omega
  · exact Nat.le_succ_of_le (length_readBasic_le h)
  · next inner =>
    have := length_readMultiline_le h
    have := length_dropLineEnd_le inner
    simp only [List.length_cons]
    omega
  · exact Nat.le_succ_of_le (length_readLiteral_le h)
  · simp at h

end Phrasebook.Settings.Document
