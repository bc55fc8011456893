import Phrasebook.Markup.Reference

/-!
# The layout of settings documents

Space, line ends and comments. A reader takes something from the front of a list of characters and
returns what is left. What is left is never longer than what was there, which is why the loops of
the readers end.
-/

namespace Phrasebook.Settings.Document

/-- What a reader returns: a value and what is left. -/
abbrev Read (α : Type) := Option (α × List Char)

def isGap (c : Char) : Bool := c == ' ' || c == '\t'

/-- A character that may stand in a comment or a text: anything but control characters, and the
tab. -/
def isPlain (c : Char) : Bool := c == '\t' || (0x20 ≤ c.toNat && c.toNat != 0x7F)

def skipGap (cs : List Char) : List Char := cs.dropWhile isGap

def lineEnd? : List Char → Option (List Char)
  | '\n' :: rest => some rest
  | '\r' :: '\n' :: rest => some rest
  | _ => none

def skipComment : List Char → List Char
  | '#' :: rest => rest.dropWhile isPlain
  | cs => cs

theorem length_skipGap_le (cs : List Char) : (skipGap cs).length ≤ cs.length :=
  Markup.length_dropWhile_le isGap cs

theorem length_lt_of_lineEnd? {cs rest : List Char} (h : lineEnd? cs = some rest) :
    rest.length < cs.length := by
  unfold lineEnd? at h
  split at h
  · obtain rfl := by simpa using h
    exact Nat.lt_succ_self _
  · obtain rfl := by simpa using h
    exact Nat.lt_succ_of_lt (Nat.lt_succ_self _)
  · simp at h

theorem length_skipComment_le (cs : List Char) : (skipComment cs).length ≤ cs.length := by
  unfold skipComment
  split
  · exact Nat.le_succ_of_le (Markup.length_dropWhile_le isPlain _)
  · exact Nat.le_refl _

/-- What is left of a line after the space at its front and, if `comments` are allowed, a
comment. -/
def skipBlank (comments : Bool) (cs : List Char) : List Char :=
  if comments then skipComment (skipGap cs) else skipGap cs

theorem length_skipBlank_le (comments : Bool) (cs : List Char) :
    (skipBlank comments cs).length ≤ cs.length := by
  unfold skipBlank
  split
  · exact Nat.le_trans (length_skipComment_le _) (length_skipGap_le cs)
  · exact length_skipGap_le cs

/-- What follows space and line ends, each with a comment before it if `comments` are allowed. -/
def skipLines (comments : Bool) (cs : List Char) : List Char :=
  match _h : lineEnd? (skipBlank comments cs) with
  | some rest => skipLines comments rest
  | none => skipGap cs
termination_by cs.length
decreasing_by exact Nat.lt_of_lt_of_le (length_lt_of_lineEnd? _h) (length_skipBlank_le comments cs)

theorem length_skipLines_le (comments : Bool) (cs : List Char) :
    (skipLines comments cs).length ≤ cs.length := by
  fun_induction skipLines comments cs with
  | case1 cs rest h ih =>
    have := length_lt_of_lineEnd? h
    have := length_skipBlank_le comments cs
    omega
  | case2 cs h => exact length_skipGap_le cs

def dropLineEnd (cs : List Char) : List Char := (lineEnd? cs).getD cs

theorem length_dropLineEnd_le (cs : List Char) : (dropLineEnd cs).length ≤ cs.length := by
  unfold dropLineEnd
  cases h : lineEnd? cs with
  | none => exact Nat.le_refl _
  | some rest => exact Nat.le_of_lt (length_lt_of_lineEnd? h)

end Phrasebook.Settings.Document
