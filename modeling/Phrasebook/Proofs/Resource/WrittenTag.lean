import Phrasebook.Proofs.Markup.Spelling
import Phrasebook.Proofs.Resource.Meaning
import Phrasebook.Resource.Writer

/-!
# Written tags

A tag is written as the name of an element and attributes with escaped values. Such a tag ends where
it should (`whole_tagOf`), it stands for the element (`kind_tagOf`), and looking up an attribute
finds the first value that was written under its name (`tagValue?_tagOf`).
-/

namespace Phrasebook.Resource

open Markup (IsName IsTag Whole isSpace tagName escape Attribute)

/-! ## Names -/

/-- The name that an element is written under. -/
def Element.written : Element → String
  | .root => "TS"
  | .context => "context"
  | .name => "name"
  | .message => "message"
  | .location => "location"
  | .source => "source"
  | .oldSource => "oldsource"
  | .comment => "comment"
  | .extraComment => "extracomment"
  | .translatorComment => "translatorcomment"
  | .translation => "translation"
  | .form => "numerusform"
  | .byte => "byte"
  | .unknown => "unknown"

theorem Element.isName_written (element : Element) : IsName element.written.toList := by
  cases element <;> decide

theorem Element.ofName_written (element : Element) : ofName element.written.toList = element := by
  cases element <;> decide

namespace Writer

variable {element : Element} {attributes : List (String × String)}

/-! ## Tags -/

/-- The tag of an element with attributes. -/
def tagOf (element : Element) (attributes : List (String × String)) : List Char :=
  element.written.toList ++ attributes.flatMap fun pair => tagAttribute pair.1 pair.2

theorem tagName_tagOf (element : Element) (attributes : List (String × String)) :
    tagName (tagOf element attributes) = element.written.toList := by
  have hletters : ∀ c ∈ element.written.toList, (fun c => !isSpace c) c = true := by
    intro c hc
    simp [element.isName_written.not_space hc]
  unfold tagName tagOf
  rw [List.takeWhile_append_of_pos hletters]
  cases attributes with
  | nil => exact List.append_nil _
  | cons pair rest => exact List.append_nil _

theorem kind_tagOf (element : Element) (attributes : List (String × String)) :
    kind (tagOf element attributes) = element := by
  rw [kind, tagName_tagOf, Element.ofName_written]

theorem drop_tagName_tagOf (element : Element) (attributes : List (String × String)) :
    (tagOf element attributes).drop (tagName (tagOf element attributes)).length =
      attributes.flatMap fun pair => tagAttribute pair.1 pair.2 := by
  rw [tagName_tagOf, tagOf, List.drop_left]

theorem tagAttribute_eq (name value : String) : tagAttribute name value =
    ' ' :: (name.toList ++ '=' :: '"' :: (escape value.toList ++ ['"'])) := by
  simp [tagAttribute]

theorem whole_tagAttribute {name : String} (hname : IsName name.toList) (value : String) :
    Whole (tagAttribute name value) := by
  have hvalue : '"' ∉ escape value.toList := fun hmem =>
    Markup.not_special_of_mem_escape hmem (by decide)
  have hspace : Whole [' '] := Markup.whole_singleton (by decide)
  have hequals : Whole ['='] := Markup.whole_singleton (by decide)
  rw [tagAttribute_eq]
  exact hspace.append (hname.whole.append (hequals.append (Markup.whole_quoted hvalue)))

theorem whole_tagOf (hkeys : ∀ pair ∈ attributes, IsName pair.1.toList) :
    Whole (tagOf element attributes) := by
  refine element.isName_written.whole.append ?_
  induction attributes with
  | nil => exact Markup.whole_nil
  | cons pair rest ih =>
    rw [List.flatMap_cons]
    exact (whole_tagAttribute (hkeys pair List.mem_cons_self) pair.2).append
      (ih fun later hlater => hkeys later (List.mem_cons_of_mem _ hlater))

theorem isTag_tagOf (hkeys : ∀ pair ∈ attributes, IsName pair.1.toList) :
    IsTag (tagOf element attributes) where
  whole := whole_tagOf hkeys
  name := by
    rw [tagName_tagOf]
    exact element.isName_written
  last := by
    rcases List.eq_nil_or_concat attributes with rfl | ⟨before, pair, rfl⟩
    · intro hlast
      rw [tagOf, List.flatMap_nil, List.append_nil] at hlast
      exact element.isName_written.ne (List.mem_of_getLast? hlast) (by decide) rfl
    · have hend : tagOf element (before.concat pair) = tagOf element before ++
          ' ' :: (pair.1.toList ++ '=' :: '"' :: escape pair.2.toList) ++ ['"'] := by
        simp [tagOf, tagAttribute_eq]
      rw [hend, List.getLast?_concat]
      decide

/-! ## Attributes -/

theorem scan_tagAttribute {total : Nat} {first : Char} {letters rest : List Char} {value : String}
    (hname : IsName (first :: letters)) :
    Attribute.scan total first (letters ++ '=' :: '"' :: (escape value.toList ++ '"' :: rest)) =
      .ok ⟨first :: letters, escape value.toList, rest⟩ := by
  have hkey : ∀ c ∈ letters, (fun c => c != '=' && !isSpace c) c = true := by
    intro c hc
    have hmem : c ∈ first :: letters := List.mem_cons_of_mem _ hc
    have hequals : c ≠ '=' := hname.ne hmem (by decide)
    simp [hequals, hname.not_space hmem]
  have hquote : '"' ∉ escape value.toList := fun hmem =>
    Markup.not_special_of_mem_escape hmem (by decide)
  have htake : (letters ++ '=' :: '"' :: (escape value.toList ++ '"' :: rest)).takeWhile
      (fun c => c != '=' && !isSpace c) = letters := by
    rw [List.takeWhile_append_of_pos hkey, List.takeWhile_cons_of_neg (by decide), List.append_nil]
  have hdrop : (letters ++ '=' :: '"' :: (escape value.toList ++ '"' :: rest)).dropWhile
      (fun c => c != '=' && !isSpace c) = '=' :: '"' :: (escape value.toList ++ '"' :: rest) := by
    rw [List.dropWhile_append_of_pos hkey, List.dropWhile_cons_of_neg (by decide)]
  have hskip (c : Char) (cs : List Char) (hc : isSpace c = false) :
      (c :: cs).dropWhile isSpace = c :: cs := List.dropWhile_cons_of_neg (by simp [hc])
  unfold Attribute.scan
  simp only [htake, hdrop, hskip '=' _ (by decide), if_pos]
  unfold Attribute.scanValue
  rw [hskip '"' _ (by decide)]
  simp only [true_or, if_pos, Markup.cutAt_quote hquote]

theorem findFrom_cons {total : Nat} {key cs rest : List Char} {first : Char} {found : Attribute}
    (hskip : cs.dropWhile isSpace = first :: rest)
    (hscan : Attribute.scan total first rest = .ok found) :
    Attribute.findFrom total key cs =
      if found.key = key then .ok (some found.value)
      else Attribute.findFrom total key found.rest := by
  rw [Attribute.findFrom]
  split
  · rename_i hnone
    rw [hskip] at hnone
    cases hnone
  · rename_i hsome
    rw [hskip] at hsome
    cases hsome
    split
    · rename_i hfault
      rw [hscan] at hfault
      cases hfault
    · rename_i hfound
      rw [hscan] at hfound
      cases hfound
      rfl

theorem findFrom_tagAttribute {total : Nat} {name : String} (hname : IsName name.toList)
    (key : List Char) (value : String) (rest : List Char) :
    Attribute.findFrom total key (tagAttribute name value ++ rest) =
      if name.toList = key then .ok (some (escape value.toList))
      else Attribute.findFrom total key rest := by
  obtain ⟨first, letters, hletters⟩ := List.exists_cons_of_ne_nil hname.1
  have hspace : isSpace first = false :=
    hname.not_space (hletters ▸ List.mem_cons_self)
  have hskip : (tagAttribute name value ++ rest).dropWhile isSpace =
      first :: (letters ++ '=' :: '"' :: (escape value.toList ++ '"' :: rest)) := by
    have hsplit : tagAttribute name value ++ rest =
        ' ' :: first :: (letters ++ '=' :: '"' :: (escape value.toList ++ '"' :: rest)) := by
      simp [tagAttribute_eq, hletters]
    rw [hsplit, List.dropWhile_cons_of_pos (by decide),
      List.dropWhile_cons_of_neg (by simp [hspace])]
  rw [hletters] at hname ⊢
  exact findFrom_cons hskip (scan_tagAttribute hname)

theorem findFrom_attributes {total : Nat} (hkeys : ∀ pair ∈ attributes, IsName pair.1.toList)
    (key : String) :
    Attribute.findFrom total key.toList
        (attributes.flatMap fun pair => tagAttribute pair.1 pair.2) =
      .ok ((attributes.lookup key).map fun value => escape value.toList) := by
  induction attributes with
  | nil =>
    rw [List.flatMap_nil, Attribute.findFrom]
    rfl
  | cons pair rest ih =>
    rw [List.flatMap_cons, findFrom_tagAttribute (hkeys pair List.mem_cons_self),
      ih fun later hlater => hkeys later (List.mem_cons_of_mem _ hlater), List.lookup_cons]
    by_cases hkey : pair.1 = key
    · simp [hkey]
    · have hne : pair.1.toList ≠ key.toList := fun h => hkey (String.toList_inj.1 h)
      have hbeq : (key == pair.1) = false := beq_eq_false_iff_ne.2 (Ne.symm hkey)
      rw [if_neg hne, hbeq]

theorem tagValue?_tagOf (hkeys : ∀ pair ∈ attributes, IsName pair.1.toList) (key : String) :
    Reader.tagValue? (tagOf element attributes) key = .ok (attributes.lookup key) := by
  unfold Reader.tagValue? Attribute.value? Attribute.find?
  rw [drop_tagName_tagOf, findFrom_attributes hkeys]
  cases attributes.lookup key with
  | none => rfl
  | some value =>
    simp only [Option.map_some, bind, Except.bind, (Markup.decodes_escape value.toList).unescape_eq,
      String.ofList_toList]
    rfl

theorem attribute?_tagOf (hkeys : ∀ pair ∈ attributes, IsName pair.1.toList) (key : String) :
    attribute? (tagOf element attributes) key = attributes.lookup key := by
  rw [attribute?, tagValue?_tagOf hkeys]
  rfl

theorem tagDecodes_tagOf (hkeys : ∀ pair ∈ attributes, IsName pair.1.toList) :
    TagDecodes (tagOf element attributes) := fun key _ => ⟨_, tagValue?_tagOf hkeys key⟩

end Writer

end Phrasebook.Resource
