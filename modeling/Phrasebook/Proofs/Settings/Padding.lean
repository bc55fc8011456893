import Phrasebook.Proofs.Settings.Precedence
import Phrasebook.Proofs.Text.Padding

/-!
# Blanks around a setting

Whatever blanks stand around an identifier, the same locale is read from it (`parse?_padded`).
Asking for the source language does not bear them: a blank before `C` or `POSIX` hides that it is
asked for, and one behind does so too unless a suffix stands between (`asksForSource_padded_iff`). A
setting that is hidden in this way is read as a locale whose language is `c` or `posix`.
`padded_eq_iff` says exactly when blanks make a difference, to one setting and to the search among
several.
-/

namespace Phrasebook.Locale

open Text

variable {lead trail setting : String}

/-! ## Reading a locale -/

/-- The setting has an encoding or a modifier. -/
def hasSuffix (setting : String) : Bool := setting.toList.any isSuffixMark

theorem isSuffixMark_of_isBlank {c : Char} (hc : isBlank c = true) : isSuffixMark c = false := by
  refine Bool.eq_false_iff.2 fun hmark => ?_
  obtain rfl | rfl : c = '.' ∨ c = '@' := by simpa [isSuffixMark] using hmark
  · exact absurd hc (by decide)
  · exact absurd hc (by decide)

/-- The stem goes on behind a text exactly where the text has no suffix. -/
theorem stem_append (cs more : List Char) :
    stem (cs ++ more) = stem cs ++ if cs.any isSuffixMark then [] else stem more := by
  induction cs with
  | nil => rfl
  | cons c rest ih =>
    unfold stem at ih ⊢
    by_cases hmark : isSuffixMark c = true
    · rw [List.cons_append, List.takeWhile_cons_of_neg (by simp [hmark]),
        List.takeWhile_cons_of_neg (by simp [hmark]), List.any_cons, hmark]
      rfl
    · rw [List.cons_append, List.takeWhile_cons_of_pos (by simp [hmark]),
        List.takeWhile_cons_of_pos (by simp [hmark]), List.any_cons, Bool.eq_false_iff.2 hmark, ih]
      rfl

theorem stem_of_isPadding {blanks : List Char} (hblanks : IsPadding blanks) :
    stem blanks = blanks := by
  refine List.takeWhile_eq_self_iff.2 fun c hc => ?_
  rw [isSuffixMark_of_isBlank (hblanks c hc)]
  rfl

theorem any_isSuffixMark_of_isPadding {blanks : List Char} (hblanks : IsPadding blanks) :
    blanks.any isSuffixMark = false :=
  List.any_eq_false.2 fun c hc => by simp [isSuffixMark_of_isBlank (hblanks c hc)]

/-- Blanks in front stay in the stem, blanks behind do so where no suffix stands between. -/
theorem stem_padded (hlead : IsPadding lead.toList) (htrail : IsPadding trail.toList)
    (setting : String) :
    stem (lead ++ setting ++ trail).toList =
      lead.toList ++ stem setting.toList ++ if hasSuffix setting then [] else trail.toList := by
  rw [String.toList_append, String.toList_append, List.append_assoc, stem_append, stem_append,
    stem_of_isPadding hlead, any_isSuffixMark_of_isPadding hlead, stem_of_isPadding htrail,
    List.append_assoc]
  rfl

/-- Blanks around an identifier do not change the locale that it names. -/
theorem parse?_padded (hlead : IsPadding lead.toList) (htrail : IsPadding trail.toList)
    (setting : String) :
    parse? (lead ++ setting ++ trail) = parse? setting := by
  have hrest : IsPadding (if hasSuffix setting then [] else trail.toList) := by
    split
    · exact isPadding_nil
    · exact htrail
  simp only [parse?, stem_padded hlead htrail, trim_padded hlead hrest]

theorem parse?_ofList_stem (identifier : String) :
    parse? (String.ofList (stem identifier.toList)) = parse? identifier := by
  simp only [parse?, String.toList_ofList, stem, List.takeWhile_idem]
  rfl

/-! ## Asking for the source language -/

def sourceNames : List String := ["c", "posix"]

theorem isWord_of_mem_sourceNames : ∀ name ∈ sourceNames, IsWord name := by decide

theorem asksForSource_iff : asksForSource setting = true ↔
    ∃ name ∈ sourceNames, (stem setting.toList).map Char.toLower = name.toList := by
  simp [asksForSource, sourceNames]

/-- A setting that asks for the source language has nothing but the name in its stem. -/
theorem isAlphanum_of_asksForSource (hasks : asksForSource setting = true) {c : Char}
    (hc : c ∈ stem setting.toList) : c.isAlphanum = true := by
  obtain ⟨name, hname, hstem⟩ := asksForSource_iff.1 hasks
  have hword := isWord_of_mem_sourceNames name hname
  rw [← @String.ofList_toList name, ← hstem] at hword
  exact hword.isAlphanum_of_lower hc

theorem parse?_of_asksForSource (hasks : asksForSource setting = true) :
    ∃ name ∈ sourceNames, parse? setting = some ⟨name, none⟩ := by
  obtain ⟨name, hname, hstem⟩ := asksForSource_iff.1 hasks
  refine ⟨name, hname, ?_⟩
  have hword : IsWord (String.ofList (stem setting.toList)) := by
    constructor
    · intro hempty
      have hnil : stem setting.toList = [] := by simpa using congrArg String.toList hempty
      rw [hnil] at hstem
      exact (isWord_of_mem_sourceNames name hname).toList_ne_nil hstem.symm
    · intro c hc
      rw [String.toList_ofList] at hc
      exact isAlphanum_of_asksForSource hasks hc
  rw [← parse?_ofList_stem, parse?_word hword, String.toList_ofList, hstem, String.ofList_toList]

/-- Blanks stay clear of the stem of a setting: there are none before it, and those behind it come
after a suffix. -/
def StayClear (lead trail setting : String) : Prop :=
  lead = "" ∧ (trail = "" ∨ hasSuffix setting = true)

instance (lead trail setting : String) : Decidable (StayClear lead trail setting) :=
  inferInstanceAs (Decidable (lead = "" ∧ (trail = "" ∨ hasSuffix setting = true)))

theorem stem_padded_of_stayClear (htrail : IsPadding trail.toList)
    (hclear : StayClear lead trail setting) :
    stem (lead ++ setting ++ trail).toList = stem setting.toList := by
  obtain ⟨rfl, hbehind⟩ := hclear
  have hlead : IsPadding "".toList := isPadding_nil
  rw [stem_padded hlead htrail]
  obtain rfl | hsuffix := hbehind
  · simp
  · simp [hsuffix]

/-- No blank is in the stem of a padded setting that asks for the source language. -/
theorem stayClear_of_asksForSource (hlead : IsPadding lead.toList) (htrail : IsPadding trail.toList)
    (hasks : asksForSource (lead ++ setting ++ trail) = true) : StayClear lead trail setting := by
  have hsolid : IsSolid (stem (lead ++ setting ++ trail).toList) := fun c hc =>
    not_isBlank_of_isAlphanum (isAlphanum_of_asksForSource hasks hc)
  rw [stem_padded hlead htrail, List.append_assoc] at hsolid
  constructor
  · have hnil := eq_nil_of_isPadding hlead hsolid (List.subset_append_left _ _)
    simpa using hnil
  · by_cases hsuffix : hasSuffix setting = true
    · exact .inr hsuffix
    · rw [if_neg hsuffix, ← List.append_assoc] at hsolid
      have hnil := eq_nil_of_isPadding htrail hsolid (List.subset_append_right _ _)
      exact .inl (by simpa using hnil)

/-- A padded setting asks for the source language where the setting does and the blanks stay clear
of its stem. -/
theorem asksForSource_padded_iff (hlead : IsPadding lead.toList) (htrail : IsPadding trail.toList)
    (setting : String) : asksForSource (lead ++ setting ++ trail) = true ↔
      asksForSource setting = true ∧ StayClear lead trail setting := by
  have hsame (hclear : StayClear lead trail setting) :
      asksForSource (lead ++ setting ++ trail) = asksForSource setting := by
    rw [asksForSource, stem_padded_of_stayClear htrail hclear, asksForSource]
  constructor
  · intro hasks
    have hclear := stayClear_of_asksForSource hlead htrail hasks
    exact ⟨(hsame hclear).symm.trans hasks, hclear⟩
  · rintro ⟨hasks, hclear⟩
    exact (hsame hclear).trans hasks

/-! ## The difference that blanks make -/

theorem ofSetting?_of_asksForSource (hasks : asksForSource setting = true) :
    ofSetting? setting = none :=
  if_pos hasks

theorem ofSetting?_of_not_asksForSource (hasks : ¬ asksForSource setting = true) :
    ofSetting? setting = parse? setting := if_neg hasks

/-- Blanks around a setting that does not ask for the source language make no difference. Around one
that does, they make it a locale unless they stay clear of its stem. -/
theorem ofSetting?_padded_iff (hlead : IsPadding lead.toList) (htrail : IsPadding trail.toList)
    (setting : String) : ofSetting? (lead ++ setting ++ trail) = ofSetting? setting ↔
      (asksForSource setting = true → StayClear lead trail setting) := by
  have hpadded := asksForSource_padded_iff hlead htrail setting
  by_cases hasks : asksForSource setting = true
  · rw [ofSetting?_of_asksForSource hasks]
    constructor
    · intro hnone _
      refine Decidable.byContradiction fun hclear => ?_
      obtain ⟨name, -, hlocale⟩ := parse?_of_asksForSource hasks
      rw [ofSetting?_of_not_asksForSource fun h => hclear (hpadded.1 h).2,
        parse?_padded hlead htrail, hlocale] at hnone
      cases hnone
    · intro hclear
      exact ofSetting?_of_asksForSource (hpadded.2 ⟨hasks, hclear hasks⟩)
  · rw [ofSetting?_of_not_asksForSource hasks,
      ofSetting?_of_not_asksForSource fun h => hasks (hpadded.1 h).1, parse?_padded hlead htrail]
    exact iff_of_true rfl fun h => absurd h hasks

/-- A setting decides the search exactly where it can be read: blank ones cannot, and those that ask
for the source language can. -/
theorem isDecisive_eq (setting : String) : isDecisive setting = (parse? setting).isSome := by
  by_cases hblank : trim setting.toList = []
  · have hempty : parse? setting = none := by
      have hnone : IsPadding "".toList := isPadding_nil
      have hpadded := parse?_padded (trim_eq_nil_iff.1 hblank) hnone ""
      rw [String.append_empty, String.append_empty] at hpadded
      rw [hpadded]
      decide
    rw [isDecisive, hblank, hempty]
    rfl
  · have hshown : (trim setting.toList).isEmpty = false := List.isEmpty_eq_false_iff.2 hblank
    rw [isDecisive, hshown]
    by_cases hasks : asksForSource setting = true
    · obtain ⟨name, -, hlocale⟩ := parse?_of_asksForSource hasks
      rw [hlocale, hasks]
      rfl
    · rw [Bool.eq_false_iff.2 hasks]
      rfl

/-- Blanks around one of several settings change the choice among them exactly where no earlier
setting can be read and they change what the setting asks for. -/
theorem locale_select_padded_iff (hlead : IsPadding lead.toList) (htrail : IsPadding trail.toList)
    (setting : String) (before after : List String) :
    (select (before ++ (lead ++ setting ++ trail) :: after)).locale =
        (select (before ++ setting :: after)).locale ↔
      (∃ earlier ∈ before, (parse? earlier).isSome = true) ∨
        ofSetting? (lead ++ setting ++ trail) = ofSetting? setting := by
  have hdecisive : isDecisive (lead ++ setting ++ trail) = isDecisive setting := by
    rw [isDecisive_eq, isDecisive_eq, parse?_padded hlead htrail]
  simp only [← isDecisive_eq]
  rw [locale_select, locale_select, List.find?_append, List.find?_append]
  cases hearlier : before.find? isDecisive with
  | some earlier =>
    rw [Option.some_or, Option.some_or]
    exact iff_of_true rfl
      (.inl ⟨earlier, List.mem_of_find?_eq_some hearlier, List.find?_some hearlier⟩)
  | none =>
    have hnone : ¬ ∃ earlier ∈ before, isDecisive earlier = true := by
      rintro ⟨earlier, hmem, hread⟩
      exact List.find?_eq_none.1 hearlier earlier hmem hread
    rw [Option.none_or, Option.none_or, or_iff_right hnone]
    by_cases hread : isDecisive setting = true
    · rw [List.find?_cons_of_pos (hdecisive.trans hread), List.find?_cons_of_pos hread,
        Option.bind_some, Option.bind_some]
    · -- neither is chosen, and neither asks for anything
      rw [List.find?_cons_of_neg (by rw [hdecisive]; exact hread), List.find?_cons_of_neg hread]
      refine iff_of_true rfl ((ofSetting?_padded_iff hlead htrail setting).2 fun hasks => ?_)
      obtain ⟨name, -, hlocale⟩ := parse?_of_asksForSource hasks
      rw [isDecisive_eq, hlocale] at hread
      exact absurd rfl hread

/-- Blanks around a setting never change the locale that is read from it. They change what is asked
for, and the choice among several settings, exactly where they stand in the stem of a setting that
asks for the source language: that one is then read as a locale. -/
theorem padded_eq_iff (hlead : IsPadding lead.toList) (htrail : IsPadding trail.toList)
    (setting : String) (before after : List String) :
    parse? (lead ++ setting ++ trail) = parse? setting ∧
      (ofSetting? (lead ++ setting ++ trail) = ofSetting? setting ↔
        (asksForSource setting = true → StayClear lead trail setting)) ∧
      ((select (before ++ (lead ++ setting ++ trail) :: after)).locale =
          (select (before ++ setting :: after)).locale ↔
        (∃ earlier ∈ before, (parse? earlier).isSome = true) ∨
          (asksForSource setting = true → StayClear lead trail setting)) ∧
      (asksForSource setting = true → ¬ StayClear lead trail setting →
        ofSetting? setting = none ∧
          ∃ name ∈ sourceNames, ofSetting? (lead ++ setting ++ trail) = some ⟨name, none⟩) := by
  have hsetting := ofSetting?_padded_iff hlead htrail setting
  refine ⟨parse?_padded hlead htrail setting, hsetting, ?_, fun hasks hclear => ?_⟩
  · rw [locale_select_padded_iff hlead htrail, hsetting]
  · obtain ⟨name, hname, hlocale⟩ := parse?_of_asksForSource hasks
    refine ⟨ofSetting?_of_asksForSource hasks, name, hname, ?_⟩
    rw [ofSetting?_of_not_asksForSource
        fun h => hclear ((asksForSource_padded_iff hlead htrail setting).1 h).2,
      parse?_padded hlead htrail, hlocale]

/-- A blank before `C` makes it a locale and the choice among settings, one behind the suffix makes
no difference. -/
theorem padded_eq_iff_source :
    IsPadding " ".toList ∧ asksForSource "C" = true ∧ ¬ StayClear " " "" "C" ∧
      (select ([] ++ (" " ++ "C" ++ "") :: ["pl_PL"])).locale ≠
        (select ([] ++ "C" :: ["pl_PL"])).locale ∧
      ofSetting? ("" ++ "C.UTF-8" ++ " ") = ofSetting? "C.UTF-8" := by
  have hnone : IsPadding "".toList := isPadding_nil
  have hspace : IsPadding " ".toList := by decide
  have hasks : asksForSource "C" = true := by decide
  have hcovers : ¬ StayClear " " "" "C" := by decide
  have hclear : StayClear "" " " "C.UTF-8" := by decide
  obtain ⟨-, -, hbefore, -⟩ := padded_eq_iff hspace hnone "C" [] ["pl_PL"]
  obtain ⟨-, hbehind, -, -⟩ := padded_eq_iff hnone hspace "C.UTF-8" [] []
  refine ⟨hspace, hasks, hcovers, fun hsame => ?_, hbehind.2 fun _ => hclear⟩
  obtain ⟨earlier, hmem, -⟩ | hall := hbefore.1 hsame
  · cases hmem
  · exact hcovers (hall hasks)

/-- So blanks do not pass unnoticed around every setting. -/
theorem not_forall_ofSetting?_padded :
    ¬ ∀ lead trail setting : String, IsPadding lead.toList → IsPadding trail.toList →
      ofSetting? (lead ++ setting ++ trail) = ofSetting? setting := by
  intro h
  have hsame := h " " "" "C" (by decide) isPadding_nil
  revert hsame
  decide

end Phrasebook.Locale
