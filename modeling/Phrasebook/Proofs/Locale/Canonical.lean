import Phrasebook.Proofs.Locale.Names
import Phrasebook.Proofs.Text.Padding

/-!
# Canonical locales

A locale that was read is canonical: its language is a word in lower case, its region one in upper
case. Such a locale is read back from its name and its language from the bare language
(`parse?_name`), so every resource name of a locale is the name of a locale in this language
(`exists_name_of_mem_resourceNames`).
-/

namespace Phrasebook.Locale

/-- The language is a word in lower case and the region, where there is one, a word in upper
case. -/
structure IsCanonical (locale : Locale) : Prop where
  language : IsWord locale.language
  lower : ∀ c ∈ locale.language.toList, c.toLower = c
  region : ∀ region ∈ locale.region, IsWord region
  upper : ∀ region ∈ locale.region, ∀ c ∈ region.toList, c.toUpper = c

variable {identifier : String} {locale : Locale}

theorem case_fixed {c : Char} (hc : c.isAlphanum = true) :
    c.toLower.toLower = c.toLower ∧ c.toUpper.toUpper = c.toUpper := by
  refine of_isAlphanum hc ?_
  decide

/-- The parts of an identifier give the language in lower case and the region in upper case. -/
theorem case_of_ofParts? {cs : List Char} (hcs : cs.all isAllowed = true)
    (hlocale : ofParts? (parts cs) = some locale) :
    (∀ c ∈ locale.language.toList, c.toLower = c) ∧
      ∀ region ∈ locale.region, ∀ c ∈ region.toList, c.toUpper = c := by
  unfold ofParts? at hlocale
  split at hlocale
  · cases hlocale
  · rename_i language rest hparts
    cases hlocale
    constructor
    · intro c hc
      rw [String.toList_ofList] at hc
      obtain ⟨old, hold, rfl⟩ := List.mem_map.1 hc
      have hpart : language ∈ parts cs := by rw [hparts]; exact List.mem_cons_self
      exact (case_fixed (isAlphanum_of_mem_parts hcs hpart hold)).1
    · intro region hregion c hc
      obtain ⟨part, hhead, rfl⟩ := Option.map_eq_some_iff.1 hregion
      rw [String.toList_ofList] at hc
      obtain ⟨old, hold, rfl⟩ := List.mem_map.1 hc
      have hpart : part ∈ parts cs := by
        rw [hparts]; exact List.mem_cons_of_mem _ (List.mem_of_head? hhead)
      exact (case_fixed (isAlphanum_of_mem_parts hcs hpart hold)).2

theorem isCanonical_of_parse? (hlocale : parse? identifier = some locale) : locale.IsCanonical := by
  obtain ⟨hlanguage, hregion⟩ := isWord_of_parse? hlocale
  have hcase : (∀ c ∈ locale.language.toList, c.toLower = c) ∧
      ∀ region ∈ locale.region, ∀ c ∈ region.toList, c.toUpper = c := by
    simp only [parse?] at hlocale
    split at hlocale
    · rename_i hallowed
      exact case_of_ofParts? hallowed hlocale
    · cases hlocale
  exact ⟨hlanguage, hcase.1, hregion, hcase.2⟩

/-! ## Reading a name -/

theorem isAllowed_of_isAlphanum {c : Char} (hc : c.isAlphanum = true) : isAllowed c = true := by
  rw [isAllowed, hc, Bool.true_or]

/-- What an identifier may hold before its suffix is neither blank nor starts the suffix. -/
theorem not_blank_of_isAllowed {c : Char} (hc : isAllowed c = true) :
    Text.isBlank c = false ∧ isSuffixMark c = false := by
  obtain hword | hseparator := Bool.or_eq_true_iff.1 hc
  · refine of_isAlphanum hword ?_
    decide
  · obtain hlow | hdash := Bool.or_eq_true_iff.1 hseparator
    · rw [eq_of_beq hlow]
      decide
    · rw [eq_of_beq hdash]
      decide

theorem not_isBlank_of_isAlphanum {c : Char} (hc : c.isAlphanum = true) : Text.isBlank c = false :=
  (not_blank_of_isAllowed (isAllowed_of_isAlphanum hc)).1

/-- An identifier of allowed characters alone is read part by part. -/
theorem parse?_of_allowed (hallowed : ∀ c ∈ identifier.toList, isAllowed c = true) :
    parse? identifier = ofParts? (parts identifier.toList) := by
  have hstem : stem identifier.toList = identifier.toList := by
    have hkeep : ∀ c ∈ identifier.toList, (!isSuffixMark c) = true := by
      intro c hc
      rw [(not_blank_of_isAllowed (hallowed c hc)).2]
      rfl
    rw [stem, List.takeWhile_eq_self_iff.2 hkeep]
  have htrim : Text.trim identifier.toList = identifier.toList :=
    Text.trim_of_solid fun c hc => (not_blank_of_isAllowed (hallowed c hc)).1
  simp only [parse?, hstem, htrim, List.all_eq_true.2 hallowed, if_true]

theorem splitOnP_of_isWord {word : String} (hword : IsWord word) :
    word.toList.splitOnP isSeparator = [word.toList] := by
  refine List.splitOnP_eq_singleton fun c hc => ?_
  refine of_isAlphanum (hword.2 c hc) ?_
  decide

theorem IsWord.allowed {word : String} (hword : IsWord word) {c : Char} (hc : c ∈ word.toList) :
    isAllowed c = true := isAllowed_of_isAlphanum (hword.2 c hc)

theorem IsWord.toList_ne_nil {word : String} (hword : IsWord word) : word.toList ≠ [] := by
  simpa using hword.1

theorem ofList_map_of_fixed {text : String} {change : Char → Char}
    (hfixed : ∀ c ∈ text.toList, change c = c) : String.ofList (text.toList.map change) = text := by
  rw [List.map_congr_left hfixed, List.map_id', String.ofList_toList]

theorem parse?_word {word : String} (hword : IsWord word) :
    parse? word = some ⟨String.ofList (word.toList.map Char.toLower), none⟩ := by
  have hparts : parts word.toList = [word.toList] := by
    simp [parts, splitOnP_of_isWord hword, hword.toList_ne_nil]
  rw [parse?_of_allowed fun c hc => hword.allowed hc, hparts, ofParts?]
  rfl

theorem parse?_language {language : String} (hword : IsWord language)
    (hlower : ∀ c ∈ language.toList, c.toLower = c) : parse? language = some ⟨language, none⟩ := by
  rw [parse?_word hword, ofList_map_of_fixed hlower]

theorem IsCanonical.parse?_name (hlocale : locale.IsCanonical) :
    parse? locale.name = some locale := by
  obtain ⟨language, _ | region⟩ := locale
  · exact parse?_language hlocale.language hlocale.lower
  · have hlanguage : IsWord language := hlocale.language
    have hregion : IsWord region := hlocale.region region rfl
    have hname :
        (name ⟨language, some region⟩).toList = language.toList ++ '_' :: region.toList := by
      simp [name]
    have hallowed : ∀ c ∈ (name ⟨language, some region⟩).toList, isAllowed c = true := by
      rw [hname]
      simp only [List.mem_append, List.mem_cons]
      rintro c (hc | rfl | hc)
      · exact hlanguage.allowed hc
      · decide
      · exact hregion.allowed hc
    have hparts :
        parts (name ⟨language, some region⟩).toList = [language.toList, region.toList] := by
      rw [hname, parts, List.splitOnP_append_cons _ _ (by decide), splitOnP_of_isWord hlanguage,
        splitOnP_of_isWord hregion]
      simp [hlanguage.toList_ne_nil, hregion.toList_ne_nil]
    rw [parse?_of_allowed hallowed, hparts, ofParts?, List.head?_cons, Option.map_some,
      ofList_map_of_fixed hlocale.lower, ofList_map_of_fixed (hlocale.upper region rfl)]

theorem parse?_name (hlocale : parse? identifier = some locale) :
    parse? locale.name = some locale :=
  (isCanonical_of_parse? hlocale).parse?_name

/-! ## Resource names -/

/-- Each resource name of a locale is the name of a locale in the same language. -/
theorem exists_name_of_mem_resourceNames (hlocale : parse? identifier = some locale)
    {candidate : String} (hcandidate : candidate ∈ locale.resourceNames) :
    ∃ named, parse? candidate = some named ∧ named.name = candidate ∧
      named.language = locale.language := by
  have hcanonical := isCanonical_of_parse? hlocale
  have hlanguage : parse? locale.language = some ⟨locale.language, none⟩ :=
    parse?_language hcanonical.language hcanonical.lower
  unfold resourceNames at hcandidate
  split at hcandidate
  · obtain rfl | hbare := List.mem_cons.1 hcandidate
    · exact ⟨locale, hcanonical.parse?_name, rfl, rfl⟩
    · rw [List.mem_singleton.1 hbare]
      exact ⟨_, hlanguage, rfl, rfl⟩
  · rw [List.mem_singleton.1 hcandidate]
    exact ⟨_, hlanguage, rfl, rfl⟩

theorem isSome_of_mem_resourceNames (hlocale : parse? identifier = some locale) {candidate : String}
    (hcandidate : candidate ∈ locale.resourceNames) : (parse? candidate).isSome = true := by
  obtain ⟨named, hnamed, -, -⟩ := exists_name_of_mem_resourceNames hlocale hcandidate
  exact Option.isSome_of_eq_some hnamed

theorem head?_resourceNames (locale : Locale) : locale.resourceNames.head? = some locale.name := by
  obtain ⟨language, _ | region⟩ := locale <;> rfl

theorem getLast?_resourceNames (locale : Locale) :
    locale.resourceNames.getLast? = some locale.language := by
  obtain ⟨language, _ | region⟩ := locale <;> rfl

/-- A name with a region is longer than its language. -/
theorem nodup_resourceNames (locale : Locale) : locale.resourceNames.Nodup := by
  obtain ⟨language, _ | region⟩ := locale
  · exact List.pairwise_singleton _ _
  · have hne : name ⟨language, some region⟩ ≠ language := by
      intro hsame
      have hlength := congrArg String.length hsame
      have hmark : "_".length = 1 := rfl
      simp only [name, String.length_append] at hlength
      omega
    exact List.nodup_cons.2
      ⟨fun hmem => hne (List.mem_singleton.1 hmem), List.pairwise_singleton _ _⟩

end Phrasebook.Locale
