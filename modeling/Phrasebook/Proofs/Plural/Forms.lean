import Phrasebook.Proofs.Catalog.Lookup

/-!
# The form for a count

A rule keeps one form for each of its categories, so the category of a count always has a place
among the forms, and only one (`idxOf?_category`, `getElem?_forms_eq_some_iff`). No place is kept in
vain: a count up to a hundred leads to each of them (`exists_position_eq`). A message with a form
for every category is therefore always shown in the form of the count's category, and the last form
never stands in for another one (`pluralTemplate_of_forms`).
-/

namespace Phrasebook

namespace Plural.Rule

variable {rule : Rule}

/-! ## Categories and places -/

theorem nodup_forms (rule : Rule) : rule.forms.Nodup := by
  cases rule <;> decide

theorem categoryOfNat_mem_forms (rule : Rule) (n : Nat) : rule.categoryOfNat n ∈ rule.forms := by
  cases rule with
  | cjk => exact List.mem_cons_self
  | english | french =>
    unfold categoryOfNat
    dsimp only
    split <;> decide
  | russian | polish =>
    unfold categoryOfNat
    dsimp only
    split
    · decide
    · split <;> decide
  | arabic =>
    unfold categoryOfNat
    dsimp only
    split_ifs <;> decide

/-- The category of a count is found among the forms, at the position of the count. -/
theorem idxOf?_category (rule : Rule) (count : Int) :
    rule.forms.idxOf? (rule.category count) = some (rule.position count) := by
  obtain ⟨slot, hslot⟩ := Option.isSome_iff_exists.1
    (List.isSome_idxOf?.2 (rule.categoryOfNat_mem_forms count.natAbs))
  rw [position, category, hslot, Option.getD_some]

/-- The position of a count is the only place for its category. -/
theorem getElem?_forms_eq_some_iff (count : Int) (slot : Nat) :
    rule.forms[slot]? = some (rule.category count) ↔ slot = rule.position count := by
  obtain ⟨hlt, hcategory, -⟩ := List.idxOf?_eq_some_iff.1 (rule.idxOf?_category count)
  have hposition : rule.forms[rule.position count]? = some (rule.category count) := by
    rw [List.getElem?_eq_getElem hlt, hcategory]
  constructor
  · intro hslot
    obtain ⟨hbound, -⟩ := List.getElem?_eq_some_iff.1 hslot
    exact (List.getElem?_inj hbound rule.nodup_forms).1 (hslot.trans hposition.symm)
  · rintro rfl
    exact hposition

/-! ## No place in vain -/

/-- A count for each category. It fits every rule that has the category. -/
def sample : Category → Nat
  | .zero => 0
  | .one => 1
  | .two => 2
  | .few => 3
  | .many => 11
  | .other => 100

theorem categoryOfNat_sample {category : Category} (hcategory : category ∈ rule.forms) :
    rule.categoryOfNat (sample category) = category := by
  revert hcategory
  cases rule <;> cases category <;> decide

theorem exists_position_eq {slot : Nat} (hslot : slot < rule.forms.length) :
    ∃ n ≤ 100, rule.position (n : Nat) = slot := by
  refine ⟨sample rule.forms[slot], ?_, ?_⟩
  · cases rule.forms[slot] <;> decide
  · have hcategory : rule.category (sample rule.forms[slot] : Nat) = rule.forms[slot] :=
      categoryOfNat_sample (List.getElem_mem hslot)
    symm
    rw [← getElem?_forms_eq_some_iff, hcategory, List.getElem?_eq_getElem hslot]

/-! ## The form of a category -/

/-- The form that a list of forms has for a category. -/
def formOf? (rule : Rule) (texts : List String) (category : Category) : Option String :=
  (rule.forms.zip texts).lookup category

theorem lookup_zip {α β : Type} [BEq α] [LawfulBEq α] {keys : List α} (hkeys : keys.Nodup)
    {slot : Nat} {key : α} (hkey : keys[slot]? = some key) (values : List β) :
    (keys.zip values).lookup key = values[slot]? := by
  induction keys generalizing slot values with
  | nil => cases hkey
  | cons first rest ih =>
    cases values with
    | nil => rfl
    | cons value values =>
      cases slot with
      | zero =>
        obtain rfl : first = key := by simpa using hkey
        rw [List.zip_cons_cons, List.lookup_cons_self]
        rfl
      | succ slot =>
        have hne : key ≠ first := by
          rintro rfl
          exact (List.nodup_cons.1 hkeys).1 (List.mem_of_getElem? hkey)
        rw [List.zip_cons_cons, List.lookup_cons, beq_false_of_ne hne]
        exact ih (List.nodup_cons.1 hkeys).2 hkey values

/-- The form for the category of a count stands at the position of the count. -/
theorem formOf?_category (rule : Rule) (texts : List String) (count : Int) :
    rule.formOf? texts (rule.category count) = texts[rule.position count]? :=
  lookup_zip rule.nodup_forms ((getElem?_forms_eq_some_iff count _).2 rfl) texts

theorem category_natAbs (rule : Rule) (count : Int) :
    rule.category count = rule.category (count.natAbs : Int) := by
  rw [category, category, Int.natAbs_natCast]

example : category .russian (-9223372036854775808) = .many := by decide

end Plural.Rule

/-! ## Requests -/

namespace Catalog

open Plural

variable {catalog : Catalog} {context source : String} {disambiguation : Option String}
  {message : Message} {texts : List String}

/-- Among enough forms there is one for each category, and the last one is not asked for. -/
theorem exists_formOf? {rule : Rule} (hlength : rule.forms.length ≤ texts.length) (count : Int) :
    ∃ form, rule.formOf? texts (rule.category count) = some form ∧
      form? rule count (.forms texts) = if form = "" then none else some form := by
  have hslot : rule.position count < texts.length := by
    obtain ⟨hlt, -⟩ := List.idxOf?_eq_some_iff.1 (rule.idxOf?_category count)
    exact Nat.lt_of_lt_of_le hlt hlength
  refine ⟨texts[rule.position count], ?_, ?_⟩
  · rw [Rule.formOf?_category, List.getElem?_eq_getElem hslot]
  · rw [form?, List.getElem?_eq_getElem hslot, Option.some_or, Option.filter_some]
    by_cases hempty : texts[rule.position count] = "" <;> simp [hempty]

/-- A request with a count for a message with enough forms is answered in the form for the category
of the count, or by the source text where this form is empty. -/
theorem pluralTemplate_of_forms
    (hpresented : catalog.presented? context source disambiguation = some message)
    (htranslation : message.translation = .forms texts)
    (hlength : catalog.pluralRule.forms.length ≤ texts.length) (count : Int) :
    ∃ form, catalog.pluralRule.formOf? texts (catalog.pluralRule.category count) = some form ∧
      catalog.pluralTemplate context source disambiguation count =
        if form = "" then source else form := by
  obtain ⟨form, hform, hchosen⟩ := exists_formOf? hlength count
  refine ⟨form, hform, ?_⟩
  rw [pluralTemplate, hpresented, Option.bind_some, htranslation, hchosen]
  split <;> rfl

end Catalog

namespace Plural.Rule

/-- The position of a count is the one place of its category among the forms, and depends on the
size of the count alone. Each place is the position of some count. Where a message has a form for
every category, a request with a count is answered in the form of its category, or by the source
text where this form is empty. -/
theorem position_exact (rule : Rule) :
    (∀ count : Int, rule.forms.idxOf? (rule.category count) = some (rule.position count) ∧
      (∀ slot, rule.forms[slot]? = some (rule.category count) ↔ slot = rule.position count) ∧
      rule.category count = rule.category (count.natAbs : Int)) ∧
    (∀ slot < rule.forms.length, ∃ n ≤ 100, rule.position (n : Nat) = slot) ∧
    ∀ (catalog : Catalog) (context source : String) (disambiguation : Option String)
      (message : Message) (texts : List String), catalog.pluralRule = rule →
        catalog.presented? context source disambiguation = some message →
          message.translation = .forms texts → rule.forms.length ≤ texts.length → ∀ count : Int,
            ∃ form, rule.formOf? texts (rule.category count) = some form ∧
              catalog.pluralTemplate context source disambiguation count =
                (if form = "" then source else form) ∧
              catalog.translateCounted context source disambiguation count =
                Template.withCount (if form = "" then source else form) count := by
  refine ⟨fun count => ⟨rule.idxOf?_category count, getElem?_forms_eq_some_iff count,
    rule.category_natAbs count⟩, fun slot => exists_position_eq, ?_⟩
  rintro catalog context source disambiguation message texts rfl hpresented htranslation
    hlength count
  obtain ⟨form, hform, htemplate⟩ :=
    Catalog.pluralTemplate_of_forms hpresented htranslation hlength count
  refine ⟨form, hform, htemplate, ?_⟩
  rw [Catalog.translateCounted, htemplate]

/-- A message with a form for each category of Polish. The form for a few is empty. -/
def files : Message where
  source := "%n files"
  translation := .forms ["%n plik", "", "%n plików"]

/-- Many files have their own form, a few the source text, and the last form does not stand in for
it. -/
theorem position_exact_files :
    (Catalog.Run.ofSteps [.add "Files" files, .language "pl"]).builder.build.presented?
        "Files" "%n files" none = some files ∧
      (Catalog.Run.ofSteps [.add "Files" files, .language "pl"]).builder.build.translateCounted
        "Files" "%n files" none 3 = "3 files" ∧
      (Catalog.Run.ofSteps [.add "Files" files, .language "pl"]).builder.build.translateCounted
        "Files" "%n files" none (-12) = "-12 plików" := by
  have hreachable : Catalog.Reachable _ := .built [.add "Files" files, .language "pl"]
  have hpresented :
      (Catalog.Run.ofSteps [.add "Files" files, .language "pl"]).builder.build.presented?
        "Files" "%n files" none = some files := by
    rw [Catalog.presented?, Catalog.lookup?_eq_scan hreachable.wellFormed, Catalog.scan,
      Catalog.Run.contents_ofSteps]
    decide
  have hrule :
      (Catalog.Run.ofSteps [.add "Files" files, .language "pl"]).builder.build.pluralRule =
        .polish := by
    show ofLocale "pl" = .polish
    decide
  have hfew : formOf? .polish ["%n plik", "", "%n plików"] (category .polish 3) = some "" := by
    decide
  have hmany : formOf? .polish ["%n plik", "", "%n plików"] (category .polish (-12)) =
      some "%n plików" := by decide
  obtain ⟨-, -, hrequest⟩ := position_exact .polish
  have hanswer := hrequest _ _ _ _ _ _ hrule hpresented rfl (by decide)
  refine ⟨hpresented, ?_, ?_⟩
  · obtain ⟨form, hform, -, hanswered⟩ := hanswer 3
    rw [hanswered, ← Option.some.inj (hfew.symm.trans hform)]
    decide
  · obtain ⟨form, hform, -, hanswered⟩ := hanswer (-12)
    rw [hanswered, ← Option.some.inj (hmany.symm.trans hform)]
    decide

end Plural.Rule

end Phrasebook
