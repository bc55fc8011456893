import Mathlib.Algebra.Order.BigOperators.Group.List
import Mathlib.Algebra.Order.Group.Nat
import Mathlib.Data.List.Sort
import Phrasebook.Proofs.Ascending
import Phrasebook.Proofs.Template.Tokens

/-!
# The arguments that a template reads

The placeholder indices of a template are those of its tokens (`mem_indices_iff`). They are exactly
the indices of the arguments that filling in depends on: arguments at other indices can be anything,
and a change of an argument at one of them always shows (`reads_iff_eq_indices`). That it shows is
no matter of one place: the new text may be longer or shorter, and then so is the result; where it
is as long, all that is around it stays in place (`flatMap_ne_of_exchange`).
-/

namespace Phrasebook

/-! ## Joined lists -/

section Joined

variable {α β : Type} {f g : α → List β} {l : List α}

theorem length_flatMap_lt (hle : ∀ a ∈ l, (f a).length ≤ (g a).length)
    (hlt : ∃ a ∈ l, (f a).length < (g a).length) : (l.flatMap f).length < (l.flatMap g).length := by
  rw [List.length_flatMap, List.length_flatMap]
  exact List.sum_lt_sum _ _ hle hlt

/-- Parts of equal lengths are told apart in what they are joined to. -/
theorem eq_of_flatMap_eq (hlength : ∀ a ∈ l, (f a).length = (g a).length)
    (h : l.flatMap f = l.flatMap g) : ∀ a ∈ l, f a = g a := by
  induction l with
  | nil => exact nofun
  | cons a rest ih =>
    rw [List.forall_mem_cons] at hlength ⊢
    rw [List.flatMap_cons, List.flatMap_cons] at h
    obtain ⟨hfirst, hrest⟩ := List.append_inj h hlength.1
    exact ⟨hfirst, ih hlength.2 hrest⟩

/-- Where some parts are exchanged for another one and the others stay, what they are joined to
changes. -/
theorem flatMap_ne_of_exchange {v w : List β} (hne : v ≠ w)
    (hparts : ∀ a ∈ l, f a = g a ∨ f a = v ∧ g a = w) (hsome : ∃ a ∈ l, f a = v ∧ g a = w) :
    l.flatMap f ≠ l.flatMap g := by
  wlog hle : v.length ≤ w.length generalizing f g v w
  · obtain ⟨a, ha, hboth⟩ := hsome
    refine (this hne.symm (fun b hb => ?_) ⟨a, ha, hboth.symm⟩ (Nat.le_of_not_le hle)).symm
    exact (hparts b hb).imp Eq.symm And.symm
  obtain ⟨a, ha, hf, hg⟩ := hsome
  have hlengths : ∀ b ∈ l, (f b).length = (g b).length ∨
      (f b).length = v.length ∧ (g b).length = w.length := fun b hb =>
    (hparts b hb).imp (congrArg List.length) (And.imp (congrArg List.length) (congrArg List.length))
  intro hsame
  rcases Nat.lt_or_eq_of_le hle with hlt | heq
  · -- a longer part makes the whole longer
    have hshorter : (l.flatMap f).length < (l.flatMap g).length := by
      refine length_flatMap_lt (fun b hb => ?_) ⟨a, ha, by rwa [hf, hg]⟩
      have := hlengths b hb
      omega
    exact Nat.ne_of_lt hshorter (congrArg List.length hsame)
  · have hlength : ∀ b ∈ l, (f b).length = (g b).length := by
      intro b hb
      have := hlengths b hb
      omega
    apply hne
    calc v = f a := hf.symm
      _ = g a := eq_of_flatMap_eq hlength hsame a ha
      _ = w := hg

end Joined

namespace Template

variable {cs : List Char} {tokens : List Token}

/-! ## Indices of tokens -/

theorem Splits.indicesOf (h : Splits cs tokens) :
    indicesOf cs = (tokens.map Token.index).filter (· ≠ 0) := by
  induction h with
  | done => rw [Template.indicesOf]; rfl
  | @letter c cs tokens hpercent _ ih =>
    have hletter : Template.indicesOf (c :: cs) = Template.indicesOf cs := by
      rw [Template.indicesOf]
      by_cases hc : c = '%'
      · rw [if_pos hc, takeIndex_of_noDigit (hpercent hc)]
        rfl
      · rw [if_neg hc]
    rw [hletter, ih]
    rfl
  | placeholder tens units hone _ ih =>
    rw [Template.indicesOf, if_pos rfl, takeIndex_digits hone, List.map_cons, ← indexValue_digits]
    by_cases hzero : indexValue (Token.digits tens units) = 0
    · rw [List.filter_cons_of_neg (by simpa using hzero), ← ih]
      exact if_pos hzero
    · rw [List.filter_cons_of_pos (by simpa using hzero), ← ih]
      exact if_neg hzero

theorem mem_indices_iff {text : String} (h : Splits text.toList tokens) {i : Nat} :
    i ∈ indices text ↔ i ≠ 0 ∧ ∃ token ∈ tokens, token.index = i := by
  rw [indices, Ascending.mem_ofList, h.indicesOf]
  simp [and_comm]

/-- A placeholder of the text names the argument at an index. -/
def Names (text : String) (i : Nat) : Prop :=
  i ≠ 0 ∧ ∃ tokens, Splits text.toList tokens ∧ ∃ token ∈ tokens, token.index = i

theorem mem_indices_iff_names {text : String} {i : Nat} : i ∈ indices text ↔ Names text i := by
  constructor
  · intro hi
    obtain ⟨tokens, htokens⟩ := exists_splits text.toList
    obtain ⟨hzero, hnamed⟩ := (mem_indices_iff htokens).1 hi
    exact ⟨hzero, tokens, htokens, hnamed⟩
  · rintro ⟨hzero, tokens, htokens, hnamed⟩
    exact (mem_indices_iff htokens).2 ⟨hzero, hnamed⟩

theorem pairwise_indices (text : String) : (indices text).Pairwise (· < ·) :=
  Ascending.pairwise_ofList _

theorem le_of_mem_indices {text : String} {i : Nat} (hi : i ∈ indices text) : 1 ≤ i ∧ i ≤ 99 := by
  obtain ⟨tokens, htokens⟩ := exists_splits text.toList
  obtain ⟨hzero, token, -, rfl⟩ := (mem_indices_iff htokens).1 hi
  exact ⟨Nat.one_le_iff_ne_zero.2 hzero, token.index_le⟩

/-! ## What filling in depends on -/

theorem withArgs_congr {text : String} {as bs : List String}
    (h : ∀ i ∈ indices text, as[i - 1]? = bs[i - 1]?) : withArgs text as = withArgs text bs := by
  obtain ⟨tokens, htokens⟩ := exists_splits text.toList
  rw [withArgs_eq_images htokens, withArgs_eq_images htokens]
  congr 1
  refine List.flatMap_congr fun token htoken => Token.image_congr fun hzero => ?_
  exact h _ ((mem_indices_iff htokens).2 ⟨hzero, token, htoken, rfl⟩)

namespace Token

variable {args : List String} {token : Token} {i : Nat}

theorem image_of_index_eq (htoken : token.index = i) (hzero : i ≠ 0) {value : String}
    (hvalue : args[i - 1]? = some value) : token.image args = value.toList := by
  subst htoken
  rw [image_eq, if_neg hzero, hvalue]
  rfl

theorem image_set_of_ne (htoken : token.index ≠ i) (hzero : i ≠ 0) (value : String) :
    token.image (args.set (i - 1) value) = token.image args :=
  image_congr fun hindex => List.getElem?_set_ne (by omega)

end Token

/-- A change of an argument that some placeholder names shows. -/
theorem withArgs_set_ne {text : String} {i : Nat} (hi : i ∈ indices text) (args : List String)
    (value : String) (hle : i ≤ args.length) (hvalue : args[i - 1]? ≠ some value) :
    withArgs text (args.set (i - 1) value) ≠ withArgs text args := by
  obtain ⟨tokens, htokens⟩ := exists_splits text.toList
  obtain ⟨hzero, named, hnamed, hindex⟩ := (mem_indices_iff htokens).1 hi
  have hlt : i - 1 < args.length := by omega
  have hexchanged {token : Token} (htoken : token.index = i) :
      token.image (args.set (i - 1) value) = value.toList ∧
        token.image args = args[i - 1].toList :=
    ⟨Token.image_of_index_eq htoken hzero (List.getElem?_set_self hlt),
      Token.image_of_index_eq htoken hzero (List.getElem?_eq_getElem hlt)⟩
  have hdiffer : value.toList ≠ args[i - 1].toList := by
    intro hsame
    rw [String.toList_inj] at hsame
    exact hvalue (by rw [List.getElem?_eq_getElem hlt, hsame])
  rw [withArgs_eq_images htokens, withArgs_eq_images htokens]
  intro hsame
  refine flatMap_ne_of_exchange hdiffer ?_ ⟨named, hnamed, hexchanged hindex⟩
    (String.ofList_injective hsame)
  intro token _
  by_cases htoken : token.index = i
  · exact .inr (hexchanged htoken)
  · exact .inl (Token.image_set_of_ne htoken hzero value)

/-- The indices are those of the arguments that a text reads when it is filled in. -/
structure Reads (text : String) (indices : List Nat) : Prop where
  ascending : indices.Pairwise (· < ·)
  bounds : ∀ i ∈ indices, 1 ≤ i ∧ i ≤ 99
  /-- Nothing else is read: arguments that are equal or both missing at these indices make no
  difference. -/
  enough : ∀ as bs : List String, (∀ i ∈ indices, as[i - 1]? = bs[i - 1]?) →
    withArgs text as = withArgs text bs
  /-- All of them are read: another argument at one of these indices makes a difference. -/
  needed : ∀ i ∈ indices, ∀ (args : List String) (value : String), i ≤ args.length →
    args[i - 1]? ≠ some value → withArgs text (args.set (i - 1) value) ≠ withArgs text args

theorem reads_indices (text : String) : Reads text (indices text) where
  ascending := pairwise_indices text
  bounds _ hi := le_of_mem_indices hi
  enough _ _ := withArgs_congr
  needed _ hi := withArgs_set_ne hi

theorem Reads.subset {text : String} {as bs : List Nat} (ha : Reads text as) (hb : Reads text bs) :
    as ⊆ bs := by
  intro i hi
  by_contra hmem
  obtain ⟨hpos, -⟩ := ha.bounds i hi
  have hlength : i ≤ (List.replicate i "").length := by rw [List.length_replicate]
  refine ha.needed i hi (List.replicate i "") "x" hlength ?_ (hb.enough _ _ fun j hj => ?_)
  · rw [List.getElem?_replicate_of_lt (by omega)]
    decide
  · have hne : j ≠ i := by
      rintro rfl
      exact hmem hj
    obtain ⟨hposj, -⟩ := hb.bounds j hj
    exact List.getElem?_set_ne (by omega)

/-- The placeholder indices of a text are the indices of the arguments that it reads, and there is
no other such list. -/
theorem reads_iff_eq_indices (text : String) (is : List Nat) :
    Reads text is ↔ is = indices text := by
  constructor
  · intro h
    have hall := reads_indices text
    exact List.Subset.antisymm_of_pairwise h.ascending hall.ascending (h.subset hall)
      (hall.subset h)
  · rintro rfl
    exact reads_indices text

end Template

end Phrasebook
