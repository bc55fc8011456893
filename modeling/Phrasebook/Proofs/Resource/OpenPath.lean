import Phrasebook.Resource.Element

/-!
# Paths of open elements

An element with a place of its own is always inside the same ones (`Element.lineage`). Bytes and
unknown elements may stand anywhere, but only bytes and unknown elements can be inside a byte, and
everything inside an unknown element is skipped. So a path of open elements leads to an element with
a place, from there into some bytes, and from there into some skipped elements (`IsPath`).
-/

namespace Phrasebook.Resource

namespace Element

/-- The elements around an element that has its place, itself first and the root last. -/
def lineage (element : Element) : List Element :=
  match element with
  | .root => [.root]
  | .context => [.context, .root]
  | .name | .message => [element, .context, .root]
  | .location | .source | .oldSource | .comment | .extraComment | .translatorComment |
    .translation =>
    [element, .message, .context, .root]
  | .form => [.form, .translation, .message, .context, .root]
  | .byte | .unknown => []

variable {element parent : Element}

theorem lineage_of_parent? (h : element.parent? = some parent) :
    element.lineage = element :: parent.lineage := by
  cases element <;> cases h <;> rfl

theorem lineage_ne_nil_of_parent? (h : element.parent? = some parent) : parent.lineage ≠ [] := by
  cases element <;> cases h <;> exact List.cons_ne_nil _ _

/-- Only the root is in nothing. -/
theorem lineage_of_parent?_none (hplace : element.lineage ≠ []) (h : element.parent? = none) :
    element.lineage = [element] := by
  cases element with
  | root => rfl
  | byte => exact absurd rfl hplace
  | unknown => exact absurd rfl hplace
  | _ => cases h

theorem head?_lineage (h : element.lineage ≠ []) : element.lineage.head? = some element := by
  cases element <;> first | rfl | exact absurd rfl h

/-- The paths, from the root, that lead to an element which no element with a place can be in. -/
def longestPaths : List (List Element) :=
  [.root, .context, .name] :: [.root, .context, .message, .translation, .form] ::
    [Element.location, .source, .oldSource, .comment, .extraComment, .translatorComment].map
      fun element => [.root, .context, .message, element]

theorem exists_lineage_prefix (element : Element) :
    ∃ longest ∈ longestPaths, element.lineage.reverse <+: longest := by
  cases element <;> decide

theorem unknown_notMem_lineage (element : Element) : .unknown ∉ element.lineage := by
  cases element <;> decide

end Element

/-- The open elements, innermost first: skipped ones, in bytes, in an element with a place. -/
def IsPath (path : List Element) : Prop :=
  ∃ (element : Element) (bytes skipped : Nat), element.lineage ≠ [] ∧
    path = List.replicate skipped .unknown ++ (List.replicate bytes .byte ++ element.lineage)

namespace IsPath

variable {path outer : List Element} {element parent : Element}

theorem root : IsPath [.root] := ⟨.root, 0, 0, List.cons_ne_nil _ _, rfl⟩

theorem ne_nil (h : IsPath path) : path ≠ [] := by
  obtain ⟨element, bytes, skipped, hplace, rfl⟩ := h
  simp [hplace]

/-- In an element with a place there is nothing else than what it is always in. -/
theorem eq_lineage (h : IsPath path) (hhead : path.head? = some parent)
    (hparent : parent.lineage ≠ []) :
    path = parent.lineage := by
  obtain ⟨element, bytes, skipped, hplace, rfl⟩ := h
  cases skipped with
  | succ skipped =>
    cases hhead
    exact absurd rfl hparent
  | zero =>
    cases bytes with
    | succ bytes =>
      cases hhead
      exact absurd rfl hparent
    | zero =>
      obtain rfl : element = parent :=
        Option.some.inj ((Element.head?_lineage hplace).symm.trans hhead)
      rfl

theorem outer_eq (h : IsPath (element :: outer)) (hparent : element.parent? = some parent) :
    outer = parent.lineage := by
  have hlineage := Element.lineage_of_parent? hparent
  have hpath := h.eq_lineage rfl (hlineage ▸ List.cons_ne_nil _ _)
  rw [hlineage] at hpath
  exact (List.cons.inj hpath).2

/-! ## One more element -/

theorem unknown (h : IsPath path) : IsPath (.unknown :: path) := by
  obtain ⟨element, bytes, skipped, hplace, rfl⟩ := h
  exact ⟨element, bytes, skipped + 1, hplace, rfl⟩

theorem byte (h : IsPath path) (hhead : path.head? ≠ some .unknown) : IsPath (.byte :: path) := by
  obtain ⟨element, bytes, skipped, hplace, rfl⟩ := h
  cases skipped with
  | succ skipped => exact absurd rfl hhead
  | zero => exact ⟨element, bytes + 1, 0, hplace, rfl⟩

theorem child (h : IsPath path) (hparent : element.parent? = some parent)
    (hhead : path.head? = some parent) : IsPath (element :: path) := by
  rw [h.eq_lineage hhead (Element.lineage_ne_nil_of_parent? hparent),
    ← Element.lineage_of_parent? hparent]
  refine ⟨element, 0, 0, ?_, rfl⟩
  rw [Element.lineage_of_parent? hparent]
  exact List.cons_ne_nil _ _

/-! ## One element less -/

theorem tail (h : IsPath (element :: outer)) : outer = [] ∨ IsPath outer := by
  obtain ⟨placed, bytes, skipped, hplace, hpath⟩ := h
  cases skipped with
  | succ skipped => exact .inr ⟨placed, bytes, skipped, hplace, (List.cons.inj hpath).2⟩
  | zero =>
    cases bytes with
    | succ bytes => exact .inr ⟨placed, bytes, 0, hplace, (List.cons.inj hpath).2⟩
    | zero =>
      have hlineage : element :: outer = placed.lineage := hpath
      cases hparent : placed.parent? with
      | none =>
        rw [Element.lineage_of_parent?_none hplace hparent] at hlineage
        exact .inl (List.cons.inj hlineage).2
      | some parent =>
        rw [Element.lineage_of_parent? hparent] at hlineage
        rw [(List.cons.inj hlineage).2]
        exact .inr ⟨parent, 0, 0, Element.lineage_ne_nil_of_parent? hparent, rfl⟩

theorem eq_unknown (h : IsPath (element :: outer)) (houter : outer.head? = some .unknown) :
    element = .unknown := by
  obtain ⟨placed, bytes, skipped, hplace, hpath⟩ := h
  cases skipped with
  | succ skipped => exact (List.cons.inj hpath).1
  | zero =>
    have hmem : .unknown ∈ List.replicate bytes .byte ++ placed.lineage := by
      rw [show List.replicate bytes .byte ++ placed.lineage = element :: outer from hpath.symm]
      exact List.mem_cons_of_mem _ (List.mem_of_mem_head? houter)
    rcases List.mem_append.1 hmem with hbyte | hplaced
    · cases List.eq_of_mem_replicate hbyte
    · exact absurd hplaced (Element.unknown_notMem_lineage placed)

/-- From the root: the start of a longest path, then bytes, then skipped elements. -/
theorem exists_longest (h : IsPath path) :
    ∃ longest ∈ Element.longestPaths, ∃ known bytes skipped, known ≠ [] ∧ known <+: longest ∧
      path.reverse = known ++ List.replicate bytes .byte ++ List.replicate skipped .unknown := by
  obtain ⟨element, bytes, skipped, hplace, rfl⟩ := h
  obtain ⟨longest, hlongest, hprefix⟩ := Element.exists_lineage_prefix element
  refine ⟨longest, hlongest, element.lineage.reverse, bytes, skipped, ?_, hprefix, ?_⟩
  · simpa using hplace
  · simp only [List.reverse_append, List.reverse_replicate]

end IsPath

end Phrasebook.Resource
