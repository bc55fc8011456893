import Mathlib.Algebra.GroupWithZero.Nat
import Phrasebook.Proofs.Resource.Acceptance

/-!
# No silent loss

The messages of a resource are all accounted for: each one is stored, joins an earlier one or is
dropped with a notice. For a builder this is `Run.tally_ofSteps`; here it is carried to documents,
where the messages are the message elements.
-/

namespace Phrasebook

namespace Resource

open Markup (Content Located)

open Catalog (Run Step)

/-! ## Message elements -/

/-- Number of message elements in a content, without those inside unknown elements. -/
def messageElements : Content → Nat
  | .done => 0
  | .text _ rest | .cdata _ rest | .remark rest => messageElements rest
  | .empty tag rest => (if kind tag = .message then 1 else 0) + messageElements rest
  | .element tag inner rest =>
    (if kind tag = .message then 1 else 0) +
      (if kind tag = .unknown then 0 else messageElements inner) + messageElements rest

/-- Below the contexts no message is well placed. -/
theorem messageElements_eq_zero {parent : Element} {content : Content}
    (hplaced : WellPlaced parent content) (hroot : parent ≠ .root) (hcontext : parent ≠ .context) :
    messageElements content = 0 := by
  induction content generalizing parent with
  | done => rfl
  | text written rest ih => exact ih hplaced hroot hcontext
  | cdata data rest ih => exact ih hplaced hroot hcontext
  | remark rest ih => exact ih hplaced hroot hcontext
  | empty tag rest ih =>
    obtain ⟨hallowed, hrest⟩ := hplaced
    have hmessage : kind tag ≠ .message := fun h => hcontext (hallowed.in_parent _ (by rw [h]; rfl))
    rw [messageElements, if_neg hmessage, ih hrest hroot hcontext]
  | element tag inner rest ihInner ihRest =>
    obtain ⟨hallowed, hinner, hrest⟩ := hplaced
    have hmessage : kind tag ≠ .message := fun h => hcontext (hallowed.in_parent _ (by rw [h]; rfl))
    have hinside : kind tag ≠ .context := fun h => hroot (hallowed.in_parent _ (by rw [h]; rfl))
    rw [messageElements, if_neg hmessage, ihRest hrest hroot hcontext]
    split
    · rfl
    · rename_i hknown
      rw [ihInner (hinner hknown) hallowed.not_root hinside]

/-- Number of message elements in an element, itself included. -/
def messagesWithin (child : List Char × Content) : Nat :=
  (if kind child.1 = .message then 1 else 0) +
    if kind child.1 = .unknown then 0 else messageElements child.2

theorem messageElements_eq_sum (content : Content) :
    messageElements content = ((elements content).map messagesWithin).sum := by
  induction content with
  | done => rfl
  | text written rest ih => exact ih
  | cdata data rest ih => exact ih
  | remark rest ih => exact ih
  | empty tag rest ih =>
    rw [messageElements, elements, List.map_cons, List.sum_cons, ← ih, messagesWithin,
      messageElements, ite_self, Nat.add_zero]
  | element tag inner rest _ ih =>
    rw [messageElements, elements, List.map_cons, List.sum_cons, ← ih, messagesWithin]

theorem WellPlaced.of_mem {parent : Element} {content : Content}
    (hplaced : WellPlaced parent content)
    {child : List Char × Content} (hchild : child ∈ elements content) :
    Allowed parent child.1 child.2 ∧
      (kind child.1 ≠ .unknown → WellPlaced (kind child.1) child.2) := by
  induction content with
  | done => cases hchild
  | text written rest ih => exact ih hplaced hchild
  | cdata data rest ih => exact ih hplaced hchild
  | remark rest ih => exact ih hplaced hchild
  | empty tag rest ih =>
    obtain ⟨hallowed, hrest⟩ := hplaced
    rcases List.mem_cons.1 hchild with rfl | hmem
    · exact ⟨hallowed, fun _ => trivial⟩
    · exact ih hrest hmem
  | element tag inner rest _ ih =>
    obtain ⟨hallowed, hinner, hrest⟩ := hplaced
    rcases List.mem_cons.1 hchild with rfl | hmem
    · exact ⟨hallowed, hinner⟩
    · exact ih hrest hmem

/-- A sum that counts for the children of one kind only. -/
theorem sum_elements_eq {content : Content} (element : Element) {count : List Char × Content → Nat}
    (hother : ∀ child ∈ elements content, kind child.1 ≠ element → count child = 0) :
    ((elements content).map count).sum = ((children element content).map count).sum := by
  unfold children
  generalize elements content = all at hother
  induction all with
  | nil => rfl
  | cons child rest ih =>
    have hrest := ih fun later hlater => hother later (List.mem_cons_of_mem _ hlater)
    by_cases hkind : kind child.1 = element
    · rw [List.filter_cons_of_pos (by simpa using hkind), List.map_cons, List.map_cons,
        List.sum_cons, List.sum_cons, hrest]
    · rw [List.filter_cons_of_neg (by simpa using hkind), List.map_cons, List.sum_cons, hrest,
        hother child List.mem_cons_self hkind, Nat.zero_add]

theorem mem_children {content : Content} {element : Element} {child : List Char × Content} :
    child ∈ children element content ↔ child ∈ elements content ∧ kind child.1 = element := by
  simp [children]

theorem messageElements_context {content : Content} (hplaced : WellPlaced .context content) :
    messageElements content = (messagesOf content).length := by
  have hwithin (child : List Char × Content) (hchild : child ∈ elements content) :
      messagesWithin child = if kind child.1 = .message then 1 else 0 := by
    obtain ⟨hallowed, hinner⟩ := hplaced.of_mem hchild
    have hinside : kind child.1 ≠ .context := fun h => by
      cases hallowed.in_parent _ (by rw [h]; rfl)
    unfold messagesWithin
    by_cases hunknown : kind child.1 = .unknown
    · rw [if_pos hunknown, Nat.add_zero]
    · rw [if_neg hunknown, messageElements_eq_zero (hinner hunknown) hallowed.not_root hinside,
        Nat.add_zero]
  have hone (child : List Char × Content) (hchild : child ∈ children .message content) :
      messagesWithin child = 1 := by
    obtain ⟨hmem, hkind⟩ := mem_children.1 hchild
    rw [hwithin child hmem, if_pos hkind]
  rw [messageElements_eq_sum, sum_elements_eq .message fun child hchild hkind => by
    rw [hwithin child hchild, if_neg hkind], List.map_congr_left hone, messagesOf, List.length_map]
  simp

theorem messageElements_root {content : Content} (hplaced : WellPlaced .root content) :
    messageElements content =
      ((children .context content).map fun child => (messagesOf child.2).length).sum := by
  have hmessage (child : List Char × Content) (hchild : child ∈ elements content) :
      kind child.1 ≠ .message := fun h => by
    cases (hplaced.of_mem hchild).1.in_parent _ (by rw [h]; rfl)
  have hother (child : List Char × Content) (hchild : child ∈ elements content)
      (hkind : kind child.1 ≠ .context) : messagesWithin child = 0 := by
    obtain ⟨hallowed, hinner⟩ := hplaced.of_mem hchild
    rw [messagesWithin, if_neg (hmessage child hchild)]
    split
    · rfl
    · rename_i hknown
      rw [messageElements_eq_zero (hinner hknown) hallowed.not_root hkind]
  rw [messageElements_eq_sum, sum_elements_eq .context hother]
  congr 1
  refine List.map_congr_left fun child hchild => ?_
  obtain ⟨hmem, hkind⟩ := mem_children.1 hchild
  have hinner := (hplaced.of_mem hmem).2 (by rw [hkind]; decide)
  rw [messagesWithin, if_neg (hmessage child hmem), if_neg (by rw [hkind]; decide), Nat.zero_add,
    messageElements_context (hkind ▸ hinner)]

theorem length_isAdd_contextSteps (content : Content) :
    ((contextSteps content).filter Step.isAdd).length = (messagesOf content).length := by
  unfold contextSteps
  induction messagesOf content with
  | nil => rfl
  | cons message rest ih => exact congrArg Nat.succ ih

theorem length_isAdd_steps {content : Content} (hresource : IsResource content) :
    ((steps content).filter Step.isAdd).length = messageElements content := by
  obtain ⟨tag, inner, helements, hkind, -, hplaced⟩ := hresource
  have hheader : (headerSteps tag).filter Step.isAdd = [] := by
    unfold headerSteps
    cases attribute? tag "version" <;> cases attribute? tag "language" <;>
      cases attribute? tag "sourcelanguage" <;> rfl
  rw [steps, helements, List.flatMap_singleton, rootSteps, List.filter_append, hheader,
    List.nil_append, List.filter_flatMap, List.length_flatMap, messageElements_eq_sum, helements,
    List.map_singleton, List.sum_singleton, messagesWithin, if_neg (by rw [hkind]; decide),
    if_neg (by rw [hkind]; decide), Nat.zero_add, messageElements_root hplaced]
  simp only [length_isAdd_contextSteps]

end Resource

namespace Catalog

open Resource (messageElements parse)

open Markup (Content Located)

/-- A run of a builder stores what comes first, answers by what came before and loses nothing
silently. -/
structure Run.Faithful (steps : List Step) : Prop where
  contents : (Run.ofSteps steps).builder.build.contents =
    (mentions steps).map fun name => (name, storedOf (pushedTo name steps))
  distinct : ∀ name, ((storedOf (pushedTo name steps)).map Message.identity).Nodup
  answered : (Run.ofSteps steps).answers.length = (steps.filter Step.isAdd).length
  answers : ∀ before name message after, steps = before ++ .add name message :: after →
    (Run.ofSteps steps).answers[(before.filter Step.isAdd).length]? =
      some (!contradicts (pushedTo name before) message)
  accounted : (Run.ofSteps steps).builder.merged + (Run.ofSteps steps).builder.conflicts +
    (Run.ofSteps steps).builder.build.messageCount = (steps.filter Step.isAdd).length
  told : (Run.ofSteps steps).notices.length = (Run.ofSteps steps).builder.conflicts
  warned : ∀ notice ∈ (Run.ofSteps steps).notices, notice.severity = .warn

/-- The message elements of a document are accounted for by the notice at its end, and there is a
warning for each one that was dropped. -/
def Accounted (text : String) (catalog : Catalog) (notices : List Notice) : Prop :=
  ∃ (document : Content) (merged conflicts : Nat) (dropped : List Notice),
    document.events = (Markup.Document.ofString text).events.map Located.event ∧
      notices = dropped ++ [.resourceRead catalog.language catalog.contexts.size
        catalog.messageCount merged conflicts] ∧
      merged + conflicts + catalog.messageCount = messageElements document ∧
      dropped.length = conflicts ∧ ∀ notice ∈ dropped, notice.severity = .warn

/-- Every run of a builder is faithful, and so the messages of every accepted text are accounted
for. -/
theorem nothing_lost :
    (∀ steps : List Step, Run.Faithful steps) ∧
      ∀ (text : String) (catalog : Catalog), (parse text).value = .ok catalog →
        Accounted text catalog (parse text).notices := by
  constructor
  · intro steps
    refine ⟨Run.contents_ofSteps steps, fun name => ?_, Run.length_answers steps,
      fun before name message after hsteps => ?_, Run.tally_ofSteps steps,
      (Run.notices_ofSteps steps).1, (Run.notices_ofSteps steps).2⟩
    · rw [map_identity_storedOf]
      exact nodup_identity_firstsOf _
    · rw [hsteps]
      exact Run.answers_ofSteps before after name message
  · intro text catalog hvalue
    obtain ⟨content, hevents, -, ⟨-, -, hresource⟩, rfl, hnotices⟩ :=
      Resource.parse_eq_iff.1
        (show parse text = ⟨.ok catalog, (parse text).notices⟩ by rw [← hvalue])
    obtain ⟨htold, hwarned⟩ := Run.notices_ofSteps (Resource.steps content)
    refine ⟨content, _, _, _, hevents, hnotices, ?_, htold, hwarned⟩
    rw [← Resource.length_isAdd_steps hresource]
    exact Run.tally_ofSteps (Resource.steps content)

end Catalog

end Phrasebook
