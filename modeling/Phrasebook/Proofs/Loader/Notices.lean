import Phrasebook.Loader
import Phrasebook.Proofs.Resource.Acceptance

/-!
# What loading tells

Reading a resource warns of messages that are dropped and says nothing else until it is done. So a
loader warns of nothing else (`Loader.dropped_of_mem_load`), and it tells nothing about the active
catalog (`Loader.severity_of_mem_load`).
-/

namespace Phrasebook

namespace Resource

namespace Reader

variable {reader reader' : Reader}

/-- One reader follows from another one and has told nothing on the way but of dropped messages. -/
def Warned (reader reader' : Reader) : Prop :=
  ∃ added, reader'.notices = reader.notices ++ added ∧
    ∀ notice ∈ added, ∃ context source, notice = .messageDropped context source

theorem warned_of_eq (h : reader'.notices = reader.notices) : Warned reader reader' :=
  ⟨[], by rw [h, List.append_nil], fun _ hmem => absurd hmem List.not_mem_nil⟩

theorem Warned.trans {reader'' : Reader} (h : Warned reader reader')
    (h' : Warned reader' reader'') :
    Warned reader reader'' := by
  obtain ⟨added, hadded, hwarn⟩ := h
  obtain ⟨more, hmore, hwarn'⟩ := h'
  refine ⟨added ++ more, by rw [hmore, hadded, List.append_assoc], fun notice hmem => ?_⟩
  rcases List.mem_append.1 hmem with hold | hnew
  · exact hwarn notice hold
  · exact hwarn' notice hnew

theorem dropped_of_mem_addMessages {name : String} {builder : Catalog.Builder}
    {messages : List Message} {notice : Notice}
    (h : notice ∈ (addMessages name builder messages).notices) :
    ∃ context source, notice = .messageDropped context source := by
  induction messages generalizing builder with
  | nil => cases h
  | cons message rest ih =>
    simp only [addMessages] at h
    split at h
    · exact ih h
    · rcases List.mem_cons.1 h with rfl | hrest
      · exact ⟨name, message.source, rfl⟩
      · exact ih hrest

theorem warned_leaveElement {element : Element} {text : String}
    (h : reader.leaveElement element text = .ok reader') : Warned reader reader' := by
  cases element with
  | message =>
    unfold leaveElement closeMessage at h
    simp only at h
    split at h <;> cases h
    exact warned_of_eq rfl
  | context =>
    unfold leaveElement closeContext at h
    simp only at h
    split at h
    · cases h
    · split at h
      · cases h
        exact warned_of_eq rfl
      · cases h
        exact ⟨_, rfl, fun notice => dropped_of_mem_addMessages⟩
  | _ =>
    cases h
    exact warned_of_eq rfl

theorem warned_closeElement (h : reader.closeElement = .ok reader') : Warned reader reader' := by
  unfold closeElement at h
  split at h
  · cases h
  · simp only at h
    split at h
    · cases h
      exact warned_of_eq rfl
    · split at h
      · have hwarned := warned_leaveElement h
        exact hwarned
      · have hwarned := warned_leaveElement h
        exact hwarned

theorem warned_step {event : Markup.Event} (h : reader.step event = .ok reader') :
    Warned reader reader' := by
  cases event with
  | opening tag => exact warned_of_eq (keeps_openElement h).2
  | empty tag =>
    obtain ⟨opened, hopen, hclose⟩ := bind_eq_ok_iff.1 h
    exact (warned_of_eq (keeps_openElement hopen).2).trans (warned_closeElement hclose)
  | closing name => exact warned_closeElement h
  | text written =>
    obtain ⟨text, -, htext⟩ := bind_eq_ok_iff.1 h
    exact warned_of_eq (keeps_addText htext).2
  | cdata data => exact warned_of_eq (keeps_addText h).2
  | remark =>
    cases h
    exact warned_of_eq rfl

theorem warned_run (events : List Markup.Located) : Warned reader (reader.run events).reader := by
  induction events generalizing reader with
  | nil => exact warned_of_eq rfl
  | cons located rest ih =>
    rw [run]
    split
    · rename_i next hnext
      exact (warned_step hnext).trans ih
    · exact warned_of_eq rfl

end Reader

/-- Reading a resource tells of the messages that are dropped, and at the end what was read. -/
theorem of_mem_parse {text : String} {notice : Notice} (h : notice ∈ (parse text).notices) :
    (∃ context source, notice = .messageDropped context source) ∨
      ∃ builder, notice = readNotice builder := by
  obtain ⟨added, hadded, hdropped⟩ := @Reader.warned_run {} (Markup.Document.ofString text).events
  have hstop {notice : Notice}
      (h : notice ∈ (Reader.run {} (Markup.Document.ofString text).events).reader.notices) :
      ∃ context source, notice = .messageDropped context source := by
    rw [hadded] at h
    exact hdropped notice h
  unfold parse ofDocument at h
  simp only at h
  split at h
  · exact .inl (hstop h)
  · rcases List.mem_append.1 h with hread | hdone
    · exact .inl (hstop hread)
    · exact .inr ⟨_, List.mem_singleton.1 hdone⟩

end Resource

namespace Loader

variable {loader : Loader} {files : FileSystem} {identifier : String} {notice : Notice}

theorem of_mem_load (h : notice ∈ (loader.load files identifier).notices) :
    (∃ context source, notice = .messageDropped context source) ∨ notice.severity = .debug := by
  unfold load at h
  split at h
  · cases h
  · simp only at h
    split at h
    · cases h
    · rcases List.mem_cons.1 h with rfl | hparsed
      · exact .inr rfl
      · unfold Resource.parseFile at hparsed
        split at hparsed
        · obtain hdropped | ⟨builder, rfl⟩ := Resource.of_mem_parse hparsed
          · exact .inl hdropped
          · exact .inr rfl
        · cases hparsed

/-- Loading warns of dropped messages only. -/
theorem dropped_of_mem_load (h : notice ∈ (loader.load files identifier).notices)
    (hwarn : notice.severity = .warn) :
    ∃ context source, notice = .messageDropped context source := by
  obtain hdropped | hdebug := of_mem_load h
  · exact hdropped
  · rw [hdebug] at hwarn
    cases hwarn

theorem severity_of_mem_load (h : notice ∈ (loader.load files identifier).notices) :
    notice.severity ≠ .info := by
  obtain ⟨context, source, rfl⟩ | hdebug := of_mem_load h
  · show Severity.warn ≠ .info
    decide
  · rw [hdebug]
    decide

end Loader

end Phrasebook
