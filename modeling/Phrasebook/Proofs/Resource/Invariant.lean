import Phrasebook.Proofs.Resource.Bookkeeping

/-!
# After every event

What the reader has at hand is settled by the elements that are open and by whether a root has
started, whatever the events were (`Reader.Coherent`). In the events of a text every end has its
start, so the reader is never told to close what is not open (`run_coherent`).
-/

namespace Phrasebook.Resource

open Markup (Event Located advance)

namespace Reader

variable {before after reader reader' : Reader} {tag : List Char}

/-! ## The root -/

/-- The event is the start of a root. -/
def StartsRoot : Event → Prop
  | .opening tag | .empty tag => kind tag = .root
  | .closing _ | .text _ | .cdata _ | .remark => False

theorem Opens.isSome_builder_iff (h : before.Shaped) (hopens : before.Opens tag after) :
    after.builder.isSome = true ↔ before.builder.isSome = true ∨ kind tag = .root := by
  cases hopens with
  | skipped hparent =>
    have hbuilder := h.builder (h.isPath hparent).ne_nil
    exact iff_of_true hbuilder (.inl hbuilder)
  | entered hstarts =>
    generalize kind tag = element at hstarts
    cases hstarts with
    | root hpath hbuilder => exact iff_of_true rfl (.inr rfl)
    | text hcollects helement hplace hparent =>
      refine (or_iff_left ?_).symm
      rintro rfl
      cases hcollects
    | byte hparent hknown hbyte =>
      rw [or_iff_left (by decide)]
      show (addCharacters _ _ _).builder.isSome = true ↔ _
      rw [builder_addCharacters]
    | _ => exact (or_iff_left (by decide)).symm

theorem Closes.isSome_builder (hcloses : before.Closes after) :
    after.builder.isSome = before.builder.isSome := by
  cases hcloses with
  | skipped hpath houter => rfl
  | left hpath houter hends =>
    cases hends with
    | context hcontext hname hbuilder =>
      have hbuilt : before.builder = some _ := hbuilder
      rw [hbuilt]
      rfl
    | _ => rfl

theorem Gathers.builder_eq {text : List Char} (hgathers : before.Gathers text after) :
    after.builder = before.builder := by
  cases hgathers with
  | inside hinside => exact builder_addCharacters _ _
  | outside hpath hblank => rfl

theorem Handles.isSome_builder_iff {event : Event} (h : before.Shaped)
    (hhandles : before.Handles event after) :
    after.builder.isSome = true ↔ before.builder.isSome = true ∨ StartsRoot event := by
  cases hhandles with
  | opening hopens => exact hopens.isSome_builder_iff h
  | empty hopens hcloses =>
    rw [hcloses.isSome_builder]
    exact hopens.isSome_builder_iff h
  | closing hcloses =>
    rw [hcloses.isSome_builder]
    exact (or_iff_left id).symm
  | text hgathers =>
    rw [hgathers.builder_eq]
    exact (or_iff_left id).symm
  | cdata hgathers =>
    rw [hgathers.builder_eq]
    exact (or_iff_left id).symm
  | remark => exact (or_iff_left id).symm

/-- The builder is there once a root has started. -/
theorem isSome_builder_foldlM {events : List Event} (h : reader.Shaped)
    (hrun : events.foldlM step reader = .ok reader') :
    reader'.builder.isSome = true ↔
      reader.builder.isSome = true ∨ ∃ event ∈ events, StartsRoot event := by
  induction events generalizing reader with
  | nil =>
    cases hrun
    simp
  | cons event rest ih =>
    rw [List.foldlM_cons] at hrun
    obtain ⟨next, hnext, hrun⟩ := bind_eq_ok_iff.1 hrun
    have hhandles := handles_of_step h hnext
    rw [ih (h.handles hhandles) hrun, hhandles.isSome_builder_iff h, List.exists_mem_cons_iff,
      or_assoc]

/-! ## Ends without a start -/

theorem tagValue?_ne_unbalanced (tag : List Char) (key : String) :
    tagValue? tag key ≠ .error .unbalancedEnd := by
  unfold tagValue?
  cases Markup.Attribute.value? tag key <;> nofun

theorem openRoot_ne_unbalanced (reader : Reader) (tag : List Char) :
    reader.openRoot tag ≠ .error .unbalancedEnd := by
  unfold openRoot
  split
  · nofun
  · exact bind_ne_error (tagValue?_ne_unbalanced _ _) fun _ =>
      bind_ne_error (tagValue?_ne_unbalanced _ _) fun _ =>
        bind_ne_error (tagValue?_ne_unbalanced _ _) fun _ => nofun

theorem openByte_ne_unbalanced (reader : Reader) (tag : List Char) :
    reader.openByte tag ≠ .error .unbalancedEnd := by
  refine bind_ne_error (tagValue?_ne_unbalanced _ _) fun value? => ?_
  split
  · split
    · split <;> nofun
    · nofun
  · nofun

theorem enterElement_ne_unbalanced (reader : Reader) (element : Element) (tag : List Char) :
    reader.enterElement element tag ≠ .error .unbalancedEnd := by
  cases element with
  | root => exact openRoot_ne_unbalanced reader tag
  | message => exact bind_ne_error (tagValue?_ne_unbalanced _ _) fun _ => nofun
  | location =>
    exact bind_ne_error (tagValue?_ne_unbalanced _ _) fun _ =>
      bind_ne_error (tagValue?_ne_unbalanced _ _) fun _ => nofun
  | translation => exact bind_ne_error (tagValue?_ne_unbalanced _ _) fun _ => nofun
  | byte => exact openByte_ne_unbalanced reader tag
  | _ => nofun

theorem openElement_ne_unbalanced (reader : Reader) (tag : List Char) :
    reader.openElement tag ≠ .error .unbalancedEnd := by
  unfold openElement
  split
  · nofun
  · refine bind_ne_error ?_ fun _ => bind_ne_error (enterElement_ne_unbalanced _ _ _) fun _ => nofun
    unfold checkParent
    split
    · nofun
    · split <;> nofun
  · dsimp only
    split
    · nofun
    · exact bind_ne_error (enterElement_ne_unbalanced _ _ _) fun _ => nofun

theorem leaveElement_ne_unbalanced (reader : Reader) (element : Element) (text : String) :
    reader.leaveElement element text ≠ .error .unbalancedEnd := by
  cases element with
  | message =>
    unfold leaveElement closeMessage
    dsimp only
    split <;> nofun
  | context =>
    unfold leaveElement closeContext
    dsimp only
    split
    · nofun
    · split <;> nofun
  | _ => nofun

/-- Only where nothing is open, there is nothing to close. -/
theorem path_eq_nil_of_closeElement (h : reader.closeElement = .error .unbalancedEnd) :
    reader.path = [] := by
  unfold closeElement at h
  split at h
  · rename_i hpath
    exact hpath
  · dsimp only at h
    split at h
    · cases h
    · split at h
      · exact absurd h (leaveElement_ne_unbalanced _ _ _)
      · exact absurd h (leaveElement_ne_unbalanced _ _ _)

theorem addText_ne_unbalanced (reader : Reader) (text : List Char) :
    reader.addText text ≠ .error .unbalancedEnd := by
  unfold addText
  split
  · nofun
  · split <;> nofun

/-- Only an end tag outside of all elements closes what is not open. -/
theorem closing_of_unbalanced {event : Event} (h : reader.step event = .error .unbalancedEnd) :
    reader.path = [] ∧ ∃ name, event = .closing name := by
  cases event with
  | opening tag => exact absurd h (openElement_ne_unbalanced _ _)
  | empty tag =>
    cases hopen : reader.openElement tag with
    | error fault =>
      rw [step, hopen] at h
      cases h
      exact absurd hopen (openElement_ne_unbalanced _ _)
    | ok opened =>
      rw [step, hopen] at h
      obtain ⟨element, hpath⟩ := (keeps_openElement hopen).1
      rw [path_eq_nil_of_closeElement h] at hpath
      cases hpath
  | closing name => exact ⟨path_eq_nil_of_closeElement h, name, rfl⟩
  | text written =>
    refine absurd h (bind_ne_error ?_ fun text => addText_ne_unbalanced _ _)
    cases Markup.unescape written <;> nofun
  | cdata data => exact absurd h (addText_ne_unbalanced _ _)
  | remark => cases h

/-- A reader that stops has taken all events before the one that it cannot take. -/
theorem exists_of_cause_run {events : List Located} {fault : Fault} {position : Nat}
    (h : (reader.run events).cause = some (fault, position)) :
    ∃ taken found rest next, events = taken ++ found :: rest ∧
      (taken.map Located.event).foldlM step reader = .ok next ∧
        next.step found.event = .error fault := by
  induction events generalizing reader with
  | nil => cases h
  | cons found rest ih =>
    rw [run] at h
    cases hstep : reader.step found.event with
    | error fault' =>
      rw [hstep] at h
      cases h
      exact ⟨[], found, rest, reader, rfl, rfl, hstep⟩
    | ok next =>
      rw [hstep] at h
      obtain ⟨taken, found', rest', next', hevents, hfold, hfault⟩ := ih h
      refine ⟨found :: taken, found', rest', next', by rw [hevents, List.cons_append], ?_, hfault⟩
      rw [List.map_cons, List.foldlM_cons, hstep]
      exact hfold

/-- Only an event can show an end without a start. -/
theorem cause_of_conclude {stop : Stop} {ending : Markup.Ending} {position : Nat}
    (h : conclude stop ending = .error (.malformed .unbalancedEnd position)) :
    stop.cause = some (.unbalancedEnd, position) := by
  unfold conclude at h
  split at h
  · rename_i hcause
    cases h
    exact hcause
  · cases h
  · unfold finish at h
    split at h
    · cases h
    · split at h <;> cases h

end Reader

/-- In a text every end has its start. -/
theorem parse_ne_unbalanced (text : String) (position : Nat) :
    (parse text).value ≠ .error (.malformed .unbalancedEnd position) := by
  intro h
  have hcause : (Reader.run {} (Markup.Document.ofString text).events).cause =
      some (.unbalancedEnd, position) := by
    unfold parse ofDocument at h
    dsimp only at h
    split at h
    · rename_i hconclude
      cases h
      exact Reader.cause_of_conclude hconclude
    · cases h
  obtain ⟨taken, found, rest, reader, hevents, hfold, hfault⟩ := Reader.exists_of_cause_run hcause
  obtain ⟨hpath, name, hclosing⟩ := Reader.closing_of_unbalanced hfault
  -- the markup has nothing open either, and would not have let this end tag pass
  obtain ⟨names, hnames⟩ :=
    Markup.foldlM_advance_scanFrom [] 0 (Markup.Document.dropMark text.toList)
  have hscanned : ((Markup.Document.ofString text).events.map Located.event).foldlM advance [] =
      .ok names := hnames
  rw [hevents, List.map_append, List.foldlM_append] at hscanned
  obtain ⟨before, hbefore, hscanned⟩ := bind_eq_ok_iff.1 hscanned
  have hlength := Reader.length_path_foldlM hfold hbefore rfl
  rw [hpath] at hlength
  obtain rfl : before = [] := List.length_eq_zero_iff.1 hlength.symm
  rw [List.map_cons, List.foldlM_cons, hclosing] at hscanned
  cases hscanned

/-! ## All of it -/

namespace Reader

/-- What is at hand after these events, for the elements that are open. -/
structure Coherent (reader : Reader) (taken : List Event) : Prop where
  path : reader.path = [] ∨ ∃ longest ∈ Element.longestPaths, ∃ known bytes skipped,
    known ≠ [] ∧ known <+: longest ∧
      reader.path.reverse = known ++ List.replicate bytes .byte ++ List.replicate skipped .unknown
  builder : reader.builder.isSome = true ↔ ∃ event ∈ taken, StartsRoot event
  context : reader.context.isSome = true ↔ .context ∈ reader.path
  message : reader.message.isSome = true ↔ .message ∈ reader.path
  forms : ∀ draft, reader.message = some draft → draft.forms ≠ [] → .translation ∈ reader.path

/-- After all events that were taken without a fault, what is at hand is coherent and the next event
does what it has to; and no text has an end without its start. -/
theorem run_coherent :
    (∀ taken : List Located, (run {} taken).cause = none →
      (run {} taken).reader.Coherent (taken.map Located.event) ∧
        ∀ event next, (run {} taken).reader.step event = .ok next →
          (run {} taken).reader.Handles event next) ∧
      ∀ text position, (parse text).value ≠ .error (.malformed .unbalancedEnd position) := by
  refine ⟨fun taken hcause => ?_, parse_ne_unbalanced⟩
  have hfold : (taken.map Located.event).foldlM step {} = .ok (run {} taken).reader := by
    rw [← run_eq_iff, ← hcause]
  have hshaped := shaped_foldlM shaped_start hfold
  refine ⟨?_, fun event next hstep => handles_of_step hshaped hstep⟩
  exact
    { path := hshaped.path.imp_right IsPath.exists_longest
      builder := (isSome_builder_foldlM shaped_start hfold).trans (or_iff_right nofun)
      context := hshaped.context
      message := hshaped.message
      forms := hshaped.forms }

/-- A resource up to a root in an unknown element, in a byte, in the second form of a
translation. -/
def nested : List Located :=
  [⟨.opening "TS".toList, 4⟩, ⟨.opening "context".toList, 13⟩, ⟨.opening "message".toList, 22⟩,
    ⟨.opening "translation".toList, 35⟩, ⟨.empty "numerusform".toList, 49⟩,
    ⟨.opening "numerusform".toList, 62⟩, ⟨.text "ab".toList, 64⟩,
    ⟨.opening "byte value='67'".toList, 81⟩, ⟨.opening "b".toList, 84⟩, ⟨.opening "TS".toList, 88⟩]

theorem run_coherent_nested :
    (run {} nested).reader.path =
        [.unknown, .unknown, .byte, .form, .translation, .message, .context, .root] ∧
      (run {} nested).reader.text = "abC" ∧
      (run {} nested).reader.message = some { forms := [""] } ∧
      (run {} nested).reader.context.isSome = true ∧
        (run {} nested).reader.builder.isSome = true := by
  have hcoherent := (run_coherent.1 nested (by decide +kernel)).1
  have hpath : (run {} nested).reader.path =
      [.unknown, .unknown, .byte, .form, .translation, .message, .context, .root] := by
    decide +kernel
  refine ⟨hpath, by decide +kernel, by decide +kernel, ?_, ?_⟩
  · rw [hcoherent.context, hpath]
    decide
  · rw [hcoherent.builder]
    exact ⟨.opening "TS".toList, List.mem_cons_self, by show kind "TS".toList = .root; decide⟩

end Reader

end Phrasebook.Resource
