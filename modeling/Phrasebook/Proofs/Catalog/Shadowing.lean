import Phrasebook.Proofs.Catalog.Lookup

/-!
# Messages under their own keys

Asking a context for the source text and the disambiguation of a stored message gives this message,
with one exception. A disambiguation does not say whether it is a comment or an extra comment, and
comments are preferred: a message that goes by its extra comment is shadowed by the message with the
same source text and this very comment (`Message.Shadows`). Then the latter is found, and there is
no other case (`Reachable.found_by_own_key`).
-/

namespace Phrasebook

/-- A message that is found in place of another one: its comment is the extra comment of the other,
which has no comment of its own. -/
structure Message.Shadows (other message : Message) : Prop where
  sameSource : other.source = message.source
  uncommented : message.comment = none
  sameText : ∃ text, message.extraComment = some text ∧ other.comment = some text

namespace Scan

variable {messages : List Message} {message : Message}

theorem first_own_key (hnodup : (messages.map Message.identity).Nodup) (hmem : message ∈ messages) :
    first messages message.source (·.key = message.key) = some message := by
  have hown := (Catalog.find?_eq_some_iff_of_nodup hnodup).2 ⟨hmem, rfl⟩
  rw [← hown, first]
  congr 1
  funext other
  simp [Message.identity]

theorem first_eq_none {source : String} {key : Key}
    (h : ∀ other ∈ messages, other.source = source → other.key ≠ key) :
    first messages source (·.key = key) = none := by
  rw [first, List.find?_eq_none]
  intro other hother
  simpa using h other hother

end Scan

namespace Context

variable {context : Context} {message other : Message}

theorem resolve?_of_find? {source : String} {disambiguation : Option String}
    (h : context.find? source disambiguation = some message) :
    context.resolve? source disambiguation = some message := by
  rw [resolve?, h, Option.some_or]

theorem find?_own_key (h : context.WellFormed) (hmem : message ∈ context.messages.toList)
    (hfree : ∀ other ∈ context.messages.toList, ¬ other.Shadows message) :
    context.find? message.source message.disambiguation = some message := by
  have hown := Scan.first_own_key h.nodup hmem
  rw [find?_eq_findSome? h, Message.disambiguation]
  cases hkey : message.key with
  | plain =>
    rw [hkey] at hown
    show List.findSome? _ [Key.plain] = _
    rw [List.findSome?_cons, hown]
  | comment text =>
    rw [hkey] at hown
    show List.findSome? _ [Key.comment text, Key.extraComment text] = _
    rw [List.findSome?_cons, hown]
  | extraComment text =>
    rw [hkey] at hown
    obtain ⟨huncommented, hextra⟩ := Message.key_eq_extraComment_iff.1 hkey
    -- the comment is tried first; a message that has it would shadow
    have hnone :
        Scan.first context.messages.toList message.source (·.key = .comment text) = none := by
      refine Scan.first_eq_none fun other hother hsource hcomment => hfree other hother ?_
      exact ⟨hsource, huncommented, text, hextra, Message.key_eq_comment_iff.1 hcomment⟩
    show List.findSome? _ [Key.comment text, Key.extraComment text] = _
    rw [List.findSome?_cons, hnone, List.findSome?_cons, hown]

/-- A message that shadows another one is found under the key of the latter. -/
theorem find?_of_shadows (h : context.WellFormed) (hmem : other ∈ context.messages.toList)
    (hshadows : other.Shadows message) :
    context.find? message.source message.disambiguation = some other := by
  obtain ⟨hsource, huncommented, text, hextra, hcomment⟩ := hshadows
  have hkey : message.key = .extraComment text :=
    Message.key_eq_extraComment_iff.2 ⟨huncommented, hextra⟩
  have hother := Scan.first_own_key h.nodup hmem
  rw [Message.key_eq_comment_iff.2 hcomment, hsource] at hother
  rw [find?_eq_findSome? h, Message.disambiguation, hkey]
  show List.findSome? _ [Key.comment text, Key.extraComment text] = _
  rw [List.findSome?_cons, hother]

end Context

namespace Catalog

variable {catalog : Catalog} {context : Context} {message : Message}

/-- Asking for the source text and the disambiguation of a message of a context, of the context
itself and of the catalog, gives `found`. -/
structure Answers (catalog : Catalog) (context : Context) (message found : Message) : Prop where
  find : context.find? message.source message.disambiguation = some found
  lookup : catalog.lookup? context.name message.source message.disambiguation = some found

theorem answers_of_find? (h : catalog.WellFormed) (hcontext : context ∈ catalog.contexts.toList)
    {found : Message} (hfind : context.find? message.source message.disambiguation = some found) :
    catalog.Answers context message found where
  find := hfind
  lookup := by
    rw [lookup?, (context?_eq_some_iff h).2 ⟨hcontext, rfl⟩]
    exact Context.resolve?_of_find? hfind

/-- Every stored message is found under its own key, except where another message shadows it: then
that one is found. -/
theorem Reachable.found_by_own_key (hreachable : Reachable catalog)
    (hcontext : context ∈ catalog.contexts.toList) (hmessage : message ∈ context.messages.toList) :
    ((∀ other ∈ context.messages.toList, ¬ other.Shadows message) →
        catalog.Answers context message message) ∧
      ∀ other ∈ context.messages.toList, other.Shadows message →
        catalog.Answers context message other := by
  have hwellFormed := hreachable.wellFormed
  have hcontextWellFormed := hwellFormed.contexts context hcontext
  constructor
  · intro hfree
    exact answers_of_find? hwellFormed hcontext
      (Context.find?_own_key hcontextWellFormed hmessage hfree)
  · intro other hother hshadows
    exact answers_of_find? hwellFormed hcontext
      (Context.find?_of_shadows hcontextWellFormed hother hshadows)

def noted : Message :=
  { source := "Open", extraComment := some "verb", translation := .single "Otwarte" }

/-- A message that goes by its comment, which is the same text. -/
def commented : Message :=
  { source := "Open", comment := some "verb", translation := .single "Otwórz" }

/-- The commented message is found under both keys, although the noted one came first. -/
theorem Reachable.found_by_own_key_commented :
    Reachable (Run.ofSteps [.add "Player" noted, .add "Player" commented]).builder.build ∧
      ∃ context ∈
          (Run.ofSteps
            [.add "Player" noted, .add "Player" commented]).builder.build.contexts.toList,
        context.messages.toList = [noted, commented] ∧
          Answers (Run.ofSteps [.add "Player" noted, .add "Player" commented]).builder.build
            context noted commented ∧
          Answers (Run.ofSteps [.add "Player" noted, .add "Player" commented]).builder.build
            context commented commented := by
  have hreachable : Reachable _ := .built [.add "Player" noted, .add "Player" commented]
  have hcontents : ("Player", [noted, commented]) ∈
      (Run.ofSteps [.add "Player" noted, .add "Player" commented]).builder.build.contents := by
    rw [Run.contents_ofSteps]
    decide
  obtain ⟨context, hcontext, hentry⟩ := List.mem_map.1 hcontents
  have hmessages : context.messages.toList = [noted, commented] := (Prod.mk.inj hentry).2
  have hnoted : noted ∈ context.messages.toList := by rw [hmessages]; decide
  have hcommented : commented ∈ context.messages.toList := by rw [hmessages]; decide
  have hshadows : commented.Shadows noted := ⟨rfl, rfl, "verb", rfl, rfl⟩
  have hfree : ∀ other ∈ context.messages.toList, ¬ other.Shadows commented := by
    intro other _ hother
    cases hother.uncommented
  exact ⟨hreachable, context, hcontext, hmessages,
    (Reachable.found_by_own_key hreachable hcontext hnoted).2 commented hcommented hshadows,
    (Reachable.found_by_own_key hreachable hcontext hcommented).1 hfree⟩

end Catalog

end Phrasebook
