import Phrasebook.Proofs.Catalog.Reachable

/-!
# Lookups

A lookup goes through the index of the catalog and that of a context, and tries keys one after
another. What it finds is said without indexes: going through the messages of the context from the
first to the last, in the documented order of preference (`Scan.exact`, `Scan.resolved`). In a
well-formed context the positions of a source text lead to its messages (`filterMap_positions`), and
so an index never decides an answer.
-/

namespace Phrasebook

/-! ## Going through a list of messages -/

namespace Scan

def first (messages : List Message) (source : String) (p : Message → Bool) : Option Message :=
  messages.find? fun message => message.source = source ∧ p message

/-- The message with a source text and this comment. -/
def commented (messages : List Message) (source text : String) : Option Message :=
  first messages source (·.comment = some text)

/-- The message with a source text, without a comment and with this extra comment. -/
def noted (messages : List Message) (source text : String) : Option Message :=
  first messages source fun message => message.comment = none ∧ message.extraComment = some text

def plain (messages : List Message) (source : String) : Option Message :=
  first messages source fun message => message.comment = none ∧ message.extraComment = none

/-- The message with a source text, if there is exactly one. -/
def sole (messages : List Message) (source : String) : Option Message :=
  match messages.filter fun message => message.source = source with
  | [only] => some only
  | _ => none

def exact (messages : List Message) (source : String) : Option String → Option Message
  | some text => (commented messages source text).or (noted messages source text)
  | none => plain messages source

/-- The message that a request for a source text gets. -/
def resolved (messages : List Message) (source : String) : Option String → Option Message
  | some text =>
    (commented messages source text).or ((noted messages source text).or (plain messages source))
  | none => (plain messages source).or (sole messages source)

end Scan

/-! ## Keys -/

namespace Message

variable {message : Message} {text : String}

theorem key_eq_comment_iff : message.key = .comment text ↔ message.comment = some text := by
  unfold key
  split <;> simp [*]

theorem key_eq_extraComment_iff : message.key = .extraComment text ↔
    message.comment = none ∧ message.extraComment = some text := by
  unfold key
  split <;> simp [*]

theorem key_eq_plain_iff : message.key = .plain ↔
    message.comment = none ∧ message.extraComment = none := by
  unfold key
  split <;> simp [*]

end Message

/-! ## Lookups in a context -/

namespace Context

variable {context : Context}

theorem filterMap_sourcePositions (messages : Array Message) (source : String) :
    (sourcePositions messages source).filterMap (messages[·]?) =
      messages.toList.filter fun message => message.source = source := by
  obtain ⟨all⟩ := messages
  induction all using List.reverseRecOn with
  | nil => rfl
  | append_singleton earlier message ih =>
    have hpush : Array.mk (earlier ++ [message]) = (Array.mk earlier).push message :=
      (List.push_toArray earlier message).symm
    have hold :
        (sourcePositions ⟨earlier⟩ source).filterMap (((Array.mk earlier).push message)[·]?) =
          (sourcePositions ⟨earlier⟩ source).filterMap ((Array.mk earlier)[·]?) := by
      refine List.filterMap_congr fun i hi => ?_
      have hlt : i < (Array.mk earlier).size := List.mem_range.1 (List.mem_filter.1 hi).1
      rw [Array.getElem?_push, if_neg (Nat.ne_of_lt hlt)]
    rw [hpush, sourcePositions_push, List.filterMap_append, hold, ih, Array.toList_push,
      List.filter_append]
    by_cases hsource : message.source = source <;> simp [hsource]

theorem positions_lt (h : context.WellFormed) (source : String) :
    ∀ i ∈ context.positions source, i < context.messages.size := by
  rw [h.positions_eq]
  exact fun i hi => List.mem_range.1 (List.mem_filter.1 hi).1

theorem filterMap_positions (h : context.WellFormed) (source : String) :
    (context.positions source).filterMap (context.messages[·]?) =
      context.messages.toList.filter fun message => message.source = source := by
  rw [h.positions_eq, filterMap_sourcePositions]

theorem positionOf?_bind (positions : List Nat) (key : Key) :
    (context.positionOf? positions key).bind (context.messages[·]?) =
      (positions.filterMap (context.messages[·]?)).find? fun message => message.key = key := by
  unfold positionOf?
  induction positions with
  | nil => rfl
  | cons i rest ih =>
    cases hi : context.messages[i]? with
    | none => rw [List.filterMap_cons_none hi, ← ih, List.find?_cons_of_neg (by simp [hi])]
    | some message =>
      rw [List.filterMap_cons_some hi]
      by_cases hkey : message.key = key
      · rw [List.find?_cons_of_pos (by simp [hi, hkey]),
          List.find?_cons_of_pos (by simpa using hkey), Option.bind_some, hi]
      · rw [List.find?_cons_of_neg (by simpa [hi] using hkey),
          List.find?_cons_of_neg (by simpa using hkey), ih]

theorem getElem?_of_positionOf? {positions : List Nat} {key : Key} {i : Nat}
    (h : context.positionOf? positions key = some i) : (context.messages[i]?).isSome := by
  have hkey := List.find?_some h
  cases hi : context.messages[i]? with
  | none => simp [hi] at hkey
  | some message => rfl

/-- Where positions are found for some of the keys, the first of them decides. -/
theorem findSome?_positionOf?_bind (positions : List Nat) (keys : List Key) :
    (keys.findSome? (context.positionOf? positions)).bind (context.messages[·]?) =
      keys.findSome? fun key =>
        (context.positionOf? positions key).bind (context.messages[·]?) := by
  induction keys with
  | nil => rfl
  | cons key rest ih =>
    cases hkey : context.positionOf? positions key with
    | none => rw [List.findSome?_cons, List.findSome?_cons, hkey, Option.bind_none, ih]
    | some i =>
      obtain ⟨message, hi⟩ := Option.isSome_iff_exists.1 (getElem?_of_positionOf? hkey)
      rw [List.findSome?_cons, List.findSome?_cons, hkey, Option.bind_some, hi]

theorem positionOf?_bind_eq_first (h : context.WellFormed) (source : String) (key : Key) :
    (context.positionOf? (context.positions source) key).bind (context.messages[·]?) =
      Scan.first context.messages.toList source (·.key = key) := by
  rw [positionOf?_bind, filterMap_positions h, List.find?_filter, Scan.first]
  congr 1
  funext message
  simp

/-- An exact match is the first message with one of the wanted keys. -/
theorem find?_eq_findSome? (h : context.WellFormed) (source : String)
    (disambiguation : Option String) :
    context.find? source disambiguation =
      (wantedKeys disambiguation).findSome? fun key =>
        Scan.first context.messages.toList source (·.key = key) := by
  rw [find?, findSome?_positionOf?_bind]
  simp only [positionOf?_bind_eq_first h]

/-- An exact match is found by going through the messages. -/
theorem find?_eq_exact (h : context.WellFormed) (source : String) (disambiguation : Option String) :
    context.find? source disambiguation =
      Scan.exact context.messages.toList source disambiguation := by
  rw [find?_eq_findSome? h]
  cases disambiguation with
  | none =>
    simp only [wantedKeys, List.findSome?_cons, List.findSome?_nil, Message.key_eq_plain_iff]
    show _ = Scan.first _ _ _
    cases Scan.first context.messages.toList source _ <;> rfl
  | some text =>
    simp only [wantedKeys, List.findSome?_cons, List.findSome?_nil, Message.key_eq_comment_iff,
      Message.key_eq_extraComment_iff]
    show _ = (Scan.first _ _ _).or (Scan.first _ _ _)
    cases Scan.first context.messages.toList source (·.comment = some text) with
    | some message => rfl
    | none => cases Scan.first context.messages.toList source _ <;> rfl

theorem sole?_none_eq_sole (h : context.WellFormed) (source : String) :
    context.sole? source none = Scan.sole context.messages.toList source := by
  have hget (i : Nat) (hi : i ∈ context.positions source) :
      ∃ message, context.messages[i]? = some message :=
    ⟨_, Array.getElem?_eq_getElem (positions_lt h source i hi)⟩
  rw [sole?, Scan.sole, ← filterMap_positions h]
  generalize context.positions source = positions at hget
  match positions with
  | [] => rfl
  | [i] =>
    obtain ⟨message, hi⟩ := hget i List.mem_cons_self
    rw [List.filterMap_cons_some hi, List.filterMap_nil]
    exact hi
  | i :: j :: rest =>
    obtain ⟨earlier, hi⟩ := hget i List.mem_cons_self
    obtain ⟨later, hj⟩ := hget j (List.mem_cons_of_mem _ List.mem_cons_self)
    rw [List.filterMap_cons_some hi, List.filterMap_cons_some hj]

/-- What a request gets is found by going through the messages. -/
theorem resolve?_eq_resolved (h : context.WellFormed) (source : String)
    (disambiguation : Option String) :
    context.resolve? source disambiguation =
      Scan.resolved context.messages.toList source disambiguation := by
  rw [resolve?, find?_eq_exact h, find?_eq_exact h]
  cases disambiguation with
  | none =>
    rw [sole?_none_eq_sole h]
    show (Scan.plain _ _).or ((Scan.plain _ _).or _) = (Scan.plain _ _).or _
    rw [← Option.or_assoc, Option.or_self]
  | some text =>
    show ((Scan.commented _ _ _).or (Scan.noted _ _ _)).or ((Scan.plain _ _).or none) = _
    rw [Option.or_none, Option.or_assoc]
    rfl

end Context

/-! ## Lookups in a catalog -/

namespace Scan

variable {messages : List Message} {source : String} {message : Message}

theorem mem_of_first {p : Message → Bool} (h : first messages source p = some message) :
    message ∈ messages ∧ message.source = source := by
  have hsource := List.find?_some h
  rw [decide_eq_true_iff] at hsource
  exact ⟨List.mem_of_find?_eq_some h, hsource.1⟩

theorem mem_of_sole (h : sole messages source = some message) :
    message ∈ messages ∧ message.source = source := by
  unfold sole at h
  split at h
  · rename_i only hfilter
    cases h
    have hmem : message ∈ messages.filter fun message => message.source = source := by
      rw [hfilter]
      exact List.mem_cons_self
    simpa using hmem
  · cases h

theorem mem_of_resolved {disambiguation : Option String}
    (h : resolved messages source disambiguation = some message) :
    message ∈ messages ∧ message.source = source := by
  cases disambiguation with
  | none =>
    rcases Option.or_eq_some_iff.1 h with hplain | ⟨-, hsole⟩
    · exact mem_of_first hplain
    · exact mem_of_sole hsole
  | some text =>
    rcases Option.or_eq_some_iff.1 h with hcommented | ⟨-, h⟩
    · exact mem_of_first hcommented
    · rcases Option.or_eq_some_iff.1 h with hnoted | ⟨-, hplain⟩
      · exact mem_of_first hnoted
      · exact mem_of_first hplain

end Scan

namespace Catalog

variable {catalog : Catalog}

/-- Where the values of `key` are distinct, the first element with a key is the only one. -/
theorem find?_eq_some_iff_of_nodup {α β : Type} [DecidableEq β] {key : α → β} {l : List α}
    (hl : (l.map key).Nodup) {k : β} {a : α} :
    l.find? (fun x => key x = k) = some a ↔ a ∈ l ∧ key a = k := by
  constructor
  · intro h
    exact ⟨List.mem_of_find?_eq_some h, by simpa using List.find?_some h⟩
  · rintro ⟨hmem, rfl⟩
    obtain ⟨b, hb⟩ : ∃ b, l.find? (fun x => key x = key a) = some b :=
      Option.isSome_iff_exists.1 (List.find?_isSome.2 ⟨a, hmem, by simp⟩)
    rw [hb, List.inj_on_of_nodup_map hl (List.mem_of_find?_eq_some hb) hmem
      (by simpa using List.find?_some hb)]

theorem find?_contents (h : catalog.WellFormed) (name : String) :
    catalog.contents.find? (fun entry => entry.1 = name) =
      (catalog.context? name).map fun context => (context.name, context.messages.toList) := by
  have hcontext : catalog.contexts.toList.find? (fun context => context.name = name) =
      catalog.context? name := by
    refine Option.ext fun context => ?_
    rw [find?_eq_some_iff_of_nodup h.nodup, context?_eq_some_iff h]
  rw [contents, List.find?_map, ← hcontext]
  rfl

/-- What a request gets when the contexts and then the messages of one are gone through. -/
def scan (catalog : Catalog) (context source : String) (disambiguation : Option String) :
    Option Message :=
  (catalog.contents.find? fun entry => entry.1 = context).bind fun entry =>
    Scan.resolved entry.2 source disambiguation

theorem lookup?_eq_scan (h : catalog.WellFormed) (context source : String)
    (disambiguation : Option String) :
    catalog.lookup? context source disambiguation = catalog.scan context source disambiguation := by
  rw [lookup?, scan, find?_contents h]
  cases hcontext : catalog.context? context with
  | none => rfl
  | some found =>
    have hfound := h.contexts found ((context?_eq_some_iff h).1 hcontext).1
    exact Context.resolve?_eq_resolved hfound source disambiguation

theorem mem_of_lookup? (h : catalog.WellFormed) {context source : String}
    {disambiguation : Option String} {message : Message}
    (hlookup : catalog.lookup? context source disambiguation = some message) :
    (∃ found ∈ catalog.contexts.toList, message ∈ found.messages.toList) ∧
      message.source = source := by
  obtain ⟨found, hfound, hresolve⟩ := Option.bind_eq_some_iff.1 hlookup
  have hmem := ((context?_eq_some_iff h).1 hfound).1
  rw [Context.resolve?_eq_resolved (h.contexts found hmem)] at hresolve
  obtain ⟨hmessage, hsource⟩ := Scan.mem_of_resolved hresolve
  exact ⟨⟨found, hmem, hmessage⟩, hsource⟩

/-- The indexes of a catalog never show: lookups are scans, what a scan looks for is there at most
once, and every stored position is one of a context or of a message. -/
structure Scanned (catalog : Catalog) : Prop where
  lookup : ∀ context source disambiguation,
    catalog.lookup? context source disambiguation = catalog.scan context source disambiguation
  find : ∀ context ∈ catalog.contexts.toList, ∀ source disambiguation,
    context.find? source disambiguation = Scan.exact context.messages.toList source disambiguation
  names : (catalog.contents.map Prod.fst).Nodup
  identities : ∀ context ∈ catalog.contexts.toList,
    (context.messages.toList.map Message.identity).Nodup
  index_lt : ∀ (name : String) (i : Nat), catalog.index[name]? = some i → i < catalog.contexts.size
  positions_lt : ∀ context ∈ catalog.contexts.toList, ∀ source, ∀ i ∈ context.positions source,
    i < context.messages.size

/-- Every lookup in a catalog that was built or read is a scan of its messages. -/
theorem Reachable.scanned (hreachable : Reachable catalog) : Scanned catalog where
  lookup := lookup?_eq_scan hreachable.wellFormed
  find context hmem := Context.find?_eq_exact (hreachable.wellFormed.contexts context hmem)
  names := by
    rw [contents, List.map_map]
    exact hreachable.wellFormed.nodup
  identities context hmem := (hreachable.wellFormed.contexts context hmem).nodup
  index_lt name i hindex := by
    obtain ⟨context, hi, -⟩ :=
      Option.map_eq_some_iff.1 ((hreachable.wellFormed.index_eq name i).1 hindex)
    exact (Array.getElem?_eq_some_iff.1 hi).1
  positions_lt context hmem := Context.positions_lt (hreachable.wellFormed.contexts context hmem)

/-- Two messages with one source text, told apart by a comment and by an extra comment. -/
def toldApart : List Step :=
  [.add "Player"
      { source := "Open", extraComment := some "verb", translation := .single "Otwarte" },
    .add "Player" { source := "Open", comment := some "verb", translation := .single "Otwórz" }]

/-- The comment wins, although the message with the extra comment came first. -/
theorem Reachable.scanned_toldApart :
    Reachable (Run.ofSteps toldApart).builder.build ∧
      (Run.ofSteps toldApart).builder.build.lookup? "Player" "Open" (some "verb") =
        some { source := "Open", comment := some "verb", translation := .single "Otwórz" } ∧
      (Run.ofSteps toldApart).builder.build.lookup? "Player" "Open" none = none := by
  have hscanned := Reachable.scanned (.built toldApart)
  rw [hscanned.lookup, hscanned.lookup, scan, scan, Run.contents_ofSteps]
  exact ⟨.built toldApart, by decide, by decide⟩

end Catalog

end Phrasebook
