import Mathlib.Data.List.Nodup
import Phrasebook.Context

/-!
# Where messages go in a context

In a well-formed context the index leads from each source text to the positions of its messages, in
order, and no two messages share source and key. Insertion keeps both (`WellFormed.insert`). In such
a context the index can be forgotten: `place` depends on the stored messages alone (`place_of_new`,
`place_of_taken`), and inserting is `settle` on their list (`toList_insert`).
-/

namespace Phrasebook

/-- What no two messages of a context share. -/
def Message.identity (message : Message) : String × Key := (message.source, message.key)

/-- The list of messages of a context after one more message has come. -/
def settle (stored : List Message) (message : Message) : List Message :=
  if message.identity ∈ stored.map Message.identity then
    stored.map fun first =>
      if first.identity = message.identity ∧ first.sameTranslation message = true then
        Context.withLocations first message.locations
      else first
  else stored ++ [message]

@[simp] theorem withLocations_nil (message : Message) :
    Context.withLocations message [] = message := by
  unfold Context.withLocations
  rw [List.append_nil]

theorem withLocations_append (message : Message) (as bs : List Location) :
    Context.withLocations message (as ++ bs) =
      Context.withLocations (Context.withLocations message as) bs := by
  unfold Context.withLocations
  rw [List.append_assoc]

@[simp] theorem sameTranslation_withLocations (first message : Message)
    (locations : List Location) :
    (Context.withLocations first locations).sameTranslation message =
      first.sameTranslation message := rfl

@[simp] theorem identity_withLocations (message : Message) (locations : List Location) :
    (Context.withLocations message locations).identity = message.identity := rfl

theorem map_identity_settle (stored : List Message) (message : Message) :
    (settle stored message).map Message.identity =
      stored.map Message.identity ++
        if message.identity ∈ stored.map Message.identity then [] else [message.identity] := by
  unfold settle
  split
  · rw [List.map_map, List.append_nil]
    refine List.map_congr_left fun first _ => ?_
    show (ite _ _ _ : Message).identity = _
    split <;> rfl
  · rw [List.map_append, List.map_singleton]

theorem modify_eq_map_of_nodup {α β : Type} [DecidableEq β] {key : α → β} {l : List α}
    (hl : (l.map key).Nodup) {i : Nat} {a : α} (hi : l[i]? = some a) (change : α → α) :
    l.modify i change = l.map fun x => if key x = key a then change x else x := by
  refine List.ext_getElem? fun j => ?_
  rw [List.getElem?_modify, List.getElem?_map]
  cases hj : l[j]? with
  | none => rfl
  | some b =>
    by_cases hij : i = j
    · obtain rfl : a = b := by rw [hij, hj] at hi; exact (Option.some.inj hi).symm
      simp [hij]
    · have hne : key b ≠ key a := by
        intro hkey
        have hlt : i < (l.map key).length := by
          rw [List.length_map]; exact (List.getElem?_eq_some_iff.1 hi).1
        refine hij ((List.getElem?_inj hlt hl).1 ?_)
        rw [List.getElem?_map, List.getElem?_map, hi, hj, Option.map_some, Option.map_some, hkey]
      simp [hij, hne]

namespace Context

/-- The positions of the messages with a source text. -/
def sourcePositions (messages : Array Message) (source : String) : List Nat :=
  (List.range messages.size).filter fun i => (messages[i]?.map Message.source) == some source

/-- The index agrees with the messages, and messages differ in source or key. -/
structure WellFormed (context : Context) : Prop where
  positions_eq : ∀ source, context.positions source = sourcePositions context.messages source
  nodup : (context.messages.toList.map Message.identity).Nodup

theorem wellFormed_empty (name : String) : WellFormed { name } where
  positions_eq source := by simp [positions, sourcePositions]
  nodup := List.nodup_nil

variable {context : Context}

/-! ## Looking a message up by source and key -/

theorem getElem?_identity {i : Nat} {source : String} {key : Key} :
    context.messages[i]?.map Message.identity = some (source, key) ↔
      context.messages[i]?.map Message.source = some source ∧
        context.messages[i]?.map Message.key = some key := by
  cases context.messages[i]? <;> simp [Message.identity]

theorem WellFormed.position_inj (h : context.WellFormed) {i j : Nat} {id : String × Key}
    (hi : context.messages[i]?.map Message.identity = some id)
    (hj : context.messages[j]?.map Message.identity = some id) : i = j := by
  have hget (k : Nat) : (context.messages.toList.map Message.identity)[k]? =
      context.messages[k]?.map Message.identity := by
    rw [List.getElem?_map, Array.getElem?_toList]
  rw [← hget] at hi hj
  exact (List.getElem?_inj (List.getElem?_eq_some_iff.1 hi).1 h.nodup).1 (hi.trans hj.symm)

theorem positionOf?_eq_some_iff (h : context.WellFormed) {source : String} {key : Key} {i : Nat} :
    context.positionOf? (context.positions source) key = some i ↔
      context.messages[i]?.map Message.identity = some (source, key) := by
  rw [positionOf?, h.positions_eq, sourcePositions, List.find?_filter, List.find?_range_eq_some,
    getElem?_identity]
  constructor
  · rintro ⟨hi, -, -⟩
    simpa using hi
  · intro hi
    have hlt : i < context.messages.size := by
      obtain ⟨m, hm, -⟩ := Option.map_eq_some_iff.1 hi.1
      exact (Array.getElem?_eq_some_iff.1 hm).1
    refine ⟨by simpa using hi, List.mem_range.2 hlt, fun j hj => ?_⟩
    by_contra hmatch
    have hj' : context.messages[j]?.map Message.identity = some (source, key) :=
      getElem?_identity.2 (by simpa using hmatch)
    have hpos := h.position_inj (getElem?_identity.2 hi) hj'
    omega

theorem positionOf?_eq_none_iff (h : context.WellFormed) {source : String} {key : Key} :
    context.positionOf? (context.positions source) key = none ↔
      (source, key) ∉ context.messages.toList.map Message.identity := by
  rw [Option.eq_none_iff_forall_ne_some]
  simp only [ne_eq, positionOf?_eq_some_iff h, List.mem_iff_getElem?, List.getElem?_map,
    Array.getElem?_toList, not_exists]

/-! ## Placement -/

theorem place_of_new (h : context.WellFormed) {message : Message}
    (hnew : message.identity ∉ context.messages.toList.map Message.identity) :
    context.place message = .fresh := by
  rw [place, (positionOf?_eq_none_iff h).2 hnew]

theorem place_of_taken (h : context.WellFormed) {message first : Message} {i : Nat}
    (hi : context.messages[i]? = some first) (hid : first.identity = message.identity) :
    context.place message =
      if first.sameTranslation message = true then .merges i else .conflicts i := by
  have hpos : context.positionOf? (context.positions message.source) message.key = some i := by
    rw [positionOf?_eq_some_iff h, hi, Option.map_some, hid]; rfl
  rw [place, hpos]
  simp only [hi, Option.any_some]

theorem exists_of_mem_identity {id : String × Key}
    (hid : id ∈ context.messages.toList.map Message.identity) :
    ∃ (i : Nat) (first : Message), context.messages[i]? = some first ∧ first.identity = id := by
  obtain ⟨first, hmem, rfl⟩ := List.mem_map.1 hid
  obtain ⟨i, hi⟩ := List.mem_iff_getElem?.1 hmem
  exact ⟨i, first, Array.getElem?_toList ▸ hi, rfl⟩

theorem mem_toList_of_getElem? {i : Nat} {message : Message}
    (hi : context.messages[i]? = some message) : message ∈ context.messages.toList := by
  rw [← Array.getElem?_toList] at hi
  exact List.mem_of_getElem? hi

theorem WellFormed.eq_of_identity (h : context.WellFormed) {a b : Message}
    (ha : a ∈ context.messages.toList) (hb : b ∈ context.messages.toList)
    (hid : a.identity = b.identity) : a = b :=
  List.inj_on_of_nodup_map h.nodup ha hb hid

theorem place_conflicts_iff (h : context.WellFormed) {message : Message} :
    (∃ i, context.place message = .conflicts i) ↔
      ∃ first ∈ context.messages.toList,
        first.identity = message.identity ∧ first.sameTranslation message = false := by
  by_cases hid : message.identity ∈ context.messages.toList.map Message.identity
  · obtain ⟨i, first, hi, hfirst⟩ := exists_of_mem_identity hid
    have hmem := mem_toList_of_getElem? hi
    rw [place_of_taken h hi hfirst]
    constructor
    · rintro ⟨j, hconflict⟩
      refine ⟨first, hmem, hfirst, ?_⟩
      cases hsame : first.sameTranslation message with
      | false => rfl
      | true => rw [hsame, if_pos rfl] at hconflict; cases hconflict
    · rintro ⟨other, hother, hidentity, hdiffers⟩
      obtain rfl := h.eq_of_identity hother hmem (hidentity.trans hfirst.symm)
      exact ⟨i, by rw [hdiffers, if_neg Bool.false_ne_true]⟩
  · rw [place_of_new h hid]
    constructor
    · rintro ⟨i, hconflict⟩
      cases hconflict
    · rintro ⟨first, hmem, hfirst, -⟩
      exact absurd (List.mem_map.2 ⟨first, hmem, hfirst⟩) hid

/-! ## Insertion -/

theorem toList_insert (h : context.WellFormed) (message : Message) :
    (context.insert message).messages.toList = settle context.messages.toList message := by
  unfold settle
  by_cases hid : message.identity ∈ context.messages.toList.map Message.identity
  · rw [if_pos hid]
    obtain ⟨i, first, hi, hfirst⟩ := exists_of_mem_identity hid
    -- only one stored message has this source and key, so one position stands for the condition
    have hsame : ∀ other ∈ context.messages.toList, other.identity = message.identity →
        other = first := fun other hother hidentity =>
      h.eq_of_identity hother (mem_toList_of_getElem? hi) (hidentity.trans hfirst.symm)
    rw [insert, place_of_taken h hi hfirst]
    by_cases hjoin : first.sameTranslation message = true
    · rw [if_pos hjoin]
      show (context.messages.modify i _).toList = _
      rw [Array.toList_modify, modify_eq_map_of_nodup h.nodup (by rw [Array.getElem?_toList, hi])]
      refine List.map_congr_left fun other hother => ?_
      rw [hfirst]
      by_cases hidentity : other.identity = message.identity
      · rw [if_pos hidentity, if_pos ⟨hidentity, hsame other hother hidentity ▸ hjoin⟩]
      · rw [if_neg hidentity, if_neg fun hboth => hidentity hboth.1]
    · rw [if_neg hjoin]
      refine ((List.map_congr_left fun other hother => ?_).trans (List.map_id _)).symm
      refine if_neg fun hboth => hjoin ?_
      rw [← hsame other hother hboth.1]
      exact hboth.2
  · rw [if_neg hid, insert, place_of_new h hid]
    exact Array.toList_push

theorem name_insert (context : Context) (message : Message) :
    (context.insert message).name = context.name := by
  unfold insert
  split <;> rfl

theorem sourcePositions_push (messages : Array Message) (message : Message) (source : String) :
    sourcePositions (messages.push message) source =
      sourcePositions messages source ++
        if message.source = source then [messages.size] else [] := by
  have hold : ∀ i ∈ List.range messages.size, (messages.push message)[i]? = messages[i]? := by
    intro i hi
    rw [Array.getElem?_push, if_neg (Nat.ne_of_lt (List.mem_range.1 hi))]
  unfold sourcePositions
  rw [Array.size_push, List.range_succ, List.filter_append]
  congr 1
  · exact List.filter_congr fun i hi => by rw [hold i hi]
  · by_cases hsource : message.source = source <;> simp [hsource]

theorem sourcePositions_modify (messages : Array Message) (source : String) (i : Nat)
    (locations : List Location) :
    sourcePositions (messages.modify i (withLocations · locations)) source =
      sourcePositions messages source := by
  unfold sourcePositions
  rw [Array.size_modify]
  refine List.filter_congr fun j _ => ?_
  rw [Array.getElem?_modify]
  split
  · rw [Option.map_map]; rfl
  · rfl

theorem WellFormed.insert (h : context.WellFormed) (message : Message) :
    (context.insert message).WellFormed where
  nodup := by
    rw [toList_insert h, map_identity_settle]
    split
    · rw [List.append_nil]
      exact h.nodup
    · rename_i hnew
      exact List.nodup_append.2 ⟨h.nodup, List.nodup_singleton _, by
        rintro a ha b hb rfl
        exact hnew (List.mem_singleton.1 hb ▸ ha)⟩
  positions_eq source := by
    have hold := h.positions_eq
    unfold Context.insert
    split
    · show (context.index.insert _ _).getD source [] = sourcePositions (context.messages.push _) _
      rw [Std.HashMap.getD_insert, sourcePositions_push]
      by_cases hsource : message.source = source
      · rw [if_pos (beq_iff_eq.2 hsource), if_pos hsource, hold, hsource]; rfl
      · rw [if_neg (by rwa [beq_iff_eq]), if_neg hsource, List.append_nil]
        exact hold source
    · exact (hold source).trans (sourcePositions_modify _ _ _ _).symm
    · exact hold source

end Context

end Phrasebook
