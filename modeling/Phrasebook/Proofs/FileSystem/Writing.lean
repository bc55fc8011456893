import Phrasebook.Proofs.FileSystem.Entry

/-!
# Writing a file

A write that succeeds changes what is at one place and nothing else: the path leads to this place
afterwards, and the content there is what was written (`wroteOnly_of_write`). The walk along the
path is the same as before, because a file never takes the place of a directory (`enter_set`).
-/

namespace Phrasebook.FileSystem

variable {files after : FileSystem} {place target : Place} {node : Node}

theorem nodeAt?_set_self (htarget : target ≠ []) :
    (files.set target node).nodeAt? target = some node := by
  rw [nodeAt?, if_neg (by simpa using htarget), set]
  exact List.lookup_cons_self

theorem lookup_filter_ne (nodes : List (Place × Node)) (hne : place ≠ target) :
    (nodes.filter fun (other, _) => other != target).lookup place = nodes.lookup place := by
  induction nodes with
  | nil => rfl
  | cons entry rest ih =>
    obtain ⟨other, held⟩ := entry
    by_cases hother : other = target
    · rw [List.filter_cons_of_neg (by simpa using hother), ih, List.lookup_cons, hother,
        beq_false_of_ne hne]
    · rw [List.filter_cons_of_pos (by simpa using hother), List.lookup_cons, List.lookup_cons, ih]

theorem nodeAt?_set_of_ne (hne : place ≠ target) :
    (files.set target node).nodeAt? place = files.nodeAt? place := by
  unfold nodeAt?
  split
  · rfl
  · rw [set, List.lookup_cons, beq_false_of_ne hne]
    exact lookup_filter_ne files.nodes hne

/-- What takes the place of no directory is in nobody's way. -/
theorem enter_set {part : String} {next : Place} (htarget : files.nodeAt? target ≠ some .directory)
    (henter : files.enter place part = .ok next) :
    (files.set target node).enter place part = .ok next := by
  -- the walk stands in a directory, so this place is not the one that changes
  have hplace := nodeAt?_of_enter henter
  have hne : place ≠ target := by
    rintro rfl
    exact htarget hplace
  have hroot : target ≠ [] := by
    rintro rfl
    exact htarget rfl
  have hkept (other : Place) (hother : (files.nodeAt? other).isSome) :
      ((files.set target node).nodeAt? other).isSome := by
    by_cases hsame : other = target
    · rw [hsame, nodeAt?_set_self hroot]
      rfl
    · rwa [nodeAt?_set_of_ne hsame]
  unfold enter at henter ⊢
  rw [nodeAt?_set_of_ne hne, hplace]
  rw [hplace] at henter
  dsimp only at henter ⊢
  by_cases hself : part = "" ∨ part = "."
  · rwa [if_pos hself] at henter ⊢
  · rw [if_neg hself] at henter ⊢
    by_cases hup : part = ".."
    · rwa [if_pos hup] at henter ⊢
    · rw [if_neg hup] at henter ⊢
      by_cases hentry : (files.nodeAt? (part :: place)).isSome
      · rw [if_pos hentry] at henter
        rw [if_pos (hkept _ hentry)]
        exact henter
      · rw [if_neg hentry] at henter
        cases henter

theorem foldlM_enter_set {parts : List String} {next : Place}
    (htarget : files.nodeAt? target ≠ some .directory)
    (hrun : parts.foldlM files.enter place = .ok next) :
    parts.foldlM (files.set target node).enter place = .ok next := by
  induction parts generalizing place with
  | nil => exact hrun
  | cons part rest ih =>
    rw [List.foldlM_cons] at hrun ⊢
    obtain ⟨inner, henter, hrun⟩ := bind_eq_ok_iff.1 hrun
    rw [enter_set htarget henter]
    exact ih hrun

/-- The file at a path has new content, and nothing else has changed. -/
structure WroteOnly (files after : FileSystem) (path : String) (content : ByteArray) : Prop where
  read : after.read path = .ok content
  elsewhere : ∃ target, after.locate path = .ok target ∧
    ∀ place, place ≠ target → after.nodeAt? place = files.nodeAt? place
  workingDirectory : after.workingDirectory = files.workingDirectory

theorem wroteOnly_of_write {path : String} {content : ByteArray}
    (hwrite : files.write path content = .ok after) : WroteOnly files after path content := by
  obtain ⟨hpath, outer, last, place, hparts, hlast, hrun, hplace, htarget, rfl⟩ :=
    exists_of_write hwrite
  have hne : place ≠ last :: place := by
    intro h
    exact absurd (congrArg List.length h) (by simp)
  have hnode : (files.set (last :: place) (.file content)).nodeAt? (last :: place) =
      some (.file content) := nodeAt?_set_self (List.cons_ne_nil _ _)
  have hlocate : (files.set (last :: place) (.file content)).locate path = .ok (last :: place) := by
    have hwalk : outer.foldlM (files.set (last :: place) (.file content)).enter (files.start path) =
        .ok place := foldlM_enter_set htarget hrun
    have hdirectory : (files.set (last :: place) (.file content)).nodeAt? place = some .directory :=
      (nodeAt?_set_of_ne hne).trans hplace
    have henter := enter_of_isEntryName hdirectory hlast
    rw [if_pos (Option.isSome_of_eq_some hnode)] at henter
    rw [locate_of_ne_empty hpath, hparts, foldlM_enter_concat]
    exact bind_eq_ok_iff.2 ⟨place, hwalk, henter⟩
  exact {
    read := read_eq_ok_iff.2 ⟨_, hlocate, hnode⟩
    elsewhere := ⟨_, hlocate, fun other => nodeAt?_set_of_ne⟩
    workingDirectory := rfl }

theorem readText_of_read {path text : String} (hread : files.read path = .ok text.toUTF8) :
    files.readText path = .ok text := by
  have hdecoded : String.fromUTF8? text.toUTF8 = some text := dif_pos text.isValidUTF8
  simp only [readText, hread, bind, Except.bind, hdecoded]
  rfl

end Phrasebook.FileSystem
