import Phrasebook.FileSystem
import Phrasebook.Proofs.Result
import Phrasebook.Proofs.Text.Splitting

/-!
# Entries of a directory

A path joined from a directory and a proper name leads to that entry of that directory
(`locate_join`), so it leads to a file exactly where the entry is one (`isFile_join_iff`). What a
directory lists are its entries (`mem_list?_iff`), and in a well-formed file system they have proper
names. Files and directories that are put at places keep a file system well-formed, and so does
writing to a path (`WellFormed.write`): none of its parts has a slash in it.
-/

namespace Phrasebook

/-- A name that an entry of a directory can have. -/
def IsEntryName (name : String) : Prop :=
  name ≠ "" ∧ name ≠ "." ∧ name ≠ ".." ∧ '/' ∉ name.toList

instance (name : String) : Decidable (IsEntryName name) := inferInstanceAs (Decidable (_ ∧ _))

namespace IsEntryName

variable {name : String}

theorem slash_notMem (hname : IsEntryName name) : '/' ∉ name.toList := hname.2.2.2

theorem not_isAbsolute (hname : IsEntryName name) : Path.isAbsolute name = false := by
  rw [Path.isAbsolute, beq_eq_false_iff_ne]
  exact fun hhead => hname.slash_notMem (List.mem_of_head? hhead)

end IsEntryName

namespace Path

theorem splitOnP_slash_of_notMem {cs : List Char} (hcs : '/' ∉ cs) :
    cs.splitOnP (· == '/') = [cs] := by
  refine List.splitOnP_eq_singleton fun c hc => ?_
  exact beq_false_of_ne (ne_of_mem_of_not_mem hc hcs)

theorem slash_notMem_of_mem_parts {path part : String} (hpart : part ∈ parts path) :
    '/' ∉ part.toList := by
  obtain ⟨piece, hpiece, rfl⟩ := List.mem_map.mp hpart
  rw [String.toList_ofList]
  intro hslash
  exact absurd (Text.of_mem_splitOnP hpiece '/' hslash).2 (by decide)

/-- The parts of a path that ends with a name after a slash. -/
theorem parts_append_slash {before name : String} (hname : '/' ∉ name.toList) :
    parts (before ++ "/" ++ name) = parts before ++ [name] := by
  have hcut : (before ++ "/" ++ name).toList = before.toList ++ '/' :: name.toList := by simp
  rw [parts, hcut, List.splitOnP_append_cons _ _ (by rfl), splitOnP_slash_of_notMem hname]
  simp [parts]

theorem join_of_isEntryName {directory name : String} (hname : IsEntryName name) :
    join directory name =
      if directory.isEmpty || directory.toList.getLast? == some '/' then directory ++ name
      else directory ++ "/" ++ name := by
  rw [join, hname.not_isAbsolute]
  rfl

theorem isAbsolute_join {directory name : String} (hdirectory : directory ≠ "")
    (hname : IsEntryName name) :
    isAbsolute (join directory name) = isAbsolute directory := by
  have hne : directory.toList ≠ [] := by simpa using hdirectory
  have happend (rest : String) : isAbsolute (directory ++ rest) = isAbsolute directory := by
    rw [isAbsolute, isAbsolute, String.toList_append, List.head?_append,
      List.head?_eq_some_head hne, Option.some_or]
  rw [join_of_isEntryName hname]
  split
  · exact happend name
  · rw [String.append_assoc]
    exact happend ("/" ++ name)

/-- The name comes after the parts of the directory, or takes the place of the empty part that the
slash at the end of the directory leaves. -/
theorem parts_join {directory name : String} (hdirectory : directory ≠ "")
    (hname : IsEntryName name) :
    parts (join directory name) = parts directory ++ [name] ∨
      ∃ before, parts directory = before ++ [""] ∧
        parts (join directory name) = before ++ [name] := by
  have hslash := hname.slash_notMem
  by_cases hlast : directory.toList.getLast? = some '/'
  · obtain ⟨outer, houter⟩ := List.getLast?_eq_some_iff.mp hlast
    have hcut : directory = String.ofList outer ++ "/" := by
      rw [← String.toList_inj, houter]
      simp
    refine .inr ⟨parts (String.ofList outer), ?_, ?_⟩
    · rw [hcut, ← parts_append_slash (by decide : '/' ∉ "".toList), String.append_empty]
    · rw [join_of_isEntryName hname, if_pos (by simp [hlast]), hcut, parts_append_slash hslash]
  · refine .inl ?_
    rw [join_of_isEntryName hname, if_neg (by simp [hlast, hdirectory]), parts_append_slash hslash]

end Path

namespace FileSystem

variable {files : FileSystem} {place : Place} {directory name : String}

theorem locate_of_ne_empty {path : String} (hpath : path ≠ "") :
    files.locate path = (Path.parts path).foldlM files.enter (files.start path) := by
  rw [locate, if_neg (by simpa using hpath)]

theorem foldlM_enter_concat (before : List String) (part : String) :
    (before ++ [part]).foldlM files.enter place =
      before.foldlM files.enter place >>= fun next => files.enter next part := by
  simp only [List.foldlM_append, List.foldlM_cons, List.foldlM_nil, bind_pure]

theorem enter_empty_eq_ok {next : Place} (henter : files.enter place "" = .ok next) :
    next = place := by
  unfold enter at henter
  grind

/-- A path into a directory is gone along from where the path of the directory starts. -/
theorem locate_join_eq_foldlM (files : FileSystem) (hdirectory : directory ≠ "")
    (hname : IsEntryName name) :
    files.locate (Path.join directory name) =
      (Path.parts (Path.join directory name)).foldlM files.enter (files.start directory) := by
  have hjoin : Path.join directory name ≠ "" := by
    rw [Path.join_of_isEntryName hname]
    split <;> simp [hdirectory]
  have hstart : files.start (Path.join directory name) = files.start directory := by
    rw [start, start, Path.isAbsolute_join hdirectory hname]
  rw [locate_of_ne_empty hjoin, hstart]

theorem locate_join (hlocate : files.locate directory = .ok place) (hname : IsEntryName name) :
    files.locate (Path.join directory name) = files.enter place name := by
  have hdirectory : directory ≠ "" := by
    rintro rfl
    cases hlocate
  rw [locate_of_ne_empty hdirectory] at hlocate
  rw [locate_join_eq_foldlM files hdirectory hname]
  rcases Path.parts_join hdirectory hname with hparts | ⟨before, hbefore, hparts⟩
  · rw [hparts, foldlM_enter_concat, hlocate]
    rfl
  · rw [hbefore, foldlM_enter_concat] at hlocate
    rw [hparts, foldlM_enter_concat]
    obtain ⟨outer, houter, henter⟩ := bind_eq_ok_iff.1 hlocate
    rw [houter, enter_empty_eq_ok henter]
    rfl

theorem enter_of_isEntryName (hplace : files.nodeAt? place = some .directory)
    (hname : IsEntryName name) :
    files.enter place name =
      if (files.nodeAt? (name :: place)).isSome then .ok (name :: place) else .error .notFound := by
  obtain ⟨hempty, hdot, hup, -⟩ := hname
  rw [enter, hplace]
  dsimp only
  rw [if_neg (not_or_intro hempty hdot), if_neg hup]

theorem read_eq_ok_iff {path : String} {content : ByteArray} : files.read path = .ok content ↔
    ∃ place, files.locate path = .ok place ∧ files.nodeAt? place = some (.file content) := by
  rw [read, bind_eq_ok_iff]
  refine exists_congr fun place => and_congr_right fun _ => ?_
  cases files.nodeAt? place with
  | none => exact iff_of_false nofun nofun
  | some node =>
    cases node with
    | file held =>
      constructor <;> intro h <;> cases h <;> rfl
    | directory => exact iff_of_false nofun nofun

theorem isFile_iff {path : String} :
    files.isFile path = true ↔ ∃ content, files.read path = .ok content := by
  rw [isFile]
  cases files.read path with
  | error fault => exact iff_of_false Bool.false_ne_true nofun
  | ok content => exact iff_of_true rfl ⟨content, rfl⟩

/-- The path of an entry leads to a file exactly if the entry is one. -/
theorem isFile_join_iff (hlocate : files.locate directory = .ok place)
    (hplace : files.nodeAt? place = some .directory) (hname : IsEntryName name) :
    files.isFile (Path.join directory name) = true ↔
      ∃ content, files.nodeAt? (name :: place) = some (.file content) := by
  have hjoin := (locate_join hlocate hname).trans (enter_of_isEntryName hplace hname)
  simp only [isFile_iff, read_eq_ok_iff]
  constructor
  · rintro ⟨content, target, htarget, hnode⟩
    rw [hjoin] at htarget
    split at htarget <;> cases htarget
    exact ⟨content, hnode⟩
  · rintro ⟨content, hnode⟩
    refine ⟨content, name :: place, ?_, hnode⟩
    rw [hjoin, if_pos (Option.isSome_of_eq_some hnode)]

theorem mem_namesIn_iff : name ∈ files.namesIn place ↔ (files.nodeAt? (name :: place)).isSome := by
  rw [nodeAt?, if_neg (by simp), List.lookup_isSome_iff, namesIn, List.mem_filterMap]
  constructor
  · rintro ⟨⟨inner, node⟩, hmem, hinner⟩
    refine ⟨(inner, node), hmem, beq_iff_eq.mpr ?_⟩
    grind
  · rintro ⟨⟨inner, node⟩, hmem, hinner⟩
    obtain rfl := eq_of_beq hinner
    exact ⟨_, hmem, if_pos rfl⟩

theorem mem_list?_iff : name ∈ (files.list? directory).getD [] ↔
    ∃ place, files.locate directory = .ok place ∧ files.nodeAt? place = some .directory ∧
      (files.nodeAt? (name :: place)).isSome := by
  unfold list?
  cases files.locate directory with
  | error fault => simp
  | ok place =>
    cases hplace : files.nodeAt? place with
    | none => simp [hplace]
    | some node => cases node <;> simp [hplace, mem_namesIn_iff]

/-- Only in a directory can one go on. -/
theorem nodeAt?_of_enter {part : String} {next : Place}
    (henter : files.enter place part = .ok next) :
    files.nodeAt? place = some .directory := by
  unfold enter at henter
  split at henter
  · cases henter
  · cases henter
  · assumption

/-- A write that succeeds puts a file into a directory. The path leads to the directory, and its
last part is a proper name there, of a file or of nothing yet. -/
theorem exists_of_write {path : String} {content : ByteArray} {after : FileSystem}
    (hwrite : files.write path content = .ok after) :
    path ≠ "" ∧ ∃ outer last place, Path.parts path = outer ++ [last] ∧ IsEntryName last ∧
      outer.foldlM files.enter (files.start path) = .ok place ∧
      files.nodeAt? place = some .directory ∧ files.nodeAt? (last :: place) ≠ some .directory ∧
      after = files.set (last :: place) (.file content) := by
  simp only [FileSystem.write] at hwrite
  split at hwrite
  · cases hwrite
  rename_i hpath
  refine ⟨by simpa using hpath, ?_⟩
  split at hwrite
  · cases hwrite
  rename_i last outer hparts
  obtain ⟨place, hrun, hwrite⟩ := bind_eq_ok_iff.1 hwrite
  rw [foldlM_enter_concat] at hrun
  obtain ⟨next, hrun, henter⟩ := bind_eq_ok_iff.1 hrun
  obtain rfl := enter_empty_eq_ok henter
  split at hwrite
  · cases hwrite
  rename_i hplain
  rw [not_or, not_or] at hplain
  -- nothing was dropped behind the last part, so the path has no slash at its end
  have hreverse : last :: outer = (Path.parts path).reverse := by
    have hsuffix := List.dropWhile_suffix (l := (Path.parts path).reverse) String.isEmpty
    rw [hparts] at hsuffix
    apply hsuffix.eq_of_length
    have hlength := hsuffix.length_le
    rw [List.length_reverse, List.length_cons] at hlength ⊢
    omega
  have hsplit : Path.parts path = outer.reverse ++ [last] := by
    rw [← List.reverse_cons, hreverse, List.reverse_reverse]
  have hlast : IsEntryName last := by
    have hmem : last ∈ Path.parts path := by
      rw [hsplit]
      exact List.mem_append_right _ List.mem_cons_self
    refine ⟨?_, hplain.2.1, hplain.2.2, Path.slash_notMem_of_mem_parts hmem⟩
    have hhead := List.head?_dropWhile_not String.isEmpty (Path.parts path).reverse
    rw [hparts] at hhead
    simpa using hhead
  split at hwrite
  · cases hwrite
  · rename_i hnode
    cases hwrite
    exact ⟨outer.reverse, last, place, hsplit, hlast, hrun, nodeAt?_of_enter henter, hnode, rfl⟩

/-- Every part of every place is a proper name. -/
structure WellFormed (files : FileSystem) : Prop where
  nodes : ∀ entry ∈ files.nodes, ∀ name ∈ entry.1, IsEntryName name
  workingDirectory : ∀ name ∈ files.workingDirectory, IsEntryName name

namespace WellFormed

theorem isEntryName_of_nodeAt? (hfiles : files.WellFormed) {node : Node}
    (hnode : files.nodeAt? (name :: place) = some node) : IsEntryName name := by
  rw [nodeAt?, if_neg (by simp)] at hnode
  obtain ⟨entry, hentry, hplace⟩ := List.lookup_isSome_iff.mp (Option.isSome_of_eq_some hnode)
  refine hfiles.nodes entry hentry name ?_
  rw [← eq_of_beq hplace]
  exact List.mem_cons_self

theorem set (hfiles : files.WellFormed) (hplace : ∀ name ∈ place, IsEntryName name) (node : Node) :
    (files.set place node).WellFormed where
  nodes := by
    intro entry hentry
    rcases List.mem_cons.mp hentry with rfl | hentry
    · exact hplace
    · exact hfiles.nodes entry (List.mem_filter.mp hentry).1
  workingDirectory := hfiles.workingDirectory

theorem makeDirectories (hfiles : files.WellFormed) (hplace : ∀ name ∈ place, IsEntryName name) :
    (files.makeDirectories place).WellFormed := by
  induction place with
  | nil => exact hfiles
  | cons name outer ih =>
    have houter := ih (List.forall_mem_cons.mp hplace).2
    unfold FileSystem.makeDirectories
    dsimp only
    split
    · exact houter
    · exact houter.set hplace .directory

theorem addFile (hfiles : files.WellFormed) (hplace : ∀ name ∈ place, IsEntryName name)
    (content : ByteArray) : (files.addFile place content).WellFormed := by
  have houter : ∀ name ∈ place.tail, IsEntryName name :=
    fun name hname => hplace name (List.mem_of_mem_tail hname)
  exact (hfiles.makeDirectories houter).set hplace (.file content)

theorem enter {part : String} {next : Place} (hplace : ∀ name ∈ place, IsEntryName name)
    (hpart : '/' ∉ part.toList) (henter : files.enter place part = .ok next) :
    ∀ name ∈ next, IsEntryName name := by
  unfold FileSystem.enter at henter
  split at henter <;> try cases henter
  split at henter
  · cases henter
    exact hplace
  · rename_i hself
    split at henter
    · cases henter
      exact fun name hname => hplace name (List.mem_of_mem_tail hname)
    · rename_i hup
      split at henter <;> cases henter
      rw [not_or] at hself
      exact List.forall_mem_cons.mpr ⟨⟨hself.1, hself.2, hup, hpart⟩, hplace⟩

theorem foldlM_enter {parts : List String} (hparts : ∀ part ∈ parts, '/' ∉ part.toList)
    {next : Place} (hplace : ∀ name ∈ place, IsEntryName name)
    (hrun : parts.foldlM files.enter place = .ok next) :
    ∀ name ∈ next, IsEntryName name := by
  induction parts generalizing place with
  | nil =>
    cases hrun
    exact hplace
  | cons part parts ih =>
    rw [List.forall_mem_cons] at hparts
    rw [List.foldlM_cons] at hrun
    obtain ⟨inner, henter, hrun⟩ := bind_eq_ok_iff.1 hrun
    exact ih hparts.2 (enter hplace hparts.1 henter) hrun

theorem start (hfiles : files.WellFormed) (path : String) :
    ∀ name ∈ files.start path, IsEntryName name := by
  unfold FileSystem.start
  split
  · simp
  · exact hfiles.workingDirectory

theorem write (hfiles : files.WellFormed) {path : String} {content : ByteArray} {after : FileSystem}
    (hwrite : files.write path content = .ok after) : after.WellFormed := by
  obtain ⟨-, outer, last, place, hparts, hlast, hrun, -, -, rfl⟩ := exists_of_write hwrite
  have hslash : ∀ part ∈ outer, '/' ∉ part.toList := by
    intro part hpart
    have hmem : part ∈ Path.parts path := by
      rw [hparts]
      exact List.mem_append_left _ hpart
    exact Path.slash_notMem_of_mem_parts hmem
  have hplace : ∀ name ∈ place, IsEntryName name := foldlM_enter hslash (hfiles.start path) hrun
  exact hfiles.set (List.forall_mem_cons.mpr ⟨hlast, hplace⟩) _

end WellFormed

end FileSystem

end Phrasebook
