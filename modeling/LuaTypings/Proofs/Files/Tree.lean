/-
LuaTypings/Proofs/Files/Tree.lean

Writing files into a tree.  `fileAt?` is the location that a path can be written at.  It only
depends on which locations are directories, and writing a file makes no directory and removes
none, so a path leads to the same location before and after (`fileAt?_congr`,
`sameDirs_set`).

Two facts carry what is proved about the files of a program: a file can be read back
(`read_of_fileAt?`), and the location of a file in a directory ends with its name
(`getLast?_fileAt?_join`), so that files of different names are different files.
-/
import LuaTypings.Files.Tree
import LuaTypings.Proofs.Text.Pieces

namespace LuaTypings

/-! ### Paths below a directory -/

namespace Path

theorem pieces_append (front back : List Char) :
    pieces (front ++ '/' :: back) = pieces front ++ pieces back :=
  Text.pieces_append '/' front back

theorem pieces_of_no_slash {cs : List Char} (h : '/' ∉ cs) : pieces cs = [cs] :=
  Text.pieces_of_not_mem h

/-- A name that is one piece of a path. -/
def IsPiece (name : String) : Prop := name.toList ≠ [] ∧ '/' ∉ name.toList

instance (name : String) : Decidable (IsPiece name) := inferInstanceAs (Decidable (_ ∧ _))

/-- Below a directory a name is the last piece. -/
theorem exists_pieces_join (dir : String) {name : String} (h : IsPiece name) :
    ∃ front, pieces (join dir name).toList = front ++ [name.toList] := by
  have hname := pieces_of_no_slash h.2
  have hrelative : ¬ name.toList.head? = some '/' := fun hhead =>
    h.2 (List.mem_of_mem_head? hhead)
  unfold join
  split_ifs with habove hslash
  · exact ⟨[], hname⟩
  · -- the directory already ends with a slash
    obtain ⟨base, hbase⟩ := List.getLast?_eq_some_iff.mp hslash
    refine ⟨pieces base, ?_⟩
    rw [String.toList_append, hbase, List.append_assoc, List.singleton_append, pieces_append, hname]
  · refine ⟨pieces dir.toList, ?_⟩
    rw [String.toList_append, String.toList_append, List.append_assoc]
    show pieces (dir.toList ++ '/' :: name.toList) = _
    rw [pieces_append, hname]

/-- Text without a slash behind a path joins its last piece. -/
theorem exists_pieces_append (cs : List Char) :
    ∃ front last, ∀ tail, '/' ∉ tail → pieces (cs ++ tail) = front ++ [last ++ tail] := by
  induction cs with
  | nil => exact ⟨[], [], fun tail h => pieces_of_no_slash h⟩
  | cons c cs ih =>
    obtain ⟨front, last, ih⟩ := ih
    by_cases hc : c = '/'
    · refine ⟨[] :: front, last, fun tail h => ?_⟩
      have hcut := pieces_append [] (cs ++ tail)
      rw [ih tail h] at hcut
      rw [hc, List.cons_append]
      exact hcut
    · -- the character joins the first piece, which may be the last one
      rcases front with - | ⟨first, front⟩
      · refine ⟨[], c :: last, fun tail h => ?_⟩
        have hcut := ih tail h
        unfold pieces at hcut ⊢
        rw [List.cons_append, Text.pieces, if_neg hc, hcut]
        rfl
      · refine ⟨(c :: first) :: front, last, fun tail h => ?_⟩
        have hcut := ih tail h
        unfold pieces at hcut ⊢
        rw [List.cons_append, Text.pieces, if_neg hc, hcut]
        rfl

/-- What is added to a name is added to its path. -/
theorem join_append (base name : String) {tail : String} (h : tail.toList.head? ≠ some '/') :
    join base (name ++ tail) = join base name ++ tail := by
  have hhead : (name ++ tail).toList.head? = some '/' ↔ name.toList.head? = some '/' := by
    rw [String.toList_append]
    cases name.toList with
    | nil => simpa using h
    | cons c cs => simp
  unfold join
  simp only [hhead]
  split_ifs
  · rfl
  · rw [String.append_assoc]
  · simp only [String.append_assoc]

end Path

namespace FileTree

/-! ### Entries -/

theorem lookup_filter_ne {entries : List (Location × FileEntry)} {l k : Location} (h : k ≠ l) :
    (entries.filter fun p => p.1 != l).lookup k = entries.lookup k := by
  induction entries with
  | nil => rfl
  | cons p entries ih =>
    by_cases hp : p.1 = l
    · rw [List.filter_cons_of_neg (by simp [hp]), ih, List.lookup_cons]
      have hk : (k == p.1) = false := by simpa [hp] using h
      rw [hk]
    · rw [List.filter_cons_of_pos (by simpa using hp), List.lookup_cons, List.lookup_cons, ih]

theorem get?_set {l : Location} (hl : l ≠ []) (t : FileTree) (e : FileEntry) (k : Location) :
    (t.set l e).get? k = if k = l then some e else t.get? k := by
  cases k with
  | nil => simp [get?, Ne.symm hl]
  | cons name rest =>
    by_cases hk : name :: rest = l
    · rw [if_pos hk]
      simp [get?, set, hk, List.isEmpty_iff, hl]
    · have hne : (name :: rest == l) = false := by simpa using hk
      rw [if_neg hk]
      simp only [get?, set, List.isEmpty_cons, List.lookup_cons, hne]
      exact lookup_filter_ne hk

/-- The directories of a tree are directories of another one. -/
def DirsWithin (t t' : FileTree) : Prop :=
  ∀ l, t.get? l = some .directory → t'.get? l = some .directory

/-- Two trees have the same directories. -/
def SameDirs (t t' : FileTree) : Prop :=
  ∀ l, t.get? l = some .directory ↔ t'.get? l = some .directory

theorem SameDirs.symm {t t' : FileTree} (h : SameDirs t t') : SameDirs t' t := fun l => (h l).symm

theorem SameDirs.trans {t t' t'' : FileTree} (h : SameDirs t t') (h' : SameDirs t' t'') :
    SameDirs t t'' := fun l => (h l).trans (h' l)

theorem SameDirs.within {t t' : FileTree} (h : SameDirs t t') : DirsWithin t t' :=
  fun l => (h l).mp

/-! ### Where paths lead -/

/-- A name leads from a directory to a directory. -/
theorem find_eq_ok_directory_iff {t : FileTree} {here : Location} {name : String} :
    t.find here name = .ok (some .directory) ↔
      ¬ maxNameBytes < name.utf8ByteSize ∧ t.get? (here ++ [name]) = some .directory := by
  unfold find
  split_ifs with h
  · simp [h]
  · simp [h]

/-- Where a path leads, it still leads when there are more directories. -/
theorem through_mono {t t' : FileTree} (h : DirsWithin t t') {here next : Location}
    {piece : String} (hnext : t.through here piece = .ok next) :
    t'.through here piece = .ok next := by
  unfold through at hnext ⊢
  split_ifs at hnext ⊢
  · exact hnext
  · exact hnext
  · split at hnext
    · cases hnext
    · rename_i hfind
      obtain ⟨hsize, hdir⟩ := find_eq_ok_directory_iff.mp hfind
      rw [find_eq_ok_directory_iff.mpr ⟨hsize, h _ hdir⟩]
      exact hnext
    · cases hnext
    · cases hnext

theorem throughAll_mono {t t' : FileTree} (h : DirsWithin t t') {here parent : Location}
    {pieces : List String} (hparent : t.throughAll here pieces = .ok parent) :
    t'.throughAll here pieces = .ok parent := by
  induction pieces generalizing here with
  | nil => exact hparent
  | cons piece rest ih =>
    rw [throughAll] at hparent ⊢
    split at hparent
    · rename_i next hnext
      rw [through_mono h hnext]
      exact ih hparent
    · cases hparent

theorem follow_mono {t t' : FileTree} (h : DirsWithin t t') {path : String} {target : Target}
    (htarget : t.follow path = .ok target) : t'.follow path = .ok target := by
  unfold follow at htarget ⊢
  split_ifs at htarget ⊢
  dsimp only at htarget ⊢
  split at htarget
  · exact htarget
  · rename_i last hlast
    split at htarget
    · cases htarget
    · -- only the directories on the way to the last piece count
      rename_i parent hparent
      rw [throughAll_mono h hparent]
      exact htarget

/-- The location that a path can be written at. -/
def fileAt? (t : FileTree) (path : String) : Option Location :=
  match t.follow path with
  | .ok (.entry parent name false) =>
    if maxNameBytes < name.utf8ByteSize ∨ t.get? (parent ++ [name]) = some .directory then none
    else some (parent ++ [name])
  | _ => none

theorem fileAt?_eq_some_iff {t : FileTree} {path : String} {l : Location} :
    t.fileAt? path = some l ↔ ∃ parent name, t.follow path = .ok (.entry parent name false) ∧
      ¬ maxNameBytes < name.utf8ByteSize ∧ t.get? (parent ++ [name]) ≠ some .directory ∧
      l = parent ++ [name] := by
  unfold fileAt?
  split
  · rename_i parent name hfollow
    split_ifs with hbad
    · refine iff_of_false (by simp) ?_
      rintro ⟨parent', name', htarget, hsize, hdir, -⟩
      rw [hfollow] at htarget
      cases htarget
      exact hbad.elim hsize hdir
    · obtain ⟨hsize, hdir⟩ := not_or.mp hbad
      constructor
      · intro hl
        exact ⟨parent, name, hfollow, hsize, hdir, (Option.some.inj hl).symm⟩
      · rintro ⟨parent', name', htarget, -, -, rfl⟩
        rw [hfollow] at htarget
        cases htarget
        rfl
  · rename_i hother
    refine iff_of_false (by simp) ?_
    rintro ⟨parent, name, hfollow, -⟩
    exact hother parent name hfollow

theorem fileAt?_congr {t t' : FileTree} (h : SameDirs t t') (path : String) :
    t.fileAt? path = t'.fileAt? path := by
  have hkeep : ∀ {t t' : FileTree}, SameDirs t t' → ∀ {l}, t.fileAt? path = some l →
      t'.fileAt? path = some l := by
    intro t t' h l hl
    obtain ⟨parent, name, hfollow, hsize, hdir, hloc⟩ := fileAt?_eq_some_iff.mp hl
    exact fileAt?_eq_some_iff.mpr
      ⟨parent, name, follow_mono h.within hfollow, hsize, fun hd => hdir ((h _).mpr hd), hloc⟩
  ext l
  exact ⟨hkeep h, hkeep h.symm⟩

/-! ### Writing one file -/

theorem ne_nil_of_fileAt? {t : FileTree} {path : String} {l : Location}
    (h : t.fileAt? path = some l) : l ≠ [] := by
  obtain ⟨parent, name, -, -, -, rfl⟩ := fileAt?_eq_some_iff.mp h
  simp

theorem not_directory_of_fileAt? {t : FileTree} {path : String} {l : Location}
    (h : t.fileAt? path = some l) : t.get? l ≠ some .directory := by
  obtain ⟨parent, name, -, -, hdir, rfl⟩ := fileAt?_eq_some_iff.mp h
  exact hdir

theorem write_of_fileAt? {t : FileTree} {path : String} {l : Location}
    (h : t.fileAt? path = some l) (text : String) :
    t.write path text = .ok (t.set l (.file text)) := by
  obtain ⟨parent, name, hfollow, hsize, hdir, rfl⟩ := fileAt?_eq_some_iff.mp h
  simp only [write, hfollow, Bool.false_eq_true, if_false, find, hsize]

theorem fileAt?_of_write {t t' : FileTree} {path text : String}
    (h : t.write path text = .ok t') : ∃ l, t.fileAt? path = some l := by
  unfold write at h
  split at h
  · cases h
  · cases h
  · rename_i parent name hasSlash hfollow
    split_ifs at h with hslash
    split at h
    · cases h
    · cases h
    · rename_i found hfound hfind
      -- the entry was looked up, so its name is not too long, and it is no directory
      refine ⟨parent ++ [name], fileAt?_eq_some_iff.mpr ⟨parent, name, ?_, ?_, ?_, rfl⟩⟩
      · rw [hfollow]
        simpa using hslash
      · intro hsize
        rw [find, if_pos hsize] at hfind
        cases hfind
      · intro hdir
        unfold find at hfind
        split_ifs at hfind
        exact hfound (by rw [← Except.ok.inj hfind, hdir])

theorem write_eq_ok {t t' : FileTree} {path text : String} (h : t.write path text = .ok t') :
    ∃ l, t.fileAt? path = some l ∧ t' = t.set l (.file text) := by
  obtain ⟨l, hl⟩ := fileAt?_of_write h
  rw [write_of_fileAt? hl] at h
  exact ⟨l, hl, (Except.ok.inj h).symm⟩

/-- A file makes no directory and removes none. -/
theorem sameDirs_set {t : FileTree} {path : String} {l : Location} (h : t.fileAt? path = some l)
    (text : String) : SameDirs (t.set l (.file text)) t := by
  intro k
  rw [get?_set (ne_nil_of_fileAt? h)]
  split_ifs with hk
  · subst hk
    exact iff_of_false (by simp) (not_directory_of_fileAt? h)
  · exact Iff.rfl

/-- A file can be read back. -/
theorem read_of_fileAt? {t : FileTree} {path text : String} {l : Location}
    (h : t.fileAt? path = some l) (hfile : t.get? l = some (.file text)) :
    t.read path = .ok text := by
  obtain ⟨parent, name, hfollow, hsize, -, rfl⟩ := fileAt?_eq_some_iff.mp h
  simp only [read, hfollow, find, hsize, if_false, hfile, Bool.false_eq_true]

theorem exists_of_read {t : FileTree} {path text : String} (h : t.read path = .ok text) :
    ∃ l, t.fileAt? path = some l ∧ t.get? l = some (.file text) := by
  unfold read at h
  split at h
  · cases h
  · cases h
  · rename_i parent name hasSlash hfollow
    split at h
    · cases h
    · cases h
    · cases h
    · rename_i found hfind
      split_ifs at h with hslash
      obtain rfl : found = text := Except.ok.inj h
      -- the entry was looked up, so its name is not too long
      unfold find at hfind
      split_ifs at hfind with hsize
      have hentry := Except.ok.inj hfind
      rw [Bool.not_eq_true] at hslash
      rw [hslash] at hfollow
      refine ⟨parent ++ [name], fileAt?_eq_some_iff.mpr ⟨parent, name, hfollow, hsize, ?_, rfl⟩, hentry⟩
      rw [hentry]
      simp

/-- What is written can be read back. -/
theorem read_set {t : FileTree} {path : String} {l : Location} (h : t.fileAt? path = some l)
    (text : String) : (t.set l (.file text)).read path = .ok text := by
  refine read_of_fileAt? (l := l) ?_ ?_
  · rw [fileAt?_congr (sameDirs_set h text), h]
  · rw [get?_set (ne_nil_of_fileAt? h), if_pos rfl]

/-- A file elsewhere stays when one is written. -/
theorem read_set_of_ne {t : FileTree} {path other : String} {l : Location}
    (h : t.fileAt? path = some l) (hne : t.fileAt? other ≠ some l) {text found : String}
    (hread : t.read other = .ok found) : (t.set l (.file text)).read other = .ok found := by
  obtain ⟨k, hk, hentry⟩ := exists_of_read hread
  have hkl : k ≠ l := by
    rintro rfl
    exact hne hk
  refine read_of_fileAt? (l := k) ?_ ?_
  · rw [fileAt?_congr (sameDirs_set h text), hk]
  · rw [get?_set (ne_nil_of_fileAt? h), if_neg hkl, hentry]

/-! ### Files in a directory -/

/-- The location of a file ends with the last piece of its path. -/
theorem getLast?_fileAt? {t : FileTree} {path : String} {front : List (List Char)}
    {last : List Char} (hpieces : Path.pieces path.toList = front ++ [last]) (hne : last ≠ [])
    {l : Location} (h : t.fileAt? path = some l) : l.getLast? = some (String.ofList last) := by
  obtain ⟨parent, name, hfollow, -, -, rfl⟩ := fileAt?_eq_some_iff.mp h
  -- the last piece that is not empty
  have hlast : (((Path.pieces path.toList).filter (!·.isEmpty)).map String.ofList).getLast? =
      some (String.ofList last) := by
    have hfilled : last.isEmpty = false := by simpa [List.isEmpty_iff] using hne
    simp [hpieces, hfilled]
  unfold follow at hfollow
  split_ifs at hfollow
  dsimp only at hfollow
  rw [hlast] at hfollow
  dsimp only at hfollow
  split at hfollow
  · cases hfollow
  · split_ifs at hfollow
    · cases hfollow
    · cases hfollow
    · obtain ⟨-, rfl, -⟩ := Target.entry.inj (Except.ok.inj hfollow)
      exact List.getLast?_concat

/-- The location of a file in a directory ends with its name. -/
theorem getLast?_fileAt?_join {t : FileTree} {dir name : String} (hname : Path.IsPiece name)
    {l : Location} (h : t.fileAt? (Path.join dir name) = some l) : l.getLast? = some name := by
  obtain ⟨front, hpieces⟩ := Path.exists_pieces_join dir hname
  rw [getLast?_fileAt? hpieces hname.1 h, String.ofList_toList]

/-- Files of different names in a directory are different files. -/
theorem fileAt?_join_ne {t : FileTree} {dir name other : String} (hname : Path.IsPiece name)
    (hother : Path.IsPiece other) (hne : name ≠ other) {l : Location}
    (h : t.fileAt? (Path.join dir name) = some l) :
    t.fileAt? (Path.join dir other) ≠ some l := by
  intro h'
  have hlast := getLast?_fileAt?_join hname h
  rw [getLast?_fileAt?_join hother h'] at hlast
  exact hne (Option.some.inj hlast).symm

end FileTree

end LuaTypings
