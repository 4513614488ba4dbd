/-
LuaTypings/Proofs/Files/Directories.lean

Making directories.  Making a directory and those that it is in only adds directories, and each of
them is one that the path or one of its ancestors leads to (`createDirs_grows`); everything else
stays as it is, also if the directory cannot be made in the end.  A directory that is made stays
made whatever files are written, and making it again changes nothing (`createDirs_again`).

A name below a directory leads to the location of the directory with this name behind it
(`follow_join`).  So a file that can be written there is in this directory (`fileAt?_join`), and if
it cannot be written, then the reason does not depend on the other files
(`write_join_error_congr`).
-/
import LuaTypings.Proofs.Files.Tree

namespace LuaTypings

namespace Path

/-- The pieces of a path that are followed. -/
def segments (path : String) : List String :=
  ((pieces path.toList).filter (!·.isEmpty)).map String.ofList

/-- A piece that names an entry, and not the directory itself or the one above. -/
def IsEntryName (name : String) : Prop := IsPiece name ∧ name ≠ "." ∧ name ≠ ".."

instance (name : String) : Decidable (IsEntryName name) := inferInstanceAs (Decidable (_ ∧ _))

theorem segments_join (dir : String) {name : String} (h : IsPiece name) :
    segments (join dir name) = segments dir ++ [name] := by
  have hfilled : name.toList.isEmpty = false := by simpa [List.isEmpty_iff] using h.1
  have hrelative : ¬ name.toList.head? = some '/' := fun hhead =>
    h.2 (List.mem_of_mem_head? hhead)
  have hname := pieces_of_no_slash h.2
  have hnil : pieces [] = [[]] := rfl
  unfold segments join
  split_ifs with habove hslash
  · rcases habove with hhead | hempty
    · exact absurd hhead hrelative
    · rw [String.isEmpty_iff.mp hempty, hname]
      simp [hnil, hfilled]
  · -- behind the slash at the end of the directory stands an empty piece, which is not followed
    obtain ⟨base, hbase⟩ := List.getLast?_eq_some_iff.mp hslash
    have hdir : pieces dir.toList = pieces base ++ [[]] := by
      rw [hbase, pieces_append, hnil]
    rw [String.toList_append, hdir, hbase, List.append_assoc, List.singleton_append, pieces_append,
      hname]
    simp [hfilled]
  · rw [String.toList_append, String.toList_append, List.append_assoc]
    show ((pieces (dir.toList ++ '/' :: name.toList)).filter _).map _ = _
    rw [pieces_append, hname]
    simp [hfilled]

/-- Paths below one directory tell their names. -/
theorem join_inj {dir name other : String} (hname : IsPiece name) (hother : IsPiece other)
    (h : join dir name = join dir other) : name = other := by
  have hsegments := segments_join dir hname
  rw [h, segments_join dir hother] at hsegments
  exact (List.singleton_inj.mp (List.append_cancel_left hsegments)).symm

end Path

namespace FileTree

variable {t t' t'' : FileTree} {path dir name : String} {l here parent : Location}

/-! ### Where directories are -/

theorem throughAll_append (t : FileTree) (here : Location) (front back : List String) :
    t.throughAll here (front ++ back) = match t.throughAll here front with
      | .ok next => t.throughAll next back
      | .error e => .error e := by
  induction front generalizing here with
  | nil => rfl
  | cons piece front ih =>
    rw [List.cons_append, throughAll, throughAll]
    rcases t.through here piece with e | next
    · rfl
    · exact ih next

/-- The directory that a path leads to; the empty path leads to where all paths start. -/
def dirAt? (t : FileTree) (path : String) : Option Location :=
  (t.throughAll [] (Path.segments path)).toOption

theorem dirAt?_eq_some_iff :
    t.dirAt? path = some l ↔ t.throughAll [] (Path.segments path) = .ok l := by
  unfold dirAt?
  rcases t.throughAll [] (Path.segments path) with e | k
  · exact iff_of_false nofun nofun
  · simp [Except.toOption]

theorem dirAt?_mono (h : DirsWithin t t') (hl : t.dirAt? path = some l) :
    t'.dirAt? path = some l := by
  rw [dirAt?_eq_some_iff] at hl ⊢
  exact throughAll_mono h hl

theorem isDir_mono (h : DirsWithin t t') (hdir : t.isDir path = true) : t'.isDir path = true := by
  unfold isDir at hdir ⊢
  split at hdir
  · cases hdir
  · rename_i hfollow
    rw [follow_mono h hfollow]
  · rename_i hfollow
    rw [follow_mono h hfollow]
    exact decide_eq_true (h _ (of_decide_eq_true hdir))

/-- A path that ends at a name ends with it, and leads to the directory of the name before. -/
theorem follow_eq_entry {hasSlash : Bool}
    (h : t.follow path = .ok (.entry parent name hasSlash)) :
    ∃ front, Path.segments path = front ++ [name] ∧ t.throughAll [] front = .ok parent ∧
      name ≠ "." ∧ name ≠ ".." := by
  unfold follow at h
  split_ifs at h
  dsimp only at h
  split at h
  · cases h
  · rename_i last hlast
    obtain ⟨front, hsegments⟩ := List.getLast?_eq_some_iff.mp hlast
    rw [hsegments, List.dropLast_concat] at h
    split at h
    · cases h
    · rename_i found hfound
      split_ifs at h with hdot hdots
      · cases h
      · cases h
      · obtain ⟨rfl, rfl, -⟩ := Target.entry.inj (Except.ok.inj h)
        exact ⟨front, hsegments, hfound, hdot, hdots⟩

/-- Where a name below a directory leads. -/
theorem follow_join (hname : Path.IsEntryName name) (t : FileTree) (dir : String) :
    t.follow (Path.join dir name) =
      if '\x00' ∈ (Path.join dir name).toList then .error .nullInPath
      else if maxPathBytes < (Path.join dir name).utf8ByteSize then .error .nameTooLong
      else match t.throughAll [] (Path.segments dir) with
        | .error e => .error e
        | .ok here => .ok (.entry here name false) := by
  obtain ⟨hpiece, hdot, hdots⟩ := hname
  obtain ⟨front, hpieces⟩ := Path.exists_pieces_join dir hpiece
  have hfilled : (Path.join dir name).isEmpty = false := by
    rw [Bool.eq_false_iff]
    intro hempty
    have hnone := Path.segments_join dir hpiece
    rw [String.isEmpty_iff.mp hempty] at hnone
    exact List.cons_ne_nil _ _ (List.append_eq_nil_iff.mp hnone.symm).2
  -- a path that ends with a slash ends with an empty piece
  have hslash : ((Path.join dir name).toList.getLast? == some '/') = false := by
    rw [beq_eq_false_iff_ne]
    intro hlast
    obtain ⟨base, hbase⟩ := List.getLast?_eq_some_iff.mp hlast
    have hnil : Path.pieces [] = [[]] := rfl
    rw [hbase, Path.pieces_append, hnil] at hpieces
    exact hpiece.1 (List.singleton_inj.mp (List.append_inj_right' hpieces rfl)).symm
  have hsegments := Path.segments_join dir hpiece
  unfold Path.segments at hsegments ⊢
  simp only [follow, hfilled, Bool.false_eq_true, if_false, hsegments, List.getLast?_concat,
    List.dropLast_concat]
  rcases t.throughAll [] _ with e | here
  · rfl
  · simp only [hdot, hdots, if_false, hslash]

theorem fileAt?_join (hname : Path.IsEntryName name)
    (h : t.fileAt? (Path.join dir name) = some l) :
    ∃ here, t.dirAt? dir = some here ∧ l = here ++ [name] := by
  obtain ⟨parent, last, hfollow, -, -, rfl⟩ := fileAt?_eq_some_iff.mp h
  rw [follow_join hname] at hfollow
  split_ifs at hfollow
  split at hfollow
  · cases hfollow
  · rename_i here hhere
    obtain ⟨rfl, rfl, -⟩ := Target.entry.inj (Except.ok.inj hfollow)
    exact ⟨here, dirAt?_eq_some_iff.mpr hhere, rfl⟩

/-- Why a file cannot be written in a directory that is there does not depend on other files. -/
theorem write_join_error_congr (h : SameDirs t t') (hdir : t.dirAt? dir = some here)
    (hname : Path.IsEntryName name) {text : String} {e : FileError}
    (herror : t.write (Path.join dir name) text = .error e) :
    t'.write (Path.join dir name) text = .error e := by
  have hthere := dirAt?_eq_some_iff.mp hdir
  unfold write at herror ⊢
  rw [follow_join hname, hthere] at herror
  rw [follow_join hname, throughAll_mono h.within hthere]
  by_cases hnull : '\x00' ∈ (Path.join dir name).toList
  · rw [if_pos hnull] at herror ⊢
    exact herror
  · rw [if_neg hnull] at herror ⊢
    by_cases hlong : maxPathBytes < (Path.join dir name).utf8ByteSize
    · rw [if_pos hlong] at herror ⊢
      exact herror
    · rw [if_neg hlong] at herror ⊢
      -- what is left is that the name is too long or that of a directory
      simp only [Bool.false_eq_true, if_false, find] at herror ⊢
      by_cases hsize : maxNameBytes < name.utf8ByteSize
      · rw [if_pos hsize] at herror ⊢
        exact herror
      · rw [if_neg hsize] at herror ⊢
        split at herror
        · rename_i hfound
          cases hfound
        · rename_i hentry
          rw [(h _).mp (Except.ok.inj hentry)]
          exact herror
        · cases herror

/-! ### Trees that have grown -/

/-- A tree has grown by directories that some paths lead to. -/
def GrowsBy (t t' : FileTree) (paths : List String) : Prop :=
  ∀ l, t'.get? l = t.get? l ∨
    t.get? l = none ∧ t'.get? l = some .directory ∧ ∃ path ∈ paths, t'.dirAt? path = some l

theorem GrowsBy.refl (t : FileTree) (paths : List String) : GrowsBy t t paths :=
  fun _ => Or.inl rfl

theorem GrowsBy.within {paths : List String} (h : GrowsBy t t' paths) : DirsWithin t t' := by
  intro l hl
  rcases h l with hsame | ⟨hnone, -⟩
  · rw [hsame, hl]
  · rw [hl] at hnone
    cases hnone

theorem GrowsBy.trans {paths : List String} (h : GrowsBy t t' paths) (h' : GrowsBy t' t'' paths) :
    GrowsBy t t'' paths := by
  intro l
  rcases h' l with hsame | ⟨hnone, hnew, path, hpath, hl⟩
  · rcases h l with hsame' | ⟨hnone, hnew, path, hpath, hl⟩
    · exact Or.inl (hsame.trans hsame')
    · exact Or.inr ⟨hnone, hsame.trans hnew, path, hpath, dirAt?_mono h'.within hl⟩
  · -- what is new in the end was not there in between, and no directory goes away
    refine Or.inr ⟨?_, hnew, path, hpath, hl⟩
    rcases h l with hsame' | ⟨-, hdir, -⟩
    · rw [← hsame', hnone]
    · rw [hnone] at hdir
      cases hdir

theorem GrowsBy.mono {paths more : List String} (h : GrowsBy t t' paths)
    (hsub : ∀ path ∈ paths, path ∈ more) : GrowsBy t t' more := by
  intro l
  rcases h l with hsame | ⟨hnone, hnew, path, hpath, hl⟩
  · exact Or.inl hsame
  · exact Or.inr ⟨hnone, hnew, path, hsub path hpath, hl⟩

/-! ### One directory -/

theorem createDir_eq_ok (h : t.createDir path = .ok t') :
    GrowsBy t t' [path] ∧ t'.isDir path = true := by
  unfold createDir at h
  split at h
  · cases h
  · cases h
  · rename_i parent name hasSlash hfollow
    split at h
    · cases h
    · cases h
    · rename_i hfind
      obtain rfl := Except.ok.inj h
      unfold find at hfind
      split_ifs at hfind with hsize
      have hnone := Except.ok.inj hfind
      have hget (k : Location) := get?_set (l := parent ++ [name]) (by simp) t .directory k
      have hnew : (t.set (parent ++ [name]) .directory).get? (parent ++ [name]) =
          some .directory := by rw [hget, if_pos rfl]
      have hwithin : DirsWithin t (t.set (parent ++ [name]) .directory) := by
        intro k hk
        rw [hget]
        split_ifs
        · rfl
        · exact hk
      obtain ⟨front, hsegments, hparent, hdot, hdots⟩ := follow_eq_entry hfollow
      have hat : (t.set (parent ++ [name]) .directory).dirAt? path = some (parent ++ [name]) := by
        rw [dirAt?_eq_some_iff, hsegments, throughAll_append, throughAll_mono hwithin hparent]
        simp only [throughAll, through, hdot, hdots, if_false,
          find_eq_ok_directory_iff.mpr ⟨hsize, hnew⟩]
      refine ⟨fun k => ?_, ?_⟩
      · by_cases hk : k = parent ++ [name]
        · subst hk
          exact Or.inr ⟨hnone, hnew, path, List.mem_singleton_self path, hat⟩
        · exact Or.inl (by rw [hget, if_neg hk])
      · rw [isDir, follow_mono hwithin hfollow]
        exact decide_eq_true hnew

/-- A directory that is there cannot be created, and what is missing is not the reason. -/
theorem createDir_of_isDir (h : t.isDir path = true) :
    ∃ e, t.createDir path = .error e ∧ e ≠ .notFound := by
  unfold isDir at h
  unfold createDir
  split at h
  · cases h
  · exact ⟨.occupied, rfl, nofun⟩
  · rename_i parent name hasSlash hfollow
    have hdir := of_decide_eq_true h
    by_cases hsize : maxNameBytes < name.utf8ByteSize
    · exact ⟨.nameTooLong, by simp only [find, if_pos hsize], nofun⟩
    · exact ⟨.occupied, by simp only [find, if_neg hsize, hdir], nofun⟩

theorem ensureDir_eq_ok (h : t.ensureDir path = .ok t') :
    GrowsBy t t' [path] ∧ t'.isDir path = true := by
  unfold ensureDir at h
  split at h
  · rename_i made hmade
    obtain rfl := Except.ok.inj h
    exact createDir_eq_ok hmade
  · split_ifs at h with hdir
    obtain rfl := Except.ok.inj h
    exact ⟨GrowsBy.refl _ _, hdir⟩

/-! ### A directory and those that it is in -/

theorem createAll_grows (t : FileTree) (paths : List String) :
    GrowsBy t (t.createAll paths).2 paths := by
  induction paths generalizing t with
  | nil => exact GrowsBy.refl t _
  | cons path above ih =>
    have hone : ∀ {p}, p ∈ [path] → p ∈ path :: above := by
      intro p hp
      rw [List.mem_singleton.mp hp]
      exact List.mem_cons_self
    rw [createAll]
    by_cases hempty : path.isEmpty = true
    · rw [if_pos hempty]
      exact GrowsBy.refl t _
    · rw [if_neg hempty]
      split
      · rename_i made hmade
        exact (createDir_eq_ok hmade).1.mono fun _ => hone
      · -- the directory that it is in is made before
        have habove := (ih t).mono fun _ => List.mem_cons_of_mem path
        rcases hall : t.createAll above with ⟨e | _, t₁⟩
        · rw [hall] at habove
          exact habove
        · rw [hall] at habove
          rcases hensure : t₁.ensureDir path with e | t₂
          · simp only [hensure]
            exact habove
          · simp only [hensure]
            exact habove.trans ((ensureDir_eq_ok hensure).1.mono fun _ => hone)
      · exact GrowsBy.refl t _

theorem createAll_cons_eq_ok {above : List String}
    (h : t.createAll (path :: above) = (.ok (), t')) :
    path.isEmpty = true ∨ t'.isDir path = true := by
  by_cases hempty : path.isEmpty = true
  · exact Or.inl hempty
  · right
    rw [createAll, if_neg hempty] at h
    split at h
    · rename_i made hmade
      obtain ⟨-, rfl⟩ := Prod.mk.inj h
      exact (createDir_eq_ok hmade).2
    · split at h
      · cases h
      · split at h
        · rename_i made hensure
          obtain ⟨-, rfl⟩ := Prod.mk.inj h
          exact (ensureDir_eq_ok hensure).2
        · cases h
    · obtain ⟨hresult, rfl⟩ := Prod.mk.inj h
      split_ifs at hresult with hdir
      exact hdir

/-- **Making a directory only makes directories**, and only such that the path or one of its
ancestors leads to. -/
theorem createDirs_grows (t : FileTree) (path : String) :
    GrowsBy t (t.createDirs path).2 (Path.ancestors path) := createAll_grows t _

theorem createDirs_of_isDir (h : path.isEmpty = true ∨ t.isDir path = true) :
    t.createDirs path = (.ok (), t) := by
  rw [createDirs, Path.ancestors, createAll]
  by_cases hempty : path.isEmpty = true
  · rw [if_pos hempty]
  · rw [if_neg hempty]
    have hdir := h.resolve_left hempty
    obtain ⟨e, hcreate, hne⟩ := createDir_of_isDir hdir
    rw [hcreate]
    cases e with
    | notFound => exact absurd rfl hne
    | _ => simp only [hdir, if_true]

/-- A directory that is made stays made while no directory goes away. -/
theorem createDirs_again (h : t.createDirs path = (.ok (), t')) (hwithin : DirsWithin t' t'') :
    t''.createDirs path = (.ok (), t'') :=
  createDirs_of_isDir ((createAll_cons_eq_ok h).imp_right (isDir_mono hwithin))

end FileTree

end LuaTypings
