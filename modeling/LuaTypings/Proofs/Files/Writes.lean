/-
LuaTypings/Proofs/Files/Writes.lean

Actions that write files.  `writeAll` writes files into a tree one after the other, until one
of them cannot be written.  An action `Writes` some files if it does that, whatever the world
looks like, and comes to its result if all of them can be written; actions one after the other
write their files one after the other (`Writes.bind`).

All files can be written exactly if each of them can before any is (`writeAll_eq_ok_iff`), and
files at different places can all be read back (`read_writeAll`).
-/
import LuaTypings.DumpError
import LuaTypings.Proofs.Files.Tree

namespace LuaTypings

/-- A file with a text. -/
structure TextFile where
  path : String
  text : String
  deriving DecidableEq, Repr

namespace FileTree

/-- Writes files one after the other, until one cannot be written. -/
def writeAll (t : FileTree) : List TextFile → Except DumpError Unit × FileTree
  | [] => (.ok (), t)
  | o :: os =>
    match t.write o.path o.text with
    | .ok t => t.writeAll os
    | .error e => (.error (.write o.path e), t)

theorem writeAll_append (t : FileTree) (os os' : List TextFile) :
    t.writeAll (os ++ os') = match t.writeAll os with
      | (.ok (), t) => t.writeAll os'
      | (.error e, t) => (.error e, t) := by
  induction os generalizing t with
  | nil => rfl
  | cons o os ih =>
    rw [List.cons_append, writeAll, writeAll]
    rcases t.write o.path o.text with e | t
    · rfl
    · exact ih t

theorem writeAll_cons_of_fileAt? {t : FileTree} {o : TextFile} {l : Location}
    (h : t.fileAt? o.path = some l) (os : List TextFile) :
    t.writeAll (o :: os) = (t.set l (.file o.text)).writeAll os := by
  rw [writeAll, write_of_fileAt? h]

/-- All files can be written exactly if each of them can. -/
theorem writeAll_eq_ok_iff {t : FileTree} {os : List TextFile} :
    (t.writeAll os).1 = .ok () ↔ ∀ o ∈ os, ∃ l, t.fileAt? o.path = some l := by
  induction os generalizing t with
  | nil => simp [writeAll]
  | cons o os ih =>
    rw [List.forall_mem_cons]
    constructor
    · intro h
      rw [writeAll] at h
      rcases hwrite : t.write o.path o.text with e | t'
      · rw [hwrite] at h
        cases h
      · -- the first file makes no directory, so the others lead where they led before it
        obtain ⟨l, hl, rfl⟩ := write_eq_ok hwrite
        rw [hwrite] at h
        refine ⟨⟨l, hl⟩, fun o' ho' => ?_⟩
        rw [fileAt?_congr (sameDirs_set hl o.text).symm]
        exact ih.mp h o' ho'
    · rintro ⟨⟨l, hl⟩, hos⟩
      rw [writeAll_cons_of_fileAt? hl]
      refine ih.mpr fun o' ho' => ?_
      rw [fileAt?_congr (sameDirs_set hl o.text)]
      exact hos o' ho'

/-- Files make no directory and remove none, also if not all of them can be written. -/
theorem sameDirs_writeAll (t : FileTree) (os : List TextFile) :
    SameDirs (t.writeAll os).2 t := by
  induction os generalizing t with
  | nil => exact fun _ => Iff.rfl
  | cons o os ih =>
    rw [writeAll]
    rcases hwrite : t.write o.path o.text with e | t'
    · exact fun _ => Iff.rfl
    · obtain ⟨l, hl, rfl⟩ := write_eq_ok hwrite
      exact (ih _).trans (sameDirs_set hl o.text)

theorem sameDirs_of_writeAll {t t' : FileTree} {os : List TextFile} {result : Except DumpError Unit}
    (h : t.writeAll os = (result, t')) : SameDirs t' t := by
  have hdirs := sameDirs_writeAll t os
  rwa [h] at hdirs

/-- A place stays as it is, or one of the files is written there. -/
theorem get?_writeAll_cases (t : FileTree) (os : List TextFile) (l : Location) :
    (t.writeAll os).2.get? l = t.get? l ∨
      ∃ o ∈ os, t.fileAt? o.path = some l ∧ (t.writeAll os).2.get? l = some (.file o.text) := by
  induction os generalizing t with
  | nil => exact Or.inl rfl
  | cons first os ih =>
    rw [writeAll]
    rcases hwrite : t.write first.path first.text with e | t'
    · exact Or.inl rfl
    · obtain ⟨k, hk, rfl⟩ := write_eq_ok hwrite
      rcases ih (t.set k (.file first.text)) with hsame | ⟨o, ho, hl, hfile⟩
      · rw [get?_set (ne_nil_of_fileAt? hk)] at hsame
        split_ifs at hsame with hlk
        · subst hlk
          exact Or.inr ⟨first, List.mem_cons_self, hk, hsame⟩
        · exact Or.inl hsame
      · rw [fileAt?_congr (sameDirs_set hk first.text)] at hl
        exact Or.inr ⟨o, List.mem_cons_of_mem first ho, hl, hfile⟩

/-- What no file is written at stays. -/
theorem get?_writeAll_of_ne {t : FileTree} {os : List TextFile} {l : Location}
    (hne : ∀ o ∈ os, t.fileAt? o.path ≠ some l) : (t.writeAll os).2.get? l = t.get? l := by
  rcases get?_writeAll_cases t os l with hsame | ⟨o, ho, hl, -⟩
  · exact hsame
  · exact absurd hl (hne o ho)

/-- Files that lead to one place have one text. -/
def Agree (t : FileTree) (os : List TextFile) : Prop :=
  ∀ o ∈ os, ∀ o' ∈ os, ∀ l, t.fileAt? o.path = some l → t.fileAt? o'.path = some l →
    o.text = o'.text

/-- What is written at a place is there in the end. -/
theorem get?_writeAll_of_mem {t : FileTree} {os : List TextFile} (h : (t.writeAll os).1 = .ok ())
    (hagree : t.Agree os) {o : TextFile} (ho : o ∈ os) {l : Location}
    (hl : t.fileAt? o.path = some l) : (t.writeAll os).2.get? l = some (.file o.text) := by
  obtain ⟨front, back, rfl⟩ := List.append_of_mem ho
  rw [writeAll_append] at h ⊢
  rcases hfront : t.writeAll front with ⟨e | _, t₁⟩
  · rw [hfront] at h
    cases h
  · -- the file is written in the middle, and what follows leaves it or has the same text
    have hdirs := sameDirs_of_writeAll hfront
    have hl₁ : t₁.fileAt? o.path = some l := (fileAt?_congr hdirs _).trans hl
    show (t₁.writeAll (o :: back)).2.get? l = _
    rw [writeAll_cons_of_fileAt? hl₁]
    rcases get?_writeAll_cases (t₁.set l (.file o.text)) back l with hsame | ⟨o', ho', hl', hfile⟩
    · rw [hsame, get?_set (ne_nil_of_fileAt? hl), if_pos rfl]
    · rw [fileAt?_congr ((sameDirs_set hl₁ o.text).trans hdirs)] at hl'
      have hmem' : o' ∈ front ++ o :: back :=
        List.mem_append_right front (List.mem_cons_of_mem o ho')
      rw [hfile, hagree o ho o' hmem' l hl hl']

/-- What is written can be read back. -/
theorem read_writeAll_of_agree {t : FileTree} {os : List TextFile}
    (h : (t.writeAll os).1 = .ok ()) (hagree : t.Agree os) {o : TextFile} (ho : o ∈ os) :
    (t.writeAll os).2.read o.path = .ok o.text := by
  obtain ⟨l, hl⟩ := writeAll_eq_ok_iff.mp h o ho
  refine read_of_fileAt? ?_ (get?_writeAll_of_mem h hagree ho hl)
  rw [fileAt?_congr (sameDirs_writeAll t os), hl]

/-- If no order of some files matters, they can be written in any order. -/
theorem get?_writeAll_congr {t : FileTree} {os os' : List TextFile} (hmem : ∀ o, o ∈ os ↔ o ∈ os')
    (h : (t.writeAll os).1 = .ok ()) (hagree : t.Agree os) (l : Location) :
    (t.writeAll os').1 = .ok () ∧ (t.writeAll os').2.get? l = (t.writeAll os).2.get? l := by
  have hall : (t.writeAll os').1 = .ok () :=
    writeAll_eq_ok_iff.mpr fun o ho => writeAll_eq_ok_iff.mp h o ((hmem o).mpr ho)
  have hagree' : t.Agree os' := fun o ho o' ho' =>
    hagree o ((hmem o).mpr ho) o' ((hmem o').mpr ho')
  refine ⟨hall, ?_⟩
  by_cases hplace : ∃ o ∈ os, t.fileAt? o.path = some l
  · obtain ⟨o, ho, hl⟩ := hplace
    rw [get?_writeAll_of_mem h hagree ho hl, get?_writeAll_of_mem hall hagree' ((hmem o).mp ho) hl]
  · have hne : ∀ o ∈ os, t.fileAt? o.path ≠ some l := fun o ho hl => hplace ⟨o, ho, hl⟩
    rw [get?_writeAll_of_ne hne, get?_writeAll_of_ne fun o ho => hne o ((hmem o).mpr ho)]

/-- Writing ends at the first file that cannot be written. -/
theorem writeAll_eq_error {t : FileTree} {os : List TextFile} {e : DumpError}
    (h : (t.writeAll os).1 = .error e) :
    ∃ before o after cause, os = before ++ o :: after ∧ e = .write o.path cause ∧
      (t.writeAll before).1 = .ok () ∧
      (t.writeAll before).2.write o.path o.text = .error cause ∧
      (t.writeAll os).2 = (t.writeAll before).2 := by
  induction os generalizing t with
  | nil => cases h
  | cons first os ih =>
    rw [writeAll] at h ⊢
    rcases hwrite : t.write first.path first.text with cause | t'
    · rw [hwrite] at h
      exact ⟨[], first, os, cause, rfl, (Except.error.inj h).symm, rfl, hwrite, rfl⟩
    · rw [hwrite] at h
      obtain ⟨before, o, after, cause, rfl, he, hbefore, herror, hfiles⟩ := ih h
      refine ⟨first :: before, o, after, cause, rfl, he, ?_, ?_, ?_⟩
      · rw [writeAll, hwrite]
        exact hbefore
      · rw [writeAll, hwrite]
        exact herror
      · rw [writeAll, hwrite]
        exact hfiles

/-- Two paths lead to different files. -/
def Apart (t : FileTree) (path path' : String) : Prop :=
  ∀ l, t.fileAt? path = some l → t.fileAt? path' ≠ some l

/-- Paths that differ in the end of their last pieces lead to different files. -/
theorem apart_append (t : FileTree) (path : String) {tail other : String}
    (htail : Path.IsPiece tail) (hother : Path.IsPiece other) (hne : tail ≠ other) :
    t.Apart (path ++ tail) (path ++ other) := by
  intro l hl hl'
  obtain ⟨front, last, hpieces⟩ := Path.exists_pieces_append path.toList
  have hfirst := hpieces tail.toList htail.2
  have hsecond := hpieces other.toList hother.2
  rw [← String.toList_append] at hfirst hsecond
  have hends := getLast?_fileAt? hfirst (List.append_ne_nil_of_right_ne_nil last htail.1) hl
  rw [getLast?_fileAt? hsecond (List.append_ne_nil_of_right_ne_nil last hother.1) hl'] at hends
  have hchars := congrArg String.toList (Option.some.inj hends)
  rw [String.toList_ofList, String.toList_ofList] at hchars
  exact hne (String.toList_inj.mp (List.append_cancel_left hchars)).symm

theorem agree_of_pairwise {t : FileTree} {os : List TextFile}
    (hapart : (os.map TextFile.path).Pairwise t.Apart) : t.Agree os := by
  induction os with
  | nil => exact fun o ho => absurd ho List.not_mem_nil
  | cons first os ih =>
    obtain ⟨hfirst, hrest⟩ := List.pairwise_cons.mp hapart
    have hother : ∀ o ∈ os, ∀ l, t.fileAt? first.path = some l → t.fileAt? o.path ≠ some l :=
      fun o ho => hfirst o.path (List.mem_map_of_mem ho)
    intro o ho o' ho' l hl hl'
    rcases List.mem_cons.mp ho with rfl | hmem
    · rcases List.mem_cons.mp ho' with rfl | hmem'
      · rfl
      · exact absurd hl' (hother o' hmem' l hl)
    · rcases List.mem_cons.mp ho' with rfl | hmem'
      · exact absurd hl (hother o hmem l hl')
      · exact ih hrest o hmem o' hmem' l hl hl'

/-- Files at different places can be read back. -/
theorem read_writeAll {t : FileTree} {os : List TextFile} (h : (t.writeAll os).1 = .ok ())
    (hapart : (os.map TextFile.path).Pairwise t.Apart) {o : TextFile} (ho : o ∈ os) :
    (t.writeAll os).2.read o.path = .ok o.text :=
  read_writeAll_of_agree h (agree_of_pairwise hapart) ho

end FileTree

/-! ### Actions -/

theorem createDirs_apply (dir : String) (w : World) :
    (FileStore.createDirs dir : StateM World _) w =
      ((w.files.createDirs dir).1, { w with files := (w.files.createDirs dir).2 }) := rfl

theorem write_apply (path text : String) (w : World) :
    (FileStore.write path text : StateM World _) w = match w.files.write path text with
      | .ok files => (.ok (), { w with files })
      | .error e => (.error e, w) := rfl

/-- An outcome that can be seen from the result is that of an action that succeeds. -/
theorem exists_ok_of_toOption {ε α β : Type} {p : Except ε α × World} {g : α → β} {b : β}
    (h : p.1.toOption.map g = some b) : ∃ a w, p = (.ok a, w) ∧ g a = b := by
  obtain ⟨e | a, w⟩ := p
  · cases h
  · exact ⟨a, w, rfl, Option.some.inj h⟩

section

variable {β β' γ γ' : Type}

/-- An action writes these files, and comes to this result if all of them can be written.
`outcome` is what counts of the values that the action gives. -/
def Writes (outcome : β → Except DumpError γ) (x : StateM World β) (os : List TextFile) (c : γ) :
    Prop :=
  ∀ w, outcome (x w).1 = ((w.files.writeAll os).1.map fun _ => c) ∧
    (x w).2.files = (w.files.writeAll os).2

theorem Writes.pure {outcome : β → Except DumpError γ} {b : β} {c : γ} (h : outcome b = .ok c) :
    Writes outcome (Pure.pure b) [] c := fun _ => ⟨h, rfl⟩

theorem Writes.put (path text : String) :
    Writes id (FileStore.put path text : StateM World _) [⟨path, text⟩] () := by
  intro w
  simp only [FileStore.put, bind, StateT.bind, write_apply, FileTree.writeAll]
  rcases w.files.write path text with e | t
  · exact ⟨rfl, rfl⟩
  · exact ⟨rfl, rfl⟩

/-- Actions one after the other write their files one after the other; an error ends both. -/
theorem Writes.bind {outcome : β → Except DumpError γ} {outcome' : β' → Except DumpError γ'}
    {x : StateM World β} {k : β → StateM World β'} {os os' : List TextFile} {c : γ} {c' : γ'}
    (hx : Writes outcome x os c) (hok : ∀ b, outcome b = .ok c → Writes outcome' (k b) os' c')
    (herror : ∀ b e, outcome b = .error e → ∃ b', k b = Pure.pure b' ∧ outcome' b' = .error e) :
    Writes outcome' (x >>= k) (os ++ os') c' := by
  intro w
  obtain ⟨hresult, hfiles⟩ := hx w
  show outcome' (k (x w).1 (x w).2).1 = _ ∧ (k (x w).1 (x w).2).2.files = _
  rw [FileTree.writeAll_append]
  -- the second action runs exactly if the first one has written all its files
  rcases hall : w.files.writeAll os with ⟨e | _, t⟩
  · rw [hall] at hresult hfiles
    obtain ⟨b', hk, hb'⟩ := herror _ _ hresult
    rw [hk]
    exact ⟨hb', hfiles⟩
  · rw [hall] at hresult hfiles
    have hk := hok _ hresult (x w).2
    rw [hfiles] at hk
    exact hk

/-! ### Actions that give a result or an error -/

theorem Writes.bindResult {outcome : β → Except DumpError γ'}
    {x : StateM World (Except DumpError γ)} {k : Except DumpError γ → StateM World β}
    {os os' : List TextFile} {c : γ} {c' : γ'} (hx : Writes id x os c)
    (hok : Writes outcome (k (.ok c)) os' c')
    (herror : ∀ e, ∃ b, k (.error e) = Pure.pure b ∧ outcome b = .error e) :
    Writes outcome (x >>= k) (os ++ os') c' := by
  refine hx.bind ?_ ?_
  · rintro b rfl
    exact hok
  · rintro b e rfl
    exact herror e

/-- What only changes how the result is given writes nothing. -/
theorem Writes.andReturn {outcome : β → Except DumpError γ'}
    {x : StateM World (Except DumpError γ)} {k : Except DumpError γ → StateM World β}
    {os : List TextFile} {c : γ} {c' : γ'} (hx : Writes id x os c)
    (hok : ∃ b, k (.ok c) = Pure.pure b ∧ outcome b = .ok c')
    (herror : ∀ e, ∃ b, k (.error e) = Pure.pure b ∧ outcome b = .error e) :
    Writes outcome (x >>= k) os c' := by
  obtain ⟨b, hk, hb⟩ := hok
  rw [← List.append_nil os]
  exact hx.bindResult (hk ▸ Writes.pure hb) herror

/-! ### Actions that leave a state behind -/

variable {σ : Type}

/-- What counts of a state that an action leaves behind: the state, unless there is an error. -/
def reached (p : Except DumpError Unit × σ) : Except DumpError σ := p.1.map fun _ => p.2

theorem reached_eq_ok {p : Except DumpError Unit × σ} {s : σ}
    (h : reached p = .ok s) : p = (.ok (), s) := by
  obtain ⟨e | _, s'⟩ := p
  · cases h
  · cases h
    rfl

theorem reached_eq_error {p : Except DumpError Unit × σ} {e : DumpError}
    (h : reached p = .error e) : p = (.error e, p.2) := by
  obtain ⟨e' | _, s'⟩ := p
  · cases h
    rfl
  · cases h

/-- What goes on behind an action goes on behind its error or behind its state. -/
theorem bindState_cases {x : StateM World (Except DumpError Unit × σ)}
    {k : Except DumpError Unit × σ → StateM World β} {w : World} {b : β × World}
    (h : (x >>= k) w = b) :
    (∃ e s w', x w = ((.error e, s), w') ∧ k (.error e, s) w' = b) ∨
      ∃ s w', x w = ((.ok (), s), w') ∧ k (.ok (), s) w' = b := by
  change k (x w).1 (x w).2 = b at h
  rcases hx : x w with ⟨⟨e | _, s⟩, w'⟩
  · rw [hx] at h
    exact Or.inl ⟨e, s, w', rfl, h⟩
  · rw [hx] at h
    exact Or.inr ⟨s, w', rfl, h⟩

/-- An action that succeeds comes to its state. -/
theorem Writes.state_eq {x : StateM World (Except DumpError Unit × σ)} {os : List TextFile}
    {s s' : σ} {w w' : World} (hx : Writes reached x os s) (h : x w = ((.ok (), s'), w')) :
    s' = s := by
  obtain ⟨hresult, -⟩ := hx w
  rw [h] at hresult
  rcases hall : (w.files.writeAll os).1 with e | _
  · rw [hall] at hresult
    cases hresult
  · rw [hall] at hresult
    exact Except.ok.inj hresult

theorem Writes.bindState {outcome : β → Except DumpError γ}
    {x : StateM World (Except DumpError Unit × σ)}
    {k : Except DumpError Unit × σ → StateM World β} {os os' : List TextFile} {s : σ} {c : γ}
    (hx : Writes reached x os s) (hok : Writes outcome (k (.ok (), s)) os' c)
    (herror : ∀ e s', ∃ b, k (.error e, s') = Pure.pure b ∧ outcome b = .error e) :
    Writes outcome (x >>= k) (os ++ os') c := by
  refine hx.bind ?_ ?_
  · intro b hb
    rw [reached_eq_ok hb]
    exact hok
  · intro b e hb
    rw [reached_eq_error hb]
    exact herror e b.2

end

end LuaTypings
