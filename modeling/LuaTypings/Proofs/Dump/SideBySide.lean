/-
LuaTypings/Proofs/Dump/SideBySide.lean

Dumps for several bindings into one directory.  The first of them makes the directory, and it stays
made; so all of them together write all their files into one tree (`makes_iff_writeAll`).  No two of
these files are at one place, so the order of the bindings does not matter (`Makes.perm`).
-/
import LuaTypings.Proofs.Dump.Places

namespace LuaTypings.Dump

variable {threshold : Nat} {dir : String} {types : List Declaration} {f : Flavor}
  {fs fs' : List Flavor} {t t' made : FileTree}

/-- What dumps for bindings, one after the other, make of a tree if all of them succeed. -/
def Makes (threshold : Nat) (dir : String) (types : List Declaration) :
    List Flavor → FileTree → FileTree → Prop
  | [], t, t' => t' = t
  | f :: fs, t, t' => ∃ made t₁, t.createDirs dir = (.ok (), made) ∧
      made.writeAll (outputs f threshold dir types) = (.ok (), t₁) ∧
      Makes threshold dir types fs t₁ t'

/-- Dumps into a directory that is made write their files. -/
theorem makes_iff_writeAll (hmade : t.createDirs dir = (.ok (), t)) :
    Makes threshold dir types fs t t' ↔
      t.writeAll (fs.flatMap fun f => outputs f threshold dir types) = (.ok (), t') := by
  induction fs generalizing t with
  | nil =>
    show t' = t ↔ (Except.ok (), t) = (Except.ok (), t')
    rw [Prod.mk.injEq, and_iff_right rfl, eq_comm]
  | cons f fs ih =>
    rw [List.flatMap_cons, FileTree.writeAll_append]
    constructor
    · rintro ⟨made, t₁, hmade', hfirst, hrest⟩
      rw [hmade] at hmade'
      obtain ⟨-, rfl⟩ := Prod.mk.inj hmade'
      rw [hfirst]
      have hdirs := FileTree.sameDirs_of_writeAll hfirst
      exact (ih (FileTree.createDirs_again hmade hdirs.symm.within)).mp hrest
    · intro h
      rcases hfirst : t.writeAll (outputs f threshold dir types) with ⟨e | _, t₁⟩
      · rw [hfirst] at h
        cases h
      · rw [hfirst] at h
        have hdirs := FileTree.sameDirs_of_writeAll hfirst
        exact ⟨t, t₁, hmade, hfirst,
          (ih (FileTree.createDirs_again hmade hdirs.symm.within)).mpr h⟩

/-- The first dump makes the directory, for itself and all others. -/
theorem makes_cons_iff :
    Makes threshold dir types (f :: fs) t t' ↔ ∃ made, t.createDirs dir = (.ok (), made) ∧
      made.writeAll ((f :: fs).flatMap fun f => outputs f threshold dir types) = (.ok (), t') := by
  constructor
  · rintro ⟨made, t₁, hmade, hfirst, hrest⟩
    have hstays := FileTree.createDirs_again hmade fun _ hl => hl
    exact ⟨made, hmade, (makes_iff_writeAll hstays).mp ⟨made, t₁, hstays, hfirst, hrest⟩⟩
  · rintro ⟨made, hmade, hall⟩
    have hstays := FileTree.createDirs_again hmade fun _ hl => hl
    obtain ⟨made', t₁, hmade', hfirst, hrest⟩ := (makes_iff_writeAll hstays).mpr hall
    rw [hstays] at hmade'
    obtain ⟨-, rfl⟩ := Prod.mk.inj hmade'
    exact ⟨made, t₁, hmade, hfirst, hrest⟩

/-- Dumps succeed if the directory can be made and all their files can be written in it. -/
theorem exists_makes (hmade : t.createDirs dir = (.ok (), made))
    (h : ∀ o ∈ fs.flatMap fun f => outputs f threshold dir types,
      (made.fileAt? o.path).isSome = true) :
    ∃ t', Makes threshold dir types fs t t' := by
  rcases fs with - | ⟨f, fs⟩
  · exact ⟨t, rfl⟩
  · have hall := FileTree.writeAll_eq_ok_iff.mpr fun o ho => Option.isSome_iff_exists.mp (h o ho)
    exact ⟨_, makes_cons_iff.mpr ⟨made, hmade, Prod.ext hall rfl⟩⟩

/-- The files of all dumps can be read in the end. -/
theorem Makes.read (h : Makes threshold dir types fs t t') {f : Flavor} (hf : f ∈ fs)
    {o : TextFile} (ho : o ∈ outputs f threshold dir types) : t'.read o.path = .ok o.text := by
  rcases fs with - | ⟨g, rest⟩
  · cases hf
  · obtain ⟨made, hmade, hall⟩ := makes_cons_iff.mp h
    have hmem : o ∈ (g :: rest).flatMap fun f => outputs f threshold dir types :=
      List.mem_flatMap.mpr ⟨f, hf, ho⟩
    have hread := FileTree.read_writeAll_of_agree (congrArg Prod.fst hall)
      (agree_outputs made (g :: rest) threshold dir types) hmem
    rwa [hall] at hread

/-- **The order of the bindings does not matter.** -/
theorem Makes.perm (hperm : fs.Perm fs') (h : Makes threshold dir types fs t t') :
    ∃ t'', Makes threshold dir types fs' t t'' ∧ ∀ l, t''.get? l = t'.get? l := by
  rcases fs with - | ⟨f, rest⟩
  · obtain rfl := hperm.nil_eq
    exact ⟨t', h, fun _ => rfl⟩
  · rcases fs' with - | ⟨g, rest'⟩
    · exact absurd hperm.eq_nil (List.cons_ne_nil f rest)
    · obtain ⟨made, hmade, hall⟩ := makes_cons_iff.mp h
      have hmem (o : TextFile) := (hperm.flatMap_right
        fun f => outputs f threshold dir types).mem_iff (a := o)
      have hok := congrArg Prod.fst hall
      have hagree := agree_outputs made (f :: rest) threshold dir types
      refine ⟨_, makes_cons_iff.mpr ⟨made, hmade, Prod.ext ?_ rfl⟩, fun l => ?_⟩
      · exact (FileTree.get?_writeAll_congr hmem hok hagree []).1
      · rw [(FileTree.get?_writeAll_congr hmem hok hagree l).2, hall]

end LuaTypings.Dump
