/-
LuaTypings/Proofs/Settings.lean

What settings keep of the choices.  A choice on the command line hides the same choice in the file,
also where the hidden one would be refused: only the size that counts is looked at
(`thresholdOf_some_eq_ok_iff`).  A size that is accepted is the exact number of bytes, because one that
does not fit a word is refused.  Whatever is chosen, each binding stands in the settings once, in the
order in which it first occurs in the list that counts (`isFirstOccurrences_flavorsOf`).

Main result: `resolve_follows_choices`.
-/
import LuaTypings.Settings
import LuaTypings.Proofs.FirstOccurrences

namespace LuaTypings.Settings

variable {file line : Choices} {settings : Settings}

/-! ### Sizes -/

/-- A size is at least one unit, and its bytes fit a word. -/
def IsSize (kib : UInt64) : Prop := 1 ≤ kib.toNat ∧ kib.toNat * 1024 < UInt64.size

instance (kib : UInt64) : Decidable (IsSize kib) := inferInstanceAs (Decidable (_ ∧ _))

theorem thresholdOf_some_eq_ok_iff {kib : UInt64} {bytes : Nat} :
    thresholdOf (some kib) = .ok bytes ↔ IsSize kib ∧ bytes = kib.toNat * 1024 := by
  have hsizes : sizes = UInt64.size := rfl
  have hzero : kib = 0 ↔ kib.toNat = 0 := by
    rw [← UInt64.toNat_inj]
    rfl
  simp only [thresholdOf, IsSize]
  split_ifs with hnone hfits
  · rw [hzero] at hnone
    simp [hnone]
  · have hpos : 1 ≤ kib.toNat := Nat.one_le_iff_ne_zero.mpr (mt hzero.mpr hnone)
    rw [Except.ok.injEq, and_iff_right ⟨hpos, hsizes ▸ hfits⟩]
    exact eq_comm
  · constructor
    · intro h
      cases h
    · rintro ⟨⟨-, hlt⟩, -⟩
      exact absurd (hsizes ▸ hlt) hfits

theorem exists_thresholdOf_iff {chosen : Option UInt64} :
    (∃ bytes, thresholdOf chosen = .ok bytes) ↔ ∀ kib ∈ chosen, IsSize kib := by
  cases chosen with
  | none => exact iff_of_true ⟨defaultThreshold, rfl⟩ nofun
  | some kib => simp [thresholdOf_some_eq_ok_iff]

/-! ### Bindings -/

/-- The bindings are those of the first list that has some, or else all there are. -/
theorem isFirstOccurrences_flavorsOf (first second : List Flavor) :
    IsFirstOccurrences (flavorsOf first second)
      (if first ≠ [] then first else if second ≠ [] then second else Flavor.all) := by
  refine isFirstOccurrences_iff.mpr (congrArg List.eraseDups ?_)
  cases first with
  | nil => cases second <;> rfl
  | cons _ _ => rfl

/-! ### Settings -/

theorem resolve_eq_ok_iff :
    resolve file line = .ok settings ↔
      line.directory.or file.directory = some settings.directory ∧
        thresholdOf (line.thresholdKib.or file.thresholdKib) = .ok settings.threshold ∧
        settings.flavors = flavorsOf line.flavors file.flavors := by
  obtain ⟨directory, threshold, flavors⟩ := settings
  unfold resolve
  cases line.directory.or file.directory with
  | none => simp
  | some chosen =>
    cases thresholdOf (line.thresholdKib.or file.thresholdKib) with
    | error e => simp
    | ok bytes => simp [eq_comm]

theorem nodup_flavors (h : resolve file line = .ok settings) : settings.flavors.Nodup := by
  rw [(resolve_eq_ok_iff.mp h).2.2]
  exact (isFirstOccurrences_flavorsOf _ _).nodup

/-- Settings have what counts of the choices: the directory, the size in bytes, and the bindings. -/
structure Follows (settings : Settings) (file line : Choices) : Prop where
  directory : line.directory.or file.directory = some settings.directory
  threshold : settings.threshold =
    ((line.thresholdKib.or file.thresholdKib).map fun kib => kib.toNat * 1024).getD defaultThreshold
  flavors : IsFirstOccurrences settings.flavors
    (if line.flavors ≠ [] then line.flavors
      else if file.flavors ≠ [] then file.flavors else Flavor.all)
  ne_nil : settings.flavors ≠ []
  nodup : settings.flavors.Nodup

theorem follows_of_resolve (h : resolve file line = .ok settings) :
    settings.Follows file line := by
  obtain ⟨hdirectory, hthreshold, hflavors⟩ := resolve_eq_ok_iff.mp h
  have hlist := hflavors ▸ isFirstOccurrences_flavorsOf line.flavors file.flavors
  refine ⟨hdirectory, ?threshold, hlist, ?ne_nil, hlist.nodup⟩
  case threshold =>
    cases hchosen : line.thresholdKib.or file.thresholdKib with
    | none =>
      rw [hchosen] at hthreshold
      exact (Except.ok.inj hthreshold).symm
    | some kib =>
      rw [hchosen, thresholdOf_some_eq_ok_iff] at hthreshold
      exact hthreshold.2
  case ne_nil =>
    -- the list that counts is not empty, and no element of it is lost
    intro hnil
    have hnone := List.eq_nil_iff_forall_not_mem.mpr fun x => by
      rw [← hlist.mem_iff, hnil]
      exact List.not_mem_nil
    split_ifs at hnone with hfirst hsecond
    · exact hfirst hnone
    · exact hsecond hnone
    · cases hnone

/-- **Settings of a file and a command line.**  There are settings exactly if one of the two chooses a
directory, and the size that counts, if there is one, is at least one unit of 1024 bytes and its bytes
fit a word.  The settings then have the directory of the command line or else that of the
file, the bytes of the size that counts or else the default, and the bindings of the command line, or
else of the file, or else all, each once and in the order in which it first occurs. -/
theorem resolve_follows_choices (file line : Choices) :
    ((∃ settings, resolve file line = .ok settings) ↔
      (line.directory.isSome = true ∨ file.directory.isSome = true) ∧
        ∀ kib ∈ line.thresholdKib.or file.thresholdKib, IsSize kib) ∧
    ∀ settings, resolve file line = .ok settings → settings.Follows file line := by
  refine ⟨?_, fun settings => follows_of_resolve⟩
  rw [← exists_thresholdOf_iff, ← Bool.or_eq_true, ← Option.isSome_or, Option.isSome_iff_exists]
  constructor
  · rintro ⟨settings, h⟩
    obtain ⟨hdirectory, hthreshold, -⟩ := resolve_eq_ok_iff.mp h
    exact ⟨⟨settings.directory, hdirectory⟩, settings.threshold, hthreshold⟩
  · rintro ⟨⟨directory, hdirectory⟩, bytes, hthreshold⟩
    exact ⟨⟨directory, bytes, flavorsOf line.flavors file.flavors⟩,
      resolve_eq_ok_iff.mpr ⟨hdirectory, hthreshold, rfl⟩⟩

/-- The largest size on the command line hides one of zero in the file. -/
theorem resolve_follows_choices_largest :
    ∃ settings, resolve { directory := some "out", thresholdKib := some 0, flavors := [.xlua] }
        { thresholdKib := some 18014398509481983, flavors := [.tolua, .xlua, .tolua] } = .ok settings ∧
      settings.threshold = 18446744073709550592 ∧ settings.flavors = [.tolua, .xlua] := by
  obtain ⟨hsucceeds, hfollows⟩ := resolve_follows_choices
    { directory := some "out", thresholdKib := some 0, flavors := [.xlua] }
    { thresholdKib := some 18014398509481983, flavors := [.tolua, .xlua, .tolua] }
  have hsize : IsSize 18014398509481983 := by decide
  obtain ⟨settings, h⟩ := hsucceeds.mpr ⟨.inr rfl, fun kib hkib => Option.mem_some_iff.mp hkib ▸ hsize⟩
  have hsettings := hfollows settings h
  refine ⟨settings, h, hsettings.threshold, ?_⟩
  rw [isFirstOccurrences_iff.mp hsettings.flavors]
  decide

/-- One unit more is refused. -/
example : ¬ IsSize 18014398509481984 := by decide

end LuaTypings.Settings
