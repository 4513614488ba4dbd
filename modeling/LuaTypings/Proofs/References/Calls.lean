/-
LuaTypings/Proofs/References/Calls.lean

Recording mentions call by call.  A call asks for the base name of its display string, unless this is
empty, a builtin type, declared, or a parameter in its scope (`wanted?`).  One call adds the name that
it asks for if it is not there yet (`missing_record`), so any number of them leave what they ask for,
each name once and in the order of the first call for it (`missing_recordAll`).

Main result: `records_wanted`.
-/
import LuaTypings.Proofs.References

namespace LuaTypings.References

/-! ### Names that are added one by one -/

theorem insertNew_of_mem {names : List String} {name : String} (h : name ∈ names) :
    insertNew names name = names :=
  if_pos (List.contains_iff_mem.mpr h)

theorem insertNew_of_not_mem {names : List String} {name : String} (h : name ∉ names) :
    insertNew names name = names ++ [name] :=
  if_neg (mt List.contains_iff_mem.mp h)

/-! ### Calls -/

/-- A display string that is mentioned, with the parameters in whose scope it stands. -/
structure Call where
  scope : List String
  display : String
  deriving DecidableEq, Repr

/-- Whether a call adds a name, and the references behind it. -/
def record (r : References) (call : Call) : Bool × References :=
  (r.isNew call.scope call.display, r.mention call.scope call.display)

/-- The references behind several calls. -/
def recordAll (r : References) (calls : List Call) : References :=
  calls.foldl (fun r call => (r.record call).2) r

/-- What several calls give, one after the other. -/
def results (r : References) : List Call → List Bool
  | [] => []
  | call :: calls => (r.record call).1 :: results (r.record call).2 calls

/-- A name is missing beside declarations: there is one, it is no builtin type and no parameter in
scope, and none of them declares it. -/
structure IsMissing (types : List Declaration) (scope : List String) (name : String) : Prop where
  ne_empty : name ≠ ""
  builtin : Builtin.ofHost? name = none
  scope : name ∉ scope
  declared : ∀ d ∈ types, pathOf d ≠ name

variable {types : List Declaration} {r : References} {call : Call} {calls : List Call}

theorem isMissing_iff {scope : List String} {name : String} : IsMissing types scope name ↔
    isExempt scope name = false ∧ ∀ d ∈ types, pathOf d ≠ name := by
  have hexempt : isExempt scope name = false ↔
      name ≠ "" ∧ Builtin.ofHost? name = none ∧ name ∉ scope := by
    simp [isExempt, and_assoc]
  rw [hexempt]
  exact ⟨fun h => ⟨⟨h.ne_empty, h.builtin, h.scope⟩, h.declared⟩,
    fun ⟨⟨hne, hhost, hscope⟩, hdeclared⟩ => ⟨hne, hhost, hscope, hdeclared⟩⟩

instance (types : List Declaration) (scope : List String) (name : String) :
    Decidable (IsMissing types scope name) := decidable_of_iff' _ isMissing_iff

/-- The name that a call asks for beside declarations. -/
def wanted? (types : List Declaration) (call : Call) : Option String :=
  if IsMissing types call.scope (baseName call.display) then some (baseName call.display) else none

theorem wanted?_eq_some_iff {name : String} : wanted? types call = some name ↔
    name = baseName call.display ∧ IsMissing types call.scope name := by
  rw [wanted?, Option.ite_none_right_eq_some, Option.some.injEq]
  constructor
  · rintro ⟨h, rfl⟩
    exact ⟨rfl, h⟩
  · rintro ⟨rfl, h⟩
    exact ⟨h, rfl⟩

theorem wanted?_of_mem_scope (h : baseName call.display ∈ call.scope) :
    wanted? types call = none := by
  rw [wanted?, if_neg fun hmissing => hmissing.scope h]

/-! ### One call -/

/-- The references know what the declarations declare. -/
def Knows (types : List Declaration) (r : References) : Prop :=
  ∀ name, name ∈ r.declared ↔ ∃ d ∈ types, pathOf d = name

theorem knows_declare (types : List Declaration) : Knows types (declare {} types) := fun name => by
  rw [mem_declared_declare, or_iff_right List.not_mem_nil]

theorem Knows.record (h : Knows types r) (call : Call) : Knows types (r.record call).2 := by
  intro name
  rw [References.record, declared_mention]
  exact h name

/-- A call gives true exactly if the name that it asks for is not there. -/
theorem record_eq_true_iff (h : Knows types r) : (r.record call).1 = true ↔
    ∃ name, wanted? types call = some name ∧ name ∉ r.missing := by
  rw [record, isNew_iff, h]
  constructor
  · rintro ⟨hexempt, hdeclared, hmissing⟩
    have hname : IsMissing types call.scope (baseName call.display) :=
      isMissing_iff.mpr ⟨hexempt, by simpa using hdeclared⟩
    exact ⟨_, wanted?_eq_some_iff.mpr ⟨rfl, hname⟩, hmissing⟩
  · rintro ⟨name, hwanted, hmissing⟩
    obtain ⟨rfl, hname⟩ := wanted?_eq_some_iff.mp hwanted
    obtain ⟨hexempt, hdeclared⟩ := isMissing_iff.mp hname
    exact ⟨hexempt, by simpa using hdeclared, hmissing⟩

theorem record_of_true (h : (r.record call).1 = true) :
    (r.record call).2 = { r with missing := r.missing ++ [baseName call.display] } := by
  simp only [record] at h ⊢
  rw [mention, if_pos h]

theorem record_of_false (h : (r.record call).1 = false) : (r.record call).2 = r := by
  simp only [record] at h ⊢
  rw [mention, if_neg (ne_true_of_eq_false h)]

/-- A call gives true exactly if it appends its base name. -/
theorem record_eq_true_iff_append : (r.record call).1 = true ↔
    (r.record call).2.missing = r.missing ++ [baseName call.display] := by
  rcases h : (r.record call).1 with - | -
  · rw [record_of_false h]
    simp
  · rw [record_of_true h]
    simp

/-- A call adds the name that it asks for. -/
theorem missing_record (h : Knows types r) : (r.record call).2.missing =
    (wanted? types call).toList.foldl insertNew r.missing := by
  rcases hresult : (r.record call).1 with - | -
  · -- nothing is added because nothing is asked for, or because it is there
    rw [record_of_false hresult]
    have hnot := mt (record_eq_true_iff h).mpr (ne_true_of_eq_false hresult)
    rcases hwanted : wanted? types call with - | name
    · rfl
    · have hmem : name ∈ r.missing := by
        by_contra hmissing
        exact hnot ⟨name, hwanted, hmissing⟩
      exact (insertNew_of_mem hmem).symm
  · obtain ⟨name, hwanted, hmissing⟩ := (record_eq_true_iff h).mp hresult
    obtain ⟨rfl, -⟩ := wanted?_eq_some_iff.mp hwanted
    rw [record_of_true hresult, hwanted]
    exact (insertNew_of_not_mem hmissing).symm

/-- A call that asks for nothing leaves no trace. -/
theorem record_of_wanted?_eq_none (h : Knows types r) (hwanted : wanted? types call = none) :
    r.record call = (false, r) := by
  have hresult : (r.record call).1 = false := by
    rw [Bool.eq_false_iff, Ne, record_eq_true_iff h, hwanted]
    simp
  exact Prod.ext hresult (record_of_false hresult)

/-! ### Several calls -/

theorem recordAll_append (r : References) (calls later : List Call) :
    r.recordAll (calls ++ later) = (r.recordAll calls).recordAll later :=
  List.foldl_append

theorem recordAll_cons (r : References) (call : Call) (calls : List Call) :
    r.recordAll (call :: calls) = (r.record call).2.recordAll calls := List.foldl_cons ..

/-- What a call gives that is made behind others. -/
theorem getElem?_results (r : References) (front : List Call) (call : Call) (back : List Call) :
    (r.results (front ++ call :: back))[front.length]? =
      some ((r.recordAll front).record call).1 := by
  induction front generalizing r with
  | nil => rw [List.nil_append, results, List.length_nil, List.getElem?_cons_zero]; rfl
  | cons first front ih =>
    rw [List.cons_append, results, List.length_cons, List.getElem?_cons_succ, ih, recordAll_cons]

theorem Knows.recordAll (h : Knows types r) (calls : List Call) :
    Knows types (r.recordAll calls) := by
  induction calls generalizing r with
  | nil => exact h
  | cons call calls ih =>
    rw [recordAll_cons]
    exact ih (h.record call)

theorem missing_recordAll_foldl (h : Knows types r) (calls : List Call) :
    (r.recordAll calls).missing = (calls.filterMap (wanted? types)).foldl insertNew r.missing := by
  induction calls generalizing r with
  | nil => rfl
  | cons call calls ih =>
    have hcons : (call :: calls).filterMap (wanted? types) =
        (wanted? types call).toList ++ calls.filterMap (wanted? types) := by
      rw [List.filterMap_cons]
      cases wanted? types call <;> rfl
    rw [hcons, List.foldl_append, ← missing_record h, recordAll_cons]
    exact ih (h.record call)

/-- What is missing is what calls ask for, each name once and in the order of the first call. -/
theorem missing_recordAll (types : List Declaration) (calls : List Call) :
    ((declare {} types).recordAll calls).missing =
      (calls.filterMap (wanted? types)).eraseDups := by
  rw [missing_recordAll_foldl (knows_declare types), ← foldl_insertNew_nil]
  rfl

theorem mem_missing_recordAll {name : String} :
    name ∈ ((declare {} types).recordAll calls).missing ↔
      ∃ call ∈ calls, wanted? types call = some name := by
  rw [missing_recordAll, List.mem_eraseDups, List.mem_filterMap]

/-- **What calls record.**  The missing names are those that some call asks for, each once and in the
order of the first call for it.  A call gives true exactly if it appends its name, which it does if it
asks for a name that no call before it has asked for; otherwise it changes nothing.  A call that is
skipped because the name is in its scope might as well not have been made, and any later call that
asks for the name leaves it there.  In whatever order the calls are made, the same names are
missing. -/
theorem records_wanted (types : List Declaration) (calls : List Call) :
    (((declare {} types).recordAll calls).missing = (calls.filterMap (wanted? types)).eraseDups ∧
      ((declare {} types).recordAll calls).missing.Nodup) ∧
    (∀ front call back r, calls = front ++ call :: back → r = (declare {} types).recordAll front →
      ((declare {} types).results calls)[front.length]? = some (r.record call).1 ∧
      ((r.record call).1 = true ↔
        (r.record call).2.missing = r.missing ++ [baseName call.display]) ∧
      ((r.record call).1 = true ↔
        ∃ name, wanted? types call = some name ∧ ∀ c ∈ front, wanted? types c ≠ some name) ∧
      ((r.record call).1 = false → (r.record call).2 = r)) ∧
    (∀ front call back, calls = front ++ call :: back → baseName call.display ∈ call.scope →
      (declare {} types).recordAll calls = (declare {} types).recordAll (front ++ back) ∧
        ∀ later ∈ back, wanted? types later = some (baseName call.display) →
          baseName call.display ∈ ((declare {} types).recordAll calls).missing) ∧
    ∀ calls', calls.Perm calls' →
      (∀ name, name ∈ ((declare {} types).recordAll calls).missing ↔
        name ∈ ((declare {} types).recordAll calls').missing) ∧
      ((declare {} types).recordAll calls).missing.Perm
        ((declare {} types).recordAll calls').missing := by
  have hknows (calls : List Call) : Knows types ((declare {} types).recordAll calls) :=
    (knows_declare types).recordAll calls
  have hnodup (calls : List Call) : ((declare {} types).recordAll calls).missing.Nodup := by
    rw [missing_recordAll]
    exact nodup_eraseDups _
  refine ⟨⟨missing_recordAll types calls, hnodup calls⟩, ?results, ?skipped, ?order⟩
  case results =>
    rintro front call back r rfl rfl
    refine ⟨getElem?_results _ front call back, record_eq_true_iff_append, ?_, record_of_false⟩
    rw [record_eq_true_iff (hknows front)]
    refine exists_congr fun name => and_congr_right fun _ => ?_
    rw [mem_missing_recordAll]
    simp
  case skipped =>
    rintro front call back rfl hscope
    have hnone : wanted? types call = none := wanted?_of_mem_scope hscope
    constructor
    · rw [recordAll_append, recordAll_append, recordAll_cons,
        record_of_wanted?_eq_none (hknows front) hnone]
    · intro later hlater hwanted
      exact mem_missing_recordAll.mpr
        ⟨later, List.mem_append_right _ (List.mem_cons_of_mem call hlater), hwanted⟩
  case order =>
    intro calls' hperm
    have hsame (name : String) : name ∈ ((declare {} types).recordAll calls).missing ↔
        name ∈ ((declare {} types).recordAll calls').missing := by
      rw [mem_missing_recordAll, mem_missing_recordAll]
      simp only [hperm.mem_iff]
    exact ⟨hsame, (List.perm_ext_iff_of_nodup (hnodup calls) (hnodup calls')).mpr hsame⟩

/-- A class in a namespace. -/
def player : Declaration := .classType { header := { name := "Player", space := "Game" } }

/-- Mentions of the class, and of a name that is first a parameter in scope and then none. -/
def playerCalls : List Call :=
  [⟨["T"], "T[]"⟩, ⟨[], "T"⟩, ⟨[], "Game.Player[]"⟩, ⟨["K"], "T?"⟩]

/-- The name is recorded by the first call that has not got it in its scope. -/
theorem records_wanted_player :
    ((declare {} [player]).recordAll playerCalls).missing = ["T"] ∧
      ((declare {} [player]).results playerCalls)[1]? = some true ∧
      ((declare {} [player]).recordAll playerCalls.reverse).missing.Perm ["T"] := by
  obtain ⟨⟨hmissing, -⟩, hresults, -, horder⟩ := records_wanted [player] playerCalls
  have hwanted : (playerCalls.filterMap (wanted? [player])).eraseDups = ["T"] := by decide +kernel
  rw [hwanted] at hmissing
  obtain ⟨hget, -, htrue, -⟩ := hresults [⟨["T"], "T[]"⟩] ⟨[], "T"⟩ _ _ rfl rfl
  have hnew : wanted? [player] ⟨[], "T"⟩ = some "T" ∧
      ∀ c ∈ [(⟨["T"], "T[]"⟩ : Call)], wanted? [player] c ≠ some "T" := by decide +kernel
  refine ⟨hmissing, hget.trans (congrArg some (htrue.mpr ⟨"T", hnew⟩)), ?_⟩
  rw [← hmissing]
  exact (horder _ (List.reverse_perm _).symm).2.symm

end LuaTypings.References
