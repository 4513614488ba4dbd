/-
LuaTypings/Proofs/Catalog/Building.lean

What steps make of a catalog.  A start completes the current declaration, and any other step changes
nothing but the current one.  So the steps fall into sections (`sections`), a start and the steps behind
it up to the next one, and each declaration of the catalog is what the steps of its section make of the
declaration that is started (`types_build`).  Kind, namespace and name are those of the start
(`title_changeAll`), and the interfaces are those that the section gives, each once
(`interfaces?_changeAll`).

Main result: `build_changes_last`.
-/
import LuaTypings.Catalog.Builder
import LuaTypings.Proofs.FirstOccurrences

namespace LuaTypings

variable {step : BuildStep} {steps calls : List BuildStep} {d : Declaration}

namespace Declaration

/-- What a declaration is known by. -/
def title (d : Declaration) : Kind × String × String := (d.kind, d.space, d.name)

/-- The list of interfaces of a class or an interface. -/
def interfaces? : Declaration → Option (List String)
  | classType c => some c.interfaces
  | interfaceType i => some i.interfaces
  | enumType _ => none
  | delegateType _ => none

end Declaration

namespace BuildStep

/-! ### One step -/

/-- The kind, the namespace and the name of the declaration that a step starts. -/
def starts? : BuildStep → Option (Kind × String × String)
  | startClass space name => some (.classKind, space, name)
  | startInterface space name => some (.interfaceKind, space, name)
  | startEnum space name => some (.enumKind, space, name)
  | startDelegate space name _ => some (.delegateKind, space, name)
  | _ => none

/-- Whether a step starts a declaration. -/
def isStart (step : BuildStep) : Bool := step.starts?.isSome

/-- The kinds of declarations that a step is made for. -/
def kinds : BuildStep → List Kind
  | document _ => [.classKind, .interfaceKind, .enumKind, .delegateKind]
  | extend _ | makeStatic | construct _ | nameParameters _ => [.classKind]
  | implement _ | addMethod _ => [.classKind, .interfaceKind]
  | addField _ => [.classKind, .interfaceKind, .enumKind]
  | addMember _ _ => [.enumKind]
  | startClass _ _ | startInterface _ _ | startEnum _ _ | startDelegate _ _ _ => []

/-- The interface that a step names. -/
def implemented? : BuildStep → Option String
  | implement parent => some parent
  | _ => none

theorem map_title_started? (step : BuildStep) :
    step.started?.map Declaration.title = step.starts? := by cases step <;> rfl

theorem started?_eq_none_iff : step.started? = none ↔ step.isStart = false := by
  rw [isStart, ← map_title_started?, Option.isSome_map, Option.isSome_eq_false_iff,
    Option.isNone_iff_eq_none]

theorem isStart_of_started (h : step.started? = some d) : step.isStart = true := by
  rw [isStart, ← map_title_started?, h]
  rfl

/-- No interfaces are there at the start. -/
theorem interfaces?_started (h : step.started? = some d) :
    ∀ parents ∈ d.interfaces?, parents = [] := by
  cases step <;> cases h <;> simp [Declaration.interfaces?]

theorem title_change (step : BuildStep) (d : Declaration) : (step.change d).title = d.title := by
  cases step <;> cases d <;> rfl

/-- A step leaves a declaration as it is that it is not made for. -/
theorem change_eq_self (h : d.kind ∉ step.kinds) : step.change d = d := by
  cases step <;> cases d <;> simp_all [Declaration.kind, kinds, change, onClass, onInterface, onEnum]

theorem interfaces?_change (step : BuildStep) (d : Declaration) :
    (step.change d).interfaces? =
      d.interfaces?.map fun parents => step.implemented?.toList.foldl addParent parents := by
  cases step <;> cases d <;> rfl

/-! ### Sections -/

/-- The steps in front of the next start. -/
def untilStart (steps : List BuildStep) : List BuildStep := steps.takeWhile fun s => !s.isStart

/-- The declarations that are started, each with the steps behind its start up to the next start. -/
def sections : List BuildStep → List (Declaration × List BuildStep)
  | [] => []
  | step :: steps =>
    match step.started? with
    | some d => (d, untilStart steps) :: sections steps
    | none => sections steps

theorem untilStart_cons_of_none (h : step.started? = none) (steps : List BuildStep) :
    untilStart (step :: steps) = step :: untilStart steps := by
  simp [untilStart, started?_eq_none_iff.mp h]

theorem untilStart_cons_of_some (h : step.started? = some d) (steps : List BuildStep) :
    untilStart (step :: steps) = [] := by
  simp [untilStart, isStart_of_started h]

theorem sections_cons_of_none (h : step.started? = none) (steps : List BuildStep) :
    sections (step :: steps) = sections steps := by rw [sections, h]

theorem sections_cons_of_some (h : step.started? = some d) (steps : List BuildStep) :
    sections (step :: steps) = (d, untilStart steps) :: sections steps := by rw [sections, h]

theorem length_sections (steps : List BuildStep) :
    (sections steps).length = steps.countP isStart := by
  induction steps with
  | nil => rfl
  | cons step steps ih =>
    cases hstep : step.started? with
    | none =>
      have hnot : ¬ step.isStart = true := by simp [started?_eq_none_iff.mp hstep]
      rw [sections_cons_of_none hstep, List.countP_cons_of_neg hnot, ih]
    | some d =>
      rw [sections_cons_of_some hstep, List.countP_cons_of_pos (isStart_of_started hstep),
        List.length_cons, ih]

theorem exists_start_of_mem_sections {p : Declaration × List BuildStep} (h : p ∈ sections steps) :
    ∃ step ∈ steps, step.started? = some p.1 := by
  induction steps with
  | nil => cases h
  | cons step steps ih =>
    cases hstep : step.started? with
    | none =>
      rw [sections_cons_of_none hstep] at h
      exact (ih h).imp fun _ hstart => hstart.imp_left (List.mem_cons_of_mem step)
    | some d =>
      rw [sections_cons_of_some hstep] at h
      rcases List.mem_cons.mp h with rfl | h
      · exact ⟨step, List.mem_cons_self, hstep⟩
      · exact (ih h).imp fun _ hstart => hstart.imp_left (List.mem_cons_of_mem step)

/-- What steps make of a declaration, one after the other. -/
def changeAll (calls : List BuildStep) (d : Declaration) : Declaration :=
  calls.foldl (fun d step => step.change d) d

theorem changeAll_nil : changeAll [] = id := rfl

theorem title_changeAll (calls : List BuildStep) (d : Declaration) :
    (changeAll calls d).title = d.title := by
  induction calls generalizing d with
  | nil => rfl
  | cons step calls ih => exact (ih (step.change d)).trans (title_change step d)

theorem interfaces?_changeAll (calls : List BuildStep) (d : Declaration) :
    (changeAll calls d).interfaces? =
      d.interfaces?.map fun parents => (calls.filterMap implemented?).foldl addParent parents := by
  induction calls generalizing d with
  | nil => exact Option.map_id'.symm
  | cons step calls ih =>
    have hcons : (step :: calls).filterMap implemented? =
        step.implemented?.toList ++ calls.filterMap implemented? := by
      rw [List.filterMap_cons]
      cases step.implemented? <;> rfl
    show (changeAll calls (step.change d)).interfaces? = _
    rw [ih, interfaces?_change, Option.map_map, hcons]
    simp only [List.foldl_append, Function.comp_def]

/-- The interfaces that a section leaves are those that its steps name. -/
theorem interfaces_of_mem_sections {first : Declaration} {parents : List String}
    (h : (first, calls) ∈ sections steps)
    (hparents : (changeAll calls first).interfaces? = some parents) :
    IsFirstOccurrences parents (calls.filterMap implemented?) := by
  obtain ⟨start, -, hstart⟩ := exists_start_of_mem_sections h
  rw [interfaces?_changeAll] at hparents
  obtain ⟨before, hbefore, hadded⟩ := Option.map_eq_some_iff.mp hparents
  obtain rfl : before = [] := interfaces?_started hstart before hbefore
  exact isFirstOccurrences_iff.mpr (hadded.symm.trans (foldl_addNew _))

end BuildStep

/-! ### Catalogs -/

namespace Building

variable {b : Building}

theorem take_of_none (h : step.started? = none) :
    b.take step = { b with current := b.current.map step.change } := by rw [take, h]

theorem take_of_some (h : step.started? = some d) : b.take step = ⟨b.types, some d⟩ := by
  rw [take, h]

end Building

namespace Catalog

open BuildStep

/-- Behind a state there is what its current declaration becomes, and then a declaration for each
section. -/
theorem types_foldl_take (b : Building) (steps : List BuildStep) :
    (steps.foldl Building.take b).types =
      b.complete ++ (b.current.map (changeAll (untilStart steps))).toList ++
        (sections steps).map fun p => changeAll p.2 p.1 := by
  -- the state is general, because a start moves its current declaration to the complete ones
  induction steps generalizing b with
  | nil => simp [Building.types, sections, untilStart, changeAll_nil]
  | cons step steps ih =>
    rw [List.foldl_cons, ih]
    cases hstep : step.started? with
    | none =>
      rw [Building.take_of_none hstep, untilStart_cons_of_none hstep, sections_cons_of_none hstep,
        Option.map_map]
      rfl
    | some d =>
      rw [Building.take_of_some hstep, untilStart_cons_of_some hstep, sections_cons_of_some hstep,
        changeAll_nil, Option.map_id]
      simp [Building.types]

/-- Each declaration is what the steps of its section make of the one that is started. -/
theorem types_build (steps : List BuildStep) :
    (build steps).types = (sections steps).map fun p => changeAll p.2 p.1 := types_foldl_take {} steps

theorem build_concat (steps : List BuildStep) (step : BuildStep) :
    build (steps ++ [step]) = ⟨((steps.foldl Building.take {}).take step).types, 0⟩ := by
  rw [build, List.foldl_concat]

/-- A start puts its declaration behind the others. -/
theorem types_build_concat_of_some (h : step.started? = some d) (steps : List BuildStep) :
    (build (steps ++ [step])).types = (build steps).types ++ [d] := by
  rw [build_concat, Building.take_of_some h]
  rfl

/-- Any other step changes the last declaration and no other. -/
theorem types_build_concat_of_none (h : step.started? = none) {front : List Declaration}
    (htypes : (build steps).types = front ++ [d]) :
    ∃ d', (build (steps ++ [step])).types = front ++ [d'] ∧ (d' = d ∨ d' = step.change d) := by
  rw [build_concat, Building.take_of_none h]
  rw [build] at htypes
  generalize steps.foldl Building.take {} = b at htypes ⊢
  obtain ⟨complete, current⟩ := b
  cases current with
  -- no run reaches such a state, but no invariant is needed: the last declaration stays
  | none => exact ⟨d, htypes, .inl rfl⟩
  | some c =>
    obtain ⟨rfl, hlast⟩ := List.append_inj' htypes rfl
    obtain rfl : c = d := List.singleton_inj.mp hlast
    exact ⟨step.change c, rfl, .inr rfl⟩

theorem build_concat_of_nil (h : step.started? = none) (htypes : (build steps).types = []) :
    build (steps ++ [step]) = build steps := by
  rw [build_concat, Building.take_of_none h]
  rw [build] at htypes ⊢
  generalize steps.foldl Building.take {} = b at htypes ⊢
  obtain ⟨complete, current⟩ := b
  cases current with
  | none => rfl
  | some c => cases complete <;> cases htypes

/-- **What a step makes of a catalog.**  A start puts one declaration behind the others, of the kind and
with the namespace and the name that it gives.  Any other step changes nothing before the first
start, and later at most the last declaration, which keeps kind, namespace and name and stays as it is
if the step is not made for its kind.  There are as many declarations as starts; each is what the steps
up to the next start make of the one that is started, and if it is a class or an interface, its
interfaces are those that these steps name, each once and in the order in which it is named first. -/
theorem build_changes_last (steps : List BuildStep) (step : BuildStep) :
    (∀ title, step.starts? = some title → ∃ d, d.title = title ∧
      (build (steps ++ [step])).types = (build steps).types ++ [d]) ∧
    (step.starts? = none →
      ((build steps).types = [] → build (steps ++ [step]) = build steps) ∧
      ∀ front d, (build steps).types = front ++ [d] → ∃ d',
        (build (steps ++ [step])).types = front ++ [d'] ∧ d'.title = d.title ∧
          (d.kind ∉ step.kinds → d' = d)) ∧
    (build steps).types.length = steps.countP isStart ∧
    ∀ (i : Nat) d, (build steps).types[i]? = some d → ∃ first calls,
      (sections steps)[i]? = some (first, calls) ∧ d = changeAll calls first ∧
        d.title = first.title ∧
        ∀ parents, d.interfaces? = some parents →
          IsFirstOccurrences parents (calls.filterMap implemented?) := by
  refine ⟨?start, fun hnone => ?change, ?length, ?sections⟩
  case start =>
    intro title htitle
    rw [← map_title_started?] at htitle
    obtain ⟨d, hd, rfl⟩ := Option.map_eq_some_iff.mp htitle
    exact ⟨d, rfl, types_build_concat_of_some hd steps⟩
  case change =>
    rw [← map_title_started?, Option.map_eq_none_iff] at hnone
    refine ⟨build_concat_of_nil hnone, fun front d htypes => ?_⟩
    obtain ⟨d', htypes', rfl | rfl⟩ := types_build_concat_of_none hnone htypes
    · exact ⟨d', htypes', rfl, fun _ => rfl⟩
    · exact ⟨_, htypes', title_change step d, change_eq_self⟩
  case length => rw [types_build, List.length_map, length_sections]
  case sections =>
    intro i d hd
    rw [types_build, List.getElem?_map, Option.map_eq_some_iff] at hd
    obtain ⟨⟨first, calls⟩, hsection, rfl⟩ := hd
    exact ⟨first, calls, hsection, rfl, title_changeAll calls first, fun parents =>
      interfaces_of_mem_sections (List.mem_of_getElem? hsection)⟩

/-- Steps before the first start, some for another kind, and an interface that is named twice. -/
def zooSteps : List BuildStep :=
  [.document "Lost", .startEnum "" "Color", .addMember "Red" (some 0), .implement "ILost",
    .startClass "Zoo" "Animal", .implement "INamed", .addMember "Lost" none, .implement "IAlive",
    .implement "INamed", .startDelegate "Zoo" "OnDone" { name := "Run" }]

/-- The class gets its two interfaces in the order in which they were named, and a delegate no
interface. -/
theorem build_changes_last_zoo :
    (build zooSteps).types.length = 3 ∧
      (∃ calls, (sections zooSteps)[1]?.map Prod.snd = some calls ∧
        IsFirstOccurrences ["INamed", "IAlive"] (calls.filterMap implemented?)) ∧
      (build (zooSteps ++ [.implement "ILost"])).types = (build zooSteps).types := by
  obtain ⟨-, hchange, hlength, hsections⟩ := build_changes_last zooSteps (.implement "ILost")
  refine ⟨hlength, ?_, ?_⟩
  · obtain ⟨first, calls, hsection, -, -, hparents⟩ := hsections 1 _ rfl
    exact ⟨calls, by rw [hsection]; rfl, hparents _ (by decide)⟩
  · have hlast : (build zooSteps).types = (build zooSteps).types.dropLast ++
        [.delegateType { header := { name := "OnDone", space := "Zoo" }, invoke := { name := "Invoke" } }] :=
      rfl
    obtain ⟨d', htypes, -, hsame⟩ := (hchange rfl).2 _ _ hlast
    rw [htypes, hsame (by decide), ← hlast]

end Catalog

end LuaTypings
