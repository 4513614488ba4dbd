/-
LuaTypings/Proofs/Catalog/RoundTrip.lean

Catalogs, written and read back.  A catalog is written as a value with whole numbers of 64 bits
only and few levels (`fits_toJson`), so that its text has the tree of this value.  The tree is read
in pieces: of a declaration the kind is read where it stands and everything else as a value
(`readTagged_scanEntries`), and the declarations one by one.

Main result: `toText_reads_back`.
-/
import LuaTypings.Proofs.Catalog.Records
import LuaTypings.Proofs.Json.Written

namespace LuaTypings

open Json (Fits scan scanItems scanEntries piecesOf)

/-! ### How deep catalogs are -/

theorem Json.Fits.optional {levels : Nat} (s : Option String) : Fits levels (.optional s) := by
  cases s
  · exact .null
  · exact .string

theorem Json.Fits.map {α : Type} {levels : Nat} {write : α → Json}
    (h : ∀ a, Fits levels (write a)) (as : List α) : Fits (levels + 1) (.array (as.map write)) := by
  refine .array fun j hj => ?_
  obtain ⟨a, -, rfl⟩ := List.mem_map.mp hj
  exact h a

theorem Json.Fits.strings {levels : Nat} (ss : List String) : Fits (levels + 1) (.strings ss) :=
  Fits.map (fun _ => .string) ss

theorem Parameter.fits_toJson {levels : Nat} (p : Parameter) : Fits (levels + 1) p.toJson := by
  refine .object ?_
  simp only [List.forall_mem_cons]
  exact ⟨.string, .string, .bool, .string, .optional p.doc, List.forall_mem_nil _⟩

theorem Method.fits_toJson {levels : Nat} (m : Method) : Fits (levels + 3) m.toJson := by
  refine .object ?_
  simp only [List.forall_mem_cons]
  exact ⟨.string, .string, .bool, .map Parameter.fits_toJson m.parameters, .optional m.doc,
    List.forall_mem_nil _⟩

theorem Field.fits_toJson {levels : Nat} (field : Field) : Fits (levels + 1) field.toJson := by
  have hconstant : Fits levels (constantJson field.constant) := by
    rcases field.constant with - | v
    · exact .null
    · have hmax : v.toInt < UInt64.size := Int.lt_of_le_of_lt v.toInt_le (by decide)
      exact .integer v.minValue_le_toInt hmax
  refine .object ?_
  simp only [List.forall_mem_cons]
  exact ⟨.string, .string, .optional field.doc, .bool, .bool, hconstant, List.forall_mem_nil _⟩

theorem Header.fits_entries {levels : Nat} (h : Header) : ∀ e ∈ h.entries, Fits levels e.2 := by
  simp only [entries, List.forall_mem_cons]
  exact ⟨.string, .string, .optional h.doc, .optional h.location, List.forall_mem_nil _⟩

namespace Declaration

theorem fits_ownEntries {levels : Nat} (d : Declaration) :
    ∀ e ∈ d.ownEntries, Fits (levels + 4) e.2 := by
  cases d with
  | classType c =>
    simp only [ownEntries, ClassType.entries, List.forall_mem_cons]
    exact ⟨.bool, .optional c.base, .strings c.interfaces, .strings c.arguments,
      .strings c.parameters, .bool, .bool, .map Field.fits_toJson c.fields,
      .map Method.fits_toJson c.methods, List.forall_mem_nil _⟩
  | interfaceType i =>
    simp only [ownEntries, InterfaceType.entries, List.forall_mem_cons]
    exact ⟨.strings i.interfaces, .strings i.arguments, .map Field.fits_toJson i.fields,
      .map Method.fits_toJson i.methods, List.forall_mem_nil _⟩
  | enumType e =>
    simp only [ownEntries, EnumType.entries, List.forall_mem_cons]
    exact ⟨.map Field.fits_toJson e.fields, List.forall_mem_nil _⟩
  | delegateType d =>
    simp only [ownEntries, DelegateType.entries, List.forall_mem_cons]
    exact ⟨d.invoke.fits_toJson, List.forall_mem_nil _⟩

theorem fits_body {levels : Nat} (d : Declaration) : ∀ e ∈ d.body, Fits (levels + 4) e.2 := by
  intro e he
  rcases List.mem_append.mp he with he | he
  · exact d.header.fits_entries e he
  · exact d.fits_ownEntries e he

theorem toJson_eq_object (d : Declaration) :
    d.toJson = .object (("kind", .string d.kind.word) :: d.body) := rfl

theorem fits_toJson {levels : Nat} (d : Declaration) : Fits (levels + 5) d.toJson :=
  .object (List.forall_mem_cons.mpr ⟨.string, d.fits_body⟩)

/-- No field is called like the kind. -/
theorem ne_kind_of_mem_body (d : Declaration) : ∀ e ∈ d.body, e.1 ≠ "kind" := fun _ he heq =>
  (List.nodup_cons.mp d.nodup_keys).1 (heq ▸ List.mem_map_of_mem (f := Prod.fst) he)

end Declaration

namespace Catalog

theorem count_bounds (n : UInt64) :
    Int64.minValue.toInt ≤ (n.toNat : Int) ∧ (n.toNat : Int) < UInt64.size := by
  have hmin : Int64.minValue.toInt ≤ 0 := by decide
  exact ⟨Int.le_trans hmin (Int.natCast_nonneg _), Int.ofNat_lt.mpr n.toNat_lt_size⟩

theorem fits_toJson {levels : Nat} (c : Catalog) : Fits (levels + 7) c.toJson := by
  obtain ⟨hmin, hmax⟩ := count_bounds c.analyzedSymbols
  have hcount : Fits (levels + 5) (.nat c.analyzedSymbols.toNat) := .integer hmin hmax
  refine .object ?_
  simp only [List.forall_mem_cons]
  refine ⟨.map Declaration.fits_toJson c.types, .object ?_, List.forall_mem_nil _⟩
  simp only [List.forall_mem_cons]
  exact ⟨hcount, List.forall_mem_nil _⟩

/-! ### From the tree to the catalog -/

@[simp] theorem keyText_piecesOf (s : String) : keyText (piecesOf s) = .ok s := by
  rw [keyText, Json.textOf?_piecesOf]

@[simp] theorem readKind_word (k : Kind) : readKind (.string (piecesOf k.word)) = .ok k := by
  rw [readKind, keyText_piecesOf]
  cases k <;> rfl

/-- The entries behind the kind are read as the values that they are. -/
theorem readTagged_scanEntries {kind : Option Kind} {body entries : List (String × Json)}
    (hkeys : ∀ e ∈ entries, e.1 ≠ "kind") (hfits : ∀ e ∈ entries, Fits memberLevels e.2) :
    readTagged kind body (scanEntries entries) = .ok (kind, body.reverse ++ entries) := by
  -- what is read already grows with each entry, so it is general in the induction
  induction entries generalizing body with
  | nil => rw [scanEntries, readTagged, List.append_nil]
  | cons e entries ih =>
    obtain ⟨key, value⟩ := e
    obtain ⟨hkey, hkeys⟩ := List.forall_mem_cons.mp hkeys
    obtain ⟨hvalue, hfits⟩ := List.forall_mem_cons.mp hfits
    have hread : Step.ofText (value.scan.read memberLevels) = .ok value := by
      rw [Json.read_scan hvalue]
      rfl
    rw [scanEntries, readTagged, keyText_piecesOf]
    simp only [bind, Except.bind, hkey, if_false, hread]
    rw [ih hkeys hfits, List.reverse_cons, List.append_assoc, List.singleton_append]

@[simp] theorem readDeclaration_scan (d : Declaration) : readDeclaration d.toJson.scan = .ok d := by
  have htagged : readTagged none [] (scanEntries (("kind", .string d.kind.word) :: d.body)) =
      .ok (some d.kind, d.body) := by
    rw [scanEntries, readTagged, keyText_piecesOf, scan]
    simp only [bind, Except.bind, if_true, Option.isSome_none, Bool.false_eq_true, if_false,
      readKind_word]
    exact readTagged_scanEntries d.ne_kind_of_mem_body d.fits_body
  rw [Declaration.toJson_eq_object, scan, readDeclaration, htagged]
  simp only [bind, Except.bind, close, Declaration.ofBody_body, Step.ofShape]

theorem readDeclarations_scanItems (types : List Declaration) :
    readDeclarations (scanItems (types.map Declaration.toJson)) = .ok types := by
  induction types with
  | nil => rfl
  | cons d types ih =>
    rw [List.map_cons, scanItems, readDeclarations, readDeclaration_scan, ih]
    rfl

theorem readCount_toString (n : UInt64) :
    readCount (.number (toString (n.toNat : Int)).toList) = .ok n := by
  obtain ⟨hmin, hmax⟩ := count_bounds n
  rw [readCount, Json.ofNumber?_toString hmin hmax]
  simp

theorem readStats_scan (n : UInt64) :
    readStats (scan (.object [("analyzed_symbols", .nat n.toNat)])) = .ok n := by
  rw [scan, readStats, scanEntries, scanEntries, readStatsEntries, keyText_piecesOf, Json.nat, scan]
  simp only [bind, Except.bind, if_true, Option.isSome_none, Bool.false_eq_true, if_false,
    readCount_toString, readStatsEntries]
  rfl

theorem readTypes_scan (types : List Declaration) :
    readTypes (scan (.array (types.map Declaration.toJson))) = .ok types := by
  rw [scan, readTypes, readDeclarations_scanItems]
  rfl

theorem readScan_scan (c : Catalog) : readScan c.toJson.scan = .ok c := by
  have hentries : readEntries none none (scanEntries
      [("types", .array (c.types.map Declaration.toJson)),
        ("stats", .object [("analyzed_symbols", .nat c.analyzedSymbols.toNat)])]) =
      .ok (some c.types, some c.analyzedSymbols) := by
    have hother : ¬ "stats" = "types" := by decide
    simp only [scanEntries, readEntries, keyText_piecesOf, readTypes_scan, readStats_scan, bind,
      Except.bind, if_true, Option.isSome_none, Bool.false_eq_true, if_false, hother]
  rw [toJson, scan, readScan, hentries]
  rfl

/-! ### Texts -/

@[simp] theorem readText_toText (c : Catalog) : readText c.toText = .ok c := by
  have hdocument : Json.Document.ofText c.toText = ⟨c.toJson.scan, false⟩ :=
    Json.ofText_pretty (@fits_toJson 0 c)
  rw [readText, hdocument, readScan_scan]
  rfl

theorem blankFrom_eq_none_iff {start : Nat} {types : List Declaration} :
    blankFrom start types = none ↔ ∀ d ∈ types, Text.isBlankText d.name = false := by
  induction types generalizing start with
  | nil => simp [blankFrom]
  | cons d types ih =>
    rw [blankFrom, List.forall_mem_cons]
    split_ifs with hblank
    · simp [hblank]
    · rw [ih]
      simp [hblank]

/-- A catalog is accepted if its text can be read and no name is blank. -/
theorem ofText_eq_ok_iff {text : String} {c : Catalog} :
    ofText text = .ok c ↔
      readText text = .ok c ∧ ∀ d ∈ c.types, Text.isBlankText d.name = false := by
  have hnone {c : Catalog} : c.firstBlank? = none ↔ ∀ d ∈ c.types, Text.isBlankText d.name = false :=
    blankFrom_eq_none_iff
  rw [ofText]
  rcases readText text with e | read
  · exact iff_of_false nofun fun h => nomatch h.1
  · simp only [bind, Except.bind]
    rcases hfirst : read.firstBlank? with - | ⟨kind, position⟩
    · constructor
      · rintro ⟨⟩
        exact ⟨rfl, hnone.mp hfirst⟩
      · rintro ⟨⟨⟩, -⟩
        rfl
    · refine iff_of_false nofun ?_
      rintro ⟨⟨⟩, hnamed⟩
      rw [hnone.mpr hnamed] at hfirst
      cases hfirst

/-- A catalog is accepted from its text exactly if no name is blank. -/
theorem ofText_toText_eq_ok_iff {c : Catalog} :
    ofText c.toText = .ok c ↔ ∀ d ∈ c.types, Text.isBlankText d.name = false :=
  ofText_eq_ok_iff.trans (and_iff_right (readText_toText c))

/-- The first blank name is what a catalog is refused for. -/
theorem ofText_toText_of_blank {c : Catalog} {kind : Kind} {position : Nat}
    (h : c.firstBlank? = some (kind, position)) :
    ofText c.toText = .error (.emptyName kind position) := by
  rw [ofText, readText_toText]
  simp only [bind, Except.bind, h]

/-- **A catalog is read back as it was written**, whatever strings, lists and numbers it has, and
it is accepted exactly if no declaration has a blank name. -/
theorem toText_reads_back (c : Catalog) :
    readText c.toText = .ok c ∧
      (ofText c.toText = .ok c ↔ ∀ d ∈ c.types, Text.isBlankText d.name = false) :=
  ⟨readText_toText c, ofText_toText_eq_ok_iff⟩

end Catalog

end LuaTypings
