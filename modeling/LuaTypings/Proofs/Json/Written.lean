/-
LuaTypings/Proofs/Json/Written.lean

Written JSON, read back.  `scan` is the tree of a value, and reading the text of a value comes to
this tree wherever the value stands (`due_write`): inside any lists and objects, and in front of
any text that starts with a comma, with a line end or not at all.  A tree is read back as its value if
the value has whole numbers of 64 bits only and no more levels than are allowed (`read_scan`).

Main results: `ofText_pretty`, `read_scan`.
-/
import LuaTypings.Proofs.Json.Lexing
import Mathlib.Data.List.TakeWhile

namespace LuaTypings.Json

/-- A value has at most so many levels of lists and objects, and all numbers in it are whole
numbers of 64 bits, signed or unsigned. -/
inductive Fits : Nat → Json → Prop where
  | null {levels} : Fits levels .null
  | bool {levels b} : Fits levels (.bool b)
  | integer {levels n} : Int64.minValue.toInt ≤ n → n < UInt64.size → Fits levels (.integer n)
  | string {levels s} : Fits levels (.string s)
  | array {levels items} :
    (∀ item ∈ items, Fits levels item) → Fits (levels + 1) (.array items)
  | object {levels entries} :
    (∀ e ∈ entries, Fits levels e.2) → Fits (levels + 1) (.object entries)

/-! ### Trees of values -/

mutual

/-- The tree of a value. -/
def scan : Json → Scan
  | .null => .null
  | .bool b => .bool b
  | .integer n => .number (toString n).toList
  | .real spelling => .number spelling.toList
  | .string s => .string (piecesOf s)
  | .array items => .array (scanItems items) none
  | .object entries => .object (scanEntries entries) none

/-- The trees of items. -/
def scanItems : List Json → List Scan
  | [] => []
  | item :: items => scan item :: scanItems items

/-- The trees of entries. -/
def scanEntries : List (String × Json) → List (List Piece × Scan)
  | [] => []
  | (key, value) :: entries => (piecesOf key, scan value) :: scanEntries entries

end

/-! ### From the text to the tree -/

/-- What is due behind a text. -/
def due (d : Due) (cs : List Char) : Due := (lex .between cs).foldl Due.next d

theorem due_token {d : Due} {cs rest : List Char} (t : Token)
    (h : lex .between cs = t :: lex .between rest) : due d cs = due (d.next t) rest := by
  rw [due, h, List.foldl_cons, due]

@[simp] theorem due_newLine (d : Due) (level : Nat) (rest : List Char) :
    due d (newLine level rest) = due d rest := by
  rw [due, lex_newLine, due]

/-- Reading the text of a value comes to its tree. -/
def Reads (j : Json) : Prop :=
  ∀ level rest stack, EndsNumber rest →
    due (.value stack) (write level rest j) = due (.after j.scan stack) rest

variable {level : Nat} {rest : List Char} {stack : List Open}

theorem endsNumber_writeItems (h : EndsNumber rest) (level : Nat) (items : List Json) :
    EndsNumber (writeItems level rest items) := by
  cases items with
  | nil => exact h
  | cons item items =>
    rintro c hc
    exact Or.inl (Option.some.inj hc).symm

theorem endsNumber_writeEntries (h : EndsNumber rest) (level : Nat)
    (entries : List (String × Json)) : EndsNumber (writeEntries level rest entries) := by
  cases entries with
  | nil => exact h
  | cons e entries =>
    rintro c hc
    exact Or.inl (Option.some.inj hc).symm

/-- The items behind the ones that were read. -/
theorem due_writeItems {items : List Json} (hitems : ∀ item ∈ items, Reads item)
    (hrest : EndsNumber rest) (done : List Scan) :
    due (.afterItem done stack) (writeItems level rest items) =
      due (.afterItem ((scanItems items).reverse ++ done) stack) rest := by
  induction items generalizing done with
  | nil => rfl
  | cons item items ih =>
    obtain ⟨hitem, hitems⟩ := List.forall_mem_cons.mp hitems
    have hmore := endsNumber_writeItems hrest level items
    calc due (.afterItem done stack) (writeItems level rest (item :: items))
        = due (.value (.array done :: stack))
            (newLine level (write level (writeItems level rest items) item)) :=
          due_token .comma rfl
      _ = due (.afterItem (item.scan :: done) stack) (writeItems level rest items) := by
          rw [due_newLine, hitem _ _ _ hmore]
          rfl
      _ = due (.afterItem ((scanItems items).reverse ++ item.scan :: done) stack) rest :=
          ih hitems _
      _ = due (.afterItem ((scanItems (item :: items)).reverse ++ done) stack) rest := by
          rw [scanItems, List.reverse_cons, List.append_assoc, List.singleton_append]

/-- One entry, where a key is due. -/
theorem due_entry {key : String} {value : Json} (hvalue : Reads value) (hrest : EndsNumber rest)
    (done : List (List Piece × Scan)) :
    due (.key done stack) (quote key (':' :: ' ' :: write level rest value)) =
      due (.afterEntry ((piecesOf key, value.scan) :: done) stack) rest := by
  have hspace : lex .between (' ' :: write level rest value) =
      lex .between (write level rest value) := lex_of_next rfl _
  calc due (.key done stack) (quote key (':' :: ' ' :: write level rest value))
      = due (.colon done (piecesOf key) stack) (':' :: ' ' :: write level rest value) :=
        due_token (.string (piecesOf key)) (lex_quote key _)
    _ = due (.value (.object done (piecesOf key) :: stack)) (' ' :: write level rest value) :=
        due_token .colon rfl
    _ = due (.value (.object done (piecesOf key) :: stack)) (write level rest value) := by
        rw [due, hspace, due]
    _ = due (.afterEntry ((piecesOf key, value.scan) :: done) stack) rest :=
        hvalue _ _ _ hrest

/-- The entries behind the ones that were read. -/
theorem due_writeEntries {entries : List (String × Json)} (hentries : ∀ e ∈ entries, Reads e.2)
    (hrest : EndsNumber rest) (done : List (List Piece × Scan)) :
    due (.afterEntry done stack) (writeEntries level rest entries) =
      due (.afterEntry ((scanEntries entries).reverse ++ done) stack) rest := by
  induction entries generalizing done with
  | nil => rfl
  | cons e entries ih =>
    obtain ⟨key, value⟩ := e
    obtain ⟨hvalue, hentries⟩ := List.forall_mem_cons.mp hentries
    have hmore := endsNumber_writeEntries hrest level entries
    calc due (.afterEntry done stack) (writeEntries level rest ((key, value) :: entries))
        = due (.key done stack) (newLine level (quote key (':' :: ' ' ::
            write level (writeEntries level rest entries) value))) := due_token .comma rfl
      _ = due (.afterEntry ((piecesOf key, value.scan) :: done) stack)
            (writeEntries level rest entries) := by
          rw [due_newLine, due_entry hvalue hmore]
      _ = due (.afterEntry ((scanEntries entries).reverse ++ (piecesOf key, value.scan) :: done)
            stack) rest := ih hentries _
      _ = due (.afterEntry ((scanEntries ((key, value) :: entries)).reverse ++ done) stack)
            rest := by
          rw [scanEntries, List.reverse_cons, List.append_assoc, List.singleton_append]

/-- No written value starts like the end of a list, so a list that has no items yet goes on as if
it had one. -/
theorem due_firstItem {levels : Nat} {j : Json} (h : Fits levels j) (hrest : EndsNumber rest) :
    due (.firstItem stack) (write level rest j) =
      due (.value (.array [] :: stack)) (write level rest j) := by
  -- only the token that closes a list is taken differently here
  obtain ⟨t, ts, hlex, ht⟩ : ∃ t ts, lex .between (write level rest j) = t :: ts ∧
      Due.next (.firstItem stack) t = Due.next (.value (.array [] :: stack)) t := by
    cases h with
    | null => exact ⟨.null, _, rfl, rfl⟩
    | @bool _ b => cases b <;> exact ⟨_, _, rfl, rfl⟩
    | integer => exact ⟨_, _, lex_integer _ hrest, rfl⟩
    | string => exact ⟨_, _, lex_quote _ rest, rfl⟩
    | @array _ items => cases items <;> exact ⟨.openArray, _, rfl, rfl⟩
    | @object _ entries => cases entries <;> exact ⟨.openObject, _, rfl, rfl⟩
  rw [due, due, hlex, List.foldl_cons, List.foldl_cons, ht]

theorem due_write {levels : Nat} {j : Json} (h : Fits levels j) : Reads j := by
  -- a value inside a list or an object is followed by the rest of this list or object
  induction h with
  | null => exact fun level rest stack _ => due_token .null rfl
  | @bool _ b =>
    intro level rest stack _
    cases b
    · exact due_token (.bool false) rfl
    · exact due_token (.bool true) rfl
  | integer => exact fun level rest stack hrest => due_token (.number _) (lex_integer _ hrest)
  | string => exact fun level rest stack _ => due_token (.string _) (lex_quote _ rest)
  | @array levels items hfits ih =>
    intro level rest stack hrest
    rcases items with - | ⟨item, items⟩
    · -- brackets without items stand on one line
      exact (due_token .openArray rfl).trans (due_token .closeArray rfl)
    · obtain ⟨hitem, hitems⟩ := List.forall_mem_cons.mp ih
      have hclose := endsNumber_newLine level (']' :: rest)
      have hmore := endsNumber_writeItems hclose (level + 1) items
      calc due (.value stack) (write level rest (.array (item :: items)))
          = due (.firstItem stack) (newLine (level + 1) (write (level + 1)
              (writeItems (level + 1) (newLine level (']' :: rest)) items) item)) :=
            due_token .openArray rfl
        _ = due (.afterItem [item.scan] stack)
              (writeItems (level + 1) (newLine level (']' :: rest)) items) := by
            rw [due_newLine, due_firstItem (hfits item List.mem_cons_self) hmore,
              hitem _ _ _ hmore]
            rfl
        _ = due (.afterItem ((scanItems items).reverse ++ [item.scan]) stack) (']' :: rest) := by
            rw [due_writeItems hitems hclose, due_newLine]
        _ = due (.after (.array ((scanItems items).reverse ++ [item.scan]).reverse none) stack)
              rest := due_token .closeArray rfl
        _ = due (.after (scan (.array (item :: items))) stack) rest := by
            rw [List.reverse_append, List.reverse_reverse, scan, scanItems]
            rfl
  | @object levels entries hfits ih =>
    intro level rest stack hrest
    rcases entries with - | ⟨⟨key, value⟩, entries⟩
    · exact (due_token .openObject rfl).trans (due_token .closeObject rfl)
    · obtain ⟨hvalue, hentries⟩ := List.forall_mem_cons.mp ih
      have hclose := endsNumber_newLine level ('\x7d' :: rest)
      have hmore := endsNumber_writeEntries hclose (level + 1) entries
      calc due (.value stack) (write level rest (.object ((key, value) :: entries)))
          = due (.key [] stack) (newLine (level + 1) (quote key (':' :: ' ' ::
              write (level + 1) (writeEntries (level + 1) (newLine level ('\x7d' :: rest))
                entries) value))) := due_token .openObject rfl
        _ = due (.afterEntry [(piecesOf key, value.scan)] stack)
              (writeEntries (level + 1) (newLine level ('\x7d' :: rest)) entries) := by
            rw [due_newLine, due_entry hvalue hmore]
        _ = due (.afterEntry ((scanEntries entries).reverse ++ [(piecesOf key, value.scan)]) stack)
              ('\x7d' :: rest) := by
            rw [due_writeEntries hentries hclose, due_newLine]
        _ = due (.after (.object
              ((scanEntries entries).reverse ++ [(piecesOf key, value.scan)]).reverse none) stack)
              rest := due_token .closeObject rfl
        _ = due (.after (scan (.object ((key, value) :: entries))) stack) rest := by
            rw [List.reverse_append, List.reverse_reverse, scan, scanEntries]
            rfl

/-- The text of a value has the tree of the value, and nothing behind it. -/
theorem ofText_pretty {levels : Nat} {j : Json} (h : Fits levels j) :
    Document.ofText j.pretty = ⟨j.scan, false⟩ := by
  have hdue : (tokens j.pretty).foldl Due.next (.value []) = .nothing j.scan := by
    rw [tokens_eq_lex, pretty, String.toList_ofList]
    exact due_write h 0 [] [] endsNumber_nil
  rw [Document.ofText, hdue]
  rfl

/-! ### From the tree to the value -/

/-- Digits, perhaps behind a minus sign, are a whole number. -/
theorem ofChars_of_digits {cs digits : List Char} (h : ∀ c ∈ digits, c.isDigit = true)
    (hcs : cs.dropWhile (· == '-') = digits) :
    NumberParts.ofChars cs = ⟨cs.head? == some '-', digits, [], 0, true⟩ := by
  have hne : ∀ c ∈ digits, ∀ d, d.isDigit = false → c ≠ d := by
    rintro c hc d hd rfl
    rw [h c hc] at hd
    cases hd
  have hmark : ∀ c ∈ digits, (!(c == 'e' || c == 'E')) = true := by
    intro c hc
    simp [hne c hc 'e' rfl, hne c hc 'E' rfl]
  have hpoint : ∀ c ∈ digits, (c != '.') = true := by
    intro c hc
    simp [hne c hc '.' rfl]
  have hnone : digits.contains '.' = false := by
    rw [Bool.eq_false_iff]
    exact fun hmem => hne '.' (List.contains_iff_mem.mp hmem) '.' rfl rfl
  simp only [NumberParts.ofChars, hcs, List.takeWhile_eq_self_iff.mpr hmark,
    List.dropWhile_eq_nil_iff.mpr hmark, List.takeWhile_eq_self_iff.mpr hpoint,
    List.dropWhile_eq_nil_iff.mpr hpoint, hnone, List.drop_nil, BEq.rfl, Bool.not_false,
    Bool.and_true]
  rfl

/-- No minus sign stands in front of the digits of a number. -/
theorem exists_first_digit (n : Nat) :
    ∃ d ds, Nat.toDigits 10 n = d :: ds ∧ (d == '-') = false := by
  obtain ⟨d, ds, hcons⟩ := List.exists_cons_of_ne_nil (Nat.toDigits_ne_nil (n := n) (b := 10))
  refine ⟨d, ds, hcons, beq_false_of_ne ?_⟩
  rintro rfl
  exact absurd (isDigit_of_mem_toDigits (hcons ▸ List.mem_cons_self)) (by decide)

theorem ofChars_toDigits (n : Nat) :
    NumberParts.ofChars (Nat.toDigits 10 n) = ⟨false, Nat.toDigits 10 n, [], 0, true⟩ := by
  obtain ⟨d, ds, hcons, hd⟩ := exists_first_digit n
  rw [ofChars_of_digits fun c => isDigit_of_mem_toDigits]
  · rw [hcons, List.head?_cons]
    simpa using hd
  · rw [hcons, List.dropWhile_cons, hd]
    rfl

theorem ofChars_minus_toDigits (n : Nat) :
    NumberParts.ofChars ('-' :: Nat.toDigits 10 n) = ⟨true, Nat.toDigits 10 n, [], 0, true⟩ := by
  obtain ⟨d, ds, hcons, hd⟩ := exists_first_digit n
  rw [ofChars_of_digits fun c => isDigit_of_mem_toDigits]
  · rfl
  · rw [hcons, List.dropWhile_cons_of_pos rfl, List.dropWhile_cons, hd]
    rfl

theorem decimalValue_toDigits (n : Nat) : Text.decimalValue (Nat.toDigits 10 n) = n :=
  Nat.ofDigitChars_toDigits (by decide) (by decide)

/-- A whole number of 64 bits is read as it was written. -/
theorem ofNumber?_toString {n : Int} (hmin : Int64.minValue.toInt ≤ n) (hmax : n < UInt64.size) :
    ofNumber? (toString n).toList = some (.integer n) := by
  cases n with
  | ofNat n =>
    have hword : n ≤ maxWord := by
      rw [Int.ofNat_eq_natCast] at hmax
      exact Nat.le_sub_one_of_lt (Int.ofNat_lt.mp hmax)
    simp only [toList_toString_ofNat, ofNumber?, ofChars_toDigits, decimalValue_toDigits]
    simp [hword]
  | negSucc n =>
    have hword : n + 1 ≤ Nat.pow 2 63 := by
      have hbound : Int64.minValue.toInt = -(Nat.pow 2 63 : Nat) := rfl
      rw [Int.negSucc_eq, hbound] at hmin
      omega
    simp only [toList_toString_negSucc, ofNumber?, ofChars_minus_toDigits, decimalValue_toDigits]
    simp [hword, Int.negSucc_eq]

theorem readItems_scanItems {levels : Nat} {items : List Json}
    (h : ∀ item ∈ items, item.scan.read levels = .ok item) :
    readItems levels (scanItems items) = .ok items := by
  induction items with
  | nil => rfl
  | cons item items ih =>
    obtain ⟨hitem, hitems⟩ := List.forall_mem_cons.mp h
    rw [scanItems, readItems, hitem, ih hitems]

theorem readEntries_scanEntries {levels : Nat} {entries : List (String × Json)}
    (h : ∀ e ∈ entries, e.2.scan.read levels = .ok e.2) :
    readEntries levels (scanEntries entries) = .ok entries := by
  induction entries with
  | nil => rfl
  | cons e entries ih =>
    obtain ⟨key, value⟩ := e
    obtain ⟨hvalue, hentries⟩ := List.forall_mem_cons.mp h
    rw [scanEntries, readEntries, textOf?_piecesOf]
    simp only [hvalue, ih hentries]

/-- A tree is read back as its value. -/
theorem read_scan {levels : Nat} {j : Json} (h : Fits levels j) :
    j.scan.read levels = .ok j := by
  induction h with
  | null => rfl
  | bool => rfl
  | integer hmin hmax => simp only [scan, Scan.read, ofNumber?_toString hmin hmax]
  | string => simp only [scan, Scan.read, textOf?_piecesOf]
  | array _ ih =>
    have hitems := readItems_scanItems ih
    simp only [scan, Scan.read, Nat.add_sub_cancel, Nat.succ_ne_zero, if_false, hitems]
  | object _ ih =>
    have hentries := readEntries_scanEntries ih
    simp only [scan, Scan.read, Nat.add_sub_cancel, Nat.succ_ne_zero, if_false, hentries]

end LuaTypings.Json
