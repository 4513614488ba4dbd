/-
LuaTypings/Proofs/Json/Lexing.lean

Written JSON, cut into tokens.  `lex` reads a text from any state on, so that what is written can
be read piece by piece, whatever follows it.  A written string gives back its characters as
pieces (`lex_quote`), and a written whole number is one token if nothing follows that could extend
it (`lex_integer`); only a comma or a line end does follow a value.
-/
import LuaTypings.Json.Printer
import LuaTypings.Json.Scan
import Mathlib.Data.List.Basic

namespace LuaTypings.Json

/-! ### Reading piece by piece -/

/-- The tokens of a text from a state on. -/
def lex (state : Lexing) : List Char → List Token
  | [] => state.finish
  | c :: cs => (state.next c).1 ++ lex (state.next c).2 cs

theorem tokens_eq_lex (text : String) : tokens text = lex .between text.toList := by
  have hfold (cs : List Char) (read : List Token) (state : Lexing) :
      (cs.foldl lexStep (read, state)).1.reverse ++ (cs.foldl lexStep (read, state)).2.finish =
        read.reverse ++ lex state cs := by
    induction cs generalizing read state with
    | nil => rfl
    | cons c cs ih =>
      rw [List.foldl_cons, lexStep, ih, lex, List.reverse_append, List.reverse_reverse,
        List.append_assoc]
  exact hfold text.toList [] .between

variable {state state' : Lexing} {c : Char} {rest : List Char}

/-- A character that completes no token only changes the state. -/
theorem lex_of_next (h : state.next c = ([], state')) (rest : List Char) :
    lex state (c :: rest) = lex state' rest := by
  rw [lex, h, List.nil_append]

@[simp] theorem lex_newLine (level : Nat) (rest : List Char) :
    lex .between (newLine level rest) = lex .between rest := by
  have hspaces (n : Nat) : lex .between (List.replicate n ' ' ++ rest) = lex .between rest := by
    induction n with
    | zero => rfl
    | succ n ih => exact (lex_of_next rfl _).trans ih
  exact (lex_of_next rfl _).trans (hspaces _)

/-! ### Strings -/

/-- The control characters that have a letter of their own behind a backslash. -/
def hasLetter (c : Char) : Bool := ['\x08', '\x0c', '\n', '\r', '\t'].contains c

/-- The piece that a written character is read as: a control character without a letter is written
by its number. -/
def pieceOf (c : Char) : Piece :=
  if c.toNat < 0x20 ∧ hasLetter c = false then .unit c.toNat else .char c

theorem unitOf?_control {n : Nat} (h : n < 0x20) :
    unitOf? ['0', '0', hexDigit (n / 16), hexDigit (n % 16)] = some n := by
  revert h
  revert n
  decide

/-- Four digits of base sixteen take four bytes. -/
theorem byteSize_control {n : Nat} (h : n < 0x20) :
    byteSize [hexDigit (n / 16), '0', '0'] = 3 ∧
      byteSize [hexDigit (n % 16), hexDigit (n / 16), '0', '0'] = 4 := by
  revert h
  revert n
  decide

/-- A control character is read from its number. -/
theorem lex_control {n : Nat} (h : n < 0x20) (pieces : List Piece) (rest : List Char) :
    lex (.string .plain pieces)
        (['\\', 'u', '0', '0', hexDigit (n / 16), hexDigit (n % 16)] ++ rest) =
      lex (.string .plain (.unit n :: pieces)) rest := by
  obtain ⟨hsize, hsize'⟩ := byteSize_control h
  have hthree : Lexing.next (.string (.unit ['0', '0']) pieces) (hexDigit (n / 16)) =
      ([], .string (.unit [hexDigit (n / 16), '0', '0']) pieces) := by
    rw [Lexing.next, Lexing.nextInString, hsize, if_pos (by decide)]
  have hfour : Lexing.next (.string (.unit [hexDigit (n / 16), '0', '0']) pieces)
      (hexDigit (n % 16)) = ([], .string .plain (.unit n :: pieces)) := by
    have hunit : unitOf? [hexDigit (n % 16), hexDigit (n / 16), '0', '0'].reverse = some n :=
      unitOf?_control h
    rw [Lexing.next, Lexing.nextInString, hsize', if_neg (by decide), hunit]
  calc lex (.string .plain pieces)
        (['\\', 'u', '0', '0', hexDigit (n / 16), hexDigit (n % 16)] ++ rest)
      = lex (.string (.unit ['0', '0']) pieces)
          (hexDigit (n / 16) :: hexDigit (n % 16) :: rest) := rfl
    _ = lex (.string (.unit [hexDigit (n / 16), '0', '0']) pieces)
          (hexDigit (n % 16) :: rest) := lex_of_next hthree _
    _ = lex (.string .plain (.unit n :: pieces)) rest := lex_of_next hfour _

/-- A written character is read as its piece. -/
theorem lex_escapeChar (c : Char) (pieces : List Piece) (rest : List Char) :
    lex (.string .plain pieces) (escapeChar c ++ rest) =
      lex (.string .plain (pieceOf c :: pieces)) rest := by
  unfold escapeChar
  split
  -- an escape of two characters is read by running the states
  case h_1 => rfl
  case h_2 => rfl
  case h_3 => rfl
  case h_4 => rfl
  case h_5 => rfl
  case h_6 => rfl
  case h_7 => rfl
  case h_8 hquote hbackslash hb hf hn hr ht =>
    have hletter : hasLetter c = false := by
      have hall : ¬ c = '\x08' ∧ ¬ c = '\x0c' ∧ ¬ c = '\n' ∧ ¬ c = '\r' ∧ ¬ c = '\t' :=
        ⟨hb, hf, hn, hr, ht⟩
      simpa [hasLetter] using hall
    split_ifs with hcontrol
    · rw [pieceOf, if_pos ⟨hcontrol, hletter⟩]
      exact lex_control hcontrol pieces rest
    · -- anything else stands for itself
      rw [pieceOf, if_neg fun hboth => hcontrol hboth.1]
      refine lex_of_next ?_ rest
      rw [Lexing.next, Lexing.nextInString, if_neg hquote, if_neg hbackslash, if_neg hcontrol]

/-- The pieces of a written string. -/
def piecesOf (s : String) : List Piece := s.toList.map pieceOf

theorem lex_quote (s : String) (rest : List Char) :
    lex .between (quote s rest) = .string (piecesOf s) :: lex .between rest := by
  have hchars (cs : List Char) (pieces : List Piece) (rest : List Char) :
      lex (.string .plain pieces) (cs.flatMap escapeChar ++ rest) =
        lex (.string .plain ((cs.map pieceOf).reverse ++ pieces)) rest := by
    induction cs generalizing pieces with
    | nil => rfl
    | cons c cs ih =>
      rw [List.flatMap_cons, List.append_assoc, lex_escapeChar, ih, List.map_cons,
        List.reverse_cons, List.append_assoc, List.singleton_append]
  calc lex .between (quote s rest)
      = lex (.string .plain []) (s.toList.flatMap escapeChar ++ '"' :: rest) := rfl
    _ = lex (.string .plain (piecesOf s).reverse) ('"' :: rest) := by
        rw [hchars, List.append_nil, piecesOf]
    _ = .string (piecesOf s).reverse.reverse :: lex .between rest := rfl
    _ = .string (piecesOf s) :: lex .between rest := by rw [List.reverse_reverse]

/-- The pieces of a written string are those of its characters. -/
@[simp] theorem textOf?_piecesOf (s : String) : textOf? (piecesOf s) = some s := by
  have hdecode (cs : List Char) : decodePieces (cs.map pieceOf) = some cs := by
    induction cs with
    | nil => rfl
    | cons c cs ih =>
      rw [List.map_cons]
      by_cases hcontrol : c.toNat < 0x20 ∧ hasLetter c = false
      · -- no control character is half of a surrogate pair
        rw [pieceOf, if_pos hcontrol]
        have htrailing : isTrailing c.toNat = false := by
          simp only [isTrailing, Bool.and_eq_false_iff, decide_eq_false_iff_not]
          omega
        have hleading : isLeading c.toNat = false := by
          simp only [isLeading, Bool.and_eq_false_iff, decide_eq_false_iff_not]
          omega
        rw [decodePieces.eq_def]
        simp [htrailing, hleading, ih]
      · rw [pieceOf, if_neg hcontrol]
        simp [decodePieces, ih]
  rw [textOf?, piecesOf, hdecode, Option.map_some, String.ofList_toList]

/-! ### Whole numbers -/

/-- Nothing follows that could extend a number. -/
def EndsNumber (rest : List Char) : Prop := ∀ c ∈ rest.head?, c = ',' ∨ c = '\n'

theorem endsNumber_nil : EndsNumber [] := nofun

theorem endsNumber_newLine (level : Nat) (rest : List Char) : EndsNumber (newLine level rest) := by
  rintro c hc
  exact Or.inr (Option.some.inj hc).symm

/-- A number that may end does end where nothing extends it. -/
theorem lex_number {phase : NumberPhase} (hphase : phase = .zero ∨ phase = .whole)
    (chars : List Char) (hrest : EndsNumber rest) :
    lex (.number phase chars) rest = .number chars.reverse :: lex .between rest := by
  rcases rest with - | ⟨c, rest⟩
  · rcases hphase with rfl | rfl <;> rfl
  · rcases hrest c rfl with rfl | rfl <;> rcases hphase with rfl | rfl <;> rfl

theorem lex_digits {digits : List Char} (h : ∀ d ∈ digits, d.isDigit = true) (chars : List Char)
    (rest : List Char) :
    lex (.number .whole chars) (digits ++ rest) =
      lex (.number .whole (digits.reverse ++ chars)) rest := by
  induction digits generalizing chars with
  | nil => rfl
  | cons d digits ih =>
    obtain ⟨hd, hdigits⟩ := List.forall_mem_cons.mp h
    have hnext : Lexing.next (.number .whole chars) d = ([], .number .whole (d :: chars)) := by
      simp [Lexing.next, NumberPhase.next?, hd]
    rw [List.cons_append, lex_of_next hnext, ih hdigits, List.reverse_cons, List.append_assoc,
      List.singleton_append]

theorem isDigit_of_mem_toDigits {n : Nat} {c : Char} (h : c ∈ Nat.toDigits 10 n) :
    c.isDigit = true := Nat.isDigit_of_mem_toDigits (by decide) (by decide) h

/-- The digits of a positive number do not start with zero. -/
theorem exists_toDigits {n : Nat} (h : 0 < n) :
    ∃ d ds, Nat.toDigits 10 n = d :: ds ∧ d.isDigit = true ∧ d ≠ '0' ∧
      ∀ c ∈ ds, c.isDigit = true := by
  have hhead : (Nat.toDigits 10 n).head? ≠ some '0' := by
    induction n using Nat.strongRecOn with
    | ind n ih =>
      by_cases hsmall : n < 10
      · have hdigit : ∀ n < 10, 0 < n → [n.digitChar].head? ≠ some '0' := by decide
        rw [Nat.toDigits_of_lt_base hsmall]
        exact hdigit n hsmall h
      · -- the first digit is that of the number without its last one
        rw [Nat.toDigits_of_base_le (by decide) (by omega), List.head?_append_of_ne_nil _
          Nat.toDigits_ne_nil]
        exact ih (n / 10) (by omega) (by omega)
  obtain ⟨d, ds, hcons⟩ := List.exists_cons_of_ne_nil (Nat.toDigits_ne_nil (n := n) (b := 10))
  have hall : ∀ c ∈ Nat.toDigits 10 n, c.isDigit = true := fun _ => isDigit_of_mem_toDigits
  rw [hcons] at hall hhead
  obtain ⟨hd, hds⟩ := List.forall_mem_cons.mp hall
  exact ⟨d, ds, hcons, hd, fun he => hhead (congrArg some he), hds⟩

theorem toList_toString_ofNat (n : Nat) :
    (toString (Int.ofNat n)).toList = Nat.toDigits 10 n := Nat.toList_repr

theorem toList_toString_negSucc (n : Nat) :
    (toString (Int.negSucc n)).toList = '-' :: Nat.toDigits 10 (n + 1) := by
  show ("-" ++ Nat.repr (n + 1)).toList = _
  rw [String.toList_append, Nat.toList_repr]
  rfl

theorem next_digit {d : Char} (hd : d.isDigit = true) (hzero : d ≠ '0') :
    Lexing.next .between d = ([], .number .whole [d]) := by
  have hne : ∀ c, c.isDigit = false → d ≠ c := by
    rintro c hc rfl
    rw [hd] at hc
    cases hc
  simp [Lexing.next, Lexing.begin, isSpace, punctuation?, word?, NumberPhase.opening?, hd, hzero,
    hne ' ' rfl, hne '\t' rfl, hne '\n' rfl, hne '\r' rfl, hne '"' rfl, hne '[' rfl, hne ']' rfl,
    hne '\x7b' rfl, hne '\x7d' rfl, hne ',' rfl, hne ':' rfl, hne 'n' rfl, hne 't' rfl,
    hne 'f' rfl, hne '-' rfl]

theorem lex_integer (n : Int) (hrest : EndsNumber rest) :
    lex .between ((toString n).toList ++ rest) =
      .number (toString n).toList :: lex .between rest := by
  cases n with
  | ofNat n =>
    rw [toList_toString_ofNat]
    rcases Nat.eq_zero_or_pos n with rfl | hpos
    · exact (lex_of_next rfl rest).trans (lex_number (Or.inl rfl) ['0'] hrest)
    · obtain ⟨d, ds, hdigits, hd, hzero, hds⟩ := exists_toDigits hpos
      rw [hdigits, List.cons_append, lex_of_next (next_digit hd hzero), lex_digits hds,
        lex_number (Or.inr rfl) _ hrest, List.reverse_append, List.reverse_reverse]
      rfl
  | negSucc n =>
    obtain ⟨d, ds, hdigits, hd, hzero, hds⟩ := exists_toDigits (Nat.succ_pos n)
    have hnext : Lexing.next (.number .minus ['-']) d = ([], .number .whole [d, '-']) := by
      simp [Lexing.next, NumberPhase.next?, hd, hzero]
    have hminus : Lexing.next .between '-' = ([], .number .minus ['-']) := rfl
    rw [toList_toString_negSucc, hdigits, List.cons_append, List.cons_append, lex_of_next hminus,
      lex_of_next hnext, lex_digits hds, lex_number (Or.inr rfl) _ hrest, List.reverse_append,
      List.reverse_reverse]
    rfl

end LuaTypings.Json
