/-
LuaTypings/Text/Blank.lean

Blanks and the cuts that go by them.  A blank is a character with the Unicode
property White_Space; there are twenty-five.  Trimming drops blanks at the ends,
`words` are the maximal blank-free runs, and `lines` are what the line feeds
separate.  Everything works on `List Char`; callers convert at their boundary.
-/

namespace LuaTypings.Text

/-! ### Code point ranges -/

/-- Membership in a list of closed ranges of code points. -/
def inRanges (ranges : List (Nat × Nat)) (n : Nat) : Bool :=
  ranges.any fun r => r.1 ≤ n && n ≤ r.2

/-- The ranges of the property White_Space, ascending and apart. -/
def blankRanges : List (Nat × Nat) :=
  [(0x09, 0x0D), (0x20, 0x20), (0x85, 0x85), (0xA0, 0xA0), (0x1680, 0x1680), (0x2000, 0x200A),
   (0x2028, 0x2029), (0x202F, 0x202F), (0x205F, 0x205F), (0x3000, 0x3000)]

/-- A blank is a character with the property White_Space. -/
def isBlank (c : Char) : Bool := inRanges blankRanges c.toNat

/-! ### Trimming -/

/-- Drops the blanks in front. -/
def trimStart (cs : List Char) : List Char := cs.dropWhile isBlank

/-- Drops the blanks at the end. -/
def trimEnd (cs : List Char) : List Char := (cs.reverse.dropWhile isBlank).reverse

/-- Drops the blanks at both ends. -/
def trim (cs : List Char) : List Char := trimEnd (trimStart cs)

/-- A text of blanks only, the empty one included. -/
def isBlankText (s : String) : Bool := s.toList.all isBlank

theorem length_dropWhile_le (p : Char → Bool) (cs : List Char) :
    (cs.dropWhile p).length ≤ cs.length := by
  induction cs with
  | nil => simp
  | cons c cs ih =>
    rw [List.dropWhile_cons]
    split
    · exact Nat.le_succ_of_le ih
    · exact Nat.le_refl _

theorem length_trimStart_le (cs : List Char) : (trimStart cs).length ≤ cs.length :=
  length_dropWhile_le _ _

theorem length_trimEnd_le (cs : List Char) : (trimEnd cs).length ≤ cs.length := by
  have h := length_dropWhile_le isBlank cs.reverse
  simpa [trimEnd] using h

theorem length_trim_le (cs : List Char) : (trim cs).length ≤ cs.length :=
  Nat.le_trans (length_trimEnd_le _) (length_trimStart_le _)

/-! ### Words and lines -/

/-- `word` holds the letters of the word being read, last letter first. -/
def wordsFrom (word : List Char) : List Char → List (List Char)
  | [] => if word.isEmpty then [] else [word.reverse]
  | c :: cs =>
    if isBlank c then
      if word.isEmpty then wordsFrom [] cs else word.reverse :: wordsFrom [] cs
    else wordsFrom (c :: word) cs

/-- The maximal blank-free runs, in order. -/
def words (cs : List Char) : List (List Char) := wordsFrom [] cs

/-- Drops one carriage return in front: a line is kept last character first, so this is the
return before its line feed. -/
def dropReturn : List Char → List Char
  | '\r' :: cs => cs
  | cs => cs

/-- `line` holds the characters of the line being read, last character first. -/
def linesFrom (line : List Char) : List Char → List (List Char)
  | [] => if line.isEmpty then [] else [line.reverse]
  | c :: cs =>
    if c = '\n' then (dropReturn line).reverse :: linesFrom [] cs
    else linesFrom (c :: line) cs

/-- The lines of a text.  A line feed ends a line and takes a carriage return before it along;
what follows the last line feed is a line only if it is not empty. -/
def lines (cs : List Char) : List (List Char) := linesFrom [] cs

end LuaTypings.Text
