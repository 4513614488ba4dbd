/-
LuaTypings/Json/Token.lean

The tokens of a JSON text.  Reading goes character by character, and what has been read of
the current token is the state; so the tokens are a fold over the text.  A text that cannot
go on ends in a broken token.

Text that is only passed over is held to less than text that is read: nobody looks at the
value of a number or at the pairing of surrogates.  A broken token therefore says what is
wrong in both cases.
-/
import LuaTypings.Json.Number

namespace LuaTypings.Json

/-- What is wrong with a text. -/
inductive Defect where
  /-- It ends too early. -/
  | truncated
  /-- It goes on in a way that it may not. -/
  | malformed
  deriving DecidableEq, Repr

/-- What is wrong when the text is read, and when it is only passed over. -/
structure Fault where
  reading : Defect
  skipping : Defect
  deriving DecidableEq, Repr

/-- A text that is malformed in either case. -/
def Fault.malformed : Fault := ⟨.malformed, .malformed⟩

/-- A text that is truncated in either case. -/
def Fault.truncated : Fault := ⟨.truncated, .truncated⟩

/-! ### Strings -/

/-- A piece of a string: a character, or a 16-bit unit that is written by its number. -/
inductive Piece where
  | char (c : Char)
  | unit (n : Nat)
  deriving DecidableEq, Repr

/-- The first unit of a pair that stands for one character. -/
def isLeading (n : Nat) : Bool := 0xD800 ≤ n && n < 0xDC00

/-- The second unit of such a pair. -/
def isTrailing (n : Nat) : Bool := 0xDC00 ≤ n && n < 0xE000

/-- The character of a pair. -/
def pairChar (leading trailing : Nat) : Char :=
  Char.ofNat (0x10000 + (leading - 0xD800) * 0x400 + (trailing - 0xDC00))

/-- The characters of a string, if every pair is complete. -/
def decodePieces : List Piece → Option (List Char)
  | [] => some []
  | .char c :: ps => (decodePieces ps).map (c :: ·)
  | .unit n :: ps =>
    if isTrailing n then none
    else if isLeading n then
      match ps with
      | .unit m :: rest =>
        if isTrailing m then (decodePieces rest).map (pairChar n m :: ·) else none
      | _ => none
    else (decodePieces ps).map (Char.ofNat n :: ·)

/-- Whether a string has an incomplete pair that nothing behind it can complete. -/
def hasBrokenPair : List Piece → Bool
  | [] => false
  | .char _ :: ps => hasBrokenPair ps
  | .unit n :: ps =>
    if isTrailing n then true
    else if isLeading n then
      match ps with
      | [] => false
      | .unit m :: rest => if isTrailing m then hasBrokenPair rest else true
      | .char _ :: _ => true
    else hasBrokenPair ps

/-- The character behind a backslash, if it has a meaning there. -/
def unescape? (c : Char) : Option Char :=
  match c with
  | '"' => some '"'
  | '\\' => some '\\'
  | '/' => some '/'
  | 'b' => some '\x08'
  | 'f' => some '\x0c'
  | 'n' => some '\n'
  | 'r' => some '\r'
  | 't' => some '\t'
  | _ => none

/-- The number that four digits of base sixteen give. -/
def unitOf? (digits : List Char) : Option Nat :=
  if digits.length = 4 then Text.hexNumber? digits else none

/-! ### Tokens -/

/-- A token. -/
inductive Token where
  | openArray
  | closeArray
  | openObject
  | closeObject
  | comma
  | colon
  | null
  | bool (b : Bool)
  | number (chars : List Char)
  | string (pieces : List Piece)
  /-- A string that is not completed. -/
  | brokenString (fault : Fault)
  /-- Anything else that is no token. -/
  | broken (fault : Fault)
  deriving DecidableEq, Repr

/-- How far a string has been read. -/
inductive StringPhase where
  /-- Between two pieces. -/
  | plain
  /-- Behind a backslash. -/
  | escape
  /-- Behind the letter that announces four digits; `seen` has what followed, last first. -/
  | unit (seen : List Char)
  deriving DecidableEq, Repr

/-- What has been read of the current token. -/
inductive Lexing where
  | between
  /-- A word, of which `rest` is missing. -/
  | word (rest : List Char) (token : Token)
  /-- A number; its characters are kept last first. -/
  | number (phase : NumberPhase) (chars : List Char)
  /-- A string; its pieces are kept last first. -/
  | string (phase : StringPhase) (pieces : List Piece)
  /-- Nothing: a broken token ends the text. -/
  | stopped
  deriving DecidableEq, Repr

/-- The four characters that separate tokens. -/
def isSpace (c : Char) : Bool := c == ' ' || c == '\t' || c == '\n' || c == '\r'

/-- A token of one character. -/
def punctuation? (c : Char) : Option Token :=
  if c = '[' then some .openArray
  else if c = ']' then some .closeArray
  else if c = '\x7b' then some .openObject
  else if c = '\x7d' then some .closeObject
  else if c = ',' then some .comma
  else if c = ':' then some .colon
  else none

/-- A word by its first character: what must follow, and its token. -/
def word? (c : Char) : Option (List Char × Token) :=
  if c = 'n' then some ("ull".toList, .null)
  else if c = 't' then some ("rue".toList, .bool true)
  else if c = 'f' then some ("alse".toList, .bool false)
  else none

/-- The first character of a token. -/
def Lexing.begin (c : Char) : List Token × Lexing :=
  if isSpace c then ([], .between)
  else if c = '"' then ([], .string .plain [])
  else match punctuation? c, word? c, NumberPhase.opening? c with
    | some t, _, _ => ([t], .between)
    | _, some (rest, t), _ => ([], .word rest t)
    | _, _, some phase => ([], .number phase [c])
    | _, _, _ => ([.broken .malformed], .stopped)

/-- The size of a text in bytes. -/
def byteSize (cs : List Char) : Nat := cs.foldl (fun n c => n + c.utf8Size) 0

/-- A further character of a string. -/
def Lexing.nextInString (phase : StringPhase) (pieces : List Piece) (c : Char) :
    List Token × Lexing :=
  match phase with
  | .plain =>
    if c = '"' then ([.string pieces.reverse], .between)
    else if c = '\\' then ([], .string .escape pieces)
    else if c.toNat < 0x20 then ([.brokenString .malformed], .stopped)
    else ([], .string .plain (.char c :: pieces))
  | .escape =>
    if c = 'u' then ([], .string (.unit []) pieces)
    else match unescape? c with
      | some d => ([], .string .plain (.char d :: pieces))
      | none => ([.brokenString .malformed], .stopped)
  | .unit seen =>
    if byteSize (c :: seen) < 4 then ([], .string (.unit (c :: seen)) pieces)
    else match unitOf? (c :: seen).reverse with
      | some n => ([], .string .plain (.unit n :: pieces))
      | none => ([.brokenString .malformed], .stopped)

/-- A further character: the tokens that are complete with it, and what has been read of the
next one. -/
def Lexing.next : Lexing → Char → List Token × Lexing
  | .between, c => begin c
  | .word [] t, c => (t :: (begin c).1, (begin c).2)
  | .word (d :: rest) t, c =>
    if c = d then (if rest.isEmpty then ([t], .between) else ([], .word rest t))
    else ([.broken .malformed], .stopped)
  | .number phase chars, c =>
    match phase.next? c with
    | some phase => ([], .number phase (c :: chars))
    | none =>
      if phase.isComplete && !(phase == .zero && c.isDigit) then
        (.number chars.reverse :: (begin c).1, (begin c).2)
      else ([.broken .malformed], .stopped)
  | .string phase pieces, c => nextInString phase pieces c
  | .stopped, _ => ([], .stopped)

/-- The token that the end of the text completes or breaks. -/
def Lexing.finish : Lexing → List Token
  | .between => []
  | .word _ _ => [.broken .truncated]
  | .number phase chars =>
    if phase.isComplete then [.number chars.reverse]
    else [.broken ⟨.truncated, .malformed⟩]
  | .string _ pieces =>
    [.brokenString
      ⟨if hasBrokenPair pieces.reverse then .malformed else .truncated, .truncated⟩]
  | .stopped => []

/-- The tokens read so far, last first, and the state behind them. -/
def lexStep (s : List Token × Lexing) (c : Char) : List Token × Lexing :=
  let (tokens, state) := s.2.next c
  (tokens.reverse ++ s.1, state)

/-- The tokens of a text. -/
def tokens (text : String) : List Token :=
  let (read, state) := text.toList.foldl lexStep ([], .between)
  read.reverse ++ state.finish

end LuaTypings.Json
