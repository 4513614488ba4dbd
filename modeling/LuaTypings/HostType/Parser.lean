/-
LuaTypings/HostType/Parser.lean

Reading display strings of host types.  A display string may start with parameter-passing
words, which say nothing about the type and are dropped.  The rest is cut into tokens: a
maximal run of name characters, or any other character that is no blank; blanks only
separate.  A machine with a stack of open argument lists then takes the tokens one by one,
so `HostType.parse` is a fold, and the first token that does not fit decides the error.
-/
import LuaTypings.HostType.Basic
import LuaTypings.Text.Blank

namespace LuaTypings.HostType

/-! ### What is wrong with a display string -/

/-- Why a display string denotes no type. -/
inductive Fault where
  /-- A type name was due and the string ended or went on with something else. -/
  | nameExpected (found : Option Char)
  /-- A complete type is followed by something else. -/
  | unexpected (found : Char)
  /-- Neither a comma nor a closing bracket follows an argument. -/
  | unexpectedInArguments (found : Char)
  /-- An argument list is not closed. -/
  | unclosedArguments
  /-- Array brackets are not closed. -/
  | unclosedRank
  deriving DecidableEq, Repr

/-- The reason as a message gives it. -/
def Fault.reason : Fault → String
  | .nameExpected none => "expected a type name"
  | .nameExpected (some c) => "expected a type name, found '" ++ c.toString ++ "'"
  | .unexpected c => "unexpected '" ++ c.toString ++ "'"
  | .unexpectedInArguments c => "unexpected '" ++ c.toString ++ "' in argument list"
  | .unclosedArguments => "unclosed '<'"
  | .unclosedRank => "unclosed '['"

/-! ### Tokens -/

/-- A piece of a display string. -/
inductive Token where
  /-- A run of name characters, of which `first` is the first. -/
  | name (first : Char) (rest : List Char)
  /-- Any other character that is no blank. -/
  | sign (c : Char)
  deriving DecidableEq, Repr

/-- The first character of a token. -/
def Token.head : Token → Char
  | .name first _ => first
  | .sign c => c

/-- The characters of a token. -/
def Token.chars : Token → List Char
  | .name first rest => first :: rest
  | .sign c => [c]

/-- Puts a name character in front: it joins the name that follows it at once. -/
def consName (c : Char) (next : Option Char) (tokens : List Token) : List Token :=
  match next, tokens with
  | some d, .name first rest :: ts =>
    if isNameChar d then .name c (first :: rest) :: ts else .name c [] :: tokens
  | _, _ => .name c [] :: tokens

/-- The tokens of a display string. -/
def tokens : List Char → List Token
  | [] => []
  | c :: cs =>
    if isNameChar c then consName c cs.head? (tokens cs)
    else if Text.isBlank c then tokens cs
    else .sign c :: tokens cs

/-! ### Parameter-passing words -/

/-- The words that may stand in front of a type, in the order in which they are looked for. -/
def passingWords : List (List Char) :=
  [['r', 'e', 'f', ' '], ['o', 'u', 't', ' '], ['i', 'n', ' '], ['p', 'a', 'r', 'a', 'm', 's', ' ']]

/-- Drops one word and the blanks behind it, if the text starts with the word. -/
def dropWord (cs word : List Char) : List Char :=
  if word.isPrefixOf cs then Text.trimStart (cs.drop word.length) else cs

/-- Drops the parameter-passing words in front of a type, each at most once. -/
def dropPassing (cs : List Char) : List Char := passingWords.foldl dropWord cs

/-! ### The machine -/

/-- An argument list that is being read: the name in front of it and the arguments so far. -/
structure OpenList where
  /-- The generic name. -/
  name : String
  /-- The arguments before the one being read. -/
  args : List HostType

/-- What has been read of the innermost type. -/
inductive Progress where
  /-- Nothing yet: a name is due. -/
  | start
  /-- A name, which an argument list may follow. -/
  | named (name : String)
  /-- A type, which only a suffix can change. -/
  | complete (type : HostType)
  /-- A type and opened array brackets for `rank` dimensions. -/
  | ranked (element : HostType) (rank : Nat)

/-- The state of the machine: the innermost type and the argument lists around it,
innermost first. -/
structure Reading where
  /-- The innermost type. -/
  progress : Progress
  /-- The argument lists around it. -/
  enclosing : List OpenList

/-- What a token does behind a complete type. -/
def afterType (type : HostType) (enclosing : List OpenList) (token : Token) :
    Except Fault Reading :=
  match token, enclosing with
  | .sign '[', _ => .ok ⟨.ranked type 1, enclosing⟩
  | .sign '?', _ => .ok ⟨.complete (.nullable type), enclosing⟩
  | .sign '*', _ => .ok ⟨.complete (.pointer type), enclosing⟩
  | .sign '&', _ => .ok ⟨.complete (.pointer type), enclosing⟩
  | .sign ',', l :: ls => .ok ⟨.start, ⟨l.name, l.args ++ [type]⟩ :: ls⟩
  | .sign '>', l :: ls => .ok ⟨.complete (.named l.name (l.args ++ [type])), ls⟩
  | t, [] => .error (.unexpected t.head)
  | t, _ :: _ => .error (.unexpectedInArguments t.head)

/-- Takes one token. -/
def Reading.next (r : Reading) (token : Token) : Except Fault Reading :=
  match r.progress, token with
  | .start, .name first rest => .ok ⟨.named (String.ofList (first :: rest)), r.enclosing⟩
  | .start, .sign c => .error (.nameExpected (some c))
  | .named name, .sign '<' => .ok ⟨.start, ⟨name, []⟩ :: r.enclosing⟩
  | .named name, t => afterType (.named name []) r.enclosing t
  | .complete type, t => afterType type r.enclosing t
  | .ranked element rank, .sign ',' => .ok ⟨.ranked element (rank + 1), r.enclosing⟩
  | .ranked element rank, .sign ']' => .ok ⟨.complete (.array element rank), r.enclosing⟩
  | .ranked _ _, _ => .error .unclosedRank

/-- What has been read when the tokens run out. -/
def Reading.finish (r : Reading) : Except Fault HostType :=
  match r.progress, r.enclosing with
  | .start, _ => .error (.nameExpected none)
  | .ranked _ _, _ => .error .unclosedRank
  | .named name, [] => .ok (.named name [])
  | .complete type, [] => .ok type
  | _, _ :: _ => .error .unclosedArguments

/-- Takes the tokens one by one. -/
def Reading.run (r : Reading) : List Token → Except Fault HostType
  | [] => r.finish
  | t :: ts =>
    match r.next t with
    | .ok r => r.run ts
    | .error e => .error e

/-- The type that a display string denotes. -/
def parse (display : String) : Except Fault HostType :=
  Reading.run ⟨.start, []⟩ (tokens (dropPassing (Text.trimStart display.toList)))

end LuaTypings.HostType
