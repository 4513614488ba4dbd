/-
LuaTypings/CommandLine.lean

The command line: options for everything, a command, and the options of the command.  An
option has a long name and may have a letter; letters without a value can be written together,
and a value stands behind its option as the next argument or in the same one.  Arguments are
taken from left to right, and the first one that asks for help or is wrong decides.
-/
import LuaTypings.Settings
import LuaTypings.Text.Digits
import LuaTypings.Text.Pieces

namespace LuaTypings.CommandLine

/-! ### Options -/

/-- An option. -/
inductive Switch where
  | verbose
  | debug
  | help
  | input
  | output
  | flavor
  | config
  | threshold
  | report
  deriving DecidableEq, Repr

namespace Switch

/-- The long name of an option. -/
def name : Switch → String
  | verbose => "verbose"
  | debug => "debug"
  | help => "help"
  | input => "input"
  | output => "output"
  | flavor => "flavor"
  | config => "config"
  | threshold => "chunk-threshold-kib"
  | report => "report"

/-- The letter of an option. -/
def letter? : Switch → Option Char
  | verbose => some 'v'
  | debug => some 'd'
  | help => some 'h'
  | input => some 'i'
  | output => some 'o'
  | flavor => some 'f'
  | config => some 'c'
  | threshold => none
  | report => none

/-- Whether an option has a value. -/
def hasValue : Switch → Bool
  | verbose => false
  | debug => false
  | help => false
  | _ => true

/-- The options that stand in front of the command. -/
def ofRoot : List Switch := [verbose, debug, help]

/-- The options of the command that dumps. -/
def ofDump : List Switch := ofRoot ++ [input, output, flavor, config, threshold, report]

/-- The options of the command that merges. -/
def ofMerge : List Switch := ofRoot ++ [input, output]

end Switch

/-! ### Arguments -/

/-- What arguments say. -/
inductive Item where
  /-- An option, with its value if it has one. -/
  | given (s : Switch) (value : Option String)
  /-- An argument that is no option, and everything behind it. -/
  | word (text : String) (rest : List String)
  | wrong
  deriving DecidableEq, Repr

/-- What one argument says, where a value may still be missing. -/
inductive Part where
  | complete (items : List Item)
  /-- The value of this option is the next argument. -/
  | awaiting (items : List Item) (s : Switch)
  deriving DecidableEq, Repr

/-- Puts an item in front. -/
def Part.cons (item : Item) : Part → Part
  | complete items => complete (item :: items)
  | awaiting items s => awaiting (item :: items) s

/-- Letters behind a hyphen, and perhaps the value of the last one behind it, where an equals
sign in between says nothing. -/
def letters (switches : List Switch) : List Char → Part
  | [] => .complete []
  | c :: cs =>
    match switches.find? fun s => s.letter? = some c with
    | none => .complete [.wrong]
    | some s =>
      if !s.hasValue then (letters switches cs).cons (.given s none)
      else match cs with
        | [] => .awaiting [] s
        | '=' :: value => .complete [.given s (some (String.ofList value))]
        | value => .complete [.given s (some (String.ofList value))]

/-- A long name behind two hyphens, and perhaps a value behind an equals sign. -/
def longName (switches : List Switch) (cs : List Char) : Part :=
  let name := String.ofList (cs.takeWhile (· ≠ '='))
  match switches.find? fun s => s.name = name, cs.dropWhile (· ≠ '=') with
  | none, _ => .complete [.wrong]
  | some s, [] => if s.hasValue then .awaiting [] s else .complete [.given s none]
  | some s, _ :: value =>
    if s.hasValue then .complete [.given s (some (String.ofList value))] else .complete [.wrong]

/-- Whether an argument is an option: it starts with a hyphen and is more than that. -/
def isOption (arg : String) : Bool :=
  match arg.toList with
  | '-' :: _ :: _ => true
  | _ => false

/-- What arguments say, up to the first word. -/
def items (switches : List Switch) : List String → List Item
  | [] => []
  | arg :: rest =>
    if arg = "--" then if rest.isEmpty then [] else [.wrong]
    else if !isOption arg then [.word arg rest]
    else
      let part := match arg.toList with
        | '-' :: '-' :: cs => longName switches cs
        | cs => letters switches cs.tail
      match part, rest with
      | .complete its, rest => its ++ items switches rest
      | .awaiting its s, value :: rest =>
        if isOption value then its ++ [.wrong]
        else its ++ .given s (some value) :: items switches rest
      | .awaiting its _, [] => its ++ [.wrong]

/-! ### Values -/

/-- The values of options, and the options that were given. -/
structure Given where
  seen : List Switch := []
  input : Option String := none
  config : Option String := none
  report : Option String := none
  /-- The choices among settings; the output of a merge is its directory. -/
  choices : Choices := {}
  deriving DecidableEq, Repr

/-- A path is not empty. -/
def path? (value : String) : Option String := if value.isEmpty then none else some value

/-- A number of 64 bits in decimal digits, perhaps with a plus sign. -/
def number? (value : String) : Option UInt64 :=
  let digits := match value.toList with
    | '+' :: cs => cs
    | cs => cs
  if digits.all Char.isDigit then (Text.word? digits).map UInt64.ofNat else none

/-- Names of bindings with commas between them. -/
def flavors? (value : String) : Option (List Flavor) :=
  (Text.pieces ',' value.toList).mapM fun p => (Flavor.ofText? (String.ofList p)).toOption

namespace Given

/-- Sets the value of an option. -/
def set (g : Given) (s : Switch) (value : String) : Option Given :=
  match s with
  | .input => (path? value).map fun p => { g with input := some p }
  | .output => (path? value).map fun p => { g with choices.directory := some p }
  | .config => (path? value).map fun p => { g with config := some p }
  | .report => (path? value).map fun p => { g with report := some p }
  | .threshold => (number? value).map fun n => { g with choices.thresholdKib := some n }
  | .flavor =>
    (flavors? value).map fun fs => { g with choices.flavors := g.choices.flavors ++ fs }
  | _ => some g

/-- Takes an option.  Only the bindings can be given more than once. -/
def take (g : Given) (s : Switch) (value : Option String) : Option Given :=
  if g.seen.contains s && s ≠ .flavor then none
  else (g.set s (value.getD "")).map fun g => { g with seen := s :: g.seen }

end Given

/-! ### Requests -/

/-- What the command line asks for. -/
inductive Request where
  | help
  /-- Nothing that makes sense. -/
  | wrong
  /-- Dump the catalog in `input`. -/
  | dump (input : String) (config report : Option String) (choices : Choices)
  /-- Merge the catalog in `input` into another file. -/
  | merge (input output : String)
  deriving DecidableEq, Repr

/-- Takes items from left to right; `onWord` and `onEnd` say what follows from the first word
and from the end. -/
def takeItems (onWord : String → List String → Request) (onEnd : Given → Request) (g : Given) :
    List Item → Request
  | [] => onEnd g
  | .wrong :: _ => .wrong
  | .word text rest :: _ => onWord text rest
  | .given .help _ :: _ => .help
  | .given s value :: its =>
    match g.take s value with
    | none => .wrong
    | some g => takeItems onWord onEnd g its

/-- The dump that options ask for.  Where they name no configuration file, the environment may,
but not by an empty path. -/
def dumpRequest (environment : Option String) (g : Given) : Request :=
  match g.config, environment, g.input with
  | none, some "", _ => .wrong
  | _, _, none => .wrong
  | config, environment, some input => .dump input (config.or environment) g.report g.choices

/-- The merge that options ask for. -/
def mergeRequest (g : Given) : Request :=
  match g.input, g.choices.directory with
  | some input, some output => .merge input output
  | _, _ => .wrong

/-- Help on commands: on one of them at most. -/
def helpRequest (topics : List String) : Request :=
  match topics with
  | [] => .help
  | [topic] => if topic = "dump" ∨ topic = "merge" ∨ topic = "help" then .help else .wrong
  | _ => .wrong

/-- What a command with these arguments asks for. -/
def commandRequest (environment : Option String) (command : String) (args : List String) :
    Request :=
  let noWord (_ : String) (_ : List String) : Request := .wrong
  if command = "dump" then
    takeItems noWord (dumpRequest environment) {} (items Switch.ofDump args)
  else if command = "merge" then
    takeItems noWord mergeRequest {} (items Switch.ofMerge args)
  else if command = "help" then helpRequest args
  else .wrong

/-- What a command line asks for; `environment` is the path of a configuration file that the
environment names. -/
def parse (environment : Option String) (args : List String) : Request :=
  takeItems (commandRequest environment) (fun _ => .wrong) {} (items Switch.ofRoot args)

end LuaTypings.CommandLine
