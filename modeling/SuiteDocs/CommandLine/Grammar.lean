import SuiteDocs.Text.Strip

/-!
What a command accepts on its line, and the texts that explain it.
-/

set_option autoImplicit false

namespace SuiteDocs.CommandLine

/-- What an option does. -/
inductive Effect where
  | help
  | flag
  | text
  | whole
  deriving DecidableEq, Repr

/-- An option with its names. The value of an option that takes one is called `metavar`. -/
structure Choice where
  names : List Text
  field : Text
  effect : Effect
  metavar : Text
  help : Text
  deriving DecidableEq, Repr

def Choice.takesValue (choice : Choice) : Bool :=
  choice.effect == .text || choice.effect == .whole

def Choice.title (choice : Choice) : Text :=
  List.intercalate "/" choice.names

/-- What else a command takes. -/
inductive Operand where
  | nothing
  | optional (name help : Text)
  | required (name help : Text)
  /-- The name of a command, and all that follows it. -/
  | command (name : Text) (commands : List (Text × Text))
  deriving DecidableEq, Repr

/-- What a command accepts. -/
structure Grammar where
  program : Text
  description : Text
  options : List Choice
  operand : Operand
  deriving DecidableEq, Repr

/-! ## Help texts -/

def helpChoice : Choice :=
  ⟨["-h", "--help"], "help", .help, "", "show this help message and exit"⟩

/-- An option as it is written, by one of its names. -/
def Choice.written (choice : Choice) (name : Text) : Text :=
  if choice.takesValue then name ++ " " ++ choice.metavar else name

/-- The names of commands, as one of them is asked for. -/
def oneOf (commands : List (Text × Text)) : Text :=
  "\x7b" ++ List.intercalate "," (commands.map (·.1)) ++ "\x7d"

/-- The operand as it is written in the usage line. -/
def Operand.written : Operand → List Text
  | .nothing => []
  | .optional name _ => ["[" ++ name ++ "]"]
  | .required name _ => [name]
  | .command _ commands => [oneOf commands ++ " ..."]

def Grammar.usage (grammar : Grammar) : Text :=
  let options : List Text := grammar.options.map fun choice =>
    "[" ++ choice.written (choice.names.headD "") ++ "]"
  "usage: " ++ List.intercalate " " (grammar.program :: options ++ grammar.operand.written) ++ "\n"

/-- An entry of a help text: how something is written, and what it does. -/
structure HelpEntry where
  indent : Nat
  written : Text
  help : Text

/-- The lines of words that fit into a width, each as full as possible. -/
def wrap (width : Nat) (words : List Text) : List Text :=
  let (line, lines) : Text × List Text := words.foldl
    (fun (line, lines) word =>
      if line.isEmpty then (word, lines)
      else if line.length + 1 + word.length ≤ width then (line ++ " " ++ word, lines)
      else (word, lines ++ [line]))
    ("", [])
  lines ++ [line]

def blanks (count : Nat) : Text := List.replicate count ' '

def helpWidth : Nat := 78

/-- The lines of an entry whose help stands in the column `position`. What is too long for its
column stands on a line of its own. -/
def HelpEntry.lines (entry : HelpEntry) (position : Nat) : List Text :=
  let head := blanks entry.indent ++ entry.written
  let words := Text.splitOn ' ' entry.help
  let help := if entry.help.isEmpty then [] else wrap (helpWidth - position) words
  match help with
  | [] => [head]
  | first :: rest =>
    let continued := rest.map (blanks position ++ ·)
    if head.length + 2 ≤ position then
      (head ++ blanks (position - head.length) ++ first) :: continued
    else head :: (blanks position ++ first) :: continued

def Operand.entries : Operand → List HelpEntry
  | .nothing => []
  | .optional name help => [⟨2, name, help⟩]
  | .required name help => [⟨2, name, help⟩]
  | .command _ commands =>
    ⟨2, oneOf commands, ""⟩ :: commands.map fun (name, help) => ⟨4, name, help⟩

def Choice.entry (choice : Choice) : HelpEntry :=
  ⟨2, List.intercalate ", " (choice.names.map choice.written), choice.help⟩

/-- A part of a help text under a heading; without entries there is none. -/
def helpSection (heading : Text) (entries : List HelpEntry) (position : Nat) : Text :=
  if entries.isEmpty then ""
  else
    "\n" ++ heading ++ ":\n" ++ (entries.flatMap (·.lines position)).flatMap (· ++ ("\n" : Text))

/-- The help text of a command. The explanations stand in one column, no further right than the
24th. -/
def Grammar.help (grammar : Grammar) : Text :=
  let operands := grammar.operand.entries
  let options := grammar.options.map Choice.entry
  let longest := (operands ++ options).foldl
    (fun longest entry => max longest (entry.indent + entry.written.length)) 0
  let position := min (longest + 2) 24
  let description : Text :=
    if grammar.description.isEmpty then "" else "\n" ++ grammar.description ++ "\n"
  grammar.usage ++ description ++ helpSection "positional arguments" operands position ++
    helpSection "options" options position

end SuiteDocs.CommandLine
