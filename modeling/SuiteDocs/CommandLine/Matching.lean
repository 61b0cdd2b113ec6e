import SuiteDocs.CommandLine.Grammar
import SuiteDocs.Number.Whole

/-!
Matching the words of a line with what a command accepts.

Every word is classed first: options, other words, and the mark `--` behind which there are no
options. Then options and operands are taken from left to right. Long options may be cut short as
long as one option is meant, and short ones may be run together.
-/

set_option autoImplicit false

namespace SuiteDocs.CommandLine

open SuiteDocs.Text

/-- The value of an option. The mark `--`, joined to the option, stands for none. -/
inductive Value (α : Type) where
  | nothing
  | given (value : α)
  deriving DecidableEq, Repr

/-- Applies a function to a value that was given. -/
def Value.map {α β : Type} (f : α → β) : Value α → Value β
  | .nothing => .nothing
  | .given value => .given (f value)

/-- The value that was given, if one was. -/
def Value.toOption {α : Type} : Value α → Option α
  | .nothing => none
  | .given value => some value

/-- What was given for an option. -/
inductive Given where
  | flag
  | text (value : Value Text)
  | whole (value : Value Int)
  deriving DecidableEq, Repr

/-- Why a line is not carried out. -/
inductive Stop where
  /-- The help text was asked for. -/
  | help (text : Text)
  /-- The line is refused. -/
  | refused (usage program message : Text)
  deriving DecidableEq, Repr

/-- Refuses a line with a message of a command. -/
def Grammar.refuse {α : Type} (grammar : Grammar) (message : Text) : Except Stop α :=
  .error (.refused grammar.usage grammar.program message)

/-- An option that a word names: none if the command has no such option. -/
structure Named where
  word : Text
  choice : Option Choice
  name : Text
  /-- What is joined to the name, behind an equals sign or not. -/
  joined : Option Text

/-- A word of a line by its class. -/
inductive Word where
  | mark
  | plain (word : Text)
  | option (named : Named)

def Word.text : Word → Text
  | .mark => "--"
  | .plain word => word
  | .option named => named.word

def Word.isOption : Word → Bool
  | .option _ => true
  | _ => false

/-! ## Classes of words -/

def Grammar.choice? (grammar : Grammar) (name : Text) : Option Choice :=
  grammar.options.find? (·.names.contains name)

def Grammar.names (grammar : Grammar) : List (Text × Choice) :=
  grammar.options.flatMap fun choice => choice.names.map (·, choice)

/-- A text up to its first equals sign, and what stands behind the sign if there is one. -/
def splitEquals (word : Text) : Text × Option Text :=
  let before := word.takeWhile (· != .char '=')
  (before, (word.drop before.length).tail?)

/-- The options that a word may mean that is the name of none. -/
def Grammar.candidates (grammar : Grammar) (word : Text) : List Named :=
  if word.take 2 == "--" then
    let (start, value) := splitEquals word
    (grammar.names.filter fun (name, _) => start.isPrefixOf name).map fun (name, choice) =>
      ⟨word, some choice, name, value⟩
  else
    grammar.names.filterMap fun (name, choice) =>
      if name == word.take 2 then some ⟨word, some choice, name, some (word.drop 2)⟩
      else if word.isPrefixOf name then some ⟨word, some choice, name, none⟩
      else none

/-- Whether a word is a negative number, perhaps with a line break behind it. -/
def isNegativeNumber (word : Text) : Bool :=
  let word := if word.getLast? == some '\n' then word.dropLast else word
  match word with
  | .char '-' :: rest =>
    let whole := rest.takeWhile isDecimal
    match rest.drop whole.length with
    | [] => !whole.isEmpty
    | .char '.' :: decimals => !decimals.isEmpty && decimals.all isDecimal
    | _ => false
  | _ => false

/-- The class of a word before the mark. -/
def Grammar.classify (grammar : Grammar) (word : Text) : Except Stop Word :=
  if word.head? != some '-' then .ok (.plain word)
  else if let some choice := grammar.choice? word then .ok (.option ⟨word, some choice, word, none⟩)
  else if word.length == 1 then .ok (.plain word)
  else
    let (start, value) := splitEquals word
    match value, grammar.choice? start with
    | some value, some choice =>
      .ok (.option ⟨word, some choice, start, some value⟩)
    | _, _ =>
      match grammar.candidates word with
      | [named] => .ok (.option named)
      | [] =>
        if isNegativeNumber word || word.contains ' ' then .ok (.plain word)
        else .ok (.option ⟨word, none, word, none⟩)
      | several =>
        let names := List.intercalate ", " (several.map (·.name))
        grammar.refuse ("ambiguous option: " ++ word ++ " could match " ++ names)

/-- The words of a line by their classes. -/
def Grammar.classifyAll (grammar : Grammar) : List Text → Except Stop (List Word)
  | [] => .ok []
  | text :: rest =>
    if text == "--" then .ok (.mark :: rest.map .plain)
    else do return (← grammar.classify text) :: (← grammar.classifyAll rest)

/-! ## Options -/

/-- An option that was taken, and the word for its value. -/
structure Taken where
  choice : Choice
  word : Option Text

/-- What a line gave so far: values by field in order, and words that nothing accepted. -/
structure Matched where
  given : List (Text × Given)
  rest : List Text

def Grammar.note (grammar : Grammar) (matched : Matched) (taken : Taken) : Except Stop Matched :=
  let add (given : Given) : Except Stop Matched :=
    .ok { matched with given := matched.given ++ [(taken.choice.field, given)] }
  let word := taken.word.getD ""
  match taken.choice.effect with
  | .help => .error (.help grammar.help)
  | .flag => add .flag
  | .text => add (.text (if word == "--" then .nothing else .given word))
  | .whole =>
    if word == "--" then add (.whole .nothing)
    else match Whole.read 10 word with
      | .ok number => add (.whole (.given number))
      | .error _ => grammar.refuse
        ("argument " ++ taken.choice.title ++ ": invalid int value: " ++ quoted word)

/-- Refuses what is joined to an option that takes no value. -/
def Grammar.refuseJoined {α : Type} (grammar : Grammar) (choice : Choice) (joined : Text) :
    Except Stop α :=
  grammar.refuse
    ("argument " ++ choice.title ++ ": ignored explicit argument " ++ quoted joined)

/-- The options of one word: those run together with the first, and the last of them without a
value if it may take the next word. Only behind a short option without a value another one may
stand, and it has to be known. -/
def Grammar.unjoin (grammar : Grammar) (choice : Choice) (short : Bool) :
    Text → Except Stop (List Taken × Option Choice)
  | [] =>
    if choice.takesValue then .ok ([⟨choice, some ""⟩], none) else grammar.refuseJoined choice []
  | c :: rest =>
    if choice.takesValue then .ok ([⟨choice, some (c :: rest)⟩], none)
    else match short, grammar.choice? ['-', c] with
      | true, some next =>
        match rest with
        | [] => .ok ([⟨choice, none⟩], some next)
        | _ :: _ => do
          let (taken, last) ← grammar.unjoin next true rest
          return (⟨choice, none⟩ :: taken, last)
      | _, _ => grammar.refuseJoined choice (c :: rest)

/-- Whether the name of an option is a short one. -/
def isShort (name : Text) : Bool :=
  (name.drop 1).head? != some '-'

/-- Takes the option that stands first, with its value from the next word if it needs one. -/
def Grammar.takeOption (grammar : Grammar) (matched : Matched) (named : Named)
    (following : List Word) : Except Stop (Matched × List Word) :=
  match named.choice with
  | none => .ok ({ matched with rest := matched.rest ++ [named.word] }, following)
  | some choice => do
    let (taken, last) ← match named.joined with
      | some joined => grammar.unjoin choice (isShort named.name) joined
      | none => pure ([], some choice)
    let (taken, following) ← match last with
      | none => pure (taken, following)
      | some choice =>
        if choice.takesValue then
          match following with
          | .plain word :: following => pure (taken ++ [⟨choice, some word⟩], following)
          | _ => grammar.refuse ("argument " ++ choice.title ++ ": expected one argument")
        else pure (taken ++ [⟨choice, none⟩], following)
    return (← taken.foldlM grammar.note matched, following)

/-! ## Operands -/

/-- The words that an operand takes at the end of a line, and those behind them. The mark before
and the mark behind a word go with it. -/
def Operand.takeWords : Operand → List Word → Option (List Word × List Word)
  | .nothing, _ => none
  | .command _ _, words =>
    match words with
    | .mark :: .plain _ :: _ => some (words, [])
    | .plain _ :: _ => some (words, [])
    | _ => none
  | .required _ _, words =>
    match words with
    | .mark :: .plain word :: rest => some ([.plain word], rest)
    | .plain word :: .mark :: rest => some ([.plain word], rest)
    | .plain word :: rest => some ([.plain word], rest)
    | _ => none
  | .optional _ _, words =>
    match words with
    | .mark :: .plain word :: rest => some ([.plain word], rest)
    | .plain word :: .mark :: rest => some ([.plain word], rest)
    | .plain word :: rest => some ([.plain word], rest)
    | .mark :: rest => some ([], rest)
    | rest => some ([], rest)

/-- What a line gave: values by field, the words of the operand, and words that nothing accepted. -/
structure Line where
  given : List (Text × Given)
  operand : Option (List Text)
  rest : List Text

/-- Goes through the words of a line. The operand is taken where the first word stands that is no
option, and a command takes all that follows its name. -/
def Grammar.scan (grammar : Grammar) : Nat → Operand → Option (List Text) → Matched → List Word →
    Except Stop Line
  | 0, _, operand, matched, words =>
    .ok ⟨matched.given, operand, matched.rest ++ words.map Word.text⟩
  | fuel + 1, wanted, operand, matched, words =>
    match words with
    | .option named :: following => do
      let (matched, following) ← grammar.takeOption matched named following
      grammar.scan fuel wanted operand matched following
    | _ =>
      if words.any Word.isOption then
        match wanted.takeWords words with
        | some (taken, following) =>
          grammar.scan fuel .nothing (some (taken.map Word.text)) matched following
        | none =>
          let plain := words.takeWhile (!·.isOption)
          grammar.scan fuel wanted operand
            { matched with rest := matched.rest ++ plain.map Word.text }
            (words.drop plain.length)
      else
        match wanted.takeWords words with
        | some (taken, following) =>
          .ok ⟨matched.given, some (taken.map Word.text),
            matched.rest ++ following.map Word.text⟩
        | none => .ok ⟨matched.given, operand, matched.rest ++ words.map Word.text⟩

def Grammar.checkOperand (grammar : Grammar) (line : Line) : Except Stop Line :=
  let missing (name : Text) : Except Stop Line :=
    grammar.refuse ("the following arguments are required: " ++ name)
  match grammar.operand, line.operand with
  | .required name _, none => missing name
  | .command name _, none => missing name
  | _, _ => .ok line

def Grammar.read (grammar : Grammar) (arguments : List Text) : Except Stop Line := do
  let words ← grammar.classifyAll arguments
  grammar.scan (words.length + 1) grammar.operand none ⟨[], []⟩ words

end SuiteDocs.CommandLine
