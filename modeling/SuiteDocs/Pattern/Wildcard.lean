import SuiteDocs.Text.Symbol

/-!
Wildcards of ignore rules: `*` stands for any text, `?` for any character, and `[...]` for one
character of a set.
-/

set_option autoImplicit false

namespace SuiteDocs.Wildcard

/-- One choice of a set of characters. -/
inductive Choice where
  | char (c : Symbol)
  | range (low high : Symbol)
  deriving DecidableEq, Repr

def Choice.covers : Choice → Symbol → Bool
  | .char c, d => c == d
  | .range low high, d => low ≤ d && d ≤ high

/-- An element of a wildcard. -/
inductive Token where
  | anyText
  | anyChar
  | char (c : Symbol)
  | set (negated : Bool) (choices : List Choice)
  deriving DecidableEq, Repr

/-- The inside of a set cut at the hyphens that make ranges. A hyphen makes a range unless it is
the first character of a chunk or stands right behind the hyphen of another range; `chunk` holds
the characters since the last cut, last one first, and `free` how many more characters cannot be
cut at. -/
def chunksFrom (chunk : Text) (free : Nat) : Text → List Text
  | [] => [chunk.reverse]
  | c :: rest =>
    match free with
    | 0 =>
      if c == '-' then chunk.reverse :: chunksFrom [] 2 rest else chunksFrom (c :: chunk) 0 rest
    | free + 1 => chunksFrom (c :: chunk) free rest

/-- The chunks of the inside of a set. A hyphen at its end stands for itself. -/
def chunks (inside : Text) : List Text :=
  let cut := chunksFrom [] (if inside.head? == some '!' then 2 else 1) inside
  match cut.reverse with
  | [] :: chunk :: rest => ((chunk ++ ("-" : Text)) :: rest).reverse
  | _ => cut

/-- Joins two chunks whose range would be empty; the ends of that range are lost. -/
def dropEmptyRanges : List Text → List Text
  | [] => []
  | chunk :: rest =>
    match dropEmptyRanges rest with
    | [] => [chunk]
    | next :: others =>
      match chunk.getLast?, next.head? with
      | some low, some high =>
        if high.code < low.code then (chunk.dropLast ++ next.drop 1) :: others
        else chunk :: next :: others
      | _, _ => chunk :: next :: others

/-- A character of a set, or the hyphen between the ends of a range. -/
inductive Mark where
  | char (c : Symbol)
  | hyphen
  deriving DecidableEq

/-- The symbol that a mark stands for by itself. -/
def Mark.symbol : Mark → Symbol
  | .char c => c
  | .hyphen => '-'

/-- Chunks joined by hyphens. -/
def marks : List Text → List Mark
  | [] => []
  | [chunk] => chunk.map .char
  | chunk :: rest => chunk.map .char ++ .hyphen :: marks rest

def choicesOf : List Mark → List Choice
  | first :: .hyphen :: last :: rest => .range first.symbol last.symbol :: choicesOf rest
  | mark :: rest => .char mark.symbol :: choicesOf rest
  | [] => []

/-- The element that the inside of a set spells. A set without characters covers none, and its
complement every character. -/
def setOf (inside : Text) : Token :=
  match marks (dropEmptyRanges (chunks inside)) with
  | [] => .set false []
  | [.char (.char '!')] => .anyChar
  | .char (.char '!') :: rest => .set true (choicesOf rest)
  | all => .set false (choicesOf all)

/-- The length of the inside of a set, given what follows its opening bracket. A closing bracket
right at its start, or behind a leading `!`, belongs to it. -/
def insideLength? (text : Text) : Option Nat :=
  let lead := match text with
    | .char '!' :: .char ']' :: _ => 2
    | .char '!' :: _ => 1
    | .char ']' :: _ => 1
    | _ => 0
  let inner := (text.drop lead).takeWhile (· != .char ']')
  if lead + inner.length < text.length then some (lead + inner.length) else none

/-- The elements of a wildcard. A bracket that is not closed stands for itself. -/
def tokens : Text → List Token
  | [] => []
  | c :: rest =>
    if c == '*' then .anyText :: tokens rest
    else if c == '?' then .anyChar :: tokens rest
    else if c == '[' then
      match insideLength? rest with
      | none => .char c :: tokens rest
      | some length => setOf (rest.take length) :: tokens (rest.drop (length + 1))
    else .char c :: tokens rest
termination_by text => text.length
decreasing_by all_goals grind

/-- Whether the rest accepts some end of a text. -/
def someEnd (accepts : Text → Bool) : Text → Bool
  | [] => accepts []
  | c :: rest => accepts (c :: rest) || someEnd accepts rest

/-- Whether the elements of a wildcard fit a whole text. -/
def fits : List Token → Text → Bool
  | [], text => text.isEmpty
  | .anyText :: rest, text => someEnd (fits rest) text
  | .anyChar :: rest, text =>
    match text with
    | [] => false
    | _ :: more => fits rest more
  | .char c :: rest, text =>
    match text with
    | [] => false
    | d :: more => c == d && fits rest more
  | .set negated choices :: rest, text =>
    match text with
    | [] => false
    | d :: more => (choices.any (·.covers d) != negated) && fits rest more

def matchesText (pattern text : Text) : Bool :=
  fits (tokens pattern) text

end SuiteDocs.Wildcard
