import SuiteDocs.Source.Fault
import SuiteDocs.Source.Literal

/-!
A source text cut into characters of code and literals.

`pieces` is the one scan on which everything else rests: the spans of the literals, the characters
of code with their nesting depth, and the search for a closing bracket are all read off it.
-/

set_option autoImplicit false

namespace SuiteDocs.Source

/-- A character of code, or a whole string, regular expression or comment. -/
inductive Piece where
  | code (c : Symbol)
  | literal (first : Symbol) (rest : Text)
  deriving DecidableEq, Repr

def Piece.chars : Piece → Text
  | .code c => [c]
  | .literal first rest => first :: rest

def Piece.length (piece : Piece) : Nat :=
  piece.chars.length

/-- Cuts a text into pieces, given the characters before it, nearest first. -/
def pieces (before : Text) : Text → List Piece
  | [] => []
  | c :: rest =>
    match literalTail? before c rest with
    | none => .code c :: pieces (c :: before) rest
    | some count =>
      .literal c (rest.take count) ::
        pieces ((rest.take count).reverse ++ c :: before) (rest.drop count)
termination_by text => text.length
decreasing_by all_goals exact Nat.lt_succ_of_le (by simp)

/-- The pieces of a text from an offset on. -/
def piecesFrom (text : Text) (start : Nat) : List Piece :=
  pieces (text.take start).reverse (text.drop start)

/-- The offsets from `start` up to, not including, `stop`. -/
structure Span where
  start : Nat
  stop : Nat
  deriving DecidableEq, Repr

def Span.contains (span : Span) (offset : Nat) : Bool :=
  span.start ≤ offset && offset < span.stop

/-- The spans of the literals among the pieces, the first of which starts at `offset`. -/
def spansAt (offset : Nat) : List Piece → List Span
  | [] => []
  | .code _ :: rest => spansAt (offset + 1) rest
  | .literal _ inner :: rest =>
    let stop := offset + inner.length + 1
    ⟨offset, stop⟩ :: spansAt stop rest

/-- The spans of all literals and comments of a text. -/
def literalSpans (text : Text) : List Span :=
  spansAt 0 (pieces [] text)

/-- Whether an offset lies in a literal or comment of the text. -/
def insideLiteral (text : Text) (offset : Nat) : Bool :=
  (literalSpans text).any (·.contains offset)

/-- The offset just past the literal or comment that starts at an offset, if one does. -/
def literalStop? (text : Text) (start : Nat) : Except Fault (Option Nat) :=
  match text.drop start with
  | [] => .error .outOfRange
  | c :: rest =>
    .ok ((literalTail? (text.take start).reverse c rest).map fun count => start + count + 1)

def isOpener (c : Symbol) : Bool :=
  c == '{' || c == '(' || c == '['

def isCloser (c : Symbol) : Bool :=
  c == '}' || c == ')' || c == ']'

/-- A character of code with its offset and the number of brackets open around it. -/
structure CodeChar where
  offset : Nat
  char : Symbol
  depth : Nat
  deriving DecidableEq, Repr

/-- The characters of code among the pieces. An opening bracket and its closing one are at the
same depth, and a closing bracket too many leaves the depth at zero. -/
def codeAt (offset depth : Nat) : List Piece → List CodeChar
  | [] => []
  | .literal _ inner :: rest => codeAt (offset + inner.length + 1) depth rest
  | .code c :: rest =>
    if isOpener c then ⟨offset, c, depth⟩ :: codeAt (offset + 1) (depth + 1) rest
    else if isCloser c then ⟨offset, c, depth - 1⟩ :: codeAt (offset + 1) (depth - 1) rest
    else ⟨offset, c, depth⟩ :: codeAt (offset + 1) depth rest

/-- The characters of code from `start` on, up to `stop` or the end of the text. -/
def codeBetween (text : Text) (start : Nat) (stop : Option Nat) : List CodeChar :=
  (codeAt start 0 (piecesFrom text start)).takeWhile fun code =>
    match stop with
    | none => true
    | some stop => code.offset < stop

/-- The characters of code outside all brackets that open after `start`. -/
def topLevelBetween (text : Text) (start : Nat) (stop : Option Nat) : List CodeChar :=
  (codeBetween text start stop).filter (·.depth == 0)

/-- The first offset outside all brackets at which `token` stands. -/
def findTopLevel? (text token : Text) (start : Nat) (stop : Option Nat) : Option Nat :=
  ((topLevelBetween text start stop).find? fun code =>
    token.isPrefixOf (text.drop code.offset)).map (·.offset)

end SuiteDocs.Source
