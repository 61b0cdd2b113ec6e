import SuiteDocs.Text.Character

/-!
Strings, regular expressions and comments of a source text.

A text is a list of characters. Whether a literal starts at a place depends on the characters
before it, given nearest first, and its length on those from it on. All lengths below count the
characters *after* the first one of the literal, so that a literal is never empty.
-/

set_option autoImplicit false

namespace SuiteDocs.Source

open SuiteDocs.Text

/-- The characters that open and close a string. -/
def isQuote (c : Symbol) : Bool :=
  c == '\'' || c == '"' || c == '`'

/-- How far a string runs after its opening quote, and whether a closing quote ends it. -/
structure StringEnd where
  length : Nat
  closed : Bool
  deriving DecidableEq, Repr

/-- The same end seen from `count` characters earlier. -/
def StringEnd.after (count : Nat) (rest : StringEnd) : StringEnd :=
  { rest with length := rest.length + count }

/-- The end of a string, given what follows its opening quote. A backslash takes the next
character with it. Only a backtick string goes on past the end of a line. -/
def stringEnd (quote : Symbol) : Text → StringEnd
  | [] => ⟨0, false⟩
  | .char '\\' :: [] => ⟨1, false⟩
  | .char '\\' :: _ :: rest => (stringEnd quote rest).after 2
  | c :: rest =>
    if c == quote then ⟨1, true⟩
    else if c == '\n' && quote != '`' then ⟨0, false⟩
    else (stringEnd quote rest).after 1

/-- The length of a line comment: it ends before the next line break. -/
def lineCommentLength (rest : Text) : Nat :=
  (rest.takeWhile (· != .char '\n')).length

/-- The length of what follows the two characters that open a block comment. -/
def blockCommentLength : Text → Nat
  | [] => 0
  | .char '*' :: .char '/' :: _ => 2
  | _ :: rest => blockCommentLength rest + 1

/-- The length of a regular expression after its opening slash: up to the next slash that is
neither escaped nor in a bracketed set, and the flags after it. There is none if the line or the
text ends first. -/
def regexLength? (inSet : Bool) : Text → Option Nat
  | [] => none
  | .char '\\' :: [] => none
  | .char '\\' :: _ :: rest => (regexLength? inSet rest).map (· + 2)
  | c :: rest =>
    if c == '\n' then none
    else if inSet then (regexLength? (c != ']') rest).map (· + 1)
    else if c == .char '/' then some ((rest.takeWhile isLetter).length + 1)
    else (regexLength? (c == '[') rest).map (· + 1)

/-- Operators and opening punctuation, after which an expression may begin. -/
def isExpressionOpener (c : Symbol) : Bool :=
  ("(,=:[!&|?\x7b\x7d;+-*%>~^" : Text).contains c

/-- Words after which an expression may begin. -/
def expressionKeywords : List Text :=
  ["await", "case", "delete", "do", "else", "in", "new", "of", "return", "throw", "typeof",
    "void", "yield"]

/-- A character of a name: a letter, a number character, an underscore or a dollar sign. -/
def isNamePart (c : Symbol) : Bool :=
  isWord c || c == '$'

/-- Whether a slash opens a regular expression rather than a division, judged by the characters
before it, nearest first: at the start of the text, after an operator or opening punctuation, and
after a keyword that is not the name of a member. -/
def regexMayStart (before : Text) : Bool :=
  match before.dropWhile isBlank with
  | [] => true
  | previous :: earlier =>
    if isExpressionOpener previous then true
    else if isLetter previous || previous == '_' || previous == '$' then
      match earlier.dropWhile isNamePart with
      | .char '.' :: _ => false
      | _ => expressionKeywords.contains (previous :: earlier.takeWhile isNamePart).reverse
    else false

/-- The literal or comment that opens with `first`: how many characters of `rest` belong to it,
or `none` if `first` is a character of code. -/
def literalTail? (before : Text) (first : Symbol) (rest : Text) : Option Nat :=
  if isQuote first then some (stringEnd first rest).length
  else if first == '/' then
    match rest with
    | [] => none
    | .char '/' :: _ => some (lineCommentLength rest)
    | .char '*' :: inner => some (blockCommentLength inner + 1)
    | _ => if regexMayStart before then regexLength? false rest else none
  else none

def startsComment : Text → Bool
  | .char '/' :: .char '/' :: _ => true
  | .char '/' :: .char '*' :: _ => true
  | _ => false

end SuiteDocs.Source
