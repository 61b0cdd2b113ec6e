import SuiteDocs.Text.Strip

/-!
Patterns that select files by their path.

`**/` stands for any directories or none, any other `**` for any text, `*` for a part of a name,
`?` for one character of a name, and `{a,b}` for one of the options between the braces. Two stars do
not cross the end of a line.
-/

set_option autoImplicit false

namespace SuiteDocs.Glob

open SuiteDocs.Text

/-- An element of a pattern. -/
inductive Token where
  | directories
  | anyText
  | anyName
  | anyChar
  | options (choices : List Text)
  | char (c : Symbol)
  deriving DecidableEq, Repr

/-- The elements of a pattern. A brace that is not closed stands for itself. -/
def tokens : Text → List Token
  | [] => []
  | .char '*' :: .char '*' :: .char '/' :: rest => .directories :: tokens rest
  | .char '*' :: .char '*' :: rest => .anyText :: tokens rest
  | .char '*' :: rest => .anyName :: tokens rest
  | .char '?' :: rest => .anyChar :: tokens rest
  | c :: rest =>
    if c == '\x7b' && rest.contains '\x7d' then
      let inner := rest.takeWhile (· != .char '\x7d')
      .options (splitOn ',' inner) :: tokens (rest.drop (inner.length + 1))
    else .char c :: tokens rest
termination_by text => text.length
decreasing_by all_goals grind

/-- Whether the rest accepts what is left after some characters of a class. -/
def afterSome (inClass : Symbol → Bool) (accepts : Text → Bool) : Text → Bool
  | [] => accepts []
  | c :: rest => accepts (c :: rest) || (inClass c && afterSome inClass accepts rest)

/-- Whether the rest accepts what is left after some slash of the same line. -/
def afterSlash (accepts : Text → Bool) : Text → Bool
  | [] => false
  | c :: rest => (c == '/' && accepts rest) || (c != '\n' && afterSlash accepts rest)

/-- Whether the elements of a pattern fit a whole text. -/
def fits : List Token → Text → Bool
  | [], text => text.isEmpty
  | .directories :: rest, text => fits rest text || afterSlash (fits rest) text
  | .anyText :: rest, text => afterSome (· != '\n') (fits rest) text
  | .anyName :: rest, text => afterSome (· != '/') (fits rest) text
  | .anyChar :: rest, text =>
    match text with
    | [] => false
    | c :: more => c != '/' && fits rest more
  | .options choices :: rest, text =>
    choices.any fun choice => choice.isPrefixOf text && fits rest (text.drop choice.length)
  | .char c :: rest, text =>
    match text with
    | [] => false
    | d :: more => c == d && fits rest more

/-- A pattern in the form in which it is read: slashes for backslashes, and no leading `./`. -/
def clean (pattern : Text) : Text :=
  match exchange '\\' '/' pattern with
  | .char '.' :: .char '/' :: rest => rest
  | pattern => pattern

def selects (pattern path : Text) : Bool :=
  fits (tokens (clean pattern)) (exchange '\\' '/' path)

end SuiteDocs.Glob
