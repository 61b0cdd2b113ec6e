import SuiteDocs.Text.Character

/-!
Cutting and trimming texts.
-/

set_option autoImplicit false

namespace SuiteDocs.Text

/-- The text without the characters of a class at its end. -/
def dropWhileEnd (p : Symbol → Bool) (text : Text) : Text :=
  (text.reverse.dropWhile p).reverse

/-- The text without white space at either end. -/
def strip (text : Text) : Text :=
  dropWhileEnd isBlank (text.dropWhile isBlank)

/-- The characters from offset `start` up to, not including, offset `stop`. -/
def slice (text : Text) (start stop : Nat) : Text :=
  (text.drop start).take (stop - start)

/-- The pieces between occurrences of a separator; a text without one is a single piece. -/
def splitOn (separator : Symbol) : Text → List Text
  | [] => [[]]
  | c :: rest =>
    if c == separator then [] :: splitOn separator rest
    else match splitOn separator rest with
      | [] => [[c]]
      | piece :: pieces => (c :: piece) :: pieces

/-- What follows the last occurrence of a character, the whole text if there is none. -/
def afterLast (separator : Symbol) (text : Text) : Text :=
  (text.reverse.takeWhile (· != separator)).reverse

/-- Whether `part` occurs in the text. -/
def holds (part : Text) : Text → Bool
  | [] => part.isEmpty
  | c :: rest => part.isPrefixOf (c :: rest) || holds part rest

/-- The text with every occurrence of one character exchanged for another. -/
def exchange (old new : Symbol) (text : Text) : Text :=
  text.map fun c => if c == old then new else c

end SuiteDocs.Text
