import SuiteDocs.Text.Symbol

/-!
Line ends of texts.
-/

set_option autoImplicit false

namespace SuiteDocs.Text

/-- A text in which every carriage return, with the line feed after it if there is one, is a line
feed. -/
def unifyNewlines : Text → Text
  | [] => []
  | .char '\r' :: .char '\n' :: rest => .char '\n' :: unifyNewlines rest
  | c :: rest => (if c == '\r' then '\n' else c) :: unifyNewlines rest

def isLineEnd (c : Symbol) : Bool :=
  let code := c.code
  (10 ≤ code && code ≤ 13) || (28 ≤ code && code ≤ 30) || code == 0x85 || code == 0x2028 ||
    code == 0x2029

/-- The lines of a text without their ends. A carriage return and the line feed after it end one
line. What follows the last line end is a line unless it is empty. -/
def linesFrom (line : Text) : Text → List Text
  | [] => if line.isEmpty then [] else [line.reverse]
  | .char '\r' :: .char '\n' :: rest => line.reverse :: linesFrom [] rest
  | c :: rest =>
    if isLineEnd c then line.reverse :: linesFrom [] rest else linesFrom (c :: line) rest

def lines (text : Text) : List Text :=
  linesFrom [] text

end SuiteDocs.Text
