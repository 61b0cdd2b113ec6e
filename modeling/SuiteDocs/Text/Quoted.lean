import SuiteDocs.Text.Character

/-!
Quoted text as messages show it.

A text is enclosed in single quotes, or in double quotes when it holds a single quote and no
double one. Backslashes, the enclosing quote and characters that are not printable are escaped.
-/

set_option autoImplicit false

namespace SuiteDocs.Text

/-- A number in lower-case hexadecimal digits, filled with zeros on the left to `width`. -/
def hexadecimal (width n : Nat) : Text :=
  let digits := Nat.toDigits 16 n
  (List.replicate (width - digits.length) '0' ++ digits).map .char

/-- The quote that encloses a text in messages. -/
def enclosingQuote (text : Text) : Symbol :=
  if text.contains '\'' && !text.contains '"' then '"' else '\''

/-- The escape of a symbol by its number. -/
def escapeCode (code : Nat) : Text :=
  if code < 0x100 then "\\x" ++ hexadecimal 2 code
  else if code < 0x10000 then "\\u" ++ hexadecimal 4 code
  else "\\U" ++ hexadecimal 8 code

def escapeChar (quote c : Symbol) : Text :=
  if c == quote || c == '\\' then ['\\', c]
  else if c == '\t' then "\\t"
  else if c == '\n' then "\\n"
  else if c == '\r' then "\\r"
  else if isPrintable c then [c]
  else escapeCode c.code

/-- A text in quotes, in the form that messages use. -/
def quoted (text : Text) : Text :=
  let quote := enclosingQuote text
  quote :: text.flatMap (escapeChar quote) ++ [quote]

end SuiteDocs.Text
