import SuiteDocs.Text.Digit
import SuiteDocs.Text.Letter
import SuiteDocs.Text.Numeral
import SuiteDocs.Text.Printable
import SuiteDocs.Text.Symbol

/-!
Character classes over all of Unicode.

ASCII characters are decided by comparison and all others by a table of the code points at which
the property changes, so that facts about a concrete ASCII character need no table.
-/

set_option autoImplicit false

namespace SuiteDocs.Text

/-- Whether a property that starts as "no" and switches at each point of `changes` holds at
`code`: the number of points up to `code` is odd. -/
def switchedOn (changes : Array Nat) (code : Nat) : Bool :=
  changes.foldl (fun holds point => if point ≤ code then !holds else holds) false

/-- White space: tabs, line and page breaks, the four information separators, and the spaces of
every script. -/
def isBlank (c : Symbol) : Bool :=
  let code := c.code
  if code < 128 then
    (9 ≤ code && code ≤ 13) || (28 ≤ code && code ≤ 32)
  else
    code == 0x85 || code == 0xA0 || code == 0x1680 || (0x2000 ≤ code && code ≤ 0x200A) ||
      code == 0x2028 || code == 0x2029 || code == 0x202F || code == 0x205F || code == 0x3000

def isLetter (c : Symbol) : Bool :=
  if c.code < 128 then c.isAlpha else switchedOn letterChanges c.code

/-- A digit or another number character of any script. -/
def isNumeral (c : Symbol) : Bool :=
  if c.code < 128 then c.isDigit else switchedOn numeralChanges c.code

def isLetterOrNumeral (c : Symbol) : Bool :=
  isLetter c || isNumeral c

/-- A character of a word: a letter, a number character or an underscore. -/
def isWord (c : Symbol) : Bool :=
  isLetterOrNumeral c || c == '_'

/-- A character that quoted text writes as itself. -/
def isPrintable (c : Symbol) : Bool :=
  if c.code < 128 then 32 ≤ c.code && c.code < 127 else switchedOn printableChanges c.code

/-- The value of a decimal digit of any script. -/
def digitValue? (c : Symbol) : Option Nat :=
  if c.code < 128 then
    if c.isDigit then some (c.code - 48) else none
  else
    (digitZeros.find? fun start => start ≤ c.code && c.code < start + 10).map (c.code - ·)

def isDecimal (c : Symbol) : Bool :=
  (digitValue? c).isSome

end SuiteDocs.Text
