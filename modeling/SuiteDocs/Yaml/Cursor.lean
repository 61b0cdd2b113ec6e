import SuiteDocs.Yaml.Error

/-!
Places in the text of a configuration file.
-/

set_option autoImplicit false

namespace SuiteDocs.Yaml

/-- The characters from a place on, how many stand before them, and the line and column of the
place, all counted from zero. -/
structure Cursor where
  rest : Text
  index : Nat
  line : Nat
  column : Nat

def isBreak (c : Symbol) : Bool :=
  c == '\r' || c == '\n' || c == '\x85' || c == '\u2028' || c == '\u2029'

/-- Characters that separate tokens. -/
def isSeparation (c : Symbol) : Bool :=
  c == ' ' || c == '\t' || isBreak c

/-- The mark that may open a text. -/
def byteOrderMark : Symbol := '\ufeff'

namespace Cursor

def ofText (text : Text) : Cursor := ⟨text, 0, 0, 0⟩

/-- The character at a distance; there is none at the end of the text. -/
def peek? (cursor : Cursor) (distance : Nat) : Option Symbol :=
  cursor.rest[distance]?

/-- Whether the text ends, or a character of a class stands, at a distance. -/
def endsOr (cursor : Cursor) (inClass : Symbol → Bool) (distance : Nat) : Bool :=
  (cursor.peek? distance).all inClass

/-- Whether a character of a class stands at a distance. -/
def has (cursor : Cursor) (inClass : Symbol → Bool) (distance : Nat) : Bool :=
  (cursor.peek? distance).any inClass

def step (cursor : Cursor) : Cursor :=
  match cursor.rest with
  | [] => cursor
  | c :: rest =>
    if isBreak c && !(c == '\r' && rest.head? == some '\n') then
      ⟨rest, cursor.index + 1, cursor.line + 1, 0⟩
    else if c == byteOrderMark then { cursor with rest, index := cursor.index + 1 }
    else { cursor with rest, index := cursor.index + 1, column := cursor.column + 1 }

def skip : Nat → Cursor → Cursor
  | 0, cursor => cursor
  | count + 1, cursor => skip count cursor.step

/-- The characters of a class from a place on. -/
def run (cursor : Cursor) (inClass : Symbol → Bool) : Text :=
  cursor.rest.takeWhile inClass

/-- The place behind the characters of a class. -/
def skipWhile (cursor : Cursor) (inClass : Symbol → Bool) : Cursor :=
  skip (cursor.run inClass).length cursor

/-- The line break at a place, in its unified form, and the place behind it. -/
def lineBreak? (cursor : Cursor) : Option (Symbol × Cursor) :=
  match cursor.rest with
  | .char '\r' :: .char '\n' :: _ => some ('\n', skip 2 cursor)
  | c :: _ =>
    if c == '\u2028' || c == '\u2029' then some (c, cursor.step)
    else if isBreak c then some ('\n', cursor.step)
    else none
  | [] => none

/-- Whether a mark between documents stands at a place. -/
def atDocumentMark (cursor : Cursor) : Bool :=
  (cursor.rest.take 3 == "---" || cursor.rest.take 3 == "...") &&
    cursor.endsOr isSeparation 3

def skipComment (cursor : Cursor) : Cursor :=
  let cursor := cursor.skipWhile (· == ' ')
  if cursor.has (· == '#') 0 then cursor.skipWhile (!isBreak ·) else cursor

/-- The place behind the rest of a line that holds nothing more than a comment. -/
def endLine (cursor : Cursor) : Except Error Cursor :=
  let cursor := cursor.skipComment
  match cursor.lineBreak? with
  | some (_, next) => .ok next
  | none => if cursor.rest.isEmpty then .ok cursor else .error .malformed

end Cursor

end SuiteDocs.Yaml
