import SuiteDocs.OrderedMap
import SuiteDocs.Source.Bracket
import SuiteDocs.Source.Segment
import SuiteDocs.Text.Strip

/-!
Strings, objects and arrays written in a source text.
-/

set_option autoImplicit false

namespace SuiteDocs.Source

open SuiteDocs.Text

/-- The contents of a string as they are meant. Only an escaped quote of its own kind and an
escaped backslash lose their backslash; any other escape is kept as it is written. -/
def unescape (quote : Symbol) : Text → Text
  | .char '\\' :: c :: rest =>
    if c == quote || c == '\\' then c :: unescape quote rest
    else .char '\\' :: c :: unescape quote rest
  | c :: rest => c :: unescape quote rest
  | [] => []

/-- The contents of the string at an offset and the offset just past its closing quote. -/
def readString (text : Text) (start : Nat) : Except Fault (Text × Nat) :=
  match text.drop start with
  | [] => .error .outOfRange
  | quote :: rest =>
    if isQuote quote then
      let stringEnd := stringEnd quote rest
      if stringEnd.closed then
        .ok (unescape quote (rest.take (stringEnd.length - 1)), start + stringEnd.length + 1)
      else .error (.unclosedString quote start)
    else .error (.noString start)

/-- The contents of a text that is one closed string and nothing else but white space. -/
def literalValue? (raw : Text) : Option Text :=
  let candidate := strip raw
  match candidate with
  | [] => none
  | first :: _ =>
    if isQuote first then
      match readString candidate 0 with
      | .error _ => none
      | .ok (value, stop) => if (candidate.drop stop).all isBlank then some value else none
    else none

def isIdentifierStart (c : Symbol) : Bool :=
  c.isAlpha || c == '_' || c == '$'

/-- An identifier starts with an ASCII letter, an underscore or a dollar sign and goes on with
word characters of any script and dollar signs. -/
def isIdentifier : Text → Bool
  | [] => false
  | first :: rest => isIdentifierStart first && rest.all isNamePart

/-- The key that the text before a colon spells: an identifier or a string. -/
def fieldKey? (raw : Text) : Option Text :=
  if isIdentifier raw then some raw else literalValue? raw

/-- Fields of an object: keys and the text of their values. -/
abbrev Fields := OrderedMap Text Text

/-- The field that one segment of an object declares. An identifier alone stands for itself.
Spread elements, methods and computed keys declare none. -/
def fieldOf? (text : Text) (span : Span) : Option (Text × Text) :=
  let segment := slice text span.start span.stop
  if ("..." : Text).isPrefixOf segment then none
  else match findTopLevel? text ":" span.start (some span.stop) with
    | none =>
      let key := strip segment
      if isIdentifier key then some (key, key) else none
    | some colon =>
      match fieldKey? (strip (slice text span.start colon)) with
      | none => none
      | some key =>
        if key.isEmpty then none else some (key, strip (slice text (colon + 1) span.stop))

/-- The fields of the object that opens at an offset. -/
def objectFields (text : Text) (start : Nat) : Except Fault Fields := do
  let close ← matchingClose text start
  let spans ← splitTopLevel text (start + 1) close (· == .char ',')
  return OrderedMap.ofList (spans.filterMap (fieldOf? text))

/-- The text of each element of an array; a text that opens no array has none. -/
def arrayItems (raw : Text) : Except Fault (List Text) :=
  let candidate := strip raw
  match candidate with
  | .char '[' :: _ => do
    let close ← matchingClose candidate 0
    let spans ← splitTopLevel candidate 1 close (· == .char ',')
    return spans.map fun span => slice candidate span.start span.stop
  | _ => .ok []

end SuiteDocs.Source
