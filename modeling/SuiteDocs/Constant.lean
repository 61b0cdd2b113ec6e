import SuiteDocs.Source.Field

/-!
Text constants that a source text declares outside all brackets.
-/

set_option autoImplicit false

namespace SuiteDocs

open SuiteDocs.Text SuiteDocs.Source

/-- Names and values of string constants. -/
abbrev Constants := OrderedMap Text Text

namespace Constants

/-- The words that declare a variable. -/
def declaringWords : List Text :=
  ["const", "let", "var"]

/-- What follows the type of a variable, if one is given: a colon and at least one character up to
the next equals sign. -/
def skipType (text : Text) : Text :=
  match text with
  | .char ':' :: rest =>
    let typeEnd := rest.dropWhile fun c => c != .char '=' && c != .char ';' && c != .char '\n'
    if typeEnd.length < rest.length then typeEnd else text
  | _ => text

/-- The name that a declaration gives to a string, and the distance to the quote that opens it. -/
def declaration? (text : Text) : Option (Text × Nat) := do
  let word ← declaringWords.find? (·.isPrefixOf text)
  let afterWord := text.drop word.length
  if afterWord.head?.any isBlank then
    let named := afterWord.dropWhile isBlank
    let name := named.takeWhile isNamePart
    if isIdentifier name then
      match skipType ((named.drop name.length).dropWhile isBlank) with
      | .char '=' :: value =>
        let value := value.dropWhile isBlank
        if value.head?.any isQuote then some (name, text.length - value.length) else none
      | _ => none
    else none
  else none

/-- Whether a type that a `satisfies` names may end here: at a separator, a line break, a comment
or the end of the text, after white space. -/
def typeMayEnd (text : Text) : Bool :=
  let blanks := text.takeWhile isBlank
  match text.dropWhile isBlank with
  | [] => true
  | c :: rest =>
    c == ';' || c == ',' || startsComment (c :: rest) || blanks.any fun b => b == '\r' || b == '\n'

/-- What follows the shortest type of at least one character on this line. -/
def shortestType? : Text → Option Text
  | [] => none
  | c :: rest =>
    if c == ';' || c == '\r' || c == '\n' then none
    else if typeMayEnd rest then some rest
    else shortestType? rest

/-- What follows a type after white space, of which the type leaves over as much as it can. -/
def typeAfterBlanks? (text : Text) : Nat → Option Text
  | 0 => none
  | blanks + 1 =>
    match shortestType? (text.drop (blanks + 1)) with
    | some rest => some rest
    | none => typeAfterBlanks? text blanks

/-- What follows a type-only tail of an expression: `as const` or `satisfies` and a type. -/
def typeSuffix? (text : Text) : Option Text :=
  let asWord : Text := "as"
  let constWord : Text := "const"
  let satisfiesWord : Text := "satisfies"
  let afterAs := text.drop asWord.length
  let constText := afterAs.dropWhile isBlank
  if asWord.isPrefixOf text && afterAs.head?.any isBlank && constWord.isPrefixOf constText &&
      !((constText.drop constWord.length).head?.any isWord) then
    some (constText.drop constWord.length)
  else if satisfiesWord.isPrefixOf text then
    let typeText := text.drop satisfiesWord.length
    typeAfterBlanks? typeText (typeText.takeWhile isBlank).length
  else none

/-- The text without spaces and tabs at its start. -/
def skipSpaces (text : Text) : Text :=
  text.dropWhile fun c => c == .char ' ' || c == .char '\t'

/-- Whether an expression ends here, but for a type-only tail. -/
def endsExpression (text : Text) : Bool :=
  let text := skipSpaces text
  let text := match typeSuffix? text with
    | some rest => skipSpaces rest
    | none => text
  match text with
  | [] => true
  | c :: _ => (";,\r\n\x7d" : Text).contains c || startsComment text

/-- The constant that a declaration at an offset gives, if it gives one: the string is closed, ends
the expression, and is no template with expressions in it. -/
def constantAt? (text : Text) (offset : Nat) : Option (Text × Text) :=
  match declaration? (text.drop offset) with
  | none => none
  | some (name, distance) =>
    match readString text (offset + distance) with
    | .error _ => none
    | .ok (value, stop) =>
      if text[offset + distance]? == some (.char '`') && holds "$\x7b" value then none
      else if endsExpression (text.drop stop) then some (name, value)
      else none

/-- Whether a declaration may start at a character of code. -/
def mayDeclare (text : Text) (code : CodeChar) : Bool :=
  code.depth == 0 && (code.char == 'c' || code.char == 'l' || code.char == 'v') &&
    match code.offset with
    | 0 => true
    | before + 1 => !(text[before]?.any fun c => isNamePart c || c == '.')

/-- The constants of a text. A later declaration of a name exchanges its value. -/
def ofText (text : Text) : Constants :=
  let places := (codeBetween text 0 none).filter (mayDeclare text)
  OrderedMap.ofList (places.filterMap fun code => constantAt? text code.offset)

end Constants

end SuiteDocs
