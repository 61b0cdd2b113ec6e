import SuiteDocs.Text.Utf8
import SuiteDocs.Yaml.Scalar

/-!
Tokens of the configuration format.

Structure comes from indentation: a deeper column opens a block and a shallower one closes it. A
key is only known as one by the colon behind it, so the place where a key may have started is kept
until the colon comes or cannot come any more.
-/

set_option autoImplicit false

namespace SuiteDocs.Yaml

inductive Token where
  | version (major : Nat)
  | tagHandle (handle start : Text)
  | otherDirective
  | documentStart
  | documentEnd
  | blockSequenceStart
  | blockMappingStart
  | blockEnd
  | flowSequenceStart
  | flowSequenceEnd
  | flowMappingStart
  | flowMappingEnd
  | key
  | value
  | blockEntry
  | flowEntry
  | alias (name : Text)
  | anchor (name : Text)
  | tag (handle : Option Text) (suffix : Text)
  | scalar (text : Text) (plain : Bool)
  deriving DecidableEq, Repr

/-- A place where a key may have started. -/
structure PossibleKey where
  /-- The number of tokens before the key. -/
  tokenCount : Nat
  /-- Whether nothing but a key may stand there. -/
  required : Bool
  index : Nat
  line : Nat
  column : Nat

/-- How far a text is cut into tokens. -/
structure Scan where
  cursor : Cursor
  tokens : List Token
  /-- The number of flow collections that are open. -/
  flowLevel : Nat
  /-- The column of the innermost block, and those of the blocks around it. -/
  indent : Int
  indents : List Int
  /-- Whether a key may start here. -/
  keyAllowed : Bool
  /-- The possible keys by the flow level at which they stand. -/
  possibleKeys : List (Nat × PossibleKey)

namespace Scan

/-- The scan of a text that has not begun. -/
def start (text : Text) : Scan :=
  { cursor := Cursor.ofText text
    tokens := []
    flowLevel := 0
    indent := -1
    indents := []
    keyAllowed := true
    possibleKeys := [] }

def push (scan : Scan) (token : Token) : Scan :=
  { scan with tokens := scan.tokens ++ [token] }

/-- Adds a token of `length` characters. -/
def take (scan : Scan) (length : Nat) (token : Token) : Scan :=
  { scan.push token with cursor := scan.cursor.skip length }

/-- The place of the next token: behind spaces, comments and line breaks. Outside flow collections
a key may start on a new line. -/
def skipLayout : Nat → Scan → Scan
  | 0, scan => scan
  | fuel + 1, scan =>
    let cursor := scan.cursor.skipComment
    match cursor.lineBreak? with
    | none => { scan with cursor }
    | some (_, next) =>
      skipLayout fuel
        { scan with cursor := next, keyAllowed := scan.keyAllowed || scan.flowLevel == 0 }

/-- Forgets the possible keys that the colon can no longer follow: those on another line and those
more than 1024 characters back. -/
def dropStaleKeys (scan : Scan) : Except Error Scan :=
  let isStale (key : PossibleKey) : Bool :=
    key.line != scan.cursor.line || key.index + 1024 < scan.cursor.index
  if scan.possibleKeys.any fun (_, key) => isStale key && key.required then .error .malformed
  else .ok { scan with possibleKeys := scan.possibleKeys.filter fun (_, key) => !isStale key }

/-- The possible key of the open collection. -/
def possibleKey? (scan : Scan) : Option PossibleKey :=
  (scan.possibleKeys.find? (·.1 == scan.flowLevel)).map (·.2)

/-- Forgets the possible key of the open collection. -/
def removeKey (scan : Scan) : Except Error Scan :=
  match scan.possibleKey? with
  | none => .ok scan
  | some key =>
    if key.required then .error .malformed
    else .ok { scan with possibleKeys := scan.possibleKeys.filter (·.1 != scan.flowLevel) }

def saveKey (scan : Scan) : Except Error Scan :=
  if scan.keyAllowed then do
    let scan ← scan.removeKey
    let cursor := scan.cursor
    let key : PossibleKey :=
      { tokenCount := scan.tokens.length
        required := scan.flowLevel == 0 && scan.indent == cursor.column
        index := cursor.index
        line := cursor.line
        column := cursor.column }
    return { scan with possibleKeys := (scan.flowLevel, key) :: scan.possibleKeys }
  else .ok scan

/-- Closes the blocks that are deeper than a column. -/
def closeBlocks (column : Int) : List Int → Scan → Scan
  | [], scan => scan
  | outer :: indents, scan =>
    if column < scan.indent then
      closeBlocks column indents ({ scan with indent := outer, indents }.push .blockEnd)
    else scan

/-- Closes the blocks that are deeper than a column, outside flow collections. -/
def unwind (scan : Scan) (column : Int) : Scan :=
  if scan.flowLevel == 0 then closeBlocks column scan.indents scan else scan

/-- Opens a block at a column if it is deeper than the innermost one. -/
def indentTo (scan : Scan) (column : Nat) : Option Scan :=
  if scan.indent < column then
    some { scan with indent := column, indents := scan.indent :: scan.indents }
  else none

/-- Opens a block at the present column, with a token, if it is deeper than the innermost one. -/
def openBlock (scan : Scan) (token : Token) : Scan :=
  match scan.indentTo scan.cursor.column with
  | some scan => scan.push token
  | none => scan

def takeDocumentMark (scan : Scan) (token : Token) : Except Error Scan := do
  let scan ← (scan.unwind (-1)).removeKey
  return { scan with keyAllowed := false }.take 3 token

/-- Takes the opening bracket of a flow collection. -/
def takeFlowStart (scan : Scan) (token : Token) : Except Error Scan := do
  let scan ← scan.saveKey
  return { scan with flowLevel := scan.flowLevel + 1, keyAllowed := true }.take 1 token

/-- Takes the closing bracket of a flow collection. -/
def takeFlowEnd (scan : Scan) (token : Token) : Except Error Scan := do
  if scan.flowLevel == 0 then throw .malformed
  let scan ← scan.removeKey
  return { scan with flowLevel := scan.flowLevel - 1, keyAllowed := false }.take 1 token

/-- Takes the comma between the entries of a flow collection. -/
def takeFlowEntry (scan : Scan) : Except Error Scan := do
  let scan ← { scan with keyAllowed := true }.removeKey
  return scan.take 1 .flowEntry

/-- Takes the hyphen of an entry of a block sequence. -/
def takeBlockEntry (scan : Scan) : Except Error Scan := do
  if scan.flowLevel == 0 && !scan.keyAllowed then throw .malformed
  let scan := if scan.flowLevel == 0 then scan.openBlock .blockSequenceStart else scan
  let scan ← { scan with keyAllowed := true }.removeKey
  return scan.take 1 .blockEntry

/-- Takes the question mark of an explicit key. -/
def takeKey (scan : Scan) : Except Error Scan := do
  if scan.flowLevel == 0 && !scan.keyAllowed then throw .malformed
  let scan := if scan.flowLevel == 0 then scan.openBlock .blockMappingStart else scan
  let scan ← { scan with keyAllowed := scan.flowLevel == 0 }.removeKey
  return scan.take 1 .key

/-- Takes the colon of a value. What may have been a key before it becomes one. -/
def takeValue (scan : Scan) : Except Error Scan :=
  match scan.possibleKey? with
  | some key =>
    let scan :=
      { scan with
        possibleKeys := scan.possibleKeys.filter (·.1 != scan.flowLevel)
        tokens := scan.tokens.insertIdx key.tokenCount .key
        keyAllowed := false }
    let scan :=
      if scan.flowLevel == 0 then
        match scan.indentTo key.column with
        | some scan =>
          { scan with tokens := scan.tokens.insertIdx key.tokenCount .blockMappingStart }
        | none => scan
      else scan
    .ok (scan.take 1 .value)
  | none => do
    if scan.flowLevel == 0 && !scan.keyAllowed then throw .malformed
    let scan := if scan.flowLevel == 0 then scan.openBlock .blockMappingStart else scan
    let scan ← { scan with keyAllowed := scan.flowLevel == 0 }.removeKey
    return scan.take 1 .value

/-- A character of a name of an anchor, a directive or a tag handle. -/
def isNameChar (c : Symbol) : Bool :=
  c.isAlphanum || c == '-' || c == '_'

def takeAnchor (scan : Scan) (token : Text → Token) : Except Error Scan := do
  let scan ← scan.saveKey
  let cursor := scan.cursor.step
  let name := cursor.run isNameChar
  let cursor := cursor.skip name.length
  let mayFollow (c : Symbol) : Bool :=
    isSeparation c || ("?:,]\x7d%@`" : Text).contains c
  if name.isEmpty || !cursor.endsOr mayFollow 0 then throw .malformed
  return { scan with cursor, keyAllowed := false }.push (token name)

/-- A character of a tag, percent signs apart. -/
def isTagChar (c : Symbol) : Bool :=
  c.isAlphanum || ("-;/?:@&=+$,_.!~*'()[]" : Text).contains c

/-- Whether an end of a line or a space, or the end of the text, follows. -/
def endsTag (cursor : Cursor) : Bool :=
  cursor.endsOr (fun c => c == ' ' || isBreak c) 0

/-- The bytes that a row of escapes stands for. -/
def escapedBytes : Text → Except Error (List UInt8)
  | .char '%' :: high :: low :: rest =>
    match Json.hexDigit? high, Json.hexDigit? low with
    | some high, some low => do
      return UInt8.ofNat (high * 16 + low) :: (← escapedBytes rest)
    | _, _ => .error .malformed
  | .char '%' :: _ => .error .malformed
  | _ => .ok []

/-- The characters of a tag, `fuel` rows of escapes among them at most. A row spells characters
byte by byte. -/
def tagChars : Nat → Cursor → Except Error (Text × Cursor)
  | 0, _ => .error .malformed
  | fuel + 1, cursor => do
    let plain := cursor.run isTagChar
    let cursor := cursor.skip plain.length
    let bytes ← escapedBytes cursor.rest
    if bytes.isEmpty then return (plain, cursor)
    match Text.Utf8.decode bytes with
    | .error _ => throw .malformed
    | .ok escaped =>
      let (rest, cursor) ← tagChars fuel (cursor.skip (3 * bytes.length))
      return (plain ++ escaped ++ rest, cursor)

/-- The text of a tag, which may not be empty. -/
def tagText (cursor : Cursor) : Except Error (Text × Cursor) := do
  let (text, cursor) ← tagChars (cursor.rest.length + 1) cursor
  if text.isEmpty then throw .malformed
  return (text, cursor)

/-- A tag handle: an exclamation mark, or a name between two of them. -/
def tagHandleText (cursor : Cursor) : Except Error (Text × Cursor) :=
  match cursor.rest with
  | .char '!' :: rest =>
    let name := rest.takeWhile isNameChar
    match rest.drop name.length with
    | .char '!' :: _ => .ok ("!" ++ name ++ "!", cursor.skip (name.length + 2))
    | .char ' ' :: _ => if name.isEmpty then .ok ("!", cursor.step) else .error .malformed
    | _ => .error .malformed
  | _ => .error .malformed

/-- A tag: verbatim between angle brackets, alone, or a suffix with or without a handle. -/
def tagToken (cursor : Cursor) : Except Error (Token × Cursor) := do
  let following := cursor.rest.drop 1
  match following with
  | .char '<' :: _ =>
    let (suffix, cursor) ← tagText (cursor.skip 2)
    if !cursor.has (· == '>') 0 then throw .malformed
    return (.tag none suffix, cursor.step)
  | _ =>
    if cursor.endsOr isSeparation 1 then return (.tag none "!", cursor.step)
    else
      let word := following.takeWhile fun c => !(c == .char ' ' || isBreak c)
      if word.contains '!' then
        let (handle, cursor) ← tagHandleText cursor
        let (suffix, cursor) ← tagText cursor
        return (.tag (some handle) suffix, cursor)
      else
        let (suffix, cursor) ← tagText cursor.step
        return (.tag (some "!") suffix, cursor)

def takeTag (scan : Scan) : Except Error Scan := do
  let scan ← scan.saveKey
  let (token, cursor) ← tagToken scan.cursor
  if !endsTag cursor then throw .malformed
  return { scan with cursor, keyAllowed := false }.push token

def takeBlockScalar (scan : Scan) (folded : Bool) : Except Error Scan := do
  let scan ← { scan with keyAllowed := true }.removeKey
  let (text, cursor) ← blockScalar folded scan.indent scan.cursor
  return { scan with cursor }.push (.scalar text false)

def takeQuoted (scan : Scan) : Except Error Scan := do
  let scan ← scan.saveKey
  let (text, cursor) ← quotedScalar scan.cursor
  return { scan with cursor, keyAllowed := false }.push (.scalar text false)

def takePlain (scan : Scan) : Except Error Scan := do
  let scan ← scan.saveKey
  let (text, broken, cursor) := plainScalar (scan.flowLevel != 0) scan.indent scan.cursor
  return { scan with cursor, keyAllowed := broken }.push (.scalar text true)

/-- The number that digits spell, and the place behind them. -/
def versionNumber (cursor : Cursor) : Except Error (Nat × Cursor) :=
  let digits := cursor.run Symbol.isDigit
  if digits.isEmpty then .error .malformed
  else if Whole.maxDigits < digits.length then .error (.whole (.tooLong digits.length))
  else .ok (Json.digitsValue digits, cursor.skip digits.length)

def directiveToken (name : Text) (cursor : Cursor) : Except Error (Token × Cursor) := do
  let spaced := cursor.skipWhile (· == ' ')
  if name == "YAML" then
    let (major, cursor) ← versionNumber spaced
    if !cursor.has (· == '.') 0 then throw .malformed
    let (_, cursor) ← versionNumber cursor.step
    if !endsTag cursor then throw .malformed
    return (.version major, cursor)
  else if name == "TAG" then
    let (handle, cursor) ← tagHandleText spaced
    if !cursor.has (· == ' ') 0 then throw .malformed
    let (start, cursor) ← tagText (cursor.skipWhile (· == ' '))
    if !endsTag cursor then throw .malformed
    return (.tagHandle handle start, cursor)
  else return (.otherDirective, cursor.skipWhile (!isBreak ·))

def takeDirective (scan : Scan) : Except Error Scan := do
  let scan ← (scan.unwind (-1)).removeKey
  let cursor := scan.cursor.step
  let name := cursor.run isNameChar
  let cursor := cursor.skip name.length
  if name.isEmpty || !endsTag cursor then throw .malformed
  let (token, cursor) ← directiveToken name cursor
  return { scan with cursor := ← cursor.endLine, keyAllowed := false }.push token

/-- Whether a plain scalar may start with a character. -/
def mayStartPlain (scan : Scan) (c : Symbol) : Bool :=
  !(isSeparation c || ("-?:,[]\x7b\x7d#&*!|>'\"%@`" : Text).contains c) ||
    (!scan.cursor.endsOr isSeparation 1 &&
      (c == '-' || (scan.flowLevel == 0 && (c == '?' || c == ':'))))

/-- Takes the token that starts with a character. -/
def takeToken (scan : Scan) (c : Symbol) : Except Error Scan :=
  let inFlow := scan.flowLevel != 0
  let separated := scan.cursor.endsOr isSeparation 1
  if c == '%' && scan.cursor.column == 0 then scan.takeDirective
  else if scan.cursor.column == 0 && scan.cursor.atDocumentMark then
    scan.takeDocumentMark (if c == '-' then .documentStart else .documentEnd)
  else if c == '[' then scan.takeFlowStart .flowSequenceStart
  else if c == '\x7b' then scan.takeFlowStart .flowMappingStart
  else if c == ']' then scan.takeFlowEnd .flowSequenceEnd
  else if c == '\x7d' then scan.takeFlowEnd .flowMappingEnd
  else if c == ',' then scan.takeFlowEntry
  else if c == '-' && separated then scan.takeBlockEntry
  else if c == '?' && (inFlow || separated) then scan.takeKey
  else if c == ':' && (inFlow || separated) then scan.takeValue
  else if c == '*' then scan.takeAnchor .alias
  else if c == '&' then scan.takeAnchor .anchor
  else if c == '!' then scan.takeTag
  else if c == '|' && !inFlow then scan.takeBlockScalar false
  else if c == '>' && !inFlow then scan.takeBlockScalar true
  else if c == '\'' || c == '"' then scan.takeQuoted
  else if scan.mayStartPlain c then scan.takePlain
  else .error .malformed

/-- Takes the next token, or closes all blocks at the end of the text. -/
def takeNext (scan : Scan) : Except Error Scan := do
  let scan := scan.skipLayout (scan.cursor.rest.length + 1)
  let scan := (← scan.dropStaleKeys).unwind scan.cursor.column
  match scan.cursor.rest with
  | [] => (scan.unwind (-1)).removeKey
  | c :: _ => scan.takeToken c

/-- The tokens that are known for sure: those before the first possible key. -/
def settled (scan : Scan) : List Token :=
  match scan.dropStaleKeys with
  | .error _ => scan.tokens
  | .ok scan =>
    (scan.possibleKeys.map (·.2.tokenCount)).foldl (fun tokens count => tokens.take count)
      scan.tokens

/-- Takes tokens up to the end of the text, `fuel` of them at most: the tokens, and what stopped
their taking. -/
def takeAll : Nat → Scan → List Token × Option Error
  | 0, scan => (scan.tokens, some .malformed)
  | fuel + 1, scan =>
    match scan.takeNext with
    | .error error => (scan.settled, some error)
    | .ok next => if scan.cursor.rest.isEmpty then (next.tokens, none) else takeAll fuel next

end Scan

/-- Characters that a configuration text may hold. -/
def isAllowed (c : Symbol) : Bool :=
  let code := c.code
  code == 9 || code == 10 || code == 13 || (0x20 ≤ code && code ≤ 0x7E) || code == 0x85 ||
    (0xA0 ≤ code && code ≤ 0xFFFD) || 0x10000 ≤ code

/-- The tokens of a text, and the error behind them if the text cannot be cut to its end. A mark at
its start is not part of it. -/
def tokens (text : Text) : List Token × Option Error :=
  if text.all isAllowed then
    let text := match text with
      | c :: rest => if c == byteOrderMark then rest else text
      | [] => []
    Scan.takeAll (text.length + 2) (Scan.start text)
  else ([], some .malformed)

end SuiteDocs.Yaml
