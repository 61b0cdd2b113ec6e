import SuiteDocs.Json.Reader
import SuiteDocs.Yaml.Cursor

/-!
Scalars of the configuration format: plain, quoted and block texts.

Each reader takes the place where the scalar starts and gives its text and the place behind it.
Loops over lines are bounded by the number of characters left.
-/

set_option autoImplicit false

namespace SuiteDocs.Yaml

/-! ## Quoted scalars -/

/-- The character that an escape with one letter stands for. -/
def escaped? : Symbol → Option Symbol
  | .char '0' => some '\x00'
  | .char 'a' => some '\x07'
  | .char 'b' => some '\x08'
  | .char 't' => some '\t'
  | .char '\t' => some '\t'
  | .char 'n' => some '\n'
  | .char 'v' => some '\x0b'
  | .char 'f' => some '\x0c'
  | .char 'r' => some '\r'
  | .char 'e' => some '\x1b'
  | .char ' ' => some ' '
  | .char '"' => some '"'
  | .char '\\' => some '\\'
  | .char '/' => some '/'
  | .char 'N' => some '\x85'
  | .char '_' => some '\xa0'
  | .char 'L' => some '\u2028'
  | .char 'P' => some '\u2029'
  | _ => none

/-- The number of hexadecimal digits of an escape by number. -/
def escapeDigits? : Symbol → Option Nat
  | .char 'x' => some 2
  | .char 'u' => some 4
  | .char 'U' => some 8
  | _ => none

/-- The character that an escape by number stands for, given its digits. -/
def escapedCode (digits : Text) : Except Error Symbol :=
  match digits.mapM Json.hexDigit? with
  | none => .error .malformed
  | some values =>
    let code := values.foldl (fun code value => code * 16 + value) 0
    if 0x80000000 ≤ code then .error .noWord
    else if 0x110000 ≤ code then .error .noCharacter
    else .ok (Symbol.ofCode code)

/-- The empty lines from the start of a line on. -/
def quotedBreaks : Nat → Cursor → Except Error (Text × Cursor)
  | 0, _ => .error .malformed
  | fuel + 1, cursor =>
    if cursor.atDocumentMark then .error .malformed
    else
      let cursor := cursor.skipWhile fun c => c == ' ' || c == '\t'
      match cursor.lineBreak? with
      | none => .ok ([], cursor)
      | some (mark, next) => do
        let (breaks, cursor) ← quotedBreaks fuel next
        return (mark :: breaks, cursor)

/-- Line breaks inside a scalar, the first of them given apart: one line break is a space, and each
further one stands for itself. -/
def joinedBreaks (mark : Symbol) (breaks : Text) : Text :=
  if mark != '\n' then mark :: breaks else if breaks.isEmpty then " " else breaks

/-- White space inside a quoted scalar. One line break is a space, and each further one stands for
itself. -/
def quotedSpaces (fuel : Nat) (cursor : Cursor) : Except Error (Text × Cursor) :=
  let spaces := cursor.run fun c => c == ' ' || c == '\t'
  let cursor := cursor.skip spaces.length
  match cursor.lineBreak? with
  | some (mark, next) => do
    let (breaks, cursor) ← quotedBreaks fuel next
    return (joinedBreaks mark breaks, cursor)
  | none => if cursor.rest.isEmpty then .error .malformed else .ok (spaces, cursor)

/-- The rest of a quoted scalar behind its opening quote. -/
def quotedRest (quote : Symbol) : Nat → Cursor → Except Error (Text × Cursor)
  | 0, _ => .error .malformed
  | fuel + 1, cursor =>
    match cursor.rest with
    | [] => .error .malformed
    | c :: more =>
      if c == quote then
        if quote == '\'' && more.head? == some '\'' then continueWith fuel "'" (cursor.skip 2)
        else .ok ([], cursor.step)
      else if isSeparation c then do
        let (spaces, cursor) ← quotedSpaces fuel cursor
        continueWith fuel spaces cursor
      else if c == '\\' && quote == '"' then
        match more with
        | [] => .error .malformed
        | letter :: digits =>
          match escaped? letter, escapeDigits? letter with
          | some escaped, _ => continueWith fuel [escaped] (cursor.skip 2)
          | none, some count => do
            if digits.length < count then throw .malformed
            continueWith fuel [← escapedCode (digits.take count)] (cursor.skip (count + 2))
          | none, none =>
            match cursor.step.lineBreak? with
            | none => .error .malformed
            | some (_, next) => do
              let (breaks, cursor) ← quotedBreaks fuel next
              continueWith fuel breaks cursor
      else continueWith fuel [c] cursor.step
where
  /-- Puts characters before the rest of the scalar. -/
  continueWith (fuel : Nat) (read : Text) (cursor : Cursor) :
      Except Error (Text × Cursor) := do
    let (text, cursor) ← quotedRest quote fuel cursor
    return (read ++ text, cursor)

def quotedScalar (cursor : Cursor) : Except Error (Text × Cursor) :=
  match cursor.rest with
  | [] => .error .malformed
  | quote :: more => quotedRest quote (2 * more.length + 2) cursor.step

/-! ## Block scalars -/

/-- What happens to the line breaks at the end of a block scalar. -/
inductive Chomping where
  | strip
  | clip
  | keep
  deriving DecidableEq, Repr

def chomping? : Symbol → Option Chomping
  | .char '+' => some .keep
  | .char '-' => some .strip
  | _ => none

def indentation? (c : Symbol) : Option Nat :=
  if c.isDigit then some (c.code - '0'.toNat) else none

/-- The chomping and the indentation that the head of a block scalar asks for, in any order. -/
def blockHead (cursor : Cursor) : Except Error (Chomping × Option Nat × Cursor) := do
  let chompingFirst := (cursor.peek? 0).bind chomping?
  let cursor := if chompingFirst.isSome then cursor.step else cursor
  let indentation := (cursor.peek? 0).bind indentation?
  if indentation == some 0 then throw .malformed
  let cursor := if indentation.isSome then cursor.step else cursor
  let chompingLast :=
    if chompingFirst.isNone && indentation.isSome then (cursor.peek? 0).bind chomping? else none
  let cursor := if chompingLast.isSome then cursor.step else cursor
  if !cursor.endsOr (fun c => c == ' ' || isBreak c) 0 then throw .malformed
  let chomping := ((chompingFirst.or chompingLast).getD .clip)
  return (chomping, indentation, ← cursor.endLine)

/-- The empty lines before the first line of a block scalar, and the greatest indentation met. -/
def leadingBreaks : Nat → Cursor → Nat → Text × Nat × Cursor
  | 0, cursor, deepest => ([], deepest, cursor)
  | fuel + 1, cursor, deepest =>
    if cursor.has (· == ' ') 0 then
      let cursor := cursor.step
      leadingBreaks fuel cursor (max deepest cursor.column)
    else match cursor.lineBreak? with
      | none => ([], deepest, cursor)
      | some (mark, next) =>
        let (breaks, deepest, cursor) := leadingBreaks fuel next deepest
        (mark :: breaks, deepest, cursor)

/-- The place behind spaces up to a column. -/
def skipIndentation (indent : Nat) (cursor : Cursor) : Cursor :=
  cursor.skip (min (cursor.run (· == ' ')).length (indent - cursor.column))

/-- The empty lines before a line of a block scalar. -/
def blockBreaks (indent : Nat) : Nat → Cursor → Text × Cursor
  | 0, cursor => ([], cursor)
  | fuel + 1, cursor =>
    let cursor := skipIndentation indent cursor
    match cursor.lineBreak? with
    | none => ([], cursor)
    | some (mark, next) =>
      let (breaks, cursor) := blockBreaks indent fuel next
      (mark :: breaks, cursor)

/-- The lines of a block scalar: their text, the last line break, the empty lines behind it and
the place after them. The empty lines before the first of them are given. -/
def blockLines (folded : Bool) (indent : Nat) :
    Nat → Text → Cursor → Text × Option Symbol × Text × Cursor
  | 0, breaks, cursor => ([], none, breaks, cursor)
  | fuel + 1, breaks, cursor =>
    if cursor.column == indent && !cursor.rest.isEmpty then
      let flush := !cursor.has (fun c => c == ' ' || c == '\t') 0
      let line := cursor.run (!isBreak ·)
      let cursor := cursor.skip line.length
      let (mark, cursor) := match cursor.lineBreak? with
        | none => (none, cursor)
        | some (mark, next) => (some mark, next)
      let (following, cursor) := blockBreaks indent (fuel + 1) cursor
      if cursor.column == indent && !cursor.rest.isEmpty then
        let joined : Text :=
          if folded && mark == some '\n' && flush &&
              !cursor.has (fun c => c == ' ' || c == '\t') 0 then
            if following.isEmpty then " " else ""
          else mark.toList
        let (text, last, rest, cursor) := blockLines folded indent fuel following cursor
        (breaks ++ line ++ joined ++ text, last, rest, cursor)
      else (breaks ++ line, mark, following, cursor)
    else ([], none, breaks, cursor)

/-- A block scalar in a block with the given indentation. -/
def blockScalar (folded : Bool) (indent : Int) (cursor : Cursor) :
    Except Error (Text × Cursor) := do
  let (chomping, indentation, cursor) ← blockHead cursor.step
  let least := max (indent + 1) 1
  let fuel := cursor.rest.length + 1
  let (column, breaks, cursor) := match indentation with
    | none =>
      let (breaks, deepest, cursor) := leadingBreaks fuel cursor 0
      (max least.toNat deepest, breaks, cursor)
    | some increment =>
      let column := least.toNat + increment - 1
      let (breaks, cursor) := blockBreaks column fuel cursor
      (column, breaks, cursor)
  let (text, last, following, cursor) := blockLines folded column fuel breaks cursor
  let ending := match chomping with
    | .strip => []
    | .clip => last.toList
    | .keep => last.toList ++ following
  return (text ++ ending, cursor)

/-! ## Plain scalars -/

/-- The length of a run of characters of a plain scalar on one line. -/
def plainLength (inFlow : Bool) : Text → Nat
  | [] => 0
  | c :: rest =>
    if isSeparation c then 0
    else if c == ':' && rest.head?.all (fun d =>
        isSeparation d || (inFlow && (",[]\x7b\x7d" : Text).contains d)) then 0
    else if inFlow && (",?[]\x7b\x7d" : Text).contains c then 0
    else plainLength inFlow rest + 1

/-- The empty lines behind a line of a plain scalar. There is nothing more to read before a mark
between documents. -/
def plainBreaks : Nat → Cursor → Option Text × Cursor
  | 0, cursor => (some [], cursor)
  | fuel + 1, cursor =>
    if cursor.has (· == ' ') 0 then plainBreaks fuel cursor.step
    else match cursor.lineBreak? with
      | none => (some [], cursor)
      | some (mark, next) =>
        if next.atDocumentMark then (none, next)
        else
          let (breaks, cursor) := plainBreaks fuel next
          (breaks.map (mark :: ·), cursor)

/-- White space inside a plain scalar, and whether it goes over a line break. `none` if the scalar
ends there for sure. -/
def plainSpaces (cursor : Cursor) : Option Text × Bool × Cursor :=
  let spaces := cursor.run (· == ' ')
  let cursor := cursor.skip spaces.length
  match cursor.lineBreak? with
  | some (mark, next) =>
    if next.atDocumentMark then (none, true, next)
    else
      let (breaks, cursor) := plainBreaks (next.rest.length + 1) next
      (breaks.map (joinedBreaks mark), true, cursor)
  | none => (if spaces.isEmpty then none else some spaces, false, cursor)

/-- The rest of a plain scalar, whether a line break follows its last character, and the place
behind the white space after it. The white space before it is given. -/
def plainRest (inFlow : Bool) (indent : Int) :
    Nat → Text → Bool → Cursor → Text × Bool × Cursor
  | 0, _, broken, cursor => ([], broken, cursor)
  | fuel + 1, spaces, broken, cursor =>
    if cursor.has (· == '#') 0 then ([], broken, cursor)
    else
      let length := plainLength inFlow cursor.rest
      if length == 0 then ([], broken, cursor)
      else
        let chunk := cursor.rest.take length
        let (next, brokenNext, cursor) := plainSpaces (cursor.skip length)
        match next with
        | none => (spaces ++ chunk, brokenNext, cursor)
        | some next =>
          if cursor.has (· == '#') 0 || (!inFlow && (cursor.column : Int) < indent) then
            (spaces ++ chunk, brokenNext, cursor)
          else
            let (text, broken, cursor) := plainRest inFlow indent fuel next brokenNext cursor
            (spaces ++ chunk ++ text, broken, cursor)

/-- A plain scalar in a block with the given indentation, and whether a line break follows it. -/
def plainScalar (inFlow : Bool) (indent : Int) (cursor : Cursor) : Text × Bool × Cursor :=
  plainRest inFlow (indent + 1) (cursor.rest.length + 1) [] false cursor

end SuiteDocs.Yaml
