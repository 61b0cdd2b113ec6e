import SuiteDocs.Json.Value

/-!
Reading values from text.

Strings may not hold raw control characters. Numbers without a fraction and an exponent are whole
numbers; `NaN`, `Infinity` and `-Infinity` are numbers too. When an object names a field twice, the
last value stands in the place of the first. Values may be nested to a limit only.
-/

set_option autoImplicit false

namespace SuiteDocs.Json

/-- White space between tokens. -/
def isLayout (c : Symbol) : Bool :=
  c == ' ' || c == '\t' || c == '\n' || c == '\r'

/-- The text without white space at its start. -/
def skipLayout (text : Text) : Text :=
  text.dropWhile isLayout

def hexDigit? (c : Symbol) : Option Nat :=
  if '0' ≤ c && c ≤ '9' then some (c.code - '0'.toNat)
  else if 'a' ≤ c && c ≤ 'f' then some (c.code - 'a'.toNat + 10)
  else if 'A' ≤ c && c ≤ 'F' then some (c.code - 'A'.toNat + 10)
  else none

/-- Why a text spells no value. -/
inductive Error where
  /-- The text goes wrong where that many of its characters are left. -/
  | malformed (left : Nat)
  /-- A whole number has too many digits. -/
  | tooLong
  /-- Values are nested too deeply, the last one in an array or in an object. -/
  | tooDeep (inArray : Bool)
  deriving DecidableEq, Repr

/-- Gives up where the given text is left. -/
def failAt {α : Type} (left : Text) : Except Error α :=
  .error (.malformed left.length)

/-- The number that four hexadecimal digits spell, which may not stand at the end of a text. -/
def hexUnit? : Text → Option (Nat × Text)
  | a :: b :: c :: d :: e :: rest => do
    let a ← hexDigit? a
    let b ← hexDigit? b
    let c ← hexDigit? c
    let d ← hexDigit? d
    return (((a * 16 + b) * 16 + c) * 16 + d, e :: rest)
  | _ => none

/-- The number of an escape behind its letter. -/
def readUnit (digits : Text) : Except Error (Nat × Text) :=
  match hexUnit? digits with
  | some read => .ok read
  | none => failAt (.char 'u' :: digits)

/-- The character of an escape by number, behind its letter. Two halves of a pair make one
character. -/
def readEscape (digits : Text) : Except Error (Symbol × Text) := do
  let (unit, rest) ← readUnit digits
  if 0xD800 ≤ unit && unit < 0xDC00 then
    match rest with
    | .char '\\' :: .char 'u' :: more =>
      if more.length ≤ 4 then return (Symbol.ofCode unit, rest)
      else
        let (low, after) ← readUnit more
        if 0xDC00 ≤ low && low < 0xE000 then
          return (Symbol.ofCode (0x10000 + (unit - 0xD800) * 0x400 + (low - 0xDC00)), after)
        else return (Symbol.ofCode unit, rest)
    | _ => return (Symbol.ofCode unit, rest)
  else return (Symbol.ofCode unit, rest)

/-- The character that a one-letter escape stands for. -/
def escapedLetter? : Symbol → Option Symbol
  | .char '"' => some '"'
  | .char '\\' => some '\\'
  | .char '/' => some '/'
  | .char 'b' => some '\x08'
  | .char 'f' => some '\x0c'
  | .char 'n' => some '\n'
  | .char 'r' => some '\r'
  | .char 't' => some '\t'
  | _ => none

/-- The rest of a string after its opening quote, at most `fuel` characters of it. The text from
the quote on is given, and the characters read so far, the last one first. -/
def readString (start : Text) :
    Nat → Text → Text → Except Error (Text × Text)
  | 0, _, _ => failAt start
  | _ + 1, _, [] => failAt start
  | fuel + 1, read, c :: rest =>
    if c == '"' then .ok (read.reverse, rest)
    else if c == '\\' then
      match rest with
      | [] => failAt start
      | .char 'u' :: digits => do
        let (unit, rest) ← readEscape digits
        readString start fuel (unit :: read) rest
      | letter :: after =>
        match escapedLetter? letter with
        | none => failAt (c :: rest)
        | some escaped => readString start fuel (escaped :: read) after
    else if c.code < 0x20 then failAt (c :: rest)
    else readString start fuel (c :: read) rest

def digitsValue (digits : Text) : Nat :=
  digits.foldl (fun value c => value * 10 + (c.code - '0'.toNat)) 0

/-- The most digits that a whole number may have. -/
def maxIntegerDigits : Nat := 4300

/-- The fraction of a number, if one follows. -/
def readFraction : Text → Text × Text
  | .char '.' :: rest =>
    match rest.takeWhile Symbol.isDigit with
    | [] => ([], .char '.' :: rest)
    | digits => (digits, rest.dropWhile Symbol.isDigit)
  | text => ([], text)

/-- The exponent of a number, if one follows. -/
def readExponent? : Text → Option (Int × Text)
  | mark :: rest =>
    if mark == 'e' || mark == 'E' then
      let (negative, digits) := match rest with
        | .char '-' :: digits => (true, digits)
        | .char '+' :: digits => (false, digits)
        | digits => (false, digits)
      match digits.takeWhile Symbol.isDigit with
      | [] => none
      | read =>
        let value : Int := digitsValue read
        some (if negative then -value else value, digits.dropWhile Symbol.isDigit)
    else none
  | [] => none

/-- A number after its sign. The text from the sign on is given. -/
def readNumber (start : Text) (negative : Bool) (text : Text) :
    Except Error (Json × Text) :=
  let whole : Text := match text with
    | .char '0' :: _ => "0"
    | _ => text.takeWhile Symbol.isDigit
  if whole.isEmpty then failAt start
  else
    let (fraction, afterFraction) := readFraction (text.drop whole.length)
    match readExponent? afterFraction with
    | some (exponent, rest) =>
      .ok (.number (.ofDecimal negative (digitsValue (whole ++ fraction))
        (exponent - fraction.length)), rest)
    | none =>
      if fraction.isEmpty then
        if maxIntegerDigits < whole.length then .error .tooLong
        else
          let value : Int := digitsValue whole
          .ok (.int (if negative then -value else value), afterFraction)
      else .ok (.number (.ofDecimal negative (digitsValue (whole ++ fraction))
        (-fraction.length)), afterFraction)

/-- A value that is written as a word. -/
def readWord (word : Text) (value : Json) (text : Text) : Except Error (Json × Text) :=
  if word.isPrefixOf text then .ok (value, text.drop word.length) else failAt text

/-- The values that are written as words or numbers. -/
def readScalar (text : Text) : Except Error (Json × Text) :=
  match text with
  | .char 'n' :: _ => readWord "null" .null text
  | .char 't' :: _ => readWord "true" (.bool true) text
  | .char 'f' :: _ => readWord "false" (.bool false) text
  | .char 'N' :: _ => readWord "NaN" (.number .notANumber) text
  | .char 'I' :: _ => readWord "Infinity" (.number (.infinite false)) text
  | .char '-' :: .char 'I' :: _ => readWord "-Infinity" (.number (.infinite true)) text
  | .char '-' :: rest => readNumber text true rest
  | _ => readNumber text false text

mutual

/-- One value, nested at most `depth` deep, in `fuel` steps at most. -/
def readValue : Nat → Nat → Text → Except Error (Json × Text)
  | _, 0, text => failAt text
  | depth, fuel + 1, text =>
    match text with
    | .char '"' :: rest => do
      let (value, rest) ← readString text (rest.length + 1) [] rest
      return (.string value, rest)
    | .char '[' :: rest =>
      match depth, skipLayout rest with
      | 0, _ => .error (.tooDeep true)
      | _ + 1, .char ']' :: rest => .ok (.array [], rest)
      | depth + 1, rest => do
        let (items, rest) ← readItems depth fuel rest
        return (.array items, rest)
    | .char '\x7b' :: rest =>
      match depth, skipLayout rest with
      | 0, _ => .error (.tooDeep false)
      | _ + 1, .char '\x7d' :: rest => .ok (.object [], rest)
      | depth + 1, rest => do
        let (fields, rest) ← readFields depth fuel rest
        return (.object (OrderedMap.ofList fields).entries, rest)
    | _ => readScalar text

/-- The items of an array up to its closing bracket. -/
def readItems : Nat → Nat → Text → Except Error (List Json × Text)
  | _, 0, text => failAt text
  | depth, fuel + 1, text => do
    let (item, rest) ← readValue depth fuel text
    match skipLayout rest with
    | .char ']' :: rest => return ([item], rest)
    | .char ',' :: rest =>
      let (items, rest) ← readItems depth fuel (skipLayout rest)
      return (item :: items, rest)
    | rest => failAt rest

/-- The fields of an object up to its closing brace. -/
def readFields : Nat → Nat → Text → Except Error (List (Text × Json) × Text)
  | _, 0, text => failAt text
  | depth, fuel + 1, text =>
    match text with
    | .char '"' :: rest => do
      let (name, rest) ← readString text (rest.length + 1) [] rest
      match skipLayout rest with
      | .char ':' :: rest =>
        let (value, rest) ← readValue depth fuel (skipLayout rest)
        match skipLayout rest with
        | .char '\x7d' :: rest => return ([(name, value)], rest)
        | .char ',' :: rest =>
          let (fields, rest) ← readFields depth fuel (skipLayout rest)
          return ((name, value) :: fields, rest)
        | rest => failAt rest
      | rest => failAt rest
    | _ => failAt text

end

/-- The value that a whole text spells, nested at most `depth` deep. -/
def parse (depth : Nat) (text : Text) : Except Error Json := do
  let (value, rest) ← readValue depth (2 * text.length + 2) (skipLayout text)
  match skipLayout rest with
  | [] => return value
  | rest => failAt rest

end SuiteDocs.Json
