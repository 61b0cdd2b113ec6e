import SuiteDocs.Json.Reader
import SuiteDocs.Text.Strip

/-!
Tags, and the tag of a plain text that has none: what the text looks like decides.

Digits may be grouped by underscores, and numbers in base sixty have colons between their digits. A
line break at the end of a text does not count.
-/

set_option autoImplicit false

namespace SuiteDocs.Yaml

/-- The start of the tags of the format itself. -/
def coreTag : Text := "tag:yaml.org,2002:"

/-- The tags of the format itself. -/
inductive Kind where
  | null
  | truth
  | integer
  | number
  | bytes
  | moment
  | text
  | sequence
  | mapping
  | set
  | orderedPairs
  | pairs
  /-- The key whose value is merged into a mapping. -/
  | merge
  /-- The key of the value that a mapping has by default. -/
  | default
  /-- The signs of the format, which stand for no value. -/
  | sign
  deriving DecidableEq, Repr

namespace Kind

def name : Kind → Text
  | .null => "null"
  | .truth => "bool"
  | .integer => "int"
  | .number => "float"
  | .bytes => "binary"
  | .moment => "timestamp"
  | .text => "str"
  | .sequence => "seq"
  | .mapping => "map"
  | .set => "set"
  | .orderedPairs => "omap"
  | .pairs => "pairs"
  | .merge => "merge"
  | .default => "value"
  | .sign => "yaml"

def all : List Kind :=
  [.null, .truth, .integer, .number, .bytes, .moment, .text, .sequence, .mapping, .set,
    .orderedPairs, .pairs, .merge, .default, .sign]

/-- The kind that a tag names; there is none for foreign tags. -/
def ofTag? (tag : Text) : Option Kind :=
  all.find? fun kind => coreTag ++ kind.name == tag

end Kind

/-! ## Looks -/

namespace Look

/-- A digit of a number in a base, or an underscore. -/
def isDigitOf (base : Nat) (c : Symbol) : Bool :=
  c == '_' || (Json.hexDigit? c).any (· < base)

/-- The text without a sign at its start. -/
def dropSign : Text → Text
  | .char '-' :: rest => rest
  | .char '+' :: rest => rest
  | text => text

/-- Whether a part behind a colon is a digit of base sixty. -/
def isSixtieth : Text → Bool
  | [c] => c.isDigit
  | [c, d] => '0' ≤ c && c ≤ '5' && d.isDigit
  | _ => false

/-- Whether a text starts with a digit and goes on with digits and underscores. -/
def isGrouped : Text → Bool
  | c :: rest => c.isDigit && rest.all (isDigitOf 10)
  | [] => false

/-- Whether a text looks like a whole number. -/
def isInteger (text : Text) : Bool :=
  match dropSign text with
  | [.char '0'] => true
  | .char '0' :: .char 'b' :: digits => !digits.isEmpty && digits.all (isDigitOf 2)
  | .char '0' :: .char 'x' :: digits => !digits.isEmpty && digits.all (isDigitOf 16)
  | .char '0' :: digits => digits.all (isDigitOf 8)
  | body =>
    match Text.splitOn ':' body with
    | [] => false
    | whole :: parts => isGrouped whole && parts.all isSixtieth

/-- Whether a text is an exponent: a letter, a sign and digits, or nothing. -/
def isExponent : Text → Bool
  | [] => true
  | mark :: sign :: digits =>
    (mark == 'e' || mark == 'E') && (sign == '-' || sign == '+') && !digits.isEmpty &&
      digits.all Symbol.isDigit
  | _ => false

/-- Whether a text looks like a number with a point. One without digits before the point has no
sign. -/
def isNumber (text : Text) : Bool :=
  let body := dropSign text
  if ([".inf", ".Inf", ".INF"] : List Text).contains body then true
  else if ([".nan", ".NaN", ".NAN"] : List Text).contains text then true
  else
    let whole := body.takeWhile (· != .char '.')
    match body.drop whole.length with
    | [] => false
    | _ :: behind =>
      let decimals := behind.takeWhile (isDigitOf 10)
      let ending := behind.drop decimals.length
      if whole.isEmpty then isGrouped decimals && body == text && isExponent ending
      else if isGrouped whole then isExponent ending
      else match Text.splitOn ':' whole with
        | first :: parts => isGrouped first && parts.all isSixtieth && ending.isEmpty
        | [] => false

end Look

/-! ## Dates and times -/

/-- The fields of a date, perhaps with a time of day: the offset is in seconds. -/
structure DateFields where
  year : Nat
  month : Nat
  day : Nat
  time : Option (Nat × Nat × Nat × Nat × Option Int)

namespace DateFields

/-- The number that a field of digits spells, as few and as many as asked for, and what follows
it. -/
def field? (least most : Nat) (text : Text) : Option (Nat × Text) :=
  let digits := text.takeWhile Symbol.isDigit
  if least ≤ digits.length && digits.length ≤ most then
    some (Json.digitsValue digits, text.drop digits.length)
  else none

def after? (c : Symbol) : Text → Option Text
  | d :: rest => if c == d then some rest else none
  | [] => none

/-- The offset in seconds behind a time of day; `some none` if there is none. -/
def offset? (text : Text) : Option (Option Int) :=
  match text with
  | [] => some none
  | _ =>
    match text.dropWhile fun c => c == .char ' ' || c == .char '\t' with
    | [.char 'Z'] => some (some 0)
    | sign :: rest =>
      if sign == '-' || sign == '+' then do
        let (hours, rest) ← field? 1 2 rest
        let minutes ← match rest with
          | [] => some 0
          | _ => do
            let (minutes, rest) ← field? 2 2 (← after? ':' rest)
            if rest.isEmpty then some minutes else none
        let seconds : Int := (hours : Int) * 3600 + minutes * 60
        return some (if sign == '-' then -seconds else seconds)
      else none
    | [] => none

/-- The microseconds of the decimals behind the seconds, and what follows them. -/
def microseconds : Text → Nat × Text
  | .char '.' :: rest =>
    let digits := rest.takeWhile Symbol.isDigit
    let kept := digits.take 6
    (Json.digitsValue kept * Nat.pow 10 (6 - kept.length), rest.drop digits.length)
  | rest => (0, rest)

def ofText? (text : Text) : Option DateFields := do
  let (year, rest) ← field? 4 4 text
  let (month, afterMonth) ← field? 1 2 (← after? '-' rest)
  let (day, afterDay) ← field? 1 2 (← after? '-' afterMonth)
  match afterDay with
  | [] => return { year, month, day, time := none }
  | c :: time =>
    let blanks := afterDay.takeWhile fun c => c == .char ' ' || c == .char '\t'
    let time ←
      if c == 'T' || c == 't' then some time
      else if blanks.isEmpty then none
      else some (afterDay.drop blanks.length)
    let (hour, rest) ← field? 1 2 time
    let (minute, rest) ← field? 2 2 (← after? ':' rest)
    let (second, rest) ← field? 2 2 (← after? ':' rest)
    let (microsecond, rest) := microseconds rest
    let offset ← offset? rest
    return { year, month, day, time := some (hour, minute, second, microsecond, offset) }

/-- Whether a text looks like a date: one without a time has all its ten characters. -/
def isSpelled (text : Text) : Bool :=
  match ofText? text with
  | some fields => fields.time.isSome || text.length == 10
  | none => false

end DateFields

/-! ## Resolution -/

/-- A text without the line break at its end. -/
def dropLineEnd (text : Text) : Text :=
  if text.getLast? == some '\n' then text.dropLast else text

def truthWords : List Text :=
  ["yes", "Yes", "YES", "no", "No", "NO", "true", "True", "TRUE", "false", "False", "FALSE",
    "on", "On", "ON", "off", "Off", "OFF"]

def nullWords : List Text := ["~", "null", "Null", "NULL"]

/-- The signs of the format that stand for no value. -/
def signs : List Text := ["!", "&", "*"]

/-- What a plain text without a tag is taken for. -/
def Kind.ofPlain (text : Text) : Kind :=
  let word := dropLineEnd text
  if truthWords.contains word then .truth
  else if Look.isNumber word then .number
  else if Look.isInteger word then .integer
  else if word == "<<" then .merge
  else if text.isEmpty || nullWords.contains word then .null
  else if DateFields.isSpelled word then .moment
  else if word == "=" then .default
  else if signs.contains word then .sign
  else .text

def Kind.tag (kind : Kind) : Text :=
  coreTag ++ kind.name

end SuiteDocs.Yaml
