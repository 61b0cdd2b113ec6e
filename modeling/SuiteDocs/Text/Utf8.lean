import SuiteDocs.Text.Quoted

/-!
Characters of UTF-8 encoded text, where bytes are not such text, and which texts have no bytes.
-/

set_option autoImplicit false

namespace SuiteDocs.Text.Utf8

/-- What is wrong with bytes. -/
inductive Reason where
  | invalidStart
  | invalidContinuation
  | unexpectedEnd
  deriving DecidableEq, Repr

/-- The bytes that are wrong: their first, its position and their number. -/
structure Error where
  reason : Reason
  first : UInt8
  position : Nat
  count : Nat
  deriving DecidableEq, Repr

def Reason.message : Reason → Text
  | .invalidStart => "invalid start byte"
  | .invalidContinuation => "invalid continuation byte"
  | .unexpectedEnd => "unexpected end of data"

def Error.message (error : Error) : Text :=
  let position := Text.ofNat error.position
  let subject : Text :=
    if error.count == 1 then
      "byte 0x" ++ hexadecimal 2 error.first.toNat ++ " in position " ++ position
    else "bytes in position " ++ position ++ "-" ++ Text.ofNat (error.position + error.count - 1)
  "'utf-8' codec can't decode " ++ subject ++ ": " ++ error.reason.message

/-- A byte that goes on with a character. -/
def isContinuation (byte : UInt8) : Bool :=
  0x80 ≤ byte && byte < 0xC0

/-- The number of bytes of a character with the given first byte. -/
def lengthOf? (first : UInt8) : Option Nat :=
  if first < 0x80 then some 1
  else if first < 0xC2 then none
  else if first < 0xE0 then some 2
  else if first < 0xF0 then some 3
  else if first < 0xF5 then some 4
  else none

/-- Whether a second byte may follow a first one. Some first bytes exclude continuations that would
spell a character in more bytes than needed, half of a pair, or no character at all. -/
def maySucceed (first second : UInt8) : Bool :=
  isContinuation second &&
    !(first == 0xE0 && second < 0xA0) && !(first == 0xED && 0xA0 ≤ second) &&
    !(first == 0xF0 && second < 0x90) && !(first == 0xF4 && 0x90 ≤ second)

/-- The number of leading bytes that may follow a first byte, at most `wanted` of them. -/
def followers (first : UInt8) (wanted : Nat) : List UInt8 → Nat
  | [] => 0
  | second :: rest =>
    if maySucceed first second then
      ((rest.take (wanted - 1)).takeWhile isContinuation).length + 1
    else 0

/-- The character that bytes of the right number spell. -/
def charOf (first : UInt8) (rest : List UInt8) : Symbol :=
  let lead := match rest.length with
    | 0 => first.toNat
    | 1 => first.toNat % 32
    | 2 => first.toNat % 16
    | _ => first.toNat % 8
  Symbol.ofCode (rest.foldl (fun code byte => code * 64 + byte.toNat % 64) lead)

/-- The characters of bytes from a position on, or the first error in them. The characters so far
are given last one first. -/
def decodeFrom (position : Nat) (read : Text) : List UInt8 → Except Error Text
  | [] => .ok read.reverse
  | first :: rest =>
    match lengthOf? first with
    | none => .error ⟨.invalidStart, first, position, 1⟩
    | some length =>
      let wanted := length - 1
      let found := if wanted == 0 then 0 else followers first wanted rest
      if found == wanted then
        decodeFrom (position + length) (charOf first (rest.take wanted) :: read) (rest.drop wanted)
      else if found == rest.length then
        .error ⟨.unexpectedEnd, first, position, rest.length + 1⟩
      else .error ⟨.invalidContinuation, first, position, found + 1⟩
termination_by bytes => bytes.length
decreasing_by exact Nat.lt_succ_of_le (by simp)

def decode (bytes : List UInt8) : Except Error Text :=
  decodeFrom 0 [] bytes

/-! ## Encoding -/

/-- Halves of pairs that have no bytes: the first of them, its position and their number. -/
structure EncodeError where
  first : Nat
  position : Nat
  count : Nat
  deriving DecidableEq, Repr

def EncodeError.message (error : EncodeError) : Text :=
  let position := Text.ofNat error.position
  let subject : Text :=
    if error.count == 1 then
      "character '" ++ escapeCode error.first ++ "' in position " ++ position
    else
      "characters in position " ++ position ++ "-" ++ Text.ofNat (error.position + error.count - 1)
  "'utf-8' codec can't encode " ++ subject ++ ": surrogates not allowed"

/-- The first halves in a text, from a position on, that are not accepted. -/
def encodeErrorFrom? (accepts : Nat → Bool) (position : Nat) : Text → Option EncodeError
  | [] => none
  | c :: rest =>
    if c.isHalf && !accepts c.code then
      some ⟨c.code, position, (rest.takeWhile Symbol.isHalf).length + 1⟩
    else encodeErrorFrom? accepts (position + 1) rest

/-- The bytes of a symbol; a half has none. -/
def bytesOf : Symbol → List UInt8
  | .char c => (String.singleton c).toUTF8.toList
  | .half _ => []

def encode (text : Text) : Except EncodeError (List UInt8) :=
  match encodeErrorFrom? (fun _ => false) 0 text with
  | some error => .error error
  | none => .ok (text.flatMap bytesOf)

/-- Whether a half stands for a single byte in the name of a file. -/
def isByteHalf (half : Nat) : Bool :=
  0xDC80 ≤ half && half < 0xDD00

/-- Why a text has no bytes as the name of a file. -/
def nameError? (text : Text) : Option EncodeError :=
  encodeErrorFrom? isByteHalf 0 text

/-- The number of bytes of a text as the name of a file. -/
def nameSize (text : Text) : Nat :=
  text.foldl (fun size c => size + if c.isHalf then 1 else (bytesOf c).length) 0

end SuiteDocs.Text.Utf8
