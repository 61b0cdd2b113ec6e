import SuiteDocs.Text.Symbol

/-!
Bytes that are written with sixty-four letters, three bytes in four letters.

Characters that are no letters are passed over. Equals signs fill the last group; behind a filled
group nothing is read.
-/

set_option autoImplicit false

namespace SuiteDocs.Text.Base64

/-- The six bits that a letter stands for. -/
def bits? (c : Symbol) : Option Nat :=
  if 'A' ≤ c && c ≤ 'Z' then some (c.code - 'A'.toNat)
  else if 'a' ≤ c && c ≤ 'z' then some (c.code - 'a'.toNat + 26)
  else if '0' ≤ c && c ≤ '9' then some (c.code - '0'.toNat + 52)
  else if c == '+' then some 62
  else if c == '/' then some 63
  else none

/-- The byte that a letter completes, given its place in the group and the bits left from the
letter before it; and the bits that it leaves. -/
def completed (place left bits : Nat) : Option UInt8 × Nat :=
  match place with
  | 0 => (none, bits)
  | 1 => (some (UInt8.ofNat (left * 4 + bits / 16)), bits % 16)
  | 2 => (some (UInt8.ofNat (left * 16 + bits / 4)), bits % 4)
  | _ => (some (UInt8.ofNat (left * 64 + bits)), 0)

/-- The bytes of a text, inside a group: the number of its letters so far, the bits left from the
last one, and the number of equals signs behind it. A text that ends inside a group is refused. -/
def decodeFrom (place left signs : Nat) : Text → Option (List UInt8)
  | [] => if place == 0 then some [] else none
  | c :: rest =>
    if c == '=' then
      if place < 2 then decodeFrom place left signs rest
      else if 4 ≤ place + signs + 1 then some []
      else decodeFrom place left (signs + 1) rest
    else match bits? c with
      | none => decodeFrom place left signs rest
      | some bits =>
        let (byte, left) := completed place left bits
        (decodeFrom ((place + 1) % 4) left 0 rest).map (byte.toList ++ ·)

def decode (text : Text) : Option (List UInt8) :=
  decodeFrom 0 0 0 text

end SuiteDocs.Text.Base64
