import SuiteDocs.Text.Symbol

/-!
Texts in units of two or four bytes.

Two halves of a pair make one character, and a half that stands alone is kept.
-/

set_option autoImplicit false

namespace SuiteDocs.Text.Wide

/-- The order of the bytes of a unit. -/
inductive Order where
  | bigEndian
  | littleEndian
  deriving DecidableEq, Repr

/-- The number that the bytes of a unit spell. -/
def unitOf (order : Order) (bytes : List UInt8) : Nat :=
  let bytes := match order with
    | .bigEndian => bytes
    | .littleEndian => bytes.reverse
  bytes.foldl (fun unit byte => unit * 256 + byte.toNat) 0

/-- The units of two bytes. No byte may be left over. -/
def pairs? (order : Order) : List UInt8 → Option (List Nat)
  | [] => some []
  | a :: b :: rest => (pairs? order rest).map (unitOf order [a, b] :: ·)
  | _ => none

/-- The units of four bytes. No byte may be left over. -/
def quads? (order : Order) : List UInt8 → Option (List Nat)
  | [] => some []
  | a :: b :: c :: d :: rest => (quads? order rest).map (unitOf order [a, b, c, d] :: ·)
  | _ => none

/-- Whether a unit is the first half of a pair. -/
def isHigh (unit : Nat) : Bool :=
  0xD800 ≤ unit && unit < 0xDC00

/-- Whether a unit is the second half of a pair. -/
def isLow (unit : Nat) : Bool :=
  0xDC00 ≤ unit && unit < 0xE000

/-- The characters of units of two bytes. -/
def joinHalves : List Nat → Text
  | [] => []
  | [unit] => [Symbol.ofCode unit]
  | high :: low :: rest =>
    if isHigh high && isLow low then
      Symbol.ofCode (0x10000 + (high - 0xD800) * 0x400 + (low - 0xDC00)) :: joinHalves rest
    else Symbol.ofCode high :: joinHalves (low :: rest)

/-- The text of bytes in units of two. -/
def decodePairs (order : Order) (bytes : List UInt8) : Option Text :=
  (pairs? order bytes).map joinHalves

/-- The text of bytes in units of four, none of which may lie beyond the last character. -/
def decodeQuads (order : Order) (bytes : List UInt8) : Option Text := do
  let units ← quads? order bytes
  if units.all (· < 0x110000) then some (units.map Symbol.ofCode) else none

end SuiteDocs.Text.Wide
