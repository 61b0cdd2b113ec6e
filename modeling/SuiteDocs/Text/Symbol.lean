/-!
Texts and the symbols that they are made of.

An escape by number may name one half of a pair of code units. Alone it is no character, but a text
can hold it: it counts as one symbol, has a number, and is in no class of characters.
-/

set_option autoImplicit false

namespace SuiteDocs

/-- A symbol of a text: a character, or half of a pair that stands alone. -/
inductive Symbol where
  | char (c : Char)
  | half (index : Fin 2048)
  deriving DecidableEq, Repr

abbrev Text := List Symbol

namespace Symbol

instance : Coe Char Symbol := ⟨.char⟩

instance : Inhabited Symbol := ⟨.char ' '⟩

/-- The number of the first half. -/
def firstHalf : Nat := 0xD800

/-- The number of a symbol. -/
def code : Symbol → Nat
  | .char c => c.toNat
  | .half index => firstHalf + index.val

/-- The symbol with a number. -/
def ofCode (code : Nat) : Symbol :=
  if bound : code - firstHalf < 2048 then
    if firstHalf ≤ code then .half ⟨code - firstHalf, bound⟩ else .char (Char.ofNat code)
  else .char (Char.ofNat code)

instance : LE Symbol := ⟨fun a b => a.code ≤ b.code⟩

instance (a b : Symbol) : Decidable (a ≤ b) :=
  inferInstanceAs (Decidable (a.code ≤ b.code))

/-- Whether a symbol is half of a pair. -/
def isHalf : Symbol → Bool
  | .char _ => false
  | .half _ => true

def isDigit : Symbol → Bool
  | .char c => c.isDigit
  | .half _ => false

def isAlpha : Symbol → Bool
  | .char c => c.isAlpha
  | .half _ => false

def isAlphanum : Symbol → Bool
  | .char c => c.isAlphanum
  | .half _ => false

/-- The small letter of an ASCII capital, and any other symbol itself. -/
def toLower : Symbol → Symbol
  | .char c => .char c.toLower
  | .half index => .half index

/-- The capital of a small ASCII letter, and any other symbol itself. -/
def toUpper : Symbol → Symbol
  | .char c => .char c.toUpper
  | .half index => .half index

end Symbol

namespace Text

def ofString (string : String) : Text :=
  string.toList.map .char

instance : Coe String Text := ⟨ofString⟩

/-- The string in which a text is shown. Halves are shown as a mark in their place. -/
def shown (text : Text) : String :=
  String.ofList (text.map fun
    | .char c => c
    | .half _ => '\ufffd')

def ofNat (n : Nat) : Text :=
  (Nat.toDigits 10 n).map .char

def ofInt : Int → Text
  | .ofNat n => ofNat n
  | .negSucc n => '-' :: ofNat (n + 1)

/-- Whether a text comes before another or is equal to it, in the order of the numbers of their
symbols. -/
def le : Text → Text → Bool
  | [], _ => true
  | _ :: _, [] => false
  | a :: as, b :: bs => if a == b then le as bs else decide (a ≤ b)

end Text

end SuiteDocs
