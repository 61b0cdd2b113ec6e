import SuiteDocs.Text.Lower
import SuiteDocs.Text.Quoted
import SuiteDocs.Text.Strip

/-!
Hosts of addresses.

A host that looks like a number has to be four octets, one in brackets eight groups of hexadecimal
digits, and any other a name.
-/

set_option autoImplicit false

namespace SuiteDocs.Service.Host

open SuiteDocs.Text

/-- Why a text is no host. -/
inductive Error where
  | notOctets (host : Text)
  | notGroups (host : Text)
  | notName (host : Text)
  deriving DecidableEq, Repr

def Error.message : Error → Text
  | .notOctets host => "Invalid IPv4 address: " ++ quoted host
  | .notGroups host => "Invalid IPv6 address: " ++ quoted host
  | .notName host => "Invalid IDNA hostname: " ++ quoted host

/-! ## Octets -/

/-- The lengths of the runs of digits between the other characters of a text. -/
def digitRuns : Text → List Nat
  | [] => [0]
  | c :: rest =>
    match digitRuns rest with
    | [] => [0]
    | length :: lengths => if c.isDigit then (length + 1) :: lengths else 0 :: length :: lengths

/-- Whether a text is four runs of digits with one character of any kind between each two of them.
A run of digits holds one separator for every two digits behind its first. -/
def looksNumeric (host : Text) : Bool :=
  let runs := digitRuns host
  let separators := runs.foldl (fun count length => count + (length - 1) / 2) (runs.length - 1)
  runs.length ≤ 4 && runs.all (0 < ·) && 3 ≤ separators

/-- Whether a text is a number below 256 without leading zeros. -/
def isOctet (text : Text) : Bool :=
  !text.isEmpty && text.length ≤ 3 && text.all Symbol.isDigit &&
    (text.length == 1 || text.head? != some '0') &&
    text.foldl (fun value c => value * 10 + (c.code - '0'.toNat)) 0 < 256

/-- Whether a text is four octets. -/
def isQuad (host : Text) : Bool :=
  let octets := splitOn '.' host
  octets.length == 4 && octets.all isOctet

/-! ## Groups -/

/-- Whether a text is a group of hexadecimal digits. -/
def isGroup (text : Text) : Bool :=
  !text.isEmpty && text.length ≤ 4 &&
    text.all fun c => c.isDigit || ('a' ≤ c && c ≤ 'f') || ('A' ≤ c && c ≤ 'F')

/-- Whether the groups on one side of a gap are groups. A side that is open towards the end of the
address is empty altogether. -/
def isSide (groups : List Text) (outermost : Option Text) : Bool :=
  if outermost.any List.isEmpty then groups.length == 1 else groups.all isGroup

/-- Whether eight groups, or fewer with one gap, make an address. -/
def areGroups (groups : List Text) : Bool :=
  let inner := (groups.drop 1).dropLast
  match inner.findIdx? List.isEmpty with
  | none => groups.length == 8 && groups.all isGroup
  | some index =>
    let before := groups.take (index + 1)
    let behind := groups.drop (index + 2)
    let given := (before ++ behind).filter (!·.isEmpty)
    isSide before before.head? && isSide behind behind.getLast? && given.length < 8

/-- The groups of an address. Four octets at its end stand for two groups. -/
def groupsOf (text : Text) : Option (List Text) :=
  let groups := splitOn ':' text
  match groups.getLast? with
  | none => none
  | some last =>
    if groups.length < 3 then none
    else if last.contains '.' then
      if isQuad last then some (groups.dropLast ++ (["0", "0"] : List Text)) else none
    else some groups

/-- Whether a text is an address of groups, perhaps with the name of a zone. -/
def isGrouped (text : Text) : Bool :=
  let address := text.takeWhile (· != .char '%')
  let zone := text.drop (address.length + 1)
  let zoned := address.length < text.length
  (!zoned || (!zone.isEmpty && !zone.contains '%')) && (groupsOf address).any areGroups

/-! ## Names -/

/-- The dots of all scripts. -/
def isDot (c : Symbol) : Bool :=
  c == '.' || c == '。' || c == '．' || c == '｡'

/-- Whether a character may stand in a name. -/
def isNameChar (c : Symbol) : Bool :=
  if c.code < 128 then c.isAlphanum || c == '-'
  else isLetter c || isDecimal c || isUncasedMark c

/-- Whether a text is one label of a name. -/
def isLabel (label : Text) : Bool :=
  !label.isEmpty && label.all isNameChar && label.head? != some '-' &&
    label.getLast? != some '-' && (label.drop 2).take 2 != "--"

/-- Whether a text that is not all ASCII is a name. -/
def isName (host : Text) : Bool :=
  let labels := splitOn '.' ((lower host).map fun c => if isDot c then '.' else c)
  let labels := if labels.getLast?.any List.isEmpty then labels.dropLast else labels
  labels.all isLabel

/-! ## Hosts -/

def isBracketed (host : Text) : Bool :=
  2 ≤ host.length && host.head? == some '[' && host.getLast? == some ']'

def check (host : Text) : Except Error Unit :=
  if looksNumeric host then if isQuad host then .ok () else .error (.notOctets host)
  else if isBracketed host then
    if isGrouped (host.drop 1).dropLast then .ok () else .error (.notGroups host)
  else if host.all (·.code < 128) || isName host then .ok ()
  else .error (.notName host)

end SuiteDocs.Service.Host
