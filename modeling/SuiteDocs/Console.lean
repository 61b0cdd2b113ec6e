import SuiteDocs.Log
import SuiteDocs.Moment
import SuiteDocs.Text.Utf8

/-!
Log records as lines of text, on the console and in log files.
-/

set_option autoImplicit false

namespace SuiteDocs.Console

def program : Text := "annodoc"

def fullName (component : Text) : Text :=
  if component.isEmpty then program else program ++ "." ++ component

/-- The names under which the parent of a name is looked for, the nearest first; the name is given
backwards. They are what stands before its dots, except that the character before a dot is passed
over in the search for the next one. -/
def parentNames : Text → List Text
  | [] => []
  | [.char '.'] => []
  | .char '.' :: c :: rest => (c :: rest).reverse :: parentNames rest
  | _ :: rest => parentNames rest

/-- Whether a name lies below the program's own one, going from each name to the nearest parent
that is known, at most `fuel` times. -/
def isBelow (known : List Text) : Nat → Text → Bool
  | 0, _ => false
  | fuel + 1, name =>
    name == program ||
      match (parentNames name.reverse).find? known.contains with
      | some parent => isBelow known fuel parent
      | none => false

/-- Whether the console is handed the records of a component, given the components that logged
before. -/
def receives (earlier : List Text) (component : Text) : Bool :=
  let name := fullName component
  isBelow (program :: earlier.map fullName) (name.length + 1) name

/-- The records that come to the console, and those that do not, both in order. -/
def sort (earlier : List Text) : List LogRecord → List LogRecord × List LogRecord
  | [] => ([], [])
  | record :: rest =>
    let (received, missed) := sort (record.component :: earlier) rest
    if receives earlier record.component then (record :: received, missed)
    else (received, record :: missed)

/-- Whether the console shows records of a level. -/
def shows (verbose : Bool) (level : Level) : Bool :=
  (if verbose then Level.debug else Level.info).rank ≤ level.rank

/-- The origin of a record in brackets. A verbose console names the component too. -/
def origin (verbose : Bool) (component : Text) : Text :=
  if verbose && !component.isEmpty then "[" ++ program ++ ":" ++ component ++ "]"
  else "[" ++ program ++ "]"

/-- The line of a record on the console. -/
def line (verbose : Bool) (record : LogRecord) : Text :=
  origin verbose record.component ++ " " ++ record.level.name ++ " " ++ record.message ++ "\n"

def text (verbose : Bool) (records : List LogRecord) : Text :=
  (records.filter fun record => shows verbose record.level).flatMap (line verbose)

/-- The date and time with which a line of a log file starts. -/
def stamp (moment : Moment) : Text :=
  let digits (width : Nat) (n : Int) := Moment.padded width n.toNat
  let date := [digits 4 moment.year, digits 2 moment.month, digits 2 moment.day]
  let time := [digits 2 moment.hour, digits 2 moment.minute, digits 2 moment.second]
  List.intercalate "-" date ++ " " ++ List.intercalate ":" time ++ "," ++
    digits 3 (moment.microsecond / 1000)

/-- The line of a record in a log file, where every level is kept. -/
def fileLine (stamp : Text) (record : LogRecord) : Text :=
  stamp ++ " " ++ record.level.name ++ " " ++ fullName record.component ++ ": " ++
    record.message ++ "\n"

/-- The bytes that records add to a log file. A line that has no bytes is left out. -/
def fileBytes (stamp : Text) (records : List LogRecord) : List UInt8 :=
  records.flatMap fun record =>
    match Text.Utf8.encode (fileLine stamp record) with
    | .ok bytes => bytes
    | .error _ => []

end SuiteDocs.Console
