import SuiteDocs.Json.Bytes
import SuiteDocs.Json.Reader
import SuiteDocs.Json.Writer
import SuiteDocs.Project.Generate
import SuiteDocs.Project.Report

/-!
What the service is asked to do, read from the bodies of requests.

A body is checked field by field, and all that is wrong with it is reported at once. Fields that
are not known are passed over.
-/

set_option autoImplicit false

namespace SuiteDocs.Service

/-- What may be wrong with a part of a body. -/
inductive Complaint where
  | notJson
  | notObject
  | missing
  | notString
  | notList
  | notBool
  /-- A text or a number that stands for no truth value. -/
  | noBool
  /-- A text that holds halves of pairs. -/
  | notUnicode
  deriving DecidableEq, Repr

def Complaint.name : Complaint → Text
  | .notJson => "json_invalid"
  | .notObject => "model_attributes_type"
  | .missing => "missing"
  | .notString => "string_type"
  | .notList => "list_type"
  | .notBool => "bool_type"
  | .noBool => "bool_parsing"
  | .notUnicode => "string_unicode"

def Complaint.message : Complaint → Text
  | .notJson => "JSON decode error"
  | .notObject => "Input should be a valid dictionary or object to extract fields from"
  | .missing => "Field required"
  | .notString => "Input should be a valid string"
  | .notList => "Input should be a valid list"
  | .notBool => "Input should be a valid boolean"
  | .noBool => "Input should be a valid boolean, unable to interpret input"
  | .notUnicode =>
    "Input should be a valid string, unable to parse raw data as a unicode string"

/-- A step on the way to a place in a body. -/
inductive Step where
  | named (name : Text)
  | numbered (index : Nat)
  deriving DecidableEq, Repr

/-- A place in a request, by the steps that lead there. -/
abbrev Place := List Step

def bodyPlace : Place := [.named "body"]

/-- The place of a field of the body. -/
def fieldPlace (name : Text) : Place := bodyPlace ++ [.named name]

/-- A complaint about a place in a body, and the value that it is about. -/
structure Violation where
  place : Place
  complaint : Complaint
  input : Json

/-- A checked value, or all that is wrong with it. -/
abbrev Checked := Except (List Violation)

def violationsOf {α : Type} : Checked α → List Violation
  | .ok _ => []
  | .error violations => violations

def complain {α : Type} (place : Place) (complaint : Complaint) (input : Json) : Checked α :=
  .error [⟨place, complaint, input⟩]

def checkText (place : Place) : Json → Checked Text
  | .string text => .ok text
  | value => complain place .notString value

def requiredText (body : Json) (name : Text) : Checked Text :=
  match body.field? name with
  | none => complain (fieldPlace name) .missing body
  | some value => checkText (fieldPlace name) value

def optionalText (body : Json) (name : Text) : Checked (Option Text) :=
  match body.field? name with
  | none => .ok none
  | some .null => .ok none
  | some value => (checkText (fieldPlace name) value).map some

/-- The texts of a list, each checked on its own. -/
def checkTexts (place : Place) (index : Nat) : List Json → Checked (List Text)
  | [] => .ok []
  | item :: items =>
    let first := checkText (place ++ [.numbered index]) item
    let rest := checkTexts place (index + 1) items
    match first, rest with
    | .ok text, .ok texts => .ok (text :: texts)
    | _, _ => .error (violationsOf first ++ violationsOf rest)

/-- A list of texts that may be left out. -/
def optionalTexts (body : Json) (name : Text) : Checked (List Text) :=
  match body.field? name with
  | none => .ok []
  | some .null => .ok []
  | some (.array items) => checkTexts (fieldPlace name) 0 items
  | some value => complain (fieldPlace name) .notList value

/-- The truth value that a text stands for. -/
def boolOfText? (text : Text) : Option Bool :=
  let word := text.map Symbol.toLower
  if (["0", "off", "f", "false", "n", "no"] : List Text).contains word then some false
  else if (["1", "on", "t", "true", "y", "yes"] : List Text).contains word then some true
  else none

/-- The least number that does not fit into 64 bits with a sign. -/
def wordBound : Nat := Nat.pow 2 63

/-- The truth value that a whole number stands for. -/
def boolOfWhole (value : Int) : Except Complaint Bool :=
  if value == 0 then .ok false
  else if value == 1 then .ok true
  else if -(wordBound : Int) ≤ value && value < wordBound then .error .noBool
  else .error .notBool

/-- The whole number that a number is, if it is one between the given bounds. -/
def wholeWithin? (bound : Nat) : Binary64 → Option Int
  | .finite negative mantissa exponent =>
    let (numerator, denominator) := Binary64.magnitude mantissa exponent
    let value : Int := numerator / denominator
    if numerator % denominator == 0 && numerator / denominator < bound then
      some (if negative then -value else value)
    else none
  | _ => none

/-- The truth value that a value is or stands for. A number that does not fit into 64 bits is not
even a wrong one. -/
def boolOf : Json → Except Complaint Bool
  | .bool value => .ok value
  | .string text =>
    if text.any Symbol.isHalf then .error .notUnicode
    else match boolOfText? text with
      | some value => .ok value
      | none => .error .noBool
  | .int value => boolOfWhole value
  | .number value =>
    match wholeWithin? wordBound value with
    | some value => boolOfWhole value
    | none => .error .notBool
  | _ => .error .notBool

/-- A truth value that is false if it is left out. -/
def optionalBool (body : Json) (name : Text) : Checked Bool :=
  match body.field? name with
  | none => .ok false
  | some value =>
    match boolOf value with
    | .ok answer => .ok answer
    | .error complaint => complain (fieldPlace name) complaint value

/-! ## Bodies -/

/-- What a client sends along with a request. -/
inductive Content where
  | none
  | text (sent : Text)
  | value (sent : Json)

/-- The bytes that a client sends. A value that is `null` is not sent. -/
def Content.bytes : Content → Except Json.WriteError (List UInt8)
  | .none => .ok []
  | .text sent => (Text.Utf8.encode sent).mapError .encoding
  | .value .null => .ok []
  | .value sent => sent.write

inductive Body where
  | absent
  /-- The bytes are no text, or the value is beyond the limits. -/
  | unreadable
  /-- The text spells no value, as it turns out at a position. -/
  | malformed (position : Nat)
  | value (value : Json)

/-- How deeply the values in a body may be nested. The reader opens one call for each value that it is
inside of, and of a thousand calls about fifty are open when the service reads a body; the exact number
depends on the caller. -/
def maxDepth : Nat := 950

def Body.ofText (text : Text) : Body :=
  match Json.parse maxDepth text with
  | .ok read => .value read
  | .error (.malformed left) => .malformed (text.length - left)
  | .error _ => .unreadable

def Body.ofBytes (bytes : List UInt8) : Body :=
  if bytes.isEmpty then .absent
  else match Json.textOfBytes bytes with
    | some text => .ofText text
    | none => .unreadable

/-- The object that a value has to be. -/
def checkObject : Json → Checked Json
  | .object fields => .ok (.object fields)
  | value => complain bodyPlace .notObject value

/-! ## Requests -/

def generateRequest (body : Json) : Checked Project.GenerateRequest := do
  let body ← checkObject body
  let path := requiredText body "path"
  let outputDirectory := optionalText body "output_dir"
  let patterns := optionalTexts body "patterns"
  let dryRun := optionalBool body "dry_run"
  match path, outputDirectory, patterns, dryRun with
  | .ok path, .ok outputDirectory, .ok patterns, .ok dryRun =>
    return { path, destination := .ofOption outputDirectory, patterns, broken := false, dryRun }
  | _, _, _, _ =>
    throw (violationsOf path ++ violationsOf outputDirectory ++ violationsOf patterns ++
      violationsOf dryRun)

def reportRequest (body : Json) : Checked Project.ReportRequest := do
  let body ← checkObject body
  let results := requiredText body "results_path"
  let root := optionalText body "root"
  let outputDirectory := optionalText body "output_dir"
  let dryRun := optionalBool body "dry_run"
  match results, root, outputDirectory, dryRun with
  | .ok results, .ok root, .ok outputDirectory, .ok dryRun =>
    return { results, root, destination := .ofOption outputDirectory, dryRun }
  | _, _, _, _ =>
    throw (violationsOf results ++ violationsOf root ++ violationsOf outputDirectory ++
      violationsOf dryRun)

end SuiteDocs.Service
