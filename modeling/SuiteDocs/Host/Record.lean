import SuiteDocs.Json.Value
import SuiteDocs.Model

/-!
Annotations as a test host reports them while tests run.
-/

set_option autoImplicit false

namespace SuiteDocs

/-- A record of the host: an annotation, a mapping or an object that describes one, or any other
value, which describes none. -/
inductive HostRecord where
  | note (kind : Text) (description : Option Text)
  | mapping (fields : List (Text × Json))
  | object (attributes : List (Text × Json))
  | other (value : Json)

namespace HostRecord

/-- A record that is no annotation, by its text. -/
structure Error where
  shown : Text
  deriving DecidableEq, Repr

def Error.message (error : Error) : Text :=
  "Unsupported runtime annotation record: " ++ error.shown

/-- A reported annotation, which may lack a description. -/
structure Reported where
  kind : Text
  description : Option Text
  deriving DecidableEq, Repr

/-- The text of a description; `null` is none. -/
def descriptionText? : Json → Option Text
  | .null => none
  | value => some value.text

def value? (fields : List (Text × Json)) (name : Text) : Option Json :=
  (fields.find? (·.1 == name)).map (·.2)

/-- The text of an object that is no annotation. Attributes without a name are left out. -/
def shownObject (attributes : List (Text × Json)) : Text :=
  let named := attributes.filter (!·.1.isEmpty)
  let shown : List Text := named.map fun (name, value) => name ++ "=" ++ value.shown
  "namespace(" ++ List.intercalate ", " shown ++ ")"

/-- The annotation that a record reports. A mapping without a kind has the empty one; an object has
to have one. -/
def reported : HostRecord → Except Error Reported
  | .note kind description => .ok ⟨kind, description⟩
  | .mapping fields =>
    .ok ⟨((value? fields "type").map Json.text).getD "",
      (value? fields "description").bind descriptionText?⟩
  | .object attributes =>
    match value? attributes "type" with
    | some kind => .ok ⟨kind.text, (value? attributes "description").bind descriptionText?⟩
    | none => .error ⟨shownObject attributes⟩
  | .other value => .error ⟨value.shown⟩

/-- The annotations with a description that records report, in order. -/
def described (records : List HostRecord) : Except Error (List Annotation) := do
  let reported ← records.mapM reported
  return reported.filterMap fun report => report.description.map (⟨report.kind, ·⟩)

end HostRecord

/-- The annotations of a test after a report: the described ones, or those it had if there are
none; and whether they were exchanged. -/
def TestCase.merge (annotations : List Annotation) (records : List HostRecord) :
    Except HostRecord.Error (List Annotation × Bool) := do
  let described ← HostRecord.described records
  return if described.isEmpty then (annotations, false) else (described, true)

end SuiteDocs
