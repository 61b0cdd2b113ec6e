import SuiteDocs.FileTree.Basic
import SuiteDocs.Host.Record
import SuiteDocs.Host.Suite
import SuiteDocs.Json.Reader

/-!
Results of a test run, as the test host writes them to a file when the run is over.

A file holds a tree of suites with specs, and for each spec the tests that were run of it. From it
come the tree of suites that the host discovered and one outcome for each test, in the order of the
file.
-/

set_option autoImplicit false

namespace SuiteDocs

open SuiteDocs.Text

/-- A spec of the results: a test of the sources, and what each run of it reported. -/
structure ResultSpec where
  title : Text
  file : Text
  reports : List (List HostRecord)

/-- A suite of the results, with the suites in it. -/
inductive ResultSuite where
  | node (title : Text) (file : Option Text) (specs : List ResultSpec)
      (suites : List ResultSuite)

/-- The end of one test: which it was and what it reported. -/
structure Outcome where
  file : Text
  title : Text
  records : List HostRecord

/-- The results of a run whose files are seen from a root. -/
structure Results where
  root : Path
  suites : List HostSuite
  outcomes : List Outcome

/-! ## Reading the tree -/

namespace ResultSpec

def nonEmpty? (value : Option Json) : Option Text :=
  (value.bind Json.string?).filter (!·.isEmpty)

/-- The items of a field that is an array. -/
def itemsOf (value : Json) (name : Text) : List Json :=
  ((value.field? name).map Json.items).getD []

/-- The annotation that an object reports. -/
def record? (item : Json) : Option HostRecord :=
  if item.isObject then
    some (.note (((item.field? "type").map Json.text).getD "")
      ((item.field? "description").bind HostRecord.descriptionText?))
  else none

/-- What a test reported: the annotations of its last result that has some, or else its own. -/
def report (test : Json) : List HostRecord :=
  let results := (itemsOf test "results").reverse
  let source := results.findSome? fun result =>
    (result.field? "annotations").filter Json.isArray
  let items := match source with
    | some annotations => annotations.items
    | none => itemsOf test "annotations"
  items.filterMap record?

/-- The spec that an object describes, with the file of its suite unless it has one of its own. It
needs a title and a file. -/
def ofJson? (file : Option Text) (value : Json) : Option ResultSpec := do
  let title ← nonEmpty? (value.field? "title")
  let file ← (nonEmpty? (value.field? "file")).or file
  return { title, file, reports := ((itemsOf value "tests").filter Json.isObject).map report }

end ResultSpec

namespace ResultSuite

mutual

/-- The suite that an object describes, with the file of the suite around it unless it has one of
its own. -/
def ofJson? (around : Option Text) : Json → Option ResultSuite
  | .object fields =>
    let value := Json.object fields
    let file := (ResultSpec.nonEmpty? (value.field? "file")).or around
    some (.node (((value.field? "title").bind Json.string?).getD "") file
      ((ResultSpec.itemsOf value "specs").filterMap (ResultSpec.ofJson? file))
      (suitesAmong file fields))
  | _ => none

/-- The suites in the field that holds them. -/
def suitesAmong (file : Option Text) : List (Text × Json) → List ResultSuite
  | [] => []
  | (name, value) :: fields =>
    if name == "suites" then
      match value with
      | .array items => ofItems file items
      | _ => []
    else suitesAmong file fields

/-- The suites that the items of an array describe. -/
def ofItems (around : Option Text) : List Json → List ResultSuite
  | [] => []
  | item :: items => (ofJson? around item).toList ++ ofItems around items

end

mutual

/-- The suite as the host discovered it. -/
def toHost : ResultSuite → HostSuite
  | .node title file specs suites =>
    .node title file (specs.map fun spec => ⟨spec.title, spec.file⟩) (toHostAll suites) none none

/-- The suites as the host discovered them. -/
def toHostAll : List ResultSuite → List HostSuite
  | [] => []
  | suite :: suites => toHost suite :: toHostAll suites

end

mutual

/-- The outcomes of the specs of a suite, before those of the suites in it. -/
def outcomes : ResultSuite → List Outcome
  | .node _ _ specs suites =>
    specs.flatMap (fun spec => spec.reports.map (⟨spec.file, spec.title, ·⟩)) ++
      outcomesOfAll suites

def outcomesOfAll : List ResultSuite → List Outcome
  | [] => []
  | suite :: suites => outcomes suite ++ outcomesOfAll suites

end

end ResultSuite

/-! ## Loading a file -/

namespace Results

/-- Why results cannot be loaded. -/
inductive Error where
  /-- There is no file at the path. -/
  | missing (error : FileTree.Error)
  | unreadable (file : Text) (error : FileTree.ReadError)
  /-- The text of the file is no value, or its path none of a file. -/
  | malformed (file : Text)
  /-- The values in the file are nested too deeply. -/
  | tooDeep (inArray : Bool)
  /-- The path of the file has no bytes. -/
  | unnamed (file : Text) (error : Utf8.EncodeError)
  | noSuites (name : Text)
  /-- The root of the results is no place. -/
  | path (error : Path.Error)
  deriving DecidableEq, Repr

/-- The text of an error. What the reader has to say about a malformed text, which would follow behind a
colon, is left out. -/
def Error.message : Error → Text
  | .missing error => error.message
  | .unreadable file error => "Could not read results from " ++ file ++ ": " ++ error.message
  | .malformed file => "Could not read results from " ++ file
  | .tooDeep inArray =>
    let around : Text := if inArray then "array" else "object"
    "maximum recursion depth exceeded while decoding a JSON " ++ around ++ " from a unicode string"
  | .unnamed file error => "Could not read results from " ++ file ++ ": " ++ error.message
  | .noSuites name => name ++ " is not a Playwright JSON report (missing 'suites')"
  | .path error => error.message

/-- How deeply the values in a file may be nested. The reader opens one call for each value that it is
inside of, and of a thousand calls about fifteen are open when a file is loaded; the exact number depends
on the caller. -/
def maxDepth : Nat := 985

def readValue (tree : FileTree) (directory path : Path) : Except Error Json :=
  match path.check with
  | .error (.encoding error) => .error (.unnamed path.toText error)
  | .error _ => .error (.malformed path.toText)
  | .ok () =>
    match tree.readText directory path with
    | .error (.file error) =>
      if error.cause == .missing then .error (.missing error)
      else .error (.unreadable path.toText (.file error))
    | .error error => .error (.unreadable path.toText error)
    | .ok text =>
      match Json.parse maxDepth text with
      | .ok value => .ok value
      | .error (.tooDeep inArray) => .error (.tooDeep inArray)
      | .error _ => .error (.malformed path.toText)

/-- The root that results name. -/
def namedRoot? (value : Json) : Option Text :=
  ResultSpec.nonEmpty? ((value.field? "config").bind (·.field? "rootDir"))

/-- The results at a path. The root is the given one, the one that the results name, or the
directory of the file. -/
def load (surroundings : Path.Surroundings) (tree : FileTree) (path : Path) (root : Option Path) :
    Except Error Results := do
  let directory := surroundings.workingDirectory
  let value ← readValue tree directory path
  match value.field? "suites" with
  | some (.array items) =>
    let root := (root.or ((namedRoot? value).map Path.ofText)).getD path.parent
    let suites := ResultSuite.ofItems none items
    let root ← (root.expandHome surroundings).mapError .path
    let root ← (Path.resolve directory root).mapError .path
    return { root
             suites := ResultSuite.toHostAll suites
             outcomes := ResultSuite.outcomesOfAll suites }
  | _ => throw (.noSuites path.name)

end Results

end SuiteDocs
