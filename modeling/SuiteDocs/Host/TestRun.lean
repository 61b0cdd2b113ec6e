import SuiteDocs.Host.Hierarchy
import SuiteDocs.Host.Record
import SuiteDocs.Publication

/-!
Documenting a test run as it goes: the host announces its suites, reports each test as it ends, and
the documents are published when the run is over.
-/

set_option autoImplicit false

namespace SuiteDocs

open SuiteDocs.Text

/-- The state of a documented test run. Tests start with the annotations of their sources, kept by
file and title; of tests with the same title in one file those of the last are kept. -/
structure TestRun where
  root : Path
  calls : Calls
  model : Model
  baselines : OrderedMap (Text × Text) (List Annotation)

namespace TestRun

def component : Text := "reporter"

/-- A run that has not begun. -/
def idle (root : Path) (calls : Calls) : TestRun :=
  ⟨root, calls, OrderedMap.empty, OrderedMap.empty⟩

/-- The annotations of all tests of a model by file and title. -/
def baselinesOf (model : Model) : OrderedMap (Text × Text) (List Annotation) :=
  OrderedMap.ofList (model.suites.flatMap fun suite =>
    suite.tests.map fun test => ((suite.filePath, test.title), test.annotations))

/-- The host announces its suites. -/
def start (run : TestRun) (tree : FileTree) (nodes : List HostSuite) :
    LoggedExcept Hierarchy.Error TestRun := do
  let model ← Hierarchy.model tree run.calls run.root nodes
  Logged.info component
    ("Collected " ++ Text.ofNat model.suites.length ++ " suites with " ++
      Text.ofNat model.testCount ++ " tests")
  return { run with model, baselines := baselinesOf model }

/-- Why a report on a test is refused. -/
inductive Error where
  | path (error : Path.Error)
  | record (error : HostRecord.Error)
  deriving DecidableEq, Repr

def Error.message : Error → Text
  | .path error => error.message
  | .record error => error.message

/-- The run with other annotations for a test. -/
def annotate (run : TestRun) (key title : Text) (annotations : List Annotation) : TestRun :=
  { run with model := run.model.adjust key (·.annotate title annotations) }

/-- The host reports the end of a test: the described annotations of the last report on a test
stand, or those of its source if the report describes none. The answer is whether they were
exchanged. When a record is refused the test goes back to the annotations of its source. -/
def testEnded (run : TestRun) (file title : Text) (records : List HostRecord) :
    Logged (TestRun × Except Error Bool) :=
  match Path.keyFrom run.root file with
  | .error error => pure (run, .error (.path error))
  | .ok key =>
    match (run.model.get? key).bind (·.findTest? title) with
    | none => do
      Logged.debug component ("No documented test " ++ quoted title ++ " in " ++ key)
      return (run, .ok false)
    | some _ =>
      let baseline := (run.baselines.get? (key, title)).getD []
      match TestCase.merge baseline records with
      | .error error => pure (run.annotate key title baseline, .error (.record error))
      | .ok (annotations, exchanged) => do
        let origin : Text := if exchanged then "runtime" else "static"
        Logged.debug component
          ("Test " ++ quoted title ++ ": " ++ origin ++ " annotations (" ++
            Text.ofNat annotations.length ++ ")")
        return (run.annotate key title annotations, .ok exchanged)

/-- The run is over: its documents are published. -/
def finish (run : TestRun) (settings : Publication.Settings) : Run Publication.Error Summary := do
  let summary ← Publication.publish settings run.model
  let count :=
    if settings.dryRun then summary.documents.entries.length else summary.written.length
  Logged.info component
    ("Documentation generated in '" ++ settings.outputDirectory.toText ++ "' (" ++
      Text.ofNat count ++ " files)")
  return summary

end TestRun

end SuiteDocs
