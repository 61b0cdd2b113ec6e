import SuiteDocs.Block.Basic
import SuiteDocs.Extraction
import SuiteDocs.SuiteOptions

/-!
Suites read from source texts alone.

A file documents one suite: its first declaration of a suite that can be read, with all tests
declared in the body of that suite.
-/

set_option autoImplicit false

namespace SuiteDocs

open SuiteDocs.Text SuiteDocs.Source

/-- The text of a source file, and the path under which it is documented. -/
structure SourceFile where
  path : Text
  text : Text
  deriving DecidableEq, Repr

/-- The names of the calls that declare suites and tests. -/
structure Calls where
  suites : List Text
  tests : List Text
  deriving DecidableEq, Repr

/-- The calls that count unless others are configured. -/
def Calls.default : Calls := ⟨defaultSuiteCalls, defaultTestCalls⟩

/-- Why a source file documents no suite. -/
inductive SourceFile.Error where
  | noSuite (path : Text)
  /-- A fault of the text, from which readers of files do not recover. -/
  | faulty (fault : Fault)
  deriving DecidableEq, Repr

def SourceFile.Error.message : SourceFile.Error → Text
  | .noSuite path => "no suite declaration found in " ++ path
  | .faulty fault => fault.message

namespace Suite

def component : Text := "builder"

/-- The annotations of a body, with faults passed on. -/
def annotationsOf (body : Text) (constants : Constants) (source : Text) :
    LoggedExcept SourceFile.Error (List Annotation) :=
  ExceptT.adapt .faulty (Extraction.annotations body constants (some source))

/-- The test that a declaring call documents. One whose declaration cannot be read is left out with a
warning. -/
def testOf (file : SourceFile) (constants : Constants) :
    CallSite × Except Block.Error Block → LoggedExcept SourceFile.Error (Option TestCase)
  | (_, .error (.faulty fault)) => throw (.faulty fault)
  | (site, .error error) => do
    Logged.warning component
      ("Skipping unparseable test in " ++ file.path ++ " at line " ++
        Text.ofNat (lineOf file.text site.start) ++ ": " ++ error.message)
    return none
  | (_, .ok block) => do
    let annotations ← annotationsOf block.body constants file.path
    Logged.debug component
      ("Found test " ++ quoted block.title ++ " with " ++ Text.ofNat annotations.length ++
        " annotations")
    return some ⟨block.title, annotations⟩

/-- The tests that a source declares from `cursor` up to the end `stop` of the body of a suite. -/
def testsFrom (calls : Calls) (file : SourceFile) (constants : Constants) (stop cursor : Nat) :
    LoggedExcept SourceFile.Error (List TestCase) := do
  let declared := Block.outermost file.text calls.tests cursor (some stop)
  return (← declared.mapM (testOf file constants)).filterMap id

/-- The titles in the order of their first use. -/
def distinctTitles (tests : List TestCase) : List Text :=
  (tests.map (·.title)).eraseDups

/-- Warns of every title that more than one test has. -/
def warnRepeatedTitles (suite : Suite) : Logged Unit :=
  (distinctTitles suite.tests).forM fun title =>
    let count := suite.tests.countP (·.title == title)
    if 1 < count then
      Logged.warning component
        ("Test title " ++ quoted title ++ " appears " ++ Text.ofNat count ++ " times in " ++
          suite.filePath ++ "; runtime annotations will only reach the first one")
    else pure ()

def ofSource (calls : Calls) (file : SourceFile) : LoggedExcept SourceFile.Error Suite := do
  match Block.first file.text calls.suites 0 none with
  | .error (.faulty fault) => throw (.faulty fault)
  | .error _ => throw (.noSuite file.path)
  | .ok block =>
    let options ← MonadExcept.ofExcept ((SuiteOptions.ofText block.options).mapError .faulty)
    let constants := Constants.ofText file.text
    let tests ← testsFrom calls file constants block.bodyStop (block.bodyStart + 1)
    let suite : Suite :=
      { name := block.title
        filePath := file.path
        tag := options.tag
        description := options.description
        tests }
    warnRepeatedTitles suite
    Logged.debug component
      ("Suite " ++ quoted suite.name ++ ": " ++ Text.ofNat suite.tests.length ++ " tests")
    return suite

end Suite

namespace Model

/-- Adds the suite of a source file. A file without one is left out with a warning. -/
def addSource (calls : Calls) (model : Model) (file : SourceFile) :
    LoggedExcept SourceFile.Error Model := do
  Logged.debug Suite.component ("Processing file: " ++ file.path)
  tryCatch (do return model.add (← Suite.ofSource calls file)) fun
    | .noSuite path => do
      let error : SourceFile.Error := .noSuite path
      Logged.warning Suite.component ("Skipping " ++ file.path ++ ": " ++ error.message)
      return model
    | error => throw error

def ofSources (calls : Calls) (files : List SourceFile) : LoggedExcept SourceFile.Error Model :=
  files.foldlM (addSource calls) OrderedMap.empty

end Model

end SuiteDocs
