import SuiteDocs.OrderedMap
import SuiteDocs.Text.Symbol

/-!
What is documented: suites of tests with their annotations.
-/

set_option autoImplicit false

namespace SuiteDocs

/-- A note on a test: what kind of note it is, and its text. -/
structure Annotation where
  kind : Text
  description : Text
  deriving DecidableEq, Repr

/-- A test and its annotations in order. -/
structure TestCase where
  title : Text
  annotations : List Annotation
  deriving DecidableEq, Repr

/-- The documentation of one source file. -/
structure Suite where
  name : Text
  filePath : Text
  tag : Text
  description : Text
  tests : List TestCase
  deriving DecidableEq, Repr

def Suite.findTest? (suite : Suite) (title : Text) : Option TestCase :=
  suite.tests.find? (·.title == title)

/-- Changes the first test with a title in a list of tests. -/
def TestCase.adjustFirst (title : Text) (change : TestCase → TestCase) :
    List TestCase → List TestCase
  | [] => []
  | test :: rest =>
    if test.title == title then change test :: rest
    else test :: TestCase.adjustFirst title change rest

/-- Changes the annotations of the first test with a title. -/
def Suite.annotate (suite : Suite) (title : Text) (annotations : List Annotation) : Suite :=
  { suite with
    tests := TestCase.adjustFirst title (fun test => { test with annotations }) suite.tests }

/-- The suites of a project by the paths of their files, in the order in which they were added. -/
abbrev Model := OrderedMap Text Suite

namespace Model

/-- Adds a suite, in place of the one for the same file if there is one. -/
def add (model : Model) (suite : Suite) : Model :=
  model.insert suite.filePath suite

def suites (model : Model) : List Suite :=
  model.values

def testCount (model : Model) : Nat :=
  model.suites.foldr (fun suite count => suite.tests.length + count) 0

end Model

end SuiteDocs
