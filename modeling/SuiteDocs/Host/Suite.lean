import SuiteDocs.Text.Symbol

/-!
The tree of suites and tests that a test host discovers.
-/

set_option autoImplicit false

namespace SuiteDocs

/-- A test that the host discovered. -/
structure HostTest where
  title : Text
  file : Text
  deriving DecidableEq, Repr

/-- A suite that the host discovered, with the suites in it. -/
inductive HostSuite where
  | node (title : Text) (file : Option Text) (tests : List HostTest)
      (suites : List HostSuite) (tag description : Option Text)

namespace HostSuite

def title : HostSuite → Text
  | .node title _ _ _ _ _ => title

/-- The file of a suite; an empty name is none. -/
def file? : HostSuite → Option Text
  | .node _ file _ _ _ _ => file.filter (!·.isEmpty)

/-- The tests of a suite itself. -/
def tests : HostSuite → List HostTest
  | .node _ _ tests _ _ _ => tests

/-- The tag that the host gives; an empty one is none. -/
def tag? : HostSuite → Option Text
  | .node _ _ _ _ tag _ => tag.filter (!·.isEmpty)

/-- The description that the host gives; an empty one is none. -/
def description? : HostSuite → Option Text
  | .node _ _ _ _ _ description => description.filter (!·.isEmpty)

mutual

/-- A suite followed by all suites in it, each before those in it. -/
def preorder : HostSuite → List HostSuite
  | .node title file tests suites tag description =>
    .node title file tests suites tag description :: preorderAll suites

/-- All suites of a list of trees, each before those in it. -/
def preorderAll : List HostSuite → List HostSuite
  | [] => []
  | suite :: rest => preorder suite ++ preorderAll rest

end

end HostSuite

end SuiteDocs
