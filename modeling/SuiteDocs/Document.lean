import SuiteDocs.Model
import SuiteDocs.Moment

/-!
Markdown documents of suites.
-/

set_option autoImplicit false

namespace SuiteDocs.Document

/-- The generator named in documents that are read from sources alone. -/
def sourceGenerator : Text := "Documentation Generator"

/-- The generator named in documents of a test run. -/
def runGenerator : Text := "Playwright Documentation Reporter"

/-- What stands in place of the annotations of a test that has none. -/
def placeholder : Text := "*No annotations found for this test.*"

/-- The descriptions of the annotations of one kind, in order. -/
def descriptionsOf (kind : Text) (annotations : List Annotation) : List Text :=
  (annotations.filter (·.kind == kind)).map (·.description)

/-- A section under a heading; without contents there is no section. -/
def sectionOf (heading : Text) (contents : List Text) (last : Text) : Text :=
  if contents.isEmpty then "" else "#### " ++ heading ++ "\n\n" ++ contents.flatten ++ last

def paragraphs (descriptions : List Text) : List Text :=
  descriptions.map (· ++ "\n\n")

/-- Descriptions as the items of a numbered list. -/
def numbered (descriptions : List Text) : List Text :=
  descriptions.mapIdx fun index description =>
    Text.ofNat (index + 1) ++ ". " ++ description ++ "\n"

def bulleted (descriptions : List Text) : List Text :=
  descriptions.map fun description => "- " ++ description ++ "\n"

/-- The part of a document on one test. Annotations of other kinds than the four are not shown. -/
def testText (test : TestCase) : Text :=
  let ofKind (kind : Text) := descriptionsOf kind test.annotations
  let contents : Text :=
    if test.annotations.isEmpty then placeholder ++ "\n\n"
    else
      sectionOf "Feature" (paragraphs (ofKind "Feature")) "" ++
      sectionOf "Description" (paragraphs (ofKind "Description")) "" ++
      sectionOf "Steps" (numbered (ofKind "Step")) "\n" ++
      sectionOf "Expected Results" (bulleted (ofKind "Expected")) "\n"
  "### " ++ test.title ++ "\n\n" ++ contents

def render (generator timestamp : Text) (suite : Suite) : Text :=
  let tag : Text := if suite.tag.isEmpty then "" else "**Tag:** `" ++ suite.tag ++ "`\n\n"
  let description : Text :=
    if suite.description.isEmpty then ""
    else "## Description\n\n" ++ suite.description ++ "\n\n"
  "# " ++ suite.name ++ "\n\n" ++ tag ++ description ++ "## Test Cases\n\n" ++
    suite.tests.flatMap (fun test => testText test ++ ("---\n\n" : Text)) ++ "---\n\n" ++
    "*Generated on " ++ timestamp ++ " by " ++ generator ++ "*\n" ++
    "*Source file: `" ++ suite.filePath ++ "`*\n"

end SuiteDocs.Document
