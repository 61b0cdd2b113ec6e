import SuiteDocs.FileTree.Basic
import SuiteDocs.Host.Suite
import SuiteDocs.Suite.Reading

/-!
Models built from the tree of suites that a test host discovers.

All suites of one file become one documented suite, named by the first that is more than a
container for the file. The sources give tags, descriptions and the annotations from which tests
start; a source that cannot be read leaves them empty.
-/

set_option autoImplicit false

namespace SuiteDocs

open SuiteDocs.Text SuiteDocs.Source

namespace SourceFile

/-- Why a source file cannot be read. -/
structure ReadError where
  path : Text
  cause : FileTree.ReadError
  deriving DecidableEq, Repr

def ReadError.message (error : ReadError) : Text :=
  "Could not read " ++ error.path ++ ": " ++ error.cause.message

/-- The text of the source file at a path, seen from a directory. -/
def readText (tree : FileTree) (directory path : Path) : Except ReadError Text :=
  (tree.readText directory path).mapError fun cause => ⟨path.toText, cause⟩

/-- The source file at a path, seen from a directory, documented under its key. -/
def read (tree : FileTree) (directory root path : Path) :
    Except ReadError (Except Path.Error SourceFile) :=
  match path.check with
  | .error error => .ok (.error error)
  | .ok () => do
    let text ← readText tree directory path
    return (Path.keyFrom root path.toText).map (⟨·, text⟩)

end SourceFile

namespace HostSuite

/-- Whether a suite only stands for the file with the given key: its title is empty or names the
file. -/
def isFileContainer (suite : HostSuite) (key : Text) : Bool :=
  let title := exchange '\\' '/' suite.title
  title.isEmpty ||
    (suite.file?.any fun file => title == exchange '\\' '/' file) ||
    key == title || (.char '/' :: title).isSuffixOf key

end HostSuite

namespace Hierarchy

/-- Why no model can be built. -/
inductive Error where
  | path (error : Path.Error)
  /-- A fault of a text, from which reading does not recover. -/
  | faulty (fault : Fault)
  deriving DecidableEq, Repr

def Error.message : Error → Text
  | .path error => error.message
  | .faulty fault => fault.message

/-- What is known of a file: its documented suite, its text, and the constants and the declaration
of the suite found in it. -/
structure FileContext where
  suite : Suite
  text : Option Text
  block : Option Block
  constants : Constants

/-- The files met so far by their keys. -/
abbrev Contexts := OrderedMap Text FileContext

/-- The declaration with a title, if there is one. -/
def namedBlock? (text : Text) (keywords : List Text) (title : Text) (start : Nat)
    (stop : Option Nat) : Except Fault (Option Block) :=
  match Block.named text keywords title start stop with
  | .ok block => .ok (some block)
  | .error (.faulty fault) => .error fault
  | .error _ => .ok none

def passFault {α : Type} (result : Except Fault α) : LoggedExcept Error α :=
  MonadExcept.ofExcept (result.mapError .faulty)

/-- The declaration of a suite in the text of its file, and what its options say. -/
def locateSuite (calls : Calls) (text : Text) (title key : Text) :
    LoggedExcept Error (Option Block × SuiteOptions) := do
  match ← passFault (namedBlock? text calls.suites title 0 none) with
  | none => do
    Logged.warning Suite.component ("Could not locate suite " ++ quoted title ++ " in " ++ key)
    return (none, .none)
  | some block => return (some block, ← passFault (SuiteOptions.ofText block.options))

/-- The text of the file of a suite, if it can be read. -/
def sourceText? (tree : FileTree) (root : Path) (file key : Text) :
    Logged (Option Text) :=
  match SourceFile.readText tree root (root.join (Path.ofText file)) with
  | .ok text => pure (some text)
  | .error error => do
    Logged.warning Suite.component
      ("Static annotations unavailable for " ++ key ++ ": " ++ error.message)
    return none

/-- Opens a file at the first suite that documents it. -/
def openFile (tree : FileTree) (calls : Calls) (root : Path) (node : HostSuite) (file key : Text) :
    LoggedExcept Error FileContext := do
  let container := node.isFileContainer key
  let text ← sourceText? tree root file key
  let located ← match text with
    | none => pure (none, SuiteOptions.none)
    | some text =>
      if container then pure (none, SuiteOptions.none)
      else locateSuite calls text node.title key
  return {
    suite :=
      { name := if container then (Path.ofText key).name else node.title
        filePath := key
        tag := node.tag?.getD located.2.tag
        description := node.description?.getD located.2.description
        tests := [] }
    text
    block := located.1
    constants := (text.map Constants.ofText).getD OrderedMap.empty }

/-- The declaration of a test: in the body of its suite, or else anywhere in the file. -/
def locateTest? (calls : Calls) (text : Text) (suite : Option Block) (title : Text) :
    Except Fault (Option Block) := do
  let inSuite ← match suite with
    | none => pure none
    | some block => namedBlock? text calls.tests title (block.bodyStart + 1) (some block.bodyStop)
  match inSuite with
  | some block => return some block
  | none => namedBlock? text calls.tests title 0 none

/-- The annotations that the source gives to a test. -/
def baseline (calls : Calls) (context : FileContext) (title : Text) :
    LoggedExcept Error (List Annotation) :=
  match context.text with
  | none => pure []
  | some text => do
    match ← passFault (locateTest? calls text context.block title) with
    | none => do
      Logged.warning Suite.component
        ("Could not find test body for " ++ quoted title ++ " in " ++ context.suite.filePath)
      return []
    | some block =>
      ExceptT.adapt .faulty
        (Extraction.annotations block.body context.constants (some context.suite.filePath))

/-- Adds the tests of a suite to its file. -/
def addTests (calls : Calls) (context : FileContext) (tests : List HostTest) :
    LoggedExcept Error FileContext := do
  let added ← tests.mapM fun test => do
    return (⟨test.title, ← baseline calls context test.title⟩ : TestCase)
  return { context with suite := { context.suite with tests := context.suite.tests ++ added } }

/-- Takes in one suite of the host. A suite without a file is passed over, and so is the container
of a file that was not met yet if it has no tests. -/
def addSuite (tree : FileTree) (calls : Calls) (root : Path) (contexts : Contexts)
    (node : HostSuite) : LoggedExcept Error Contexts :=
  match node.file? with
  | none => pure contexts
  | some file => do
    let key ← MonadExcept.ofExcept ((Path.keyFrom root file).mapError .path)
    match contexts.get? key with
    | some context => return contexts.insert key (← addTests calls context node.tests)
    | none =>
      if node.isFileContainer key && node.tests.isEmpty then return contexts
      else
        let context ← openFile tree calls root node file key
        return contexts.insert key (← addTests calls context node.tests)

def model (tree : FileTree) (calls : Calls) (root : Path) (nodes : List HostSuite) :
    LoggedExcept Error Model := do
  let contexts ← (HostSuite.preorderAll nodes).foldlM (addSuite tree calls root) OrderedMap.empty
  contexts.values.forM fun context => Suite.warnRepeatedTitles context.suite
  return ⟨contexts.entries.map fun (key, context) => (key, context.suite)⟩

end Hierarchy

end SuiteDocs
