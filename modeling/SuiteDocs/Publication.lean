import SuiteDocs.Document
import SuiteDocs.FileTree.Basic
import SuiteDocs.Log

/-!
Publishing a model: one Markdown file for each suite, in a tree like that of the sources.
-/

set_option autoImplicit false

namespace SuiteDocs

open SuiteDocs.Text

/-- A run over a file tree. It may change files, leave messages and fail; what it changed and said
before it failed stays. -/
abbrev Run (ε : Type) := ExceptT ε (StateT FileTree Logged)

/-- What a run did. Documents are listed by the text of their path, in the order of the suites. -/
structure Summary where
  outputDirectory : Path
  written : List Path
  failed : List Text
  skipped : List Text
  documents : OrderedMap Text Text
  suites : Nat
  tests : Nat
  dryRun : Bool

namespace Publication

def component : Text := "writer"

/-- Why publishing stops. A file that cannot be written does not stop it. -/
inductive Error where
  /-- A path is none of a place. -/
  | path (error : Path.Error)
  /-- The time has no timestamp. -/
  | clock (error : Moment.Error)
  /-- The text of a document has no bytes. -/
  | content (error : Utf8.EncodeError)
  deriving DecidableEq, Repr

def Error.message : Error → Text
  | .path error => error.message
  | .clock error => error.message
  | .content error => error.message

/-- Whether a component of the path of a source is a directory of the output too: roots, `..` and
drives are not. -/
def isOutputPart (part : Text) : Bool :=
  part != "" && part != "." && part != ".." && part != "/" &&
    part.getLast? != some ':'

/-- Where the document of a source file goes: the directories of the source below the output
directory, and its name with the extension `.md`. -/
def outputPath (outputDirectory : Path) (filePath : Text) : Path :=
  let source := Path.ofText (exchange '\\' '/' filePath)
  let directories :=
    ((if source.isAbsolute then [source.anchor.text] else []) ++ source.parent.parts).filter
      isOutputPart
  (directories.foldl Path.child outputDirectory).child (source.stem ++ ".md")

/-- Changes the file tree, or reports why it cannot be changed. -/
def changeTree (change : FileTree → FileTree × Except FileTree.Error Unit) :
    Run Error (Except FileTree.Error Unit) := do
  let (tree, result) := change (← get)
  set tree
  return result

def writeFile (directory target : Path) (bytes : List UInt8) :
    Run Error (Except FileTree.Error Unit) :=
  changeTree fun tree =>
    match tree.writeFile directory target bytes with
    | .ok tree => (tree, .ok ())
    | .error error => (tree, .error error)

/-- Writes the text of a document, with the directories above it. A file whose text has no bytes is
left empty. -/
def writeDocument (directory target : Path) (content : Text) :
    Run Error (Except FileTree.Error Unit) := do
  MonadExcept.ofExcept (target.parent.check.mapError .path)
  match ← changeTree (·.makeDirectories directory target.parent) with
  | .error error => return .error error
  | .ok () =>
    MonadExcept.ofExcept (target.check.mapError .path)
    match Utf8.encode content with
    | .ok bytes => writeFile directory target bytes
    | .error encoding =>
      match ← writeFile directory target [] with
      | .error error => return .error error
      | .ok () => throw (.content encoding)

/-- What is to be published, and how. -/
structure Settings where
  /-- The directory that relative paths are seen from. -/
  directory : Path
  outputDirectory : Path
  generator : Text
  clock : Moment
  dryRun : Bool

/-- Publishes one suite and notes it in the summary. -/
def publishSuite (settings : Settings) (summary : Summary) (suite : Suite) : Run Error Summary := do
  let timestamp ← MonadExcept.ofExcept (settings.clock.timestamp.mapError .clock)
  let content := Document.render settings.generator timestamp suite
  let target := outputPath settings.outputDirectory suite.filePath
  let summary := { summary with documents := summary.documents.insert target.toText content }
  if settings.dryRun then return summary
  match ← writeDocument settings.directory target content with
  | .error error => do
    Logged.error component
      ("Failed to write documentation for " ++ suite.filePath ++ ": " ++ error.message)
    return { summary with failed := summary.failed ++ [suite.filePath] }
  | .ok () => do
    Logged.info component ("Generated: " ++ target.toText)
    return { summary with written := summary.written ++ [target] }

/-- Publishes every suite of a model. A dry run writes nothing. -/
def publish (settings : Settings) (model : Model) : Run Error Summary :=
  model.suites.foldlM (publishSuite settings)
    { outputDirectory := settings.outputDirectory
      written := []
      failed := []
      skipped := []
      documents := OrderedMap.empty
      suites := model.suites.length
      tests := model.testCount
      dryRun := settings.dryRun }

end Publication

end SuiteDocs
