import SuiteDocs.Discovery
import SuiteDocs.Json.Value
import SuiteDocs.Suite.Reading
import SuiteDocs.Yaml.Value

/-!
The configuration of a project, kept in a file at its root.

Everything has a default, and settings of the wrong kind count as missing. The language of the file is
not that of the project, so whoever loads a configuration says how its text is read.
-/

set_option autoImplicit false

namespace SuiteDocs

open SuiteDocs.Text

/-- The settings of a project. -/
structure Configuration where
  root : Path
  /-- Which files are documented, and which paths are left out. -/
  patterns : List Text
  excludedPaths : List Text
  /-- Where documents go, seen from the root. -/
  outputDirectory : Text
  /-- The generator to name in documents. -/
  generator : Option Text
  calls : Calls

namespace Configuration

def fileName : Text := ".annodoc.yml"

/-- A way to read the text of a configuration file. -/
abbrev Reader := Text → Except Yaml.Error Yaml.Document

/-- The settings of a project without a configuration file. -/
def default (root : Path) : Configuration :=
  { root
    patterns := Discovery.defaultPatterns
    excludedPaths := []
    outputDirectory := "report"
    generator := none
    calls := Calls.default }

/-- Why a configuration cannot be loaded. -/
inductive Error where
  | path (error : Path.Error)
  | unreadable (error : FileTree.ReadError)
  | unusable (error : Yaml.Error)
  | notMapping
  deriving DecidableEq, Repr

/-- The text of an error. What the reader has to say about a malformed text, which would follow behind a
colon, is left out. -/
def Error.message : Error → Text
  | .path error => error.message
  | .unreadable error => error.message
  | .unusable .malformed => "Failed to parse " ++ fileName
  | .unusable error => error.message
  | .notMapping => fileName ++ " must contain a mapping at the root"

/-- The text of a setting that is a text, a number or a truth value. -/
def text? : Yaml.Value → Except Yaml.Error (Option Text)
  | .atom (.text text) => .ok (some text)
  | .atom (.integer value) => ((Whole.text value).mapError .whole).map some
  | .atom (.number value) => .ok (some value.text)
  | .atom (.truth value) => .ok (some (Json.boolText value))
  | _ => .ok none

/-- The texts of a setting that is a list. One text alone stands for a list of it, and bytes for the
list of their numbers. -/
def texts (document : Yaml.Document) : Yaml.Value → Except Yaml.Error (List Text)
  | .atom (.text text) => .ok [text]
  | .atom (.bytes bytes) => .ok (bytes.map fun byte => Text.ofNat byte.toNat)
  | .sequence items => return (← (items.filterMap document.value?).mapM text?).filterMap id
  | _ => .ok []

/-- The setting with a name in a section. -/
def setting? (document : Yaml.Document) (group name : Text) : Option Yaml.Value :=
  (document.field? document.root group).bind (document.field? · name)

/-- The text under a name in a section. -/
def text (document : Yaml.Document) (group name : Text) :
    Except Yaml.Error (Option Text) :=
  match setting? document group name with
  | none => .ok none
  | some value => text? value

/-- The list under a name in a section. -/
def list (document : Yaml.Document) (group name : Text) : Except Yaml.Error (List Text) :=
  match setting? document group name with
  | none => .ok []
  | some value => texts document value

/-- A list, or a default in place of an empty one. -/
def orDefault (given default : List Text) : List Text :=
  if given.isEmpty then default else given

def ofDocument (root : Path) (document : Yaml.Document) : Except Yaml.Error Configuration := do
  let initial := default root
  let patterns ← list document "source" "patterns"
  let excludedPaths ← list document "source" "exclude_paths"
  let directory ← text document "output" "dir"
  let generator ← text document "output" "generator"
  let suites ← list document "syntax" "suite_calls"
  let tests ← list document "syntax" "test_calls"
  return {
    root
    patterns := orDefault patterns initial.patterns
    excludedPaths
    outputDirectory := (directory.filter (!·.isEmpty)).getD initial.outputDirectory
    generator
    calls :=
      { suites := orDefault suites initial.calls.suites
        tests := orDefault tests initial.calls.tests } }

/-- The settings that the text of a configuration file spells. -/
def ofText (reader : Reader) (root : Path) (text : Text) : Except Error Configuration :=
  if (strip text).isEmpty then .ok (default root)
  else match reader text with
    | .error error => .error (.unusable error)
    | .ok document =>
      match document.root with
      | .atom .null => .ok (default root)
      | .mapping _ => (ofDocument root document).mapError .unusable
      | _ => .error .notMapping

/-- The configuration file that a path leads to: itself, or the one in the same directory, or the
one in the directory at the path. -/
def fileFor (tree : FileTree) (directory path : Path) : Except FileTree.Error Path := do
  if ← tree.isDirectoryAt directory path then return path.child fileName
  else if path.name != fileName then return path.parent.child fileName
  else return path

/-- The settings of the project that a path leads to. -/
def load (reader : Reader) (surroundings : Path.Surroundings) (tree : FileTree) (path : Path) :
    Except Error Configuration := do
  let directory := surroundings.workingDirectory
  let path ← (path.expandHome surroundings).mapError .path
  let file ← (fileFor tree directory path).mapError (.unreadable ∘ .file)
  let file ← (Path.resolve directory file).mapError .path
  if ← (tree.pathExists directory file).mapError (.unreadable ∘ .file) then
    let text ← (tree.readText directory file).mapError .unreadable
    ofText reader file.parent text
  else return default file.parent

end Configuration

end SuiteDocs
