import SuiteDocs.Project.Basic

/-!
Documenting a project from its sources alone.
-/

set_option autoImplicit false

namespace SuiteDocs

namespace Model

/-- Adds the suite of the source file at an absolute path. A file that cannot be read is left out
with a warning. -/
def addFile (tree : FileTree) (calls : Calls) (root : Path) (model : Model) (path : Path) :
    LoggedExcept Project.Error Model :=
  match SourceFile.read tree root root path with
  | .error error => do
    Logged.warning Suite.component
      ("Skipping unreadable file " ++ path.toText ++ ": " ++ error.message)
    return model
  | .ok file => do
    let file ← MonadExcept.ofExcept (file.mapError .path)
    ExceptT.adapt .source (model.addSource calls file)

/-- The suites of the source files at absolute paths. -/
def ofFiles (tree : FileTree) (calls : Calls) (root : Path) (paths : List Path) :
    LoggedExcept Project.Error Model :=
  paths.foldlM (addFile tree calls root) OrderedMap.empty

/-- The suites of all source files that patterns select below a root. -/
def ofRoot (tree : FileTree) (calls : Calls) (root : Path) (patterns excluded : List Text) :
    LoggedExcept Project.Error Model := do
  let paths ← MonadExcept.ofExcept
    ((Discovery.discover tree root root.toText patterns excluded).mapError .discovery)
  Logged.debug Suite.component
    ("Discovered " ++ Text.ofNat paths.length ++ " spec files under " ++ root.toText)
  ofFiles tree calls root paths

end Model

namespace Project

/-- What is to be documented, and how. Without patterns the configured ones count. -/
structure GenerateRequest where
  path : Text
  destination : Destination
  patterns : List Text
  /-- Whether the list of patterns breaks off. -/
  broken : Bool
  dryRun : Bool

/-- The keys of the files at absolute paths that a model does not document. -/
def skippedKeys (root : Path) (model : Model) (paths : List Path) :
    Except Path.Error (List Text) := do
  let keys ← paths.mapM fun path => Path.keyFrom root path.toText
  return keys.filter (!model.contains ·)

def selectedFiles (tree : FileTree) (root : Path) (configuration : Configuration)
    (request : GenerateRequest) : Except Discovery.Error (List Path) :=
  if request.broken then
    Discovery.discoverAll tree root root.toText request.patterns configuration.excludedPaths
  else
    let patterns :=
      if request.patterns.isEmpty then configuration.patterns else request.patterns
    Discovery.discover tree root root.toText patterns configuration.excludedPaths

/-- Documents every selected source file below a path. -/
def generate (environment : Environment) (request : GenerateRequest) : Run Error Summary := do
  let surroundings := environment.surroundings
  let root ← Run.ofExcept .path (Path.locate surroundings request.path)
  let tree ← get
  let found ← Run.ofExcept .file (tree.pathExists surroundings.workingDirectory root)
  if !found then throw (.missingRoot root.toText)
  Logged.info component ("Starting generate run for " ++ root.toText)
  let configuration ← Run.ofExcept .configuration
    (Configuration.load environment.reader surroundings tree root)
  let calls := environment.calls.getD configuration.calls
  let paths ← Run.ofExcept .discovery (selectedFiles tree root configuration request)
  Logged.debug component ("Scanner discovered " ++ Text.ofNat paths.length ++ " files")
  let model ← Run.ofLogged id (Model.ofFiles tree calls root paths)
  let outputDirectory ← Run.ofExcept id
    (outputDirectory environment configuration request.destination)
  let published ← Run.adapt .publication <| Publication.publish
    { directory := surroundings.workingDirectory
      outputDirectory
      generator := generatorOr configuration Document.sourceGenerator
      clock := environment.clock
      dryRun := request.dryRun }
    model
  let skipped ← Run.ofExcept .path (skippedKeys root model paths)
  let summary := { published with skipped }
  logSummary summary
  return summary

end Project

end SuiteDocs
