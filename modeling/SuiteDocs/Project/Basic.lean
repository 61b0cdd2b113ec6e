import SuiteDocs.Configuration
import SuiteDocs.Host.Results
import SuiteDocs.Host.TestRun

/-!
What all ways to document a project share: what they see around them, how they fail, and what they
log at the end.
-/

set_option autoImplicit false

namespace SuiteDocs

/-- Takes a logged result into a run that leaves the file tree as it is. -/
def Run.ofLogged {ε δ α : Type} (wrap : ε → δ) (action : LoggedExcept ε α) : Run δ α :=
  ExceptT.mk (StateT.lift (do
    let result ← action.run
    return result.mapError wrap))

def Run.ofExcept {ε δ α : Type} (wrap : ε → δ) (result : Except ε α) : Run δ α :=
  MonadExcept.ofExcept (result.mapError wrap)

/-- Takes the failures of a run for those of another. -/
def Run.adapt {ε δ α : Type} (wrap : ε → δ) (run : Run ε α) : Run δ α :=
  ExceptT.adapt wrap run

namespace Project

/-- The name under which runs over a project log. -/
def component : Text := "orchestrator"

/-- What a run sees around it. Call names given here count in place of the configured ones. -/
structure Environment where
  surroundings : Path.Surroundings
  clock : Moment
  calls : Option Calls
  /-- How configuration files are read. -/
  reader : Configuration.Reader

/-- Why a run over a project fails. -/
inductive Error where
  | path (error : Path.Error)
  /-- A place was to be given, and none was. -/
  | noPlace
  | missingRoot (root : Text)
  | missingResults (place : Text)
  /-- What was asked for cannot be looked for. -/
  | file (error : FileTree.Error)
  | configuration (error : Configuration.Error)
  | discovery (error : Discovery.Error)
  | source (error : SourceFile.Error)
  | results (error : Results.Error)
  | hierarchy (error : Hierarchy.Error)
  | testRun (error : TestRun.Error)
  | publication (error : Publication.Error)
  deriving DecidableEq, Repr

def Error.message : Error → Text
  | .path error => error.message
  | .noPlace => "expected str, bytes or os.PathLike object, not list"
  | .missingRoot root => "Source root " ++ root ++ " does not exist"
  | .missingResults place => "Results file " ++ place ++ " does not exist"
  | .file error => error.message
  | .configuration error => error.message
  | .discovery error => error.message
  | .source error => error.message
  | .results error => error.message
  | .hierarchy error => error.message
  | .testRun error => error.message
  | .publication error => error.message

/-- What the caller of a run makes of its failure. -/
inductive Failure where
  /-- Something that was asked for is not there. -/
  | notFound
  /-- A directory was asked for, and there is something else. -/
  | notDirectory
  /-- The input cannot be used. -/
  | refused
  /-- A failure that no caller expects. -/
  | unexpected
  deriving DecidableEq, Repr

/-- What a path that names no place is. -/
def failureOfPath : Path.Error → Failure
  | .noHome => .refused
  | .nul => .unexpected
  | .encoding _ => .unexpected

/-- What a refused use of a file is. -/
def failureOfRead : FileTree.ReadError → Failure
  | .file ⟨.missing, _⟩ => .notFound
  | .file ⟨.notDirectory, _⟩ => .notDirectory
  | .file _ => .unexpected
  | .encoding _ => .unexpected

def Error.failure : Error → Failure
  | .path error => failureOfPath error
  | .noPlace => .unexpected
  | .missingRoot _ => .notFound
  | .missingResults _ => .notFound
  | .file _ => .unexpected
  | .configuration (.path error) => failureOfPath error
  | .configuration (.unreadable error) => failureOfRead error
  | .configuration (.unusable .malformed) => .refused
  | .configuration (.unusable .tooDeep) => .refused
  | .configuration (.unusable _) => .unexpected
  | .configuration .notMapping => .refused
  | .discovery (.path error) => failureOfPath error
  | .discovery (.missing _) => .notFound
  | .discovery (.notDirectory _) => .notDirectory
  | .discovery (.file _) => .unexpected
  | .discovery (.ignoreFile error) => failureOfRead error
  | .discovery .noPattern => .unexpected
  | .source (.noSuite _) => .refused
  | .source (.faulty _) => .unexpected
  | .results (.missing _) => .notFound
  | .results (.unreadable _ _) => .refused
  | .results (.malformed _) => .refused
  | .results (.tooDeep _) => .refused
  | .results (.unnamed _ _) => .refused
  | .results (.noSuites _) => .refused
  | .results (.path error) => failureOfPath error
  | .hierarchy (.path error) => failureOfPath error
  | .hierarchy (.faulty _) => .unexpected
  | .testRun (.path error) => failureOfPath error
  | .testRun (.record _) => .unexpected
  | .publication (.path error) => failureOfPath error
  | .publication (.clock _) => .unexpected
  | .publication (.content _) => .unexpected

/-- Where documents are wanted. -/
inductive Destination where
  /-- In the configured directory below the root. -/
  | configured
  | directory (path : Text)
  /-- Nowhere, though a directory was to be given. -/
  | nowhere
  deriving DecidableEq, Repr

/-- The destination that a caller gives, if it gives one. -/
def Destination.ofOption (given : Option Text) : Destination :=
  match given with
  | some path => .directory path
  | none => .configured

def outputDirectory (environment : Environment) (configuration : Configuration) :
    Destination → Except Error Path
  | .configured => .ok (configuration.root.join (Path.ofText configuration.outputDirectory))
  | .directory path => (Path.locate environment.surroundings path).mapError .path
  | .nowhere => .error .noPlace

/-- The configured generator, or a default in place of an empty one. -/
def generatorOr (configuration : Configuration) (default : Text) : Text :=
  (configuration.generator.filter (!·.isEmpty)).getD default

def logSummary (summary : Summary) : Logged Unit :=
  if summary.suites == 0 then
    Logged.info component "No documented suites found; nothing written"
  else
    let mark : Text := if summary.dryRun then " (dry-run)" else ""
    Logged.info component <|
      "Documented " ++ Text.ofNat summary.suites ++ " suites (" ++ Text.ofNat summary.tests ++
        " tests)" ++ mark ++ "; " ++ Text.ofNat summary.skipped.length ++ " skipped, " ++
        Text.ofNat summary.failed.length ++ " failed"

end Project

end SuiteDocs
