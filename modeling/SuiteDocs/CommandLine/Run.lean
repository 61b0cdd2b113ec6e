import SuiteDocs.CommandLine.Command
import SuiteDocs.Console
import SuiteDocs.Project.Generate
import SuiteDocs.Project.Report

/-!
Carrying out a line: what the program writes to the console, to a log file and to the documents,
and the status with which it exits.
-/

set_option autoImplicit false

namespace SuiteDocs.CommandLine

/-- What a line did. A service is started by its host and port. -/
structure Outcome where
  status : Nat
  output : Text
  errors : Text
  served : Option (Value Text × Value Int)
  deriving DecidableEq, Repr

/-- A failure that the program does not turn into a message. -/
inductive Error where
  | path (error : Path.Error)
  /-- The log file was to be given, and was not. -/
  | noLogFile
  | logFile (error : FileTree.Error)
  | project (error : Project.Error)
  deriving DecidableEq, Repr

def Error.message : Error → Text
  | .path error => error.message
  | .noLogFile => Project.Error.noPlace.message
  | .logFile error => error.message
  | .project error => error.message

/-- What a line does that is not carried out. -/
def Stop.outcome : Stop → Outcome
  | .help text => ⟨0, text, "", none⟩
  | .refused usage program message =>
    ⟨2, "", usage ++ program ++ ": error: " ++ message ++ "\n", none⟩

/-- A path as it is shown: seen from the working directory if it lies there. -/
def shownFrom (directory path : Path) : Text :=
  match Path.below? directory path with
  | some parts => Path.toText ⟨.relative, parts⟩
  | none => path.toText

/-- The line for the target of a document that is not written. -/
def targetLine (directory : Path) (target : Text) : Text :=
  "  " ++ shownFrom directory (Path.ofText target) ++ "\n"

def summaryText (directory : Path) (summary : Summary) : Text :=
  if summary.dryRun then
    "Documentation (dry-run):\n" ++ summary.documents.keys.flatMap (targetLine directory)
  else if summary.written.isEmpty then "No documentation generated\n"
  else
    "Documentation generated in " ++ shownFrom directory summary.outputDirectory ++ " (" ++
      Text.ofNat summary.written.length ++ " files)\n"

/-- What the program does with a summary, after what it logged. -/
def summaryOutcome (directory : Path) (logged : Text) (summary : Summary) : Outcome :=
  let output := summaryText directory summary
  if summary.failed.isEmpty then ⟨0, output, logged, none⟩
  else
    let failure := "Failed to write " ++ Text.ofNat summary.failed.length ++ " file(s)\n"
    ⟨1, output, logged ++ failure, none⟩

/-- What the program does with a failure of a command, after what it logged. A command that looks
for no directory expects none to be missing. -/
def failureOutcome (name : Text) (expectsDirectory : Bool) (logged : Text)
    (error : Project.Error) : Except Error Outcome :=
  let plain : Outcome := ⟨1, "", logged ++ error.message ++ "\n", none⟩
  match error.failure with
  | .notFound => .ok plain
  | .notDirectory => if expectsDirectory then .ok plain else .error (.project error)
  | .refused =>
    .ok ⟨1, "", logged ++ "annodoc " ++ name ++ " failed: " ++ error.message ++ "\n" ++
      "Run with --verbose for more details.\n", none⟩
  | .unexpected => .error (.project error)

/-- Opens a log file: it is made if it is missing. -/
def openLog (directory : Path) (file : Option (Value Path)) (tree : FileTree) :
    Except Error (FileTree × Option Path) :=
  match file with
  | none => .ok (tree, none)
  | some .nothing => .error .noLogFile
  | some (.given file) => do
    let place ← (Path.resolve directory file).mapError .path
    let tree ← (tree.appendFile directory place []).mapError .logFile
    return (tree, some place)

/-- Adds lines to an open log file. -/
def writeLog (directory : Path) (file : Option Path) (bytes : List UInt8) (tree : FileTree) :
    FileTree :=
  match file with
  | none => tree
  | some file =>
    match tree.appendFile directory file bytes with
    | .ok tree => tree
    | .error _ => tree

/-- How a command is carried out: where, with a verbose console or not, with an open log file or
none, and the time with which lines of the log file start. -/
structure Setting where
  directory : Path
  verbose : Bool
  log : Option Path
  stamp : Text

def Setting.carryOut (setting : Setting) (name : Text) (expectsDirectory : Bool)
    (run : Run Project.Error Summary) (tree : FileTree) : FileTree × Except Error Outcome :=
  let ran : Logged (Except Project.Error Summary × FileTree) := run.run.run tree
  let (result, tree) := ran.value
  let lines := Console.fileBytes setting.stamp ran.records
  let tree := writeLog setting.directory setting.log lines tree
  let logged := Console.text setting.verbose ran.records
  (tree, match result with
    | .ok summary => .ok (summaryOutcome setting.directory logged summary)
    | .error error => failureOutcome name expectsDirectory logged error)

def destinationOf : Option (Value Text) → Project.Destination
  | none => .configured
  | some .nothing => .nowhere
  | some (.given path) => .directory path

/-- The patterns up to the first that was not given. -/
def givenPatterns (patterns : List (Value Text)) : List Text :=
  (patterns.map Value.toOption).takeWhile Option.isSome |>.filterMap id

/-- Whether a pattern was to be given and was not. -/
def lacksPattern (patterns : List (Value Text)) : Bool :=
  patterns.contains .nothing

def Invocation.run (environment : Project.Environment) (stamp : Text) (invocation : Invocation)
    (tree : FileTree) : FileTree × Except Error Outcome :=
  let directory := environment.surroundings.workingDirectory
  match openLog directory invocation.logFile tree with
  | .error error => (tree, .error error)
  | .ok (tree, log) =>
    let setting : Setting := { directory, verbose := invocation.verbose, log, stamp }
    match invocation.command with
    | .generate path patterns output dryRun =>
      let request : Project.GenerateRequest :=
        { path, destination := destinationOf output, patterns := givenPatterns patterns,
          broken := lacksPattern patterns, dryRun }
      setting.carryOut "generate" true (Project.generate environment request) tree
    | .report results root output dryRun =>
      let request : Project.ReportRequest :=
        { results, root := root.bind Value.toOption, destination := destinationOf output, dryRun }
      setting.carryOut "report" false (Project.report environment request) tree
    | .serve host port => (tree, .ok ⟨0, "", "", some (host, port)⟩)

def run (environment : Project.Environment) (stamp : Text) (arguments : List Text)
    (tree : FileTree) : FileTree × Except Error Outcome :=
  match Invocation.ofArguments arguments with
  | .error stop => (tree, .ok stop.outcome)
  | .ok invocation => invocation.run environment stamp tree

end SuiteDocs.CommandLine
