import SuiteDocs.CommandLine.Matching
import SuiteDocs.Path.Basic

/-!
The commands of the program.
-/

set_option autoImplicit false

namespace SuiteDocs.CommandLine

open SuiteDocs.Text

/-- A command with all that was given to it. -/
inductive Command where
  /-- Documents a project from its sources. Without patterns the configured ones count. -/
  | generate (path : Text) (patterns : List (Value Text)) (output : Option (Value Text))
      (dryRun : Bool)
  /-- Documents a test run from its results. -/
  | report (results : Text) (root output : Option (Value Text)) (dryRun : Bool)
  /-- Runs the service. -/
  | serve (host : Value Text) (port : Value Int)
  deriving DecidableEq, Repr

/-- A line that can be carried out. -/
structure Invocation where
  verbose : Bool
  logFile : Option (Value Path)
  command : Command
  deriving DecidableEq, Repr

/-! ## What the commands accept -/

def verboseChoice : Choice :=
  ⟨["-v", "--verbose"], "verbose", .flag, "", "Increase log verbosity for troubleshooting."⟩

/-- Options on what becomes of the documents. -/
def outputChoices : List Choice :=
  [⟨["-o", "--output"], "output", .text, "OUTPUT",
      "Output directory for Markdown files (defaults to output.dir, 'report')."⟩,
    ⟨["--dry-run"], "dry_run", .flag, "",
      "Render documentation and print the target paths without writing."⟩]

def generateGrammar : Grammar where
  program := "annodoc generate"
  description := ""
  options := [helpChoice, verboseChoice,
    ⟨["-p", "--pattern"], "patterns", .text, "PATTERNS",
      "Glob selecting spec files; repeatable (defaults to e2e/**/*.spec.ts)."⟩] ++ outputChoices
  operand := .optional "path" "Path to the source root (defaults to current directory)."

def reportGrammar : Grammar where
  program := "annodoc report"
  description := ""
  options := [helpChoice, verboseChoice,
    ⟨["--root"], "root", .text, "ROOT",
      "Source root the report's file paths are relative to (defaults to config.rootDir)."⟩] ++
    outputChoices
  operand := .required "results" "Path to the Playwright JSON results file."

def serveGrammar : Grammar where
  program := "annodoc serve"
  description := ""
  options := [helpChoice, verboseChoice,
    ⟨["--host"], "host", .text, "HOST", "Interface to bind."⟩,
    ⟨["--port"], "port", .whole, "PORT", "Port to listen on."⟩]
  operand := .nothing

def programGrammar : Grammar where
  program := "annodoc"
  description := "Generate Markdown documentation from annotated Playwright test specs."
  options := [helpChoice, verboseChoice,
    ⟨["--log-file"], "log_file", .text, "LOG_FILE", "Also write debug-level logs to this file."⟩]
  operand := .command "command"
    [("generate", "Document spec files from their source alone."),
      ("report", "Document a test run from a Playwright JSON report."),
      ("serve", "Run the HTTP service.")]

/-! ## From lines to invocations -/

namespace Line

def has (line : Line) (field : Text) : Bool :=
  line.given.any (·.1 == field)

def texts (line : Line) (field : Text) : List (Value Text) :=
  (line.given.filter (·.1 == field)).filterMap fun
    | (_, .text value) => some value
    | _ => none

def text? (line : Line) (field : Text) : Option (Value Text) :=
  (line.texts field).getLast?

def whole? (line : Line) (field : Text) : Option (Value Int) :=
  ((line.given.filter (·.1 == field)).filterMap fun
    | (_, .whole value) => some value
    | _ => none).getLast?

def word? (line : Line) : Option Text :=
  line.operand.bind List.head?

end Line

/-- The grammar of a command, and the command that a line of it gives. -/
def commandNamed? (name : Text) : Option (Grammar × (Line → Command)) :=
  if name == "generate" then some (generateGrammar, fun line =>
    .generate (line.word?.getD ".") (line.texts "patterns") (line.text? "output")
      (line.has "dry_run"))
  else if name == "report" then some (reportGrammar, fun line =>
    .report (line.word?.getD "") (line.text? "root") (line.text? "output") (line.has "dry_run"))
  else if name == "serve" then some (serveGrammar, fun line =>
    .serve ((line.text? "host").getD (.given "127.0.0.1"))
      ((line.whole? "port").getD (.given 8000)))
  else none

/-- Refuses a command that the program does not have. -/
def refuseCommand {α : Type} (name : Text) : Except Stop α :=
  programGrammar.refuse <|
    "argument command: invalid choice: " ++ quoted name ++
      " (choose from 'generate', 'report', 'serve')"

/-- The invocation that the words of a line spell. -/
def Invocation.ofArguments (arguments : List Text) : Except Stop Invocation := do
  let line ← programGrammar.read arguments
  match line.operand with
  | some (name :: words) =>
    match commandNamed? name with
    | none => refuseCommand name
    | some (grammar, command) =>
      let inner ← grammar.checkOperand (← grammar.read words)
      let unknown := line.rest ++ inner.rest
      if !unknown.isEmpty then
        programGrammar.refuse ("unrecognized arguments: " ++ List.intercalate " " unknown)
      else return {
        verbose := line.has "verbose" || inner.has "verbose"
        logFile := (line.text? "log_file").map (·.map Path.ofText)
        command := command inner }
  | _ => programGrammar.refuse "the following arguments are required: command"

end SuiteDocs.CommandLine
