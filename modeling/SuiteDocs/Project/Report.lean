import SuiteDocs.Project.Basic

/-!
Documenting a test run from the results that its host wrote.

The results are played back as the events of the run: the host announces its suites, reports every
outcome in order, and ends.
-/

set_option autoImplicit false

namespace SuiteDocs.Project

/-- Which results are to be documented, and how. -/
structure ReportRequest where
  results : Text
  root : Option Text
  destination : Destination
  dryRun : Bool

/-- Plays back the end of one test. -/
def replayOutcome (run : TestRun) (outcome : Outcome) : LoggedExcept Error TestRun := do
  let (run, exchanged) ← run.testEnded outcome.file outcome.title outcome.records
  match exchanged with
  | .error error => throw (.testRun error)
  | .ok _ => return run

/-- Plays back the results of a run over a root. -/
def replay (tree : FileTree) (calls : Calls) (results : Results) : LoggedExcept Error TestRun := do
  let run ← ExceptT.adapt .hierarchy ((TestRun.idle results.root calls).start tree results.suites)
  results.outcomes.foldlM replayOutcome run

/-- The root that a request names; an empty text is none. -/
def requestedRoot? (surroundings : Path.Surroundings) (root : Option Text) :
    Except Path.Error (Option Path) :=
  match root.filter (!·.isEmpty) with
  | none => .ok none
  | some text => (Path.expandHome surroundings (Path.ofText text)).map some

/-- Documents the test run whose results are in a file. -/
def report (environment : Environment) (request : ReportRequest) : Run Error Summary := do
  let surroundings := environment.surroundings
  let file ← Run.ofExcept .path (Path.locate surroundings request.results)
  let tree ← get
  let found ← Run.ofExcept .file (tree.pathExists surroundings.workingDirectory file)
  if !found then throw (.missingResults file.toText)
  let root ← Run.ofExcept .path (requestedRoot? surroundings request.root)
  let results ← Run.ofExcept .results (Results.load surroundings tree file root)
  let configuration ← Run.ofExcept .configuration
    (Configuration.load environment.reader surroundings tree results.root)
  Logged.info component <|
    "Starting report run for " ++ results.root.toText ++ " " ++
      "(" ++ Text.ofNat results.outcomes.length ++ " test results)"
  let outputDirectory ← Run.ofExcept id
    (outputDirectory environment configuration request.destination)
  let calls := environment.calls.getD configuration.calls
  let run ← Run.ofLogged id (replay tree calls results)
  let summary ← Run.adapt .publication <| run.finish
    { directory := surroundings.workingDirectory
      outputDirectory
      generator := generatorOr configuration Document.runGenerator
      clock := environment.clock
      dryRun := request.dryRun }
  logSummary summary
  return summary

end SuiteDocs.Project
