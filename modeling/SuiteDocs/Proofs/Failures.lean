import SuiteDocs.Proofs.Completion
import SuiteDocs.Proofs.Legibility

/-!
How runs over a project fail.

The texts of sources and results never cause a failure that is not reported. Those of the configuration
and of the ignore file do, and so do names and documents that have no bytes.
-/

set_option autoImplicit false

namespace SuiteDocs

open SuiteDocs.Text

theorem Run.Still.failsOnlyBy_bind {ε α β : Type} {kind : ε → Bool} {run : Run ε α} {result : Except ε α}
    {records : List LogRecord} (still : Still run result records) {next : α → Run ε β} {tree : FileTree}
    (first : FailsOnlyBy kind result)
    (each : ∀ value, result = .ok value → FailsOnlyBy kind (Run.outcome (next value) tree)) :
    FailsOnlyBy kind (Run.outcome (run >>= next) tree) := by
  cases given : result with
  | error error =>
    have failed : Run.outcome run tree = .error error := (still.outcome tree).trans given
    rw [outcome_bind_of_error failed]
    exact failsOnlyBy_error (first error given)
  | ok value =>
    subst given
    rw [still.outcome_bind]
    exact each value rfl

namespace Project

open FileTree Run SuiteDocs.Path

variable {tree : FileTree} {expectsDirectory : Bool}

/-! ## Runs over sources -/

/-- The directory that is asked for can be spelled. -/
def Destination.Spelled (configuration : Configuration) : Destination → Prop
  | .configured => Spellable configuration.outputDirectory
  | .directory path => Spellable path
  | .nowhere => False

theorem outputDirectory_cases {environment : Environment} (named : environment.surroundings.Named)
    {configuration : Configuration} (rooted : configuration.root.Rooted) {destination : Destination}
    (spelled : destination.Spelled configuration) :
    (∃ directory, outputDirectory environment configuration destination = .ok directory ∧
        Nameable directory.parts) ∨
      outputDirectory environment configuration destination = .error (.path .noHome) := by
  cases destination with
  | configured => exact .inl ⟨_, rfl, nameable_join rooted.nameable (nameable_ofText spelled)⟩
  | nowhere => exact spelled.elim
  | directory path =>
    rw [outputDirectory]
    rcases locate_cases named spelled with ⟨directory, located⟩ | missing
    · rw [located]
      exact .inl ⟨directory, rfl, (rooted_of_locate named located).nameable⟩
    · rw [missing]
      exact .inr rfl

theorem outputDirectory_expected {environment : Environment} (named : environment.surroundings.Named)
    {configuration : Configuration} (rooted : configuration.root.Rooted) {destination : Destination}
    (spelled : destination.Spelled configuration) :
    FailsOnlyBy (Error.isExpected expectsDirectory)
      (outputDirectory environment configuration destination) := by
  rcases outputDirectory_cases named rooted spelled with ⟨directory, found, -⟩ | missing
  · rw [found]
    exact failsOnlyBy_ok directory
  · rw [missing]
    exact failsOnlyBy_error rfl

theorem nameable_outputDirectory {environment : Environment} (named : environment.surroundings.Named)
    {configuration : Configuration} (rooted : configuration.root.Rooted) {destination : Destination}
    (spelled : destination.Spelled configuration) {directory : Path}
    (found : outputDirectory environment configuration destination = .ok directory) :
    Nameable directory.parts := by
  rcases outputDirectory_cases named rooted spelled with ⟨other, same, nameable⟩ | missing
  · obtain rfl := Except.ok.inj (same.symm.trans found)
    exact nameable
  · cases missing.symm.trans found

/-- What a request finds before it reads sources. -/
structure GenerateRequest.Finds (request : GenerateRequest) (environment : Environment) (tree : FileTree)
    (root : Path) (configuration : Configuration) (paths : List Path) : Prop where
  located : locate environment.surroundings request.path = .ok root
  loaded : Configuration.load environment.reader environment.surroundings tree root = .ok configuration
  selected : selectedFiles tree root configuration request = .ok paths

/-- A request whose failures are all reported: its paths can be spelled and its patterns are all there, the
time can be written, the configuration and the ignore file are texts if they are there, the files that it
selects can be named, and what it writes has bytes. What the sources hold does not matter otherwise. -/
structure GenerateRequest.Orderly (request : GenerateRequest) (environment : Environment)
    (tree : FileTree) : Prop where
  named : environment.surroundings.Named
  dated : ∃ timestamp, environment.clock.timestamp = .ok timestamp
  path : Spellable request.path
  whole : request.broken = false
  configurable : ∀ root, locate environment.surroundings request.path = .ok root →
    Configurable environment.reader environment.surroundings tree root
  ignoring : ∀ root, locate environment.surroundings request.path = .ok root →
    tree.Legible root (root.child ".gitignore")
  files : ∀ root configuration paths, request.Finds environment tree root configuration paths →
    request.destination.Spelled configuration ∧ ∀ path ∈ paths, Nameable path.parts
  encodable : request.dryRun = false → ∀ root configuration paths model outputDirectory,
    request.Finds environment tree root configuration paths →
    (Model.ofFiles tree (environment.calls.getD configuration.calls) root paths).outcome = .ok model →
    Publication.Encodable (settingsFor environment configuration request outputDirectory) model

section Generate

variable {environment : Environment} {request : GenerateRequest}

theorem documentFiles_expected (orderly : request.Orderly environment tree) {root : Path}
    {configuration : Configuration} {paths : List Path}
    (finds : request.Finds environment tree root configuration paths) :
    FailsOnlyBy (Error.isExpected true)
      (outcome (documentFiles environment request tree root configuration paths) tree) := by
  have rooted := rooted_of_locate orderly.named finds.located
  have configured := rooted_of_load rooted finds.loaded
  obtain ⟨spelled, nameable⟩ := orderly.files root configuration paths finds
  obtain ⟨model, built, documented⟩ := @Model.exists_ofFiles tree
    (environment.calls.getD configuration.calls) root rooted.nameable paths nameable
  have keys : ∃ skipped, skippedKeys root model paths = .ok skipped := by
    obtain ⟨keys, keyed⟩ := exists_mapM_eq_ok fun path listed =>
      exists_keyFrom rooted.nameable (spellable_toText (nameable path listed))
    rw [skippedKeys, keyed]
    exact ⟨_, rfl⟩
  obtain ⟨skipped, listed⟩ := keys
  unfold documentFiles
  dsimp only
  rw [(built ▸ still_ofLogged _ _ : Still _ (.ok model) _).outcome_bind]
  apply (still_wrapped _ _).failsOnlyBy_bind
  · exact (outputDirectory_expected orderly.named configured spelled).mapError
  intro directory found
  have found := mapError_eq_ok_iff.mp found
  have written : ∃ published, outcome (Run.adapt Error.publication
      (Publication.publish (settingsFor environment configuration request directory) model)) tree =
        .ok published := by
    obtain ⟨published, returned⟩ := Publication.exists_publish orderly.dated
      (nameable_outputDirectory orderly.named configured spelled found) documented
      (fun real => orderly.encodable real root configuration paths model directory finds built) tree
    rw [outcome_adapt, returned]
    exact ⟨published, rfl⟩
  obtain ⟨published, written⟩ := written
  rw [outcome_bind_of_ok written, listed, (still_wrapped Error.path (.ok skipped)).outcome_bind,
    (still_liftM _).outcome_bind]
  exact failsOnlyBy_ok _

theorem generate_expected (orderly : request.Orderly environment tree) :
    FailsOnlyBy (Error.isExpected true) (outcome (generate environment request) tree) := by
  unfold generate
  dsimp only
  apply (still_wrapped _ _).failsOnlyBy_bind
  · exact (locate_expected orderly.named orderly.path).mapError
  intro root located
  have located := mapError_eq_ok_iff.mp located
  have rooted := rooted_of_locate orderly.named located
  have configurable := orderly.configurable root located
  rw [outcome_get_bind, pathExists, search_of_reachable configurable.reachable]
  apply (still_wrapped _ _).failsOnlyBy_bind
  · exact failsOnlyBy_ok _
  intro found _
  cases found with
  | false => exact failsOnlyBy_error rfl
  | true =>
    rw [if_neg (by decide)]
    apply (still_liftM _).failsOnlyBy_bind
    · exact failsOnlyBy_ok _
    intro _ _
    apply (still_wrapped _ _).failsOnlyBy_bind
    · exact (load_expected rooted configurable).mapError
    intro configuration loaded
    have reachable : tree.Reachable root root := by
      rw [Reachable, lookup_of_isAbsolute rooted.isAbsolute root environment.surroundings.workingDirectory]
      exact configurable.reachable
    apply (still_wrapped _ _).failsOnlyBy_bind
    · exact (selectedFiles_expected reachable (orderly.ignoring root located) orderly.whole _).mapError
    intro paths selected
    apply (still_liftM _).failsOnlyBy_bind
    · exact failsOnlyBy_ok _
    intro _ _
    exact documentFiles_expected orderly
      ⟨located, mapError_eq_ok_iff.mp loaded, mapError_eq_ok_iff.mp selected⟩

/-- A configuration that is there and no text makes the run fail in a way that is not reported. -/
theorem generate_of_illegible_configuration (named : environment.surroundings.Named) {root file : Path}
    (located : locate environment.surroundings request.path = .ok root)
    (found : tree.pathExists environment.surroundings.workingDirectory root = .ok true)
    (given : Configuration.fileFor tree environment.surroundings.workingDirectory root = .ok file)
    (illegible : ¬ tree.Legible environment.surroundings.workingDirectory file) :
    ∃ error, outcome (generate environment request) tree = .error error ∧ ¬ Reported true error := by
  obtain ⟨error, failed, unexpected⟩ :=
    load_of_not_legible (rooted_of_locate named located) given illegible
  refine ⟨.configuration (.unreadable error), ?_, not_reported unexpected⟩
  rw [outcome_generate located found, failed]
  rfl

/-- So does such an ignore file, in a project whose configuration can be used. -/
theorem generate_of_illegible_ignoreFile {root : Path} {entries : List (Text × FileTree)}
    {configuration : Configuration} (located : locate environment.surroundings request.path = .ok root)
    (stands : tree.lookup root root = .ok (.directory entries))
    (loaded : Configuration.load environment.reader environment.surroundings tree root = .ok configuration)
    (illegible : ¬ tree.Legible root (root.child ".gitignore")) :
    ∃ error, outcome (generate environment request) tree = .error error ∧ ¬ Reported true error := by
  have absolute : root.isAbsolute = true := by
    rw [Path.isAbsolute, (of_locate located).1]
    rfl
  have found : tree.pathExists environment.surroundings.workingDirectory root = .ok true := by
    rw [pathExists, search, lookup_of_isAbsolute absolute _ root, stands]
    rfl
  obtain ⟨error, failed, unexpected⟩ :=
    selectedFiles_of_not_legible stands illegible configuration request
  refine ⟨.discovery (.ignoreFile error), ?_, not_reported unexpected⟩
  rw [outcome_generate located found, loaded, mapError_ok_bind, failed]
  rfl

end Generate

/-! ## Runs over results -/

/-- How a request publishes the model of its run. -/
def ReportRequest.settings (request : ReportRequest) (environment : Environment)
    (configuration : Configuration) (outputDirectory : Path) : Publication.Settings where
  directory := environment.surroundings.workingDirectory
  outputDirectory
  generator := generatorOr configuration Document.runGenerator
  clock := environment.clock
  dryRun := request.dryRun

/-- What a request finds before it plays back the run. -/
structure ReportRequest.Finds (request : ReportRequest) (environment : Environment) (tree : FileTree)
    (results : Results) : Prop where
  loaded : ∃ file root, locate environment.surroundings request.results = .ok file ∧
    requestedRoot? environment.surroundings request.root = .ok root ∧
    Results.load environment.surroundings tree file root = .ok results

/-- A request whose failures are all reported: its paths and those that the results name can be spelled, the
time can be written, the configuration is a text if it is there, and what it writes has bytes. -/
structure ReportRequest.Orderly (request : ReportRequest) (environment : Environment) (tree : FileTree) :
    Prop where
  named : environment.surroundings.Named
  dated : ∃ timestamp, environment.clock.timestamp = .ok timestamp
  results : Spellable request.results
  root : ∀ text ∈ request.root, Spellable text
  reachable : ∀ file, locate environment.surroundings request.results = .ok file →
    tree.Reachable environment.surroundings.workingDirectory file
  namedRoot : ∀ file value text, locate environment.surroundings request.results = .ok file →
    Results.readValue tree environment.surroundings.workingDirectory file = .ok value →
    Results.namedRoot? value = some text → Spellable text
  configurable : ∀ results, request.Finds environment tree results →
    Configurable environment.reader environment.surroundings tree results.root
  files : ∀ results, request.Finds environment tree results → ResultsSpelled results
  destination : ∀ results configuration, request.Finds environment tree results →
    Configuration.load environment.reader environment.surroundings tree results.root = .ok configuration →
    request.destination.Spelled configuration
  encodable : request.dryRun = false → ∀ results configuration run outputDirectory,
    request.Finds environment tree results →
    Configuration.load environment.reader environment.surroundings tree results.root = .ok configuration →
    (replay tree (environment.calls.getD configuration.calls) results).outcome = .ok run →
    Publication.Encodable (request.settings environment configuration outputDirectory) run.model

section Report

variable {environment : Environment} {request : ReportRequest}

theorem report_expected (orderly : request.Orderly environment tree) :
    FailsOnlyBy (Error.isExpected false) (outcome (report environment request) tree) := by
  unfold report
  dsimp only
  apply (still_wrapped _ _).failsOnlyBy_bind
  · exact (locate_expected orderly.named orderly.results).mapError
  intro file located
  have located := mapError_eq_ok_iff.mp located
  rw [outcome_get_bind, pathExists, search_of_reachable (orderly.reachable file located)]
  apply (still_wrapped _ _).failsOnlyBy_bind
  · exact failsOnlyBy_ok _
  intro found _
  cases found with
  | false => exact failsOnlyBy_error rfl
  | true =>
    rw [if_neg (by decide)]
    rcases requestedRoot?_cases orderly.named orderly.root with ⟨root, requested, nameable⟩ | missing
    · rw [requested, (still_wrapped Error.path (.ok root)).outcome_bind]
      apply (still_wrapped _ _).failsOnlyBy_bind
      · have place := rooted_of_locate orderly.named located
        exact (results_expected orderly.named place.nameable nameable fun value text read =>
          orderly.namedRoot file value text located read).mapError
      intro results loaded
      have loaded := mapError_eq_ok_iff.mp loaded
      have finds : request.Finds environment tree results := ⟨file, root, located, requested, loaded⟩
      have rooted := rooted_of_results orderly.named loaded
      apply (still_wrapped _ _).failsOnlyBy_bind
      · exact (load_expected rooted (orderly.configurable results finds)).mapError
      intro configuration configured
      have configured := mapError_eq_ok_iff.mp configured
      have above := rooted_of_load rooted configured
      have spelled := orderly.destination results configuration finds configured
      apply (still_liftM _).failsOnlyBy_bind
      · exact failsOnlyBy_ok _
      intro _ _
      apply (still_wrapped _ _).failsOnlyBy_bind
      · exact (outputDirectory_expected orderly.named above spelled).mapError
      intro directory directed
      have directed := mapError_eq_ok_iff.mp directed
      obtain ⟨run, played, documented⟩ := @exists_replay tree
        (environment.calls.getD configuration.calls) results rooted.nameable (orderly.files results finds)
        (wellFormed_of_results loaded)
      rw [(played ▸ still_ofLogged _ _ : Still _ (.ok run) _).outcome_bind]
      have finished : ∃ summary, outcome (Run.adapt Error.publication
          (run.finish (request.settings environment configuration directory))) tree = .ok summary := by
        obtain ⟨summary, returned⟩ := exists_finish orderly.dated
          (nameable_outputDirectory orderly.named above spelled directed) documented
          (fun real => orderly.encodable real results configuration run directory finds configured played)
          tree
        rw [outcome_adapt, returned]
        exact ⟨summary, rfl⟩
      obtain ⟨summary, finished⟩ := finished
      rw [ReportRequest.settings] at finished
      rw [outcome_bind_of_ok finished, (still_liftM _).outcome_bind]
      exact failsOnlyBy_ok _
    · rw [missing, outcome_bind_of_error ((still_wrapped _ _).outcome tree)]
      exact failsOnlyBy_error rfl

end Report

theorem returns_or_reports {result : Except Error Summary}
    (fails : FailsOnlyBy (Error.isExpected expectsDirectory) result) :
    (∃ summary, result = .ok summary) ∨ ∃ error, result = .error error ∧ Reported expectsDirectory error := by
  cases given : result with
  | ok summary => exact .inl ⟨summary, rfl⟩
  | error error => exact .inr ⟨error, rfl, reported_iff.mpr (fails error given)⟩

/-- An orderly request returns a summary or fails in a way that is reported, whatever the sources and the
results hold. A configuration or an ignore file that is there and no text makes a run over sources fail in
a way that is not. -/
theorem failures_reported (environment : Environment) (tree : FileTree) :
    (∀ request : GenerateRequest, request.Orderly environment tree →
      (∃ summary, outcome (generate environment request) tree = .ok summary) ∨
        ∃ error, outcome (generate environment request) tree = .error error ∧ Reported true error) ∧
    (∀ request : ReportRequest, request.Orderly environment tree →
      (∃ summary, outcome (report environment request) tree = .ok summary) ∨
        ∃ error, outcome (report environment request) tree = .error error ∧ Reported false error) ∧
    (∀ (request : GenerateRequest) (root file : Path), environment.surroundings.Named →
      locate environment.surroundings request.path = .ok root →
      tree.pathExists environment.surroundings.workingDirectory root = .ok true →
      Configuration.fileFor tree environment.surroundings.workingDirectory root = .ok file →
      ¬ tree.Legible environment.surroundings.workingDirectory file →
      ∃ error, outcome (generate environment request) tree = .error error ∧ ¬ Reported true error) ∧
    ∀ (request : GenerateRequest) (root : Path) (entries : List (Text × FileTree))
      (configuration : Configuration),
      locate environment.surroundings request.path = .ok root →
      tree.lookup root root = .ok (.directory entries) →
      Configuration.load environment.reader environment.surroundings tree root = .ok configuration →
      ¬ tree.Legible root (root.child ".gitignore") →
      ∃ error, outcome (generate environment request) tree = .error error ∧ ¬ Reported true error := by
  refine ⟨?_, ?_, ?_, ?_⟩
  · intro request orderly
    exact returns_or_reports (generate_expected orderly)
  · intro request orderly
    exact returns_or_reports (report_expected orderly)
  · intro request root file named located found given illegible
    exact generate_of_illegible_configuration named located found given illegible
  · intro request root entries configuration located stands loaded illegible
    exact generate_of_illegible_ignoreFile located stands loaded illegible

theorem named_sampleEnvironment : sampleEnvironment.surroundings.Named :=
  ⟨by decide, by decide, by decide⟩

theorem dated_sampleEnvironment : ∃ timestamp, sampleEnvironment.clock.timestamp = .ok timestamp :=
  ⟨"2024-01-02T03:04:05.000Z", by decide +kernel⟩

theorem orderly_sampleRequest : sampleRequest.Orderly sampleEnvironment (.directory sampleRoot) := by
  have place : locate sampleEnvironment.surroundings sampleRequest.path = .ok ⟨.root, ["p"]⟩ := by
    decide +kernel
  constructor
  case named => exact named_sampleEnvironment
  case dated => exact dated_sampleEnvironment
  case path => decide
  case whole => rfl
  case configurable =>
    intro root located
    obtain rfl := Except.ok.inj (place.symm.trans located)
    exact @configurable_of_absent _ _ _ _ ⟨.root, ["p", ".annodoc.yml"]⟩ (by decide +kernel)
      (by decide +kernel) (by decide +kernel)
  case ignoring =>
    intro root located
    obtain rfl := Except.ok.inj (place.symm.trans located)
    exact .absent (by decide +kernel)
  case files =>
    intro root configuration paths finds
    obtain rfl := Except.ok.inj (place.symm.trans finds.located)
    obtain rfl := Except.ok.inj (load_sampleRoot.symm.trans finds.loaded)
    obtain rfl := Except.ok.inj (selectedFiles_sampleRoot.symm.trans finds.selected)
    have spelled : Spellable ("/out" : Text) := by decide
    exact ⟨spelled, by decide⟩
  case encodable =>
    intro real
    cases real

/-- A request for the file in which a suite stands. -/
def fileRequest : GenerateRequest :=
  { sampleRequest with path := "/p/a.ts", dryRun := false }

theorem outcome_fileRequest :
    (outcome (generate sampleEnvironment fileRequest) (.directory sampleRoot)).map (fun _ => ()) =
      .error (.discovery (.notDirectory "/p/a.ts")) := by
  decide +kernel

theorem orderly_fileRequest : fileRequest.Orderly sampleEnvironment (.directory sampleRoot) := by
  have place : locate sampleEnvironment.surroundings fileRequest.path = .ok ⟨.root, ["p", "a.ts"]⟩ := by
    decide +kernel
  -- Nothing is selected below a file, so it does not matter what would be written.
  have unselected {root : Path} {configuration : Configuration} {paths : List Path}
      (finds : fileRequest.Finds sampleEnvironment (.directory sampleRoot) root configuration paths) :
      False := by
    obtain rfl := Except.ok.inj (place.symm.trans finds.located)
    obtain ⟨patterns, discovered⟩ := selectedFiles_eq_ok finds.selected
    obtain ⟨texts, walked, -⟩ := bind_eq_ok_iff.mp discovered
    obtain ⟨entries, -, stands, -⟩ := Discovery.exists_of_kept walked
    have isFile : (FileTree.directory sampleRoot).isDirectoryAt ⟨.root, ["p", "a.ts"]⟩
        ⟨.root, ["p", "a.ts"]⟩ = .ok false := by
      decide +kernel
    rw [isDirectoryAt, search, stands] at isFile
    cases isFile
  constructor
  case named => exact named_sampleEnvironment
  case dated => exact dated_sampleEnvironment
  case path => decide
  case whole => rfl
  case configurable =>
    intro root located
    obtain rfl := Except.ok.inj (place.symm.trans located)
    exact @configurable_of_absent _ _ _ _ ⟨.root, ["p", ".annodoc.yml"]⟩ (by decide +kernel)
      (by decide +kernel) (by decide +kernel)
  case ignoring =>
    intro root located
    obtain rfl := Except.ok.inj (place.symm.trans located)
    exact .absent (by decide +kernel)
  case files =>
    intro root configuration paths finds
    exact (unselected finds).elim
  case encodable =>
    intro _ root configuration paths model outputDirectory finds
    exact (unselected finds).elim

/-- A request for the results beside a source. -/
def resultsRequest : ReportRequest where
  results := "/r.json"
  root := none
  destination := .configured
  dryRun := true

theorem load_resultsRequest :
    Configuration.load sampleEnvironment.reader sampleEnvironment.surroundings resultsTree
        sampleResults.root =
      .ok (Configuration.default ⟨.root, []⟩) := by
  have given : Configuration.fileFor resultsTree sampleEnvironment.surroundings.workingDirectory
      ⟨.root, []⟩ = .ok ⟨.root, [".annodoc.yml"]⟩ := by
    decide +kernel
  have nothing : resultsTree.pathExists sampleEnvironment.surroundings.workingDirectory
      ⟨.root, [".annodoc.yml"]⟩ = .ok false := by
    decide +kernel
  have rooted : Rooted ⟨.root, []⟩ := ⟨rfl, nofun, by decide⟩
  rw [sampleResults, load_of_fileFor rooted given, nothing]
  rfl

theorem orderly_resultsRequest : resultsRequest.Orderly sampleEnvironment resultsTree := by
  have place : locate sampleEnvironment.surroundings resultsRequest.results = .ok ⟨.root, ["r.json"]⟩ := by
    decide +kernel
  have found {results : Results} (finds : resultsRequest.Finds sampleEnvironment resultsTree results) :
      results = sampleResults := by
    obtain ⟨file, root, located, requested, loaded⟩ := finds.loaded
    obtain rfl := Except.ok.inj (place.symm.trans located)
    obtain rfl := Except.ok.inj requested
    exact (Except.ok.inj (load_resultsTree.symm.trans loaded)).symm
  constructor
  case named => exact named_sampleEnvironment
  case dated => exact dated_sampleEnvironment
  case results => decide
  case root => exact nofun
  case reachable =>
    intro file located long
    obtain rfl := Except.ok.inj (place.symm.trans located)
    have stands : (resultsTree.lookup sampleEnvironment.surroundings.workingDirectory
        ⟨.root, ["r.json"]⟩).isOk = true := by
      decide +kernel
    rw [long] at stands
    cases stands
  case namedRoot =>
    intro file value text located read given
    obtain rfl := Except.ok.inj (place.symm.trans located)
    obtain rfl := Except.ok.inj (readValue_resultsTree.symm.trans read)
    cases given
  case configurable =>
    intro results finds
    rw [found finds]
    exact @configurable_of_absent _ _ _ _ ⟨.root, [".annodoc.yml"]⟩ (by decide +kernel)
      (by decide +kernel) (by decide +kernel)
  case files =>
    intro results finds
    rw [found finds]
    have hosted : ∀ suite ∈ HostSuite.preorderAll sampleResults.suites,
        ∀ file ∈ suite.file?, Spellable file := by
      decide +kernel
    exact ⟨hosted, by decide⟩
  case destination =>
    intro results configuration finds loaded
    rw [found finds] at loaded
    obtain rfl := Except.ok.inj (load_resultsRequest.symm.trans loaded)
    have spelled : Spellable ("report" : Text) := by decide
    exact spelled
  case encodable =>
    intro real
    cases real

/-- A project and the results of a run are documented; a file in place of a project is refused with a
message. -/
theorem failures_reported_samples :
    sampleRequest.Orderly sampleEnvironment (.directory sampleRoot) ∧
      fileRequest.Orderly sampleEnvironment (.directory sampleRoot) ∧
      resultsRequest.Orderly sampleEnvironment resultsTree ∧
      Reported true (.discovery (.notDirectory "/p/a.ts")) ∧
      ((∃ summary, outcome (report sampleEnvironment resultsRequest) resultsTree = .ok summary) ∨
        ∃ error, outcome (report sampleEnvironment resultsRequest) resultsTree = .error error ∧
          Reported false error) := by
  refine ⟨orderly_sampleRequest, orderly_fileRequest, orderly_resultsRequest, ?_,
    (failures_reported _ _).2.1 _ orderly_resultsRequest⟩
  have refused := outcome_fileRequest
  rcases (failures_reported _ _).1 _ orderly_fileRequest with ⟨summary, returned⟩ | ⟨error, failed, reported⟩
  · rw [returned] at refused
    cases refused
  · rw [failed] at refused
    exact Except.error.inj refused ▸ reported

/-- An ignore file of one byte that is no text stops the run, and neither the command nor the service
expects it. -/
theorem generate_fails_unreported :
    let tree : FileTree := .directory [("p", .directory ((".gitignore", .file [0xFF]) :: sampleSources))]
    let error : Error := .discovery (.ignoreFile (.encoding ⟨.invalidStart, 0xFF, 0, 1⟩))
    (outcome (generate sampleEnvironment sampleRequest) tree).map (fun _ => ()) = .error error ∧
      CommandLine.failureOutcome "generate" true "" error = .error (.project error) ∧
      Service.failureResponse? error = none := by
  intro tree error
  have stopped : (outcome (generate sampleEnvironment sampleRequest) tree).map (fun _ => ()) =
      .error error := by
    decide +kernel
  exact ⟨stopped, rfl, rfl⟩

end Project

end SuiteDocs
