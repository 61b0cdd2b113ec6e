import SuiteDocs.CommandLine.Run
import SuiteDocs.Project.Generate
import SuiteDocs.Project.Report
import SuiteDocs.Proofs.Names
import SuiteDocs.Proofs.Recovery
import SuiteDocs.Service.Response

/-!
What a run reads before it documents anything, and how that fails.

A failure is reported if the command ends with a message for it, and the service answers with a refusal.
Results are refused whatever is wrong with their file. A configuration or an ignore file that is there and
holds no text is not: the run stops with a failure that nobody expects.
-/

set_option autoImplicit false

namespace SuiteDocs

open SuiteDocs.Text

theorem FailsOnlyBy.mapError {ε δ α : Type} {kind : δ → Bool} {wrap : ε → δ} {result : Except ε α}
    (fails : FailsOnlyBy (fun error => kind (wrap error)) result) :
    FailsOnlyBy kind (result.mapError wrap) := by
  cases result with
  | ok value => exact failsOnlyBy_ok value
  | error error => exact failsOnlyBy_error (fails error rfl)

/-! ## Looking at files -/

namespace FileTree

variable {tree : FileTree} {directory path : Path}

/-- The path is not refused for its length. -/
def Reachable (tree : FileTree) (directory path : Path) : Prop :=
  tree.lookup directory path ≠ .error .nameTooLong

/-- At the path stands a text, or nothing at all. -/
inductive Legible (tree : FileTree) (directory path : Path) : Prop where
  | text {text : Text} (read : tree.readText directory path = .ok text)
  | absent (nothing : tree.pathExists directory path = .ok false)

theorem search_of_reachable (reachable : tree.Reachable directory path) :
    tree.search directory path = .ok (tree.lookup directory path).toOption := by
  rw [search]
  cases looked : tree.lookup directory path with
  | ok node => rfl
  | error cause =>
    cases cause with
    | nameTooLong => exact absurd looked reachable
    | missing => rfl
    | «exists» => rfl
    | notDirectory => rfl
    | isDirectory => rfl

theorem pathExists_of_readText {text : Text} (read : tree.readText directory path = .ok text) :
    tree.pathExists directory path = .ok true := by
  rw [readText] at read
  cases looked : tree.lookup directory path with
  | error cause =>
    rw [looked] at read
    cases read
  | ok node =>
    rw [pathExists, search, looked]
    rfl

theorem Legible.cases (legible : tree.Legible directory path) :
    tree.pathExists directory path = .ok false ∨
      tree.pathExists directory path = .ok true ∧ ∃ text, tree.readText directory path = .ok text := by
  cases legible with
  | absent nothing => exact .inl nothing
  | @text text read => exact .inr ⟨pathExists_of_readText read, text, read⟩

theorem lookup_of_search {node : FileTree} (searched : tree.search directory path = .ok (some node)) :
    tree.lookup directory path = .ok node := by
  rw [search] at searched
  split at searched
  · rename_i other looked
    exact looked.trans (congrArg _ (Option.some.inj (Except.ok.inj searched)))
  · cases searched
  · cases searched

theorem unexpected_of_search {error : Error} (searched : tree.search directory path = .error error) :
    Project.failureOfRead (.file error) = .unexpected := by
  rw [search] at searched
  split at searched
  · cases searched
  · obtain rfl := Except.error.inj searched
    rfl
  · cases searched

/-- What stands at a path is a directory or holds no text if it cannot be read. -/
theorem unexpected_of_readText {node : FileTree} {error : ReadError}
    (looked : tree.lookup directory path = .ok node)
    (read : tree.readText directory path = .error error) :
    Project.failureOfRead error = .unexpected := by
  rw [readText, looked] at read
  split at read
  · rename_i wrong
    cases wrong
  · obtain rfl := Except.error.inj read
    rfl
  · split at read
    · obtain rfl := Except.error.inj read
      rfl
    · cases read

/-- What stands at a path and is no text is refused in a way that nobody expects, and so is a path that is
too long. -/
theorem cases_of_not_legible (illegible : ¬ tree.Legible directory path) :
    ∃ error, Project.failureOfRead error = .unexpected ∧
      ((tree.pathExists directory path).mapError .file = .error error ∨
        tree.pathExists directory path = .ok true ∧ tree.readText directory path = .error error) := by
  cases searched : tree.search directory path with
  | error error =>
    refine ⟨.file error, unexpected_of_search searched, .inl ?_⟩
    rw [pathExists, searched]
    rfl
  | ok found =>
    cases found with
    | none =>
      refine absurd (.absent ?_) illegible
      rw [pathExists, searched]
      rfl
    | some node =>
      have stands : tree.pathExists directory path = .ok true := by
        rw [pathExists, searched]
        rfl
      cases read : tree.readText directory path with
      | ok text => exact absurd (.text read) illegible
      | error error =>
        exact ⟨error, unexpected_of_readText (lookup_of_search searched) read, .inr ⟨stands, rfl⟩⟩

theorem lookup_of_isAbsolute (absolute : path.isAbsolute = true) (directory other : Path) :
    tree.lookup directory path = tree.lookup other path := by
  have same : rawParts directory path = rawParts other path := by
    rw [rawParts, rawParts, Path.join, if_pos absolute, Path.join, if_pos absolute]
  rw [lookup, lookup, same]

end FileTree

namespace Project

open FileTree SuiteDocs.Path

/-! ## What is reported -/

/-- Whether a command expects an error. One that looks for no directory expects none to be missing. -/
def Error.isExpected (expectsDirectory : Bool) (error : Error) : Bool :=
  match error.failure with
  | .notFound => true
  | .notDirectory => expectsDirectory
  | .refused => true
  | .unexpected => false

/-- The command ends with status 1 and the message of the error, and the service refuses the request with
that message. -/
structure Reported (expectsDirectory : Bool) (error : Error) : Prop where
  ends : ∀ name logged, ∃ said,
    CommandLine.failureOutcome name expectsDirectory logged error = .ok ⟨1, "", said, none⟩ ∧
      error.message <:+: said
  answered : ∃ status ∈ [400, 404], Service.failureResponse? error = some (.refused status error.message)

theorem reported_iff {expectsDirectory : Bool} {error : Error} :
    Reported expectsDirectory error ↔ error.isExpected expectsDirectory = true := by
  have plain (logged : Text) : error.message <:+: logged ++ error.message ++ "\n" :=
    ⟨logged, "\n", rfl⟩
  constructor
  · intro reported
    obtain ⟨said, ends, -⟩ := reported.ends "" ""
    rw [CommandLine.failureOutcome] at ends
    rw [Error.isExpected]
    cases failure : error.failure with
    | notFound => rfl
    | refused => rfl
    | notDirectory =>
      rw [failure] at ends
      cases expectsDirectory with
      | true => rfl
      | false => cases ends
    | unexpected =>
      rw [failure] at ends
      cases ends
  · intro expected
    rw [Error.isExpected] at expected
    constructor
    case ends =>
      intro name logged
      rw [CommandLine.failureOutcome]
      cases failure : error.failure with
      | notFound => exact ⟨_, rfl, plain logged⟩
      | refused =>
        refine ⟨_, rfl, logged ++ "annodoc " ++ name ++ " failed: ", "\n" ++
          "Run with --verbose for more details.\n", ?_⟩
        simp only [List.append_assoc]
      | notDirectory =>
        rw [failure] at expected
        subst expected
        exact ⟨_, rfl, plain logged⟩
      | unexpected =>
        rw [failure] at expected
        cases expected
    case answered =>
      rw [Service.failureResponse?]
      cases failure : error.failure with
      | notFound => exact ⟨404, by decide, rfl⟩
      | refused => exact ⟨400, by decide, rfl⟩
      | notDirectory => exact ⟨400, by decide, rfl⟩
      | unexpected =>
        rw [failure] at expected
        cases expected

theorem not_reported {expectsDirectory : Bool} {error : Error} (unexpected : error.failure = .unexpected) :
    ¬ Reported expectsDirectory error := by
  rw [reported_iff, Error.isExpected, unexpected]
  exact Bool.false_ne_true

/-! ## Finding and reading what a run needs -/

variable {reader : Configuration.Reader} {surroundings : Surroundings} {tree : FileTree}
  {expectsDirectory : Bool}

theorem locate_expected (named : surroundings.Named) {text : Text} (spellable : Spellable text) :
    FailsOnlyBy (fun error => (Error.path error).isExpected expectsDirectory)
      (locate surroundings text) := by
  rcases locate_cases named spellable with ⟨path, located⟩ | missing
  · rw [located]
    exact failsOnlyBy_ok path
  · rw [missing]
    exact failsOnlyBy_error rfl

/-- The configuration that a path leads to can be looked for, is a text if it is there, and uses no part of
its language for which there is no message. -/
structure Configurable (reader : Configuration.Reader) (surroundings : Surroundings) (tree : FileTree)
    (path : Path) : Prop where
  reachable : tree.Reachable surroundings.workingDirectory path
  legible : ∀ file, Configuration.fileFor tree surroundings.workingDirectory path = .ok file →
    tree.Legible surroundings.workingDirectory file
  usable : ∀ file text error, Configuration.fileFor tree surroundings.workingDirectory path = .ok file →
    tree.readText surroundings.workingDirectory file = .ok text →
    Configuration.ofText reader file.parent text = .error (.unusable error) →
    error = .malformed ∨ error = .tooDeep

/-- A project without a configuration. -/
theorem configurable_of_absent {root file : Path}
    (reachable : (tree.lookup surroundings.workingDirectory root).isOk = true)
    (given : Configuration.fileFor tree surroundings.workingDirectory root = .ok file)
    (nothing : tree.pathExists surroundings.workingDirectory file = .ok false) :
    Configurable reader surroundings tree root := by
  constructor
  case reachable =>
    intro long
    rw [long] at reachable
    cases reachable
  case legible =>
    intro other same
    obtain rfl := Except.ok.inj (given.symm.trans same)
    exact .absent nothing
  case usable =>
    intro other text error same read _
    obtain rfl := Except.ok.inj (given.symm.trans same)
    cases nothing.symm.trans (pathExists_of_readText read)

theorem exists_fileFor {directory path : Path} (reachable : tree.Reachable directory path) :
    ∃ file, Configuration.fileFor tree directory path = .ok file := by
  have looked : ∃ isDirectory, tree.isDirectoryAt directory path = .ok isDirectory := by
    rw [isDirectoryAt, search_of_reachable reachable]
    exact ⟨_, rfl⟩
  obtain ⟨isDirectory, looked⟩ := looked
  rw [Configuration.fileFor, looked, ok_bind]
  split
  · exact ⟨_, rfl⟩
  · split
    · exact ⟨_, rfl⟩
    · exact ⟨_, rfl⟩

theorem rooted_of_fileFor {directory path file : Path} (rooted : path.Rooted)
    (given : Configuration.fileFor tree directory path = .ok file) : file.Rooted := by
  have isName : IsName Configuration.fileName := by decide
  have spellable : Spellable Configuration.fileName := by decide
  obtain ⟨isDirectory, -, given⟩ := bind_eq_ok_iff.mp given
  split at given
  · obtain rfl := Except.ok.inj given
    exact rooted.child isName spellable
  · split at given
    · obtain rfl := Except.ok.inj given
      exact rooted.parent.child isName spellable
    · obtain rfl := Except.ok.inj given
      exact rooted

/-- Loading looks for one file, which neither the home directory nor the working directory decides. -/
theorem load_of_fileFor {path file : Path} (rooted : path.Rooted)
    (given : Configuration.fileFor tree surroundings.workingDirectory path = .ok file) :
    Configuration.load reader surroundings tree path = (do
      if ← (tree.pathExists surroundings.workingDirectory file).mapError
          (Configuration.Error.unreadable ∘ .file) then
        let text ← (tree.readText surroundings.workingDirectory file).mapError .unreadable
        Configuration.ofText reader file.parent text
      else return Configuration.default file.parent) := by
  rw [Configuration.load, rooted.expandHome_eq, Except.mapError, ok_bind, given, Except.mapError, ok_bind,
    (rooted_of_fileFor rooted given).resolve_eq, Except.mapError, ok_bind]

theorem ofText_cases {root : Path} {text : Text} {error : Configuration.Error}
    (failed : Configuration.ofText reader root text = .error error) :
    (∃ cause, error = .unusable cause) ∨ error = .notMapping := by
  rw [Configuration.ofText] at failed
  split at failed
  · cases failed
  · split at failed
    · exact .inl ⟨_, (Except.error.inj failed).symm⟩
    · rename_i document _
      split at failed
      · cases failed
      · cases spelled : Configuration.ofDocument root document with
        | ok configuration =>
          rw [spelled] at failed
          cases failed
        | error cause =>
          rw [spelled] at failed
          exact .inl ⟨cause, (Except.error.inj failed).symm⟩
      · exact .inr (Except.error.inj failed).symm

theorem root_of_ofText {root : Path} {text : Text} {configuration : Configuration}
    (spelled : Configuration.ofText reader root text = .ok configuration) : configuration.root = root := by
  rw [Configuration.ofText] at spelled
  split at spelled
  · exact Except.ok.inj spelled ▸ rfl
  · split at spelled
    · cases spelled
    · split at spelled
      · exact Except.ok.inj spelled ▸ rfl
      · have spelled := mapError_eq_ok_iff.mp spelled
        simp only [Configuration.ofDocument, bind_eq_ok_iff] at spelled
        obtain ⟨_, _, _, _, _, _, _, _, _, _, _, _, made⟩ := spelled
        exact Except.ok.inj made ▸ rfl
      · cases spelled

theorem load_expected {path : Path} (rooted : path.Rooted)
    (configurable : Configurable reader surroundings tree path) :
    FailsOnlyBy (fun error => (Error.configuration error).isExpected expectsDirectory)
      (Configuration.load reader surroundings tree path) := by
  obtain ⟨file, given⟩ := exists_fileFor configurable.reachable
  rw [load_of_fileFor rooted given]
  rcases (configurable.legible file given).cases with absent | ⟨stands, text, read⟩
  · rw [absent, Except.mapError, ok_bind]
    exact failsOnlyBy_ok _
  · rw [stands, Except.mapError, ok_bind, if_pos rfl, read, Except.mapError, ok_bind]
    intro error failed
    rcases ofText_cases failed with ⟨cause, rfl⟩ | rfl
    · rcases configurable.usable file text cause given read failed with rfl | rfl
      · rfl
      · rfl
    · rfl

theorem rooted_of_load {path : Path} (rooted : path.Rooted) {configuration : Configuration}
    (loaded : Configuration.load reader surroundings tree path = .ok configuration) :
    configuration.root.Rooted := by
  cases given : Configuration.fileFor tree surroundings.workingDirectory path with
  | error error =>
    rw [Configuration.load, rooted.expandHome_eq, Except.mapError, ok_bind, given] at loaded
    cases loaded
  | ok file =>
    rw [load_of_fileFor rooted given] at loaded
    obtain ⟨stands, -, loaded⟩ := bind_eq_ok_iff.mp loaded
    split at loaded
    · obtain ⟨text, -, spelled⟩ := bind_eq_ok_iff.mp loaded
      rw [root_of_ofText spelled]
      exact (rooted_of_fileFor rooted given).parent
    · obtain rfl := Except.ok.inj loaded
      exact (rooted_of_fileFor rooted given).parent

theorem load_of_not_legible {path file : Path} (rooted : path.Rooted)
    (given : Configuration.fileFor tree surroundings.workingDirectory path = .ok file)
    (illegible : ¬ tree.Legible surroundings.workingDirectory file) :
    ∃ error, Configuration.load reader surroundings tree path = .error (.unreadable error) ∧
      failureOfRead error = .unexpected := by
  obtain ⟨error, unexpected, unsearched | ⟨stands, unread⟩⟩ := cases_of_not_legible illegible
  · refine ⟨error, ?_, unexpected⟩
    rw [load_of_fileFor rooted given]
    cases searched : tree.pathExists surroundings.workingDirectory file with
    | ok stands =>
      rw [searched] at unsearched
      cases unsearched
    | error cause =>
      rw [searched] at unsearched
      obtain rfl := Except.error.inj unsearched
      rfl
  · refine ⟨error, ?_, unexpected⟩
    rw [load_of_fileFor rooted given, stands, Except.mapError, ok_bind, if_pos rfl, unread]
    rfl

/-! ## Finding sources -/

theorem ignoreRules_of_legible {root : Path} (legible : tree.Legible root (root.child ".gitignore"))
    (excluded : List Text) : ∃ rules, Discovery.ignoreRules tree root excluded = .ok rules := by
  rw [Discovery.ignoreRules, Discovery.ignoreFileRules]
  rcases legible.cases with absent | ⟨stands, text, read⟩
  · rw [absent]
    exact ⟨_, rfl⟩
  · rw [stands, read]
    exact ⟨_, rfl⟩

theorem ignoreRules_of_not_legible {root : Path} (illegible : ¬ tree.Legible root (root.child ".gitignore"))
    (excluded : List Text) :
    ∃ error, Discovery.ignoreRules tree root excluded = .error error ∧
      failureOfRead error = .unexpected := by
  rw [Discovery.ignoreRules, Discovery.ignoreFileRules]
  obtain ⟨error, unexpected, unsearched | ⟨stands, unread⟩⟩ := cases_of_not_legible illegible
  · rw [unsearched]
    exact ⟨error, rfl, unexpected⟩
  · rw [stands, unread]
    exact ⟨error, rfl, unexpected⟩

theorem kept_expected {root : Path} (reachable : tree.Reachable root root)
    (legible : tree.Legible root (root.child ".gitignore")) (written : Text) (excluded : List Text) :
    FailsOnlyBy (fun error => (Error.discovery error).isExpected true)
      (Discovery.kept tree root written excluded) := by
  obtain ⟨rules, ruled⟩ := ignoreRules_of_legible legible excluded
  rw [Discovery.kept, search_of_reachable reachable, ruled]
  cases tree.lookup root root with
  | error cause => exact failsOnlyBy_error rfl
  | ok node =>
    cases node with
    | file bytes => exact failsOnlyBy_error rfl
    | directory entries => exact failsOnlyBy_ok _

theorem selectedFiles_expected {root : Path} (reachable : tree.Reachable root root)
    (legible : tree.Legible root (root.child ".gitignore")) {request : GenerateRequest}
    (whole : request.broken = false) (configuration : Configuration) :
    FailsOnlyBy (fun error => (Error.discovery error).isExpected true)
      (selectedFiles tree root configuration request) := by
  rw [selectedFiles, whole, if_neg Bool.false_ne_true]
  apply (kept_expected reachable legible _ _).bind
  intro paths found
  exact failsOnlyBy_ok _

/-- An ignore file that is no text stops the run, with or without patterns. -/
theorem selectedFiles_of_not_legible {root : Path} {entries : List (Text × FileTree)}
    (stands : tree.lookup root root = .ok (.directory entries))
    (illegible : ¬ tree.Legible root (root.child ".gitignore")) (configuration : Configuration)
    (request : GenerateRequest) :
    ∃ error, selectedFiles tree root configuration request = .error (.ignoreFile error) ∧
      failureOfRead error = .unexpected := by
  obtain ⟨error, ruled, unexpected⟩ := ignoreRules_of_not_legible illegible configuration.excludedPaths
  have stopped : Discovery.kept tree root root.toText configuration.excludedPaths =
      .error (.ignoreFile error) := by
    rw [Discovery.kept, search, stands]
    dsimp only
    rw [ruled]
  refine ⟨error, ?_, unexpected⟩
  rw [selectedFiles]
  split
  · rw [Discovery.discoverAll, stopped]
    rfl
  · rw [Discovery.discover, stopped]
    rfl

/-! ## Finding results -/

theorem requestedRoot?_cases (named : surroundings.Named) {root : Option Text}
    (spellable : ∀ text ∈ root, Spellable text) :
    (∃ requested, requestedRoot? surroundings root = .ok requested ∧
        ∀ path ∈ requested, Nameable path.parts) ∨
      requestedRoot? surroundings root = .error .noHome := by
  rw [requestedRoot?]
  split
  · exact .inl ⟨none, rfl, nofun⟩
  · rename_i text given
    have spelled := spellable text (Option.mem_filter_iff.mp given).1
    rcases expandHome_cases named (nameable_ofText spelled) with ⟨expanded, found, nameable⟩ | missing
    · rw [found]
      refine .inl ⟨some expanded, rfl, ?_⟩
      intro path same
      exact Option.some.inj same ▸ nameable
    · rw [missing]
      exact .inr rfl

theorem readValue_expected (tree : FileTree) (directory path : Path) :
    FailsOnlyBy (fun error => (Error.results error).isExpected expectsDirectory)
      (Results.readValue tree directory path) := by
  rw [Results.readValue]
  split
  · exact failsOnlyBy_error rfl
  · exact failsOnlyBy_error rfl
  · split
    · split
      · exact failsOnlyBy_error rfl
      · exact failsOnlyBy_error rfl
    · exact failsOnlyBy_error rfl
    · split
      · exact failsOnlyBy_ok _
      · exact failsOnlyBy_error rfl
      · exact failsOnlyBy_error rfl

theorem results_expected (named : surroundings.Named) {file : Path} (nameable : Nameable file.parts)
    {root : Option Path} (rooted : ∀ path ∈ root, Nameable path.parts)
    (spelled : ∀ value text, Results.readValue tree surroundings.workingDirectory file = .ok value →
      Results.namedRoot? value = some text → Spellable text) :
    FailsOnlyBy (fun error => (Error.results error).isExpected expectsDirectory)
      (Results.load surroundings tree file root) := by
  rw [Results.load]
  apply (readValue_expected tree surroundings.workingDirectory file).bind
  intro value read
  split
  · have start : Nameable
        ((root.or ((Results.namedRoot? value).map Path.ofText)).getD file.parent).parts := by
      cases root with
      | some path => exact rooted path rfl
      | none =>
        cases own : Results.namedRoot? value with
        | none => exact nameable_parent nameable
        | some text => exact nameable_ofText (spelled value text read own)
    dsimp only
    rcases expandHome_cases named start with ⟨expanded, found, others⟩ | missing
    · obtain ⟨resolved, given⟩ := exists_resolve surroundings.workingDirectory others
      rw [found, Except.mapError, ok_bind, given]
      exact failsOnlyBy_ok _
    · rw [missing]
      exact failsOnlyBy_error rfl
  · exact failsOnlyBy_error rfl

theorem rooted_of_results (named : surroundings.Named) {file : Path} {root : Option Path} {results : Results}
    (loaded : Results.load surroundings tree file root = .ok results) : results.root.Rooted := by
  obtain ⟨value, -, loaded⟩ := bind_eq_ok_iff.mp loaded
  split at loaded
  · obtain ⟨expanded, -, loaded⟩ := bind_eq_ok_iff.mp loaded
    obtain ⟨resolved, given, made⟩ := bind_eq_ok_iff.mp loaded
    obtain rfl := Except.ok.inj made
    exact rooted_of_resolve named.workingDirectory (mapError_eq_ok_iff.mp given)
  · cases loaded

end Project

end SuiteDocs
