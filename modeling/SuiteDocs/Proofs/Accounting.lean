import SuiteDocs.Project.Generate
import SuiteDocs.Proofs.Discovering
import SuiteDocs.Proofs.Publishing
import SuiteDocs.Proofs.Recovery

/-!
What becomes of every file that a run over the sources of a project finds.

A file is documented, or it is left out with one warning. Which of the two depends on its own text. The
keys of the files differ, so no file takes the place of another in the model, and the summary of the run
lists those that are left out.
-/

set_option autoImplicit false

namespace SuiteDocs

open SuiteDocs.Text

namespace LoggedExcept

variable {ε α : Type}

theorem messages_tryCatch_of_ok {computation : LoggedExcept ε α} {value : α}
    (given : computation.outcome = .ok value) (handle : ε → LoggedExcept ε α) :
    messages (tryCatch computation handle) = computation.messages := by
  obtain ⟨result, records⟩ := computation
  obtain rfl : result = .ok value := given
  exact List.append_nil records

theorem messages_tryCatch_of_error {computation : LoggedExcept ε α} {error : ε}
    (given : computation.outcome = .error error) (handle : ε → LoggedExcept ε α) :
    messages (tryCatch computation handle) = computation.messages ++ (handle error).messages := by
  obtain ⟨result, records⟩ := computation
  obtain rfl : result = .error error := given
  rfl

end LoggedExcept

namespace Model

open LoggedExcept

/-- The warning about a file that cannot be read. -/
def unreadableReport (path : Path) (error : SourceFile.ReadError) : LogRecord :=
  ⟨.warning, Suite.component, "Skipping unreadable file " ++ path.toText ++ ": " ++ error.message⟩

/-- The message that a file is read. -/
def readingReport (key : Text) : LogRecord :=
  ⟨.debug, Suite.component, "Processing file: " ++ key⟩

/-- The warning about a file that declares no suite. -/
def noSuiteReport (key : Text) : LogRecord :=
  ⟨.warning, Suite.component, "Skipping " ++ key ++ ": " ++ (SourceFile.Error.noSuite key).message⟩

/-- What becomes of the file at a path, and what is logged about it. No other file has a part in it. -/
inductive Fate (tree : FileTree) (calls : Calls) (root path : Path) (key : Text) :
    Option Suite → List LogRecord → Prop where
  | unreadable {error} : SourceFile.readText tree root path = .error error →
      Fate tree calls root path key none [unreadableReport path error]
  | noSuite {text} : SourceFile.readText tree root path = .ok text →
      (Suite.ofSource calls ⟨key, text⟩).outcome = .error (.noSuite key) →
      Fate tree calls root path key none [readingReport key, noSuiteReport key]
  | documented {text suite} : SourceFile.readText tree root path = .ok text →
      (Suite.ofSource calls ⟨key, text⟩).outcome = .ok suite →
      Fate tree calls root path key (some suite)
        (readingReport key :: (Suite.ofSource calls ⟨key, text⟩).messages)

/-- A file that cannot be read, or whose text declares no suite. -/
def Unusable (tree : FileTree) (calls : Calls) (root path : Path) (key : Text) : Prop :=
  (∃ error, SourceFile.readText tree root path = .error error) ∨
    ∃ text, SourceFile.readText tree root path = .ok text ∧
      (Suite.ofSource calls ⟨key, text⟩).outcome = .error (.noSuite key)

theorem Fate.eq_none_iff {tree : FileTree} {calls : Calls} {root path : Path} {key : Text}
    {suite? : Option Suite} {records : List LogRecord} (fate : Fate tree calls root path key suite? records) :
    suite? = none ↔ Unusable tree calls root path key := by
  cases fate with
  | unreadable failed => exact iff_of_true rfl (.inl ⟨_, failed⟩)
  | noSuite read missing => exact iff_of_true rfl (.inr ⟨_, read, missing⟩)
  | documented read found =>
    refine iff_of_false (Option.some_ne_none _) ?_
    rintro (⟨error, failed⟩ | ⟨text, again, missing⟩)
    · cases read.symm.trans failed
    · obtain rfl := Except.ok.inj (read.symm.trans again)
      cases found.symm.trans missing

/-- There is one warning about a file that is left out, and it names the file. -/
theorem Fate.exists_warning {tree : FileTree} {calls : Calls} {root path : Path} {key : Text}
    {records : List LogRecord} (fate : Fate tree calls root path key none records) :
    ∃ warning, records.filter (·.level == .warning) = [warning] ∧
      (("Skipping unreadable file " ++ path.toText : Text) <+: warning.message ∨
        ("Skipping " ++ key : Text) <+: warning.message) := by
  cases fate with
  | @unreadable error failed =>
    refine ⟨unreadableReport path error, rfl, .inl ?_⟩
    rw [unreadableReport, List.append_assoc _ (": " : Text)]
    exact List.prefix_append _ _
  | noSuite read missing =>
    refine ⟨noSuiteReport key, rfl, .inr ?_⟩
    rw [noSuiteReport, List.append_assoc _ (": " : Text)]
    exact List.prefix_append _ _

theorem messages_ofSource_of_noSuite {calls : Calls} {file : SourceFile}
    (missing : (Suite.ofSource calls file).outcome = .error (.noSuite file.path)) :
    (Suite.ofSource calls file).messages = [] := by
  rcases Block.first_total file.text calls.suites 0 none with ⟨block, found⟩ | absent
  · obtain ⟨suite, read⟩ := Suite.exists_ofSource found
    cases missing.symm.trans read
  · rw [Suite.ofSource, absent]
    rfl

theorem messages_addSource_of_ok {calls : Calls} {file : SourceFile} {suite : Suite}
    (read : (Suite.ofSource calls file).outcome = .ok suite) (model : Model) :
    (addSource calls model file).messages =
      readingReport file.path :: (Suite.ofSource calls file).messages := by
  have added : outcome (do return model.add (← Suite.ofSource calls file)) = .ok (model.add suite) := by
    rw [outcome_bind, read]
    rfl
  rw [addSource, messages_bind_of_ok rfl, messages_lift, messages_tryCatch_of_ok added,
    messages_bind_of_ok read, messages_pure, List.append_nil]
  rfl

theorem messages_addSource_of_noSuite {calls : Calls} {file : SourceFile}
    (missing : (Suite.ofSource calls file).outcome = .error (.noSuite file.path)) (model : Model) :
    (addSource calls model file).messages = [readingReport file.path, noSuiteReport file.path] := by
  have failed : outcome (do return model.add (← Suite.ofSource calls file)) =
      .error (.noSuite file.path) := by
    rw [outcome_bind, missing]
    rfl
  rw [addSource, messages_bind_of_ok rfl, messages_lift, messages_tryCatch_of_error failed,
    messages_bind_of_error missing, messages_ofSource_of_noSuite missing]
  rfl

theorem filePath_of_ofSource {calls : Calls} {file : SourceFile} {suite : Suite}
    (read : (Suite.ofSource calls file).outcome = .ok suite) : suite.filePath = file.path := by
  obtain ⟨block, options, tests, -, -, -, rfl⟩ := Suite.outcome_ofSource.mp read
  rfl

theorem addFile_eq_ok {tree : FileTree} {calls : Calls} {root path : Path} {key : Text}
    {model next : Model} (keyed : Path.keyFrom root path.toText = .ok key)
    (given : (addFile tree calls root model path).outcome = .ok next) :
    ∃ suite? records, Fate tree calls root path key suite? records ∧
      (addFile tree calls root model path).messages = records ∧
      next = (suite?.map (model.insert key)).getD model := by
  cases checked : path.check with
  | error error =>
    -- Such a path stops the run.
    have read : SourceFile.read tree root root path = .ok (.error error) := by
      rw [SourceFile.read, checked]
    rw [addFile, read] at given
    cases given
  | ok checked =>
    cases text? : SourceFile.readText tree root path with
    | error error =>
      have read : SourceFile.read tree root root path = .error error := by
        rw [SourceFile.read, checked]
        dsimp only
        rw [text?]
        rfl
      rw [addFile, read] at given ⊢
      exact ⟨none, _, .unreadable text?, rfl, (Except.ok.inj given).symm⟩
    | ok text =>
      have read : SourceFile.read tree root root path = .ok (.ok ⟨key, text⟩) := by
        rw [SourceFile.read, checked]
        dsimp only
        rw [text?, ok_bind, keyed]
        rfl
      have outcomes : (addFile tree calls root model path).outcome =
          (addSource calls model ⟨key, text⟩).outcome.mapError .source := by
        rw [addFile, read]
        rfl
      have said : (addFile tree calls root model path).messages =
          (addSource calls model ⟨key, text⟩).messages := by
        rw [addFile, read]
        exact messages_adapt _ _
      rw [outcomes, mapError_eq_ok_iff, outcome_addSource] at given
      obtain rfl := Except.ok.inj given
      rw [said]
      rcases Suite.ofSource_total calls ⟨key, text⟩ with ⟨suite, found⟩ | missing
      · refine ⟨some suite, _, .documented text? found, messages_addSource_of_ok found model, ?_⟩
        rw [found]
        exact congrArg (model.insert · suite) (filePath_of_ofSource found)
      · refine ⟨none, _, .noSuite text? missing, messages_addSource_of_noSuite missing model, ?_⟩
        rw [missing]
        rfl

/-- A file with its key, its suite if it has one, and what is logged about it. -/
structure Filed where
  path : Path
  key : Text
  suite? : Option Suite
  records : List LogRecord

/-- The entry of a file in the model. -/
def Filed.pair? (file : Filed) : Option (Text × Suite) :=
  file.suite?.map (file.key, ·)

/-- The keys of files below a root. -/
abbrev KeysFrom (root : Path) (paths : List Path) (keys : List Text) : Prop :=
  List.Forall₂ (fun path key => Path.keyFrom root path.toText = .ok key) paths keys

/-- Taking in files one by one gives each of them its fate. -/
theorem addFiles_eq_ok {tree : FileTree} {calls : Calls} {root : Path} {paths : List Path}
    {keys : List Text} (keyed : KeysFrom root paths keys)
    {model final : Model} (given : (paths.foldlM (addFile tree calls root) model).outcome = .ok final) :
    ∃ files : List Filed, files.map (·.path) = paths ∧ files.map (·.key) = keys ∧
      (∀ file ∈ files, Fate tree calls root file.path file.key file.suite? file.records) ∧
      (paths.foldlM (addFile tree calls root) model).messages = files.flatMap (·.records) ∧
      final = (files.filterMap Filed.pair?).foldl (fun model pair => model.insert pair.1 pair.2) model := by
  -- What is logged about a file and the suite that it adds do not depend on the model so far.
  induction keyed generalizing model with
  | nil => exact ⟨[], rfl, rfl, fun _ => List.not_mem_nil.elim, rfl, (Except.ok.inj given).symm⟩
  | @cons path key paths keys keyed others ih =>
    rw [List.foldlM_cons] at given ⊢
    rw [outcome_bind] at given
    obtain ⟨next, first, later⟩ := bind_eq_ok_iff.mp given
    obtain ⟨suite?, records, fate, said, added⟩ := addFile_eq_ok keyed first
    obtain ⟨files, rfl, rfl, fates, saidLater, rfl⟩ := ih later
    refine ⟨⟨path, key, suite?, records⟩ :: files, rfl, rfl, List.forall_mem_cons.mpr ⟨fate, fates⟩, ?_, ?_⟩
    · rw [messages_bind_of_ok first, said, saidLater, List.flatMap_cons]
    · rw [added, List.filterMap_cons]
      cases suite? with
      | none => rfl
      | some suite => rfl

/-! ## Documented and left out -/

theorem keys_filterMap_pair? (files : List Filed) :
    (files.filterMap Filed.pair?).map (·.1) = (files.filter (·.suite?.isSome)).map (·.key) := by
  induction files with
  | nil => rfl
  | cons file rest ih =>
    obtain ⟨path, key, suite?, records⟩ := file
    cases suite? with
    | none => exact ih
    | some suite => exact congrArg (key :: ·) ih

theorem mem_filterMap_pair? {files : List Filed} {key : Text} {suite : Suite} :
    (key, suite) ∈ files.filterMap Filed.pair? ↔
      ∃ file ∈ files, file.key = key ∧ file.suite? = some suite := by
  rw [List.mem_filterMap]
  refine exists_congr fun file => and_congr_right fun _ => ?_
  rw [Filed.pair?, Option.map_eq_some_iff]
  constructor
  · rintro ⟨_, given, same⟩
    obtain ⟨rfl, rfl⟩ := Prod.mk.inj same
    exact ⟨rfl, given⟩
  · rintro ⟨rfl, given⟩
    exact ⟨suite, given, rfl⟩

variable {files : List Filed}

theorem nodup_keys_filterMap_pair? (distinct : (files.map (·.key)).Nodup) :
    ((files.filterMap Filed.pair?).map (·.1)).Nodup := by
  rw [keys_filterMap_pair?]
  exact distinct.sublist (List.filter_sublist.map _)

theorem entries_of_fold (distinct : (files.map (·.key)).Nodup) :
    ((files.filterMap Filed.pair?).foldl (fun model pair => model.insert pair.1 pair.2)
      (OrderedMap.empty : Model)).entries = files.filterMap Filed.pair? :=
  OrderedMap.entries_foldl_insert (nodup_keys_filterMap_pair? distinct)

theorem contains_key {model : Model} (distinct : (files.map (·.key)).Nodup)
    (documented : model.entries = files.filterMap Filed.pair?) {file : Filed} (member : file ∈ files) :
    model.contains file.key = file.suite?.isSome := by
  have entry (suite : Suite) : (file.key, suite) ∈ model.entries ↔ file.suite? = some suite := by
    rw [documented, mem_filterMap_pair?]
    constructor
    · rintro ⟨other, inFiles, same, given⟩
      obtain rfl := List.inj_on_of_nodup_map distinct inFiles member same
      exact given
    · exact fun given => ⟨file, member, rfl, given⟩
  have keys : model.keys.Nodup := by
    change (model.entries.map (·.1)).Nodup
    rw [documented]
    exact nodup_keys_filterMap_pair? distinct
  rw [OrderedMap.contains]
  cases given : file.suite? with
  | some suite => rw [OrderedMap.get?_of_mem keys ((entry suite).mpr given)]
  | none =>
    cases found : model.get? file.key with
    | none => rfl
    | some suite =>
      -- Another file would have to have the same key.
      cases given.symm.trans ((entry suite).mp (OrderedMap.mem_of_get? found))

theorem filter_keys {model : Model} (distinct : (files.map (·.key)).Nodup)
    (documented : model.entries = files.filterMap Filed.pair?) :
    (files.map (·.key)).filter (!model.contains ·) = (files.filter (·.suite?.isNone)).map (·.key) := by
  rw [List.filter_map]
  refine congrArg (List.map Filed.key) (List.filter_congr fun file member => ?_)
  rw [Function.comp_apply, contains_key distinct documented member]
  cases file.suite? <;> rfl

end Model

/-! ## Keys of discovered files -/

namespace Project

open FileTree Discovery SuiteDocs.Path Run

theorem isName_of_lookup {entries inside : List (Text × FileTree)} (named : WellNamed entries) {root : Path}
    (anchored : root.anchor = .root) (forward : ∀ part ∈ root.parts, part ≠ back)
    (stands : (FileTree.directory entries).lookup root root = .ok (.directory inside)) :
    (∀ part ∈ root.parts, IsName part) ∧ WellNamed inside := by
  obtain ⟨-, -, place, followed, found⟩ := lookup_eq_ok_iff.mp stands
  have raw : rawParts root root = root.parts := by
    rw [rawParts, Path.join, if_pos]
    rw [isAbsolute, anchored]
    rfl
  rw [raw] at followed
  obtain ⟨rfl, -⟩ := find?_of_follow rfl followed forward
  obtain ⟨names, final⟩ := named.find? found
  exact ⟨names, final inside rfl⟩

theorem selectedFiles_eq_ok {tree : FileTree} {root : Path} {configuration : Configuration}
    {request : GenerateRequest} {paths : List Path}
    (selected : selectedFiles tree root configuration request = .ok paths) :
    ∃ patterns, discover tree root root.toText patterns configuration.excludedPaths = .ok paths := by
  unfold selectedFiles at selected
  split at selected
  · obtain ⟨_, -, later⟩ := bind_eq_ok_iff.mp selected
    split at later
    · exact ⟨_, later⟩
    · cases later
  · exact ⟨_, selected⟩

theorem keys_eq_map_joined {root : Path} (anchored : root.anchor = .root)
    (rooted : ∀ part ∈ root.parts, IsName part) {places : List (List Text)}
    (names : ∀ place ∈ places, place ≠ [] ∧ ∀ part ∈ place, IsName part) {keys : List Text}
    (keyed : Model.KeysFrom root (places.map root.under) keys) :
    keys = places.map joined := by
  induction places generalizing keys with
  | nil =>
    cases keyed
    rfl
  | cons place rest ih =>
    cases keyed with
    | cons first others =>
      obtain ⟨⟨nonempty, each⟩, names⟩ := List.forall_mem_cons.mp names
      rw [eq_joined_of_keyFrom anchored rooted each nonempty first, ih names others]
      rfl

/-- No two files that a request selects have the same key. -/
theorem nodup_keys {entries : List (Text × FileTree)} (named : WellNamed entries)
    {surroundings : Surroundings} {written : Text} {root : Path}
    (located : locate surroundings written = .ok root) {configuration : Configuration}
    {request : GenerateRequest} {paths : List Path}
    (selected : selectedFiles (.directory entries) root configuration request = .ok paths)
    {keys : List Text} (keyed : Model.KeysFrom root paths keys) : keys.Nodup := by
  obtain ⟨anchored, forward⟩ := of_locate located
  obtain ⟨patterns, discovered⟩ := selectedFiles_eq_ok selected
  obtain ⟨texts, walked, -⟩ := bind_eq_ok_iff.mp discovered
  obtain ⟨inside, rules, stands, ruled⟩ := exists_of_kept walked
  obtain ⟨rooted, namedInside⟩ := isName_of_lookup named anchored forward stands
  rw [discover_eq stands namedInside ruled] at discovered
  obtain rfl := Except.ok.inj discovered
  have names : ∀ place ∈ placesSelected rules patterns inside, place ≠ [] ∧ ∀ part ∈ place, IsName part :=
    fun place member =>
      ⟨ne_nil_of_mem_placesSelected namedInside member, isName_of_mem_placesSelected namedInside member⟩
  rw [keys_eq_map_joined anchored rooted names keyed]
  refine (pairwise_placesSelected namedInside patterns).imp fun before same => ?_
  subst same
  exact not_before_self _ before

/-! ## Runs -/

/-- How a request publishes a model. -/
def settingsFor (environment : Environment) (configuration : Configuration) (request : GenerateRequest)
    (outputDirectory : Path) : Publication.Settings where
  directory := environment.surroundings.workingDirectory
  outputDirectory
  generator := generatorOr configuration Document.sourceGenerator
  clock := environment.clock
  dryRun := request.dryRun

/-- What a run does with the files that it has found. -/
def documentFiles (environment : Environment) (request : GenerateRequest) (tree : FileTree) (root : Path)
    (configuration : Configuration) (paths : List Path) : Run Error Summary := do
  let model ← Run.ofLogged id
    (Model.ofFiles tree (environment.calls.getD configuration.calls) root paths)
  let outputDirectory ← Run.ofExcept id
    (outputDirectory environment configuration request.destination)
  let published ← Run.adapt .publication
    (Publication.publish (settingsFor environment configuration request outputDirectory) model)
  let skipped ← Run.ofExcept .path (skippedKeys root model paths)
  let summary := { published with skipped }
  logSummary summary
  return summary

/-- A run that returns has found its root, its configuration and its files, in a tree that it has not
changed so far, and goes on with them. -/
theorem generate_eq_ok {environment : Environment} {request : GenerateRequest} {tree : FileTree}
    {summary : Summary} (given : outcome (generate environment request) tree = .ok summary) :
    ∃ root configuration paths,
      locate environment.surroundings request.path = .ok root ∧
      Configuration.load environment.reader environment.surroundings tree root = .ok configuration ∧
      selectedFiles tree root configuration request = .ok paths ∧
      outcome (documentFiles environment request tree root configuration paths) tree = .ok summary ∧
      ∃ before, (∀ record ∈ before, record.component = component) ∧
        messages (generate environment request) tree =
          before ++ messages (documentFiles environment request tree root configuration paths) tree := by
  unfold generate at given ⊢
  dsimp only at given ⊢
  obtain ⟨root, located, given, -, saidLocating⟩ := (still_wrapped _ _).bind_eq_ok given
  -- Nothing changes the tree before the documents are written.
  rw [outcome_get_bind] at given
  obtain ⟨found, -, given, -, saidFinding⟩ := (still_wrapped _ _).bind_eq_ok given
  cases found with
  | false => cases given
  | true =>
    rw [if_neg (by decide)] at given
    obtain ⟨-, -, given, -, saidStarting⟩ := (still_liftM _).bind_eq_ok given
    obtain ⟨configuration, loaded, given, -, saidLoading⟩ := (still_wrapped _ _).bind_eq_ok given
    obtain ⟨paths, selected, given, -, saidSelecting⟩ := (still_wrapped _ _).bind_eq_ok given
    obtain ⟨-, -, given, -, saidCounting⟩ := (still_liftM _).bind_eq_ok given
    rw [saidLocating, messages_get_bind, saidFinding, if_neg (by decide), saidStarting, saidLoading,
      saidSelecting, saidCounting]
    refine ⟨root, configuration, paths, mapError_eq_ok_iff.mp located, mapError_eq_ok_iff.mp loaded,
      mapError_eq_ok_iff.mp selected, given, [⟨.info, component, _⟩, ⟨.debug, component, _⟩], ?_, rfl⟩
    intro record member
    rcases List.mem_pair.mp member with rfl | rfl
    · rfl
    · rfl

theorem component_of_logSummary {summary : Summary} {record : LogRecord}
    (member : record ∈ (logSummary summary).records) : record.component = component := by
  unfold logSummary at member
  split at member
  · exact List.mem_singleton.mp member ▸ rfl
  · exact List.mem_singleton.mp member ▸ rfl

/-- The files become a model, the model is published, and the keys that it does not have are listed. Only
the building of the model logs under the name of the builder. -/
theorem documentFiles_eq_ok {environment : Environment} {request : GenerateRequest} {tree : FileTree}
    {root : Path} {configuration : Configuration} {paths : List Path} {summary : Summary}
    (given : outcome (documentFiles environment request tree root configuration paths) tree = .ok summary) :
    ∃ model outputDirectory published skipped,
      (Model.ofFiles tree (environment.calls.getD configuration.calls) root paths).outcome = .ok model ∧
      outcome (Publication.publish (settingsFor environment configuration request outputDirectory) model)
        tree = .ok published ∧
      skippedKeys root model paths = .ok skipped ∧
      summary = { published with skipped } ∧
      ∃ after, (∀ record ∈ after, record.component ≠ Suite.component) ∧
        messages (documentFiles environment request tree root configuration paths) tree =
          (Model.ofFiles tree (environment.calls.getD configuration.calls) root paths).messages ++ after := by
  unfold documentFiles at given ⊢
  dsimp only at given ⊢
  obtain ⟨model, built, given, -, saidBuilding⟩ := (still_ofLogged _ _).bind_eq_ok given
  obtain ⟨outputDirectory, -, given, -, saidDirecting⟩ := (still_wrapped _ _).bind_eq_ok given
  obtain ⟨published, publishing, given⟩ := outcome_bind_eq_ok_iff.mp given
  obtain ⟨skipped, listed, given, -, saidListing⟩ := (still_wrapped _ _).bind_eq_ok given
  obtain ⟨-, -, given, -, saidSumming⟩ := (still_liftM _).bind_eq_ok given
  rw [saidBuilding, saidDirecting, messages_bind_of_ok publishing, messages_adapt, saidListing, saidSumming,
    (still_pure _).messages]
  rw [outcome_adapt] at publishing
  refine ⟨model, outputDirectory, published, skipped, mapError_eq_ok_iff.mp built,
    mapError_eq_ok_iff.mp publishing, mapError_eq_ok_iff.mp listed, (Except.ok.inj given).symm, _, ?_, rfl⟩
  intro record member
  rw [List.nil_append, List.nil_append, List.append_nil] at member
  rcases List.mem_append.mp member with early | late
  · rw [Publication.emits_publishAll _ _ _ tree record early]
    decide
  · rw [component_of_logSummary late]
    decide

/-- A model and the keys that it lacks account for files: every file has a fate and a key of its own; the
model has the suites of the files that have one, and the others are listed, both in the order of the
files. -/
structure Accounts (tree : FileTree) (calls : Calls) (root : Path) (files : List Model.Filed)
    (model : Model) (skipped : List Text) : Prop where
  keyed : ∀ file ∈ files, keyFrom root file.path.toText = .ok file.key
  fates : ∀ file ∈ files, Model.Fate tree calls root file.path file.key file.suite? file.records
  distinct : (files.map (·.key)).Nodup
  documented : model.entries = files.filterMap Model.Filed.pair?
  keys : model.keys = (files.filter (·.suite?.isSome)).map (·.key)
  skipped : skipped = (files.filter (·.suite?.isNone)).map (·.key)

theorem accounts_of_ofFiles {tree : FileTree} {calls : Calls} {root : Path} {paths : List Path}
    {model : Model} (built : (Model.ofFiles tree calls root paths).outcome = .ok model)
    {keys : List Text} (keyed : Model.KeysFrom root paths keys) (distinct : keys.Nodup) :
    ∃ files : List Model.Filed, files.map (·.path) = paths ∧
      Accounts tree calls root files model (keys.filter (!model.contains ·)) ∧
      (Model.ofFiles tree calls root paths).messages = files.flatMap (·.records) := by
  obtain ⟨files, rfl, rfl, fates, said, rfl⟩ := Model.addFiles_eq_ok keyed built
  refine ⟨files, rfl, ?_, said⟩
  have documented := Model.entries_of_fold distinct
  constructor
  case keyed =>
    rw [Model.KeysFrom, List.forall₂_map_left_iff, List.forall₂_map_right_iff] at keyed
    exact List.forall₂_same.mp keyed
  case fates => exact fates
  case distinct => exact distinct
  case documented => exact documented
  case keys =>
    rw [OrderedMap.keys, documented]
    exact Model.keys_filterMap_pair? files
  case skipped => exact Model.filter_keys distinct documented

theorem Accounts.mem_skipped_iff {tree : FileTree} {calls : Calls} {root : Path}
    {files : List Model.Filed} {model : Model} {skipped : List Text}
    (accounts : Accounts tree calls root files model skipped) {file : Model.Filed} (member : file ∈ files) :
    file.key ∈ skipped ↔ file.suite? = none := by
  rw [accounts.skipped, List.mem_map]
  constructor
  · rintro ⟨other, kept, same⟩
    obtain ⟨inFiles, isNone⟩ := List.mem_filter.mp kept
    obtain rfl := List.inj_on_of_nodup_map accounts.distinct inFiles member same
    exact Option.isNone_iff_eq_none.mp isNone
  · intro isNone
    exact ⟨file, List.mem_filter.mpr ⟨member, Option.isNone_iff_eq_none.mpr isNone⟩, rfl⟩

theorem Accounts.length_eq {tree : FileTree} {calls : Calls} {root : Path} {files : List Model.Filed}
    {model : Model} {skipped : List Text} (accounts : Accounts tree calls root files model skipped) :
    files.length = model.suites.length + skipped.length := by
  have suites : model.suites.length = (files.filter (·.suite?.isSome)).length := by
    rw [← List.length_map Model.Filed.key, ← accounts.keys, OrderedMap.keys, List.length_map]
    exact List.length_map _
  have rest : skipped.length = (files.filter fun file => !file.suite?.isSome).length := by
    rw [accounts.skipped, List.length_map]
    simp only [Option.not_isSome]
  rw [suites, rest]
  exact List.length_eq_length_filter_add _

/-- A run that returns accounts for all files it has found. Each is documented by the suite of its own
text, or it is left out because it cannot be read or has no suite, and then listed and warned about
once. -/
theorem generate_accounts {entries : List (Text × FileTree)} (named : WellNamed entries)
    {environment : Environment} {request : GenerateRequest} {summary : Summary}
    (given : outcome (generate environment request) (.directory entries) = .ok summary) :
    ∃ root configuration paths files model outputDirectory published,
      locate environment.surroundings request.path = .ok root ∧
      Configuration.load environment.reader environment.surroundings (.directory entries) root =
        .ok configuration ∧
      selectedFiles (.directory entries) root configuration request = .ok paths ∧
      files.map Model.Filed.path = paths ∧
      Accounts (.directory entries) (environment.calls.getD configuration.calls) root files model
        summary.skipped ∧
      (∀ file ∈ files,
        (file.key ∈ summary.skipped ↔ Model.Unusable (.directory entries)
          (environment.calls.getD configuration.calls) root file.path file.key) ∧
        (file.key ∈ summary.skipped →
          ∃ warning, file.records.filter (·.level == .warning) = [warning] ∧
            (("Skipping unreadable file " ++ file.path.toText : Text) <+: warning.message ∨
              ("Skipping " ++ file.key : Text) <+: warning.message))) ∧
      outcome (Publication.publish (settingsFor environment configuration request outputDirectory) model)
        (.directory entries) = .ok published ∧
      summary = { published with skipped := summary.skipped } ∧
      paths.length = summary.suites + summary.skipped.length ∧
      ∃ before after,
        messages (generate environment request) (.directory entries) =
          before ++ files.flatMap (·.records) ++ after ∧
        ∀ record ∈ before ++ after, record.component ≠ Suite.component := by
  obtain ⟨root, configuration, paths, located, loaded, selected, documenting, before, early, said⟩ :=
    generate_eq_ok given
  obtain ⟨model, outputDirectory, published, skipped, built, publishing, listed, rfl, after, late,
    saidLater⟩ := documentFiles_eq_ok documenting
  obtain ⟨keys, found, rest⟩ := bind_eq_ok_iff.mp listed
  obtain rfl := Except.ok.inj rest
  have keyed := mapM_eq_ok_iff.mp found
  obtain ⟨files, rfl, accounts, records⟩ :=
    accounts_of_ofFiles built keyed (nodup_keys named located selected keyed)
  refine ⟨root, configuration, _, files, model, outputDirectory, published, located, loaded, selected, rfl,
    accounts, fun file member => ⟨?_, fun left => ?_⟩, publishing, rfl, ?_, before, after, ?_, ?_⟩
  · rw [accounts.mem_skipped_iff member, (accounts.fates file member).eq_none_iff]
  · have fate := accounts.fates file member
    rw [(accounts.mem_skipped_iff member).mp left] at fate
    exact fate.exists_warning
  · rw [List.length_map, accounts.length_eq]
    exact congrArg (· + _) (Publication.suites_publishAll publishing).symm
  · rw [said, saidLater, records, List.append_assoc]
  · intro record member
    rcases List.mem_append.mp member with inBefore | inAfter
    · rw [early record inBefore]
      decide
    · exact late record inAfter

/-- Where there is something at the path of a request, a run loads the configuration, selects the files
and documents them. -/
theorem outcome_generate {environment : Environment} {request : GenerateRequest} {tree : FileTree}
    {root : Path} (located : locate environment.surroundings request.path = .ok root)
    (found : tree.pathExists environment.surroundings.workingDirectory root = .ok true) :
    outcome (generate environment request) tree =
      (Configuration.load environment.reader environment.surroundings tree root).mapError .configuration >>=
        fun configuration =>
          (selectedFiles tree root configuration request).mapError .discovery >>= fun paths =>
            outcome (documentFiles environment request tree root configuration paths) tree := by
  unfold generate
  dsimp only
  rw [located, Still.outcome_bind (still_wrapped _ (.ok root)), outcome_get_bind, found,
    Still.outcome_bind (still_wrapped _ (.ok true)), if_neg (by decide),
    Still.outcome_bind (still_liftM _), (still_wrapped _ _).outcome_bind_eq]
  congr 1
  funext configuration
  rw [(still_wrapped _ _).outcome_bind_eq]
  rfl

/-- A suite, a file without one, and bytes that are no text. -/
def sampleSources : List (Text × FileTree) :=
  [("a.ts", .file (("s('s',()=>\x7bt('a',()=>\x7b\x7d)\x7d)" : Text).flatMap Utf8.bytesOf)),
    ("b.ts", .file [0x78]), ("c.ts", .file [0xFF])]

theorem wellNamed_sampleSources : WellNamed sampleSources :=
  .file (by decide) (by decide) <| .file (by decide) (by decide) <| .file (by decide) (by decide) .nil

def sampleRoot : List (Text × FileTree) := [("p", .directory sampleSources)]

theorem wellNamed_sampleRoot : WellNamed sampleRoot :=
  .directory (by decide) (by decide) wellNamed_sampleSources .nil

def sampleEnvironment : Environment where
  surroundings := ⟨⟨.root, []⟩, "/", []⟩
  clock := ⟨2024, 1, 2, 3, 4, 5, 0, some 0⟩
  calls := some ⟨["s"], ["t"]⟩
  reader := Yaml.Document.ofText

def sampleRequest : GenerateRequest where
  path := "/p"
  destination := .directory "/out"
  patterns := ["*.ts"]
  broken := false
  dryRun := true

theorem load_sampleRoot :
    Configuration.load sampleEnvironment.reader sampleEnvironment.surroundings (.directory sampleRoot)
        ⟨.root, ["p"]⟩ =
      .ok (Configuration.default ⟨.root, ["p"]⟩) := by
  have expanded : expandHome sampleEnvironment.surroundings ⟨.root, ["p"]⟩ = .ok ⟨.root, ["p"]⟩ := by
    decide +kernel
  have file : Configuration.fileFor (.directory sampleRoot) ⟨.root, []⟩ ⟨.root, ["p"]⟩ =
      .ok ⟨.root, ["p", ".annodoc.yml"]⟩ := by
    decide +kernel
  have resolved : Path.resolve ⟨.root, []⟩ ⟨.root, ["p", ".annodoc.yml"]⟩ =
      .ok ⟨.root, ["p", ".annodoc.yml"]⟩ := by
    decide +kernel
  have missing : (FileTree.directory sampleRoot).pathExists ⟨.root, []⟩ ⟨.root, ["p", ".annodoc.yml"]⟩ =
      .ok false := by
    decide +kernel
  have directory : sampleEnvironment.surroundings.workingDirectory = ⟨.root, []⟩ := rfl
  simp only [Configuration.load, directory, expanded, file, resolved, missing, Except.mapError, ok_bind]
  rfl

theorem selectedFiles_sampleRoot :
    selectedFiles (.directory sampleRoot) ⟨.root, ["p"]⟩ (Configuration.default ⟨.root, ["p"]⟩)
      sampleRequest = .ok [⟨.root, ["p", "a.ts"]⟩, ⟨.root, ["p", "b.ts"]⟩, ⟨.root, ["p", "c.ts"]⟩] := by
  have stands : (FileTree.directory sampleRoot).lookup ⟨.root, ["p"]⟩ ⟨.root, ["p"]⟩ =
      .ok (.directory sampleSources) :=
    lookup_eq_ok_iff.mpr ⟨by decide, by decide +kernel, ["p"], by decide +kernel, rfl⟩
  have ruled : ignoreRules (.directory sampleRoot) ⟨.root, ["p"]⟩ [] = .ok [] := by
    decide +kernel
  have places : placesSelected [] ["*.ts"] sampleSources =
      [(["a.ts"] : List Text), ["b.ts"], ["c.ts"]] := by
    have walked : placesBelow [] [] sampleSources = [(["a.ts"] : List Text), ["b.ts"], ["c.ts"]] := by
      rw [sampleSources]
      simp only [placesBelow]
      decide +kernel
    have filtered :
        (placesBelow [] [] sampleSources).filter (fun place => isSelected ["*.ts"] (joined place)) =
          [(["a.ts"] : List Text), ["b.ts"], ["c.ts"]] := by
      rw [walked]
      decide +kernel
    rw [placesSelected, filtered]
    exact List.mergeSort_of_pairwise (by decide +kernel)
  change discover _ _ _ ["*.ts"] [] = _
  rw [discover_eq stands wellNamed_sampleSources ruled, places]
  rfl

/-- The run documents one file and warns about the two others. -/
theorem generate_accounts_sampleRoot :
    WellNamed sampleRoot ∧
      ∃ summary,
        outcome (generate sampleEnvironment sampleRequest) (.directory sampleRoot) = .ok summary ∧
        summary.skipped = ["b.ts", "c.ts"] ∧ 3 = summary.suites + summary.skipped.length := by
  have located : locate sampleEnvironment.surroundings sampleRequest.path = .ok ⟨.root, ["p"]⟩ := by
    decide +kernel
  have found : (FileTree.directory sampleRoot).pathExists
      sampleEnvironment.surroundings.workingDirectory ⟨.root, ["p"]⟩ = .ok true := by
    decide +kernel
  have returned : (outcome (generate sampleEnvironment sampleRequest) (.directory sampleRoot)).toOption.map
      (·.skipped) = some [("b.ts" : Text), "c.ts"] := by
    rw [outcome_generate located found, load_sampleRoot, mapError_ok_bind, selectedFiles_sampleRoot,
      mapError_ok_bind]
    decide +kernel
  cases given : outcome (generate sampleEnvironment sampleRequest) (.directory sampleRoot) with
  | error error =>
    rw [given] at returned
    cases returned
  | ok summary =>
    rw [given] at returned
    obtain ⟨root, configuration, paths, files, -, -, -, located', loaded, selected, -, -, -, -, -, counted, -⟩ :=
      generate_accounts wellNamed_sampleRoot given
    obtain rfl := Except.ok.inj (located.symm.trans located')
    obtain rfl := Except.ok.inj (load_sampleRoot.symm.trans loaded)
    obtain rfl := Except.ok.inj (selectedFiles_sampleRoot.symm.trans selected)
    exact ⟨wellNamed_sampleRoot, summary, rfl, Option.some.inj returned, counted⟩

end Project

end SuiteDocs
