import SuiteDocs.Proofs.Accounting
import SuiteDocs.Proofs.Delivery
import SuiteDocs.Proofs.Rehearsal

/-!
What a run documents, it documents to the end.

Files whose paths can be spelled are all taken in or left out, outcomes of tests in such files are all
played back, and documents that have bytes are all published, whatever the sources and the results hold.
-/

set_option autoImplicit false

namespace SuiteDocs

open SuiteDocs.Text

/-! ## Building models -/

namespace Model

open LoggedExcept SuiteDocs.Path

/-- The paths of all documented files can be spelled. -/
def Spelled (model : Model) : Prop :=
  ∀ suite ∈ model.suites, Spellable suite.filePath

theorem spelled_empty : Spelled OrderedMap.empty := by
  intro suite listed
  cases listed

theorem Spelled.add {model : Model} (spelled : model.Spelled) {suite : Suite}
    (here : Spellable suite.filePath) : (model.add suite).Spelled := by
  intro other listed
  obtain ⟨entry, member, rfl⟩ := List.mem_map.mp listed
  cases OrderedMap.mem_insertEntry member with
  | inl same =>
    subst same
    exact here
  | inr old => exact spelled entry.2 (List.mem_map_of_mem old)

/-- A file whose path can be named is taken in or left out, whatever it holds. -/
theorem exists_addFile {tree : FileTree} {calls : Calls} {root path : Path} (rooted : Nameable root.parts)
    (nameable : Nameable path.parts) {model : Model} (spelled : model.Spelled) :
    ∃ next, (addFile tree calls root model path).outcome = .ok next ∧ next.Spelled := by
  obtain ⟨key, keyed⟩ := exists_keyFrom rooted (spellable_toText nameable)
  have checked : path.check = .ok () := check_eq_ok_iff.mpr nameable
  rw [addFile, SourceFile.read, checked]
  dsimp only
  cases SourceFile.readText tree root path with
  | error error => exact ⟨model, rfl, spelled⟩
  | ok text =>
    rw [ok_bind, keyed]
    change ∃ next, outcome (ExceptT.adapt Project.Error.source (addSource calls model ⟨key, text⟩)) =
      .ok next ∧ next.Spelled
    rw [outcome_adapt, outcome_addSource]
    refine ⟨_, rfl, ?_⟩
    cases read : (Suite.ofSource calls ⟨key, text⟩).outcome with
    | error error => exact spelled
    | ok suite =>
      apply spelled.add
      rw [filePath_of_ofSource read]
      exact spellable_of_keyFrom rooted keyed

theorem exists_ofFiles {tree : FileTree} {calls : Calls} {root : Path} (rooted : Nameable root.parts)
    {paths : List Path} (each : ∀ path ∈ paths, Nameable path.parts) :
    ∃ model, (ofFiles tree calls root paths).outcome = .ok model ∧ model.Spelled := by
  have pass {model : Model} (spelled : model.Spelled) :
      ∃ final, paths.foldlM (fun model path => (addFile tree calls root model path).outcome) model =
        .ok final ∧ final.Spelled := by
    induction paths generalizing model with
    | nil => exact ⟨model, rfl, spelled⟩
    | cons path rest ih =>
      obtain ⟨first, others⟩ := List.forall_mem_cons.mp each
      obtain ⟨next, added, spelled⟩ := @exists_addFile tree calls root path rooted first model spelled
      rw [List.foldlM_cons, added, ok_bind]
      exact ih others spelled
  rw [ofFiles, outcome_foldlM]
  exact pass spelled_empty

end Model

namespace Hierarchy

open LoggedExcept SuiteDocs.Path

theorem keys_of_addSuite {tree : FileTree} {calls : Calls} {root : Path} {contexts final : Contexts}
    {node : HostSuite} (added : (addSuite tree calls root contexts node).outcome = .ok final) {key : Text}
    (listed : key ∈ final.keys) : key ∈ contexts.keys ∨ ∃ file, keyFrom root file = .ok key := by
  have inserted {file other : Text} {context : FileContext} (keyed : keyFrom root file = .ok other)
      (inside : key ∈ (contexts.insert other context).keys) :
      key ∈ contexts.keys ∨ ∃ file, keyFrom root file = .ok key := by
    obtain ⟨entry, member, rfl⟩ := List.mem_map.mp inside
    cases OrderedMap.mem_insertEntry member with
    | inl same => exact .inr ⟨file, same ▸ keyed⟩
    | inr old => exact .inl (List.mem_map_of_mem old)
  cases takes_of_addSuite added with
  | unfiled named => exact .inl listed
  | known named keyed found more => exact inserted keyed listed
  | passed named keyed unknown container => exact .inl listed
  | opened named keyed unknown counts starts more => exact inserted keyed listed

theorem spelled_of_model {tree : FileTree} {calls : Calls} {root : Path} (rooted : Nameable root.parts)
    {nodes : List HostSuite} {built : Model} (given : (model tree calls root nodes).outcome = .ok built) :
    built.Spelled := by
  have filed := (Model.consistent_of_hierarchy given).filed
  obtain ⟨contexts, passed, rfl⟩ := exists_contexts_of_model given
  have keys : ∀ key ∈ contexts.keys, Spellable key := by
    refine @foldlM_keeps _ _ _ _ (fun contexts => ∀ key ∈ contexts.keys, Spellable key) ?_ _ _ _
      (fun key listed => absurd listed List.not_mem_nil) passed
    intro state node next spelled added key listed
    cases keys_of_addSuite added listed with
    | inl old => exact spelled key old
    | inr new =>
      obtain ⟨file, keyed⟩ := new
      exact spellable_of_keyFrom rooted keyed
  intro suite listed
  obtain ⟨entry, member, rfl⟩ := List.mem_map.mp listed
  rw [filed entry member]
  obtain ⟨known, inContexts, rfl⟩ := List.mem_map.mp member
  exact keys known.1 (List.mem_map_of_mem inContexts)

end Hierarchy

namespace TestRun

/-- A report changes neither the root nor the files. -/
theorem kept_of_step (run : TestRun) (report : Report) :
    (run.step report).root = run.root ∧
      (run.step report).model.suites.map (·.filePath) = run.model.suites.map (·.filePath) := by
  have annotated (key title : Text) (annotations : List Annotation) :
      (run.annotate key title annotations).model.suites.map (·.filePath) =
        run.model.suites.map (·.filePath) := by
    simp only [annotate, OrderedMap.adjust, Model.suites, OrderedMap.values, List.map_map]
    apply List.map_congr_left
    intro entry _
    simp only [Function.comp_apply]
    split
    · rfl
    · rfl
  rw [step, testEnded]
  split
  · exact ⟨rfl, rfl⟩
  · split
    · exact ⟨rfl, rfl⟩
    · dsimp only
      split
      · exact ⟨rfl, annotated _ _ _⟩
      · exact ⟨rfl, annotated _ _ _⟩

end TestRun

/-! ## Publishing -/

namespace Publication

open Run SuiteDocs.Path

/-- The documents of a model have bytes. -/
def Encodable (settings : Settings) (model : Model) : Prop :=
  ∀ timestamp, settings.clock.timestamp = .ok timestamp →
    ∀ suite ∈ model.suites, ∃ bytes,
      Utf8.encode (Document.render settings.generator timestamp suite) = .ok bytes

theorem publishable_of_spelled {settings : Settings} {timestamp : Text} {model : Model}
    (dated : settings.clock.timestamp = .ok timestamp) (spelled : model.Spelled)
    (encodable : Encodable settings model) :
    ∀ suite ∈ model.suites, Publishable settings timestamp suite := by
  intro suite listed
  refine ⟨?_, encodable timestamp dated suite listed⟩
  intro nul
  have allowed := spelled suite listed _ nul
  revert allowed
  decide

/-- Publishing returns, whatever stands in the way of the documents. -/
theorem exists_publish {settings : Settings} {model : Model}
    (dated : ∃ timestamp, settings.clock.timestamp = .ok timestamp)
    (named : Nameable settings.outputDirectory.parts) (spelled : model.Spelled)
    (encodable : settings.dryRun = false → Encodable settings model) (tree : FileTree) :
    ∃ summary, outcome (publish settings model) tree = .ok summary := by
  obtain ⟨timestamp, dated⟩ := dated
  rw [publish]
  cases dry : settings.dryRun with
  | true => exact ⟨_, (publishAll_dryRun dated dry _ _ tree).1⟩
  | false =>
    have each := publishable_of_spelled dated spelled (encodable dry)
    obtain ⟨verdicts, -, returned, -⟩ :=
      publishAll_attempts dated dry (check_eq_ok_iff.mpr named) each _ tree
    exact ⟨_, returned⟩

end Publication

/-! ## Playing back results -/

namespace Project

open Run SuiteDocs.Path

variable {tree : FileTree}

theorem wellFormed_of_results {surroundings : Surroundings} {file : Path} {root : Option Path}
    {results : Results} (loaded : Results.load surroundings tree file root = .ok results) :
    ∀ ended ∈ results.outcomes, ended.report.WellFormed := by
  obtain ⟨value, read, -⟩ := bind_eq_ok_iff.mp loaded
  intro ended member
  rw [(Results.suites_of_load read loaded).2, ResultSuite.outcomesOfAll_eq] at member
  obtain ⟨placement, listed, inOutcomes⟩ := List.mem_flatMap.mp member
  exact ResultSuite.wellFormed_ofItems _ _ placement listed ended inOutcomes

/-- The files that results name can be spelled. -/
structure ResultsSpelled (results : Results) : Prop where
  suites : ∀ suite ∈ HostSuite.preorderAll results.suites, ∀ file ∈ suite.file?, Spellable file
  outcomes : ∀ ended ∈ results.outcomes, Spellable ended.file

theorem replayOutcome_eq_ok {run : TestRun} (rooted : Nameable run.root.parts) {ended : Outcome}
    (spellable : Spellable ended.file) (wellFormed : ended.report.WellFormed) :
    (replayOutcome run ended).outcome = .ok (run.step ended.report) := by
  obtain ⟨key, keyed⟩ := exists_keyFrom rooted spellable
  cases known : (run.model.get? key).bind (·.findTest? ended.title) with
  | some test => exact outcome_replayOutcome_of_known wellFormed keyed known
  | none =>
    rw [outcome_replayOutcome, TestRun.testEnded, keyed]
    dsimp only
    rw [known]
    rfl

theorem exists_foldlM_replayOutcome {outcomes : List Outcome}
    (each : ∀ ended ∈ outcomes, Spellable ended.file ∧ ended.report.WellFormed) {run : TestRun}
    (rooted : Nameable run.root.parts) :
    ∃ final, outcomes.foldlM (fun run ended => (replayOutcome run ended).outcome) run = .ok final ∧
      final.model.suites.map (·.filePath) = run.model.suites.map (·.filePath) := by
  induction outcomes generalizing run with
  | nil => exact ⟨run, rfl, rfl⟩
  | cons ended rest ih =>
    obtain ⟨⟨spellable, wellFormed⟩, others⟩ := List.forall_mem_cons.mp each
    obtain ⟨sameRoot, sameFiles⟩ := run.kept_of_step ended.report
    have stepped : Nameable (run.step ended.report).root.parts := sameRoot ▸ rooted
    obtain ⟨final, played, kept⟩ := ih others stepped
    refine ⟨final, ?_, kept.trans sameFiles⟩
    rw [List.foldlM_cons, replayOutcome_eq_ok rooted spellable wellFormed]
    exact played

/-- Results whose files can be spelled are played back to the end. -/
theorem exists_replay {calls : Calls} {results : Results} (rooted : Nameable results.root.parts)
    (spelled : ResultsSpelled results) (wellFormed : ∀ ended ∈ results.outcomes, ended.report.WellFormed) :
    ∃ run, (replay tree calls results).outcome = .ok run ∧ run.model.Spelled := by
  have keyed : Hierarchy.pathError? results.root (HostSuite.preorderAll results.suites) = none := by
    apply List.findSome?_eq_none_iff.mpr
    intro suite listed
    rw [HostSuite.pathError?]
    cases named : suite.file? with
    | none => rfl
    | some file =>
      obtain ⟨key, keyed⟩ := exists_keyFrom rooted (spelled.suites suite listed file named)
      rw [Option.bind_some, keyed]
  obtain ⟨model, built⟩ := @Hierarchy.exists_model calls results.root tree results.suites keyed
  obtain ⟨run, played, kept⟩ := @exists_foldlM_replayOutcome results.outcomes
    (fun ended member => ⟨spelled.outcomes ended member, wellFormed ended member⟩)
    ⟨results.root, calls, model, TestRun.baselinesOf model⟩ rooted
  refine ⟨run, ?_, ?_⟩
  · have began : ((TestRun.idle results.root calls).start tree results.suites).outcome =
        .ok ⟨results.root, calls, model, TestRun.baselinesOf model⟩ :=
      TestRun.start_eq_ok_iff.mpr ⟨built, rfl, rfl, rfl⟩
    rw [replay, LoggedExcept.outcome_bind, LoggedExcept.outcome_adapt, began, Except.mapError, ok_bind,
      LoggedExcept.outcome_foldlM]
    exact played
  · intro suite listed
    have inStart : suite.filePath ∈ model.suites.map (·.filePath) := kept ▸ List.mem_map_of_mem listed
    obtain ⟨first, member, same⟩ := List.mem_map.mp inStart
    exact same ▸ Hierarchy.spelled_of_model rooted built first member

theorem exists_finish {run : TestRun} {settings : Publication.Settings}
    (dated : ∃ timestamp, settings.clock.timestamp = .ok timestamp)
    (named : Nameable settings.outputDirectory.parts) (spelled : run.model.Spelled)
    (encodable : settings.dryRun = false → Publication.Encodable settings run.model) (tree : FileTree) :
    ∃ summary, outcome (run.finish settings) tree = .ok summary := by
  obtain ⟨summary, returned⟩ := Publication.exists_publish dated named spelled encodable tree
  refine ⟨summary, ?_⟩
  rw [TestRun.finish, outcome_bind_of_ok returned]
  dsimp only
  rw [(still_liftM _).outcome_bind]
  rfl

end Project

end SuiteDocs
