import SuiteDocs.Project.Report
import SuiteDocs.Proofs.Conservation
import SuiteDocs.Proofs.Replay

/-!
Where the outcomes of a test run end up.

A spec is documented in the file of its suite, and its outcomes are looked up in the file that the spec
names itself. An outcome therefore reaches its test as long as both are the same file, at any point of
the run. Otherwise it leaves the documentation of the spec as it is.
-/

set_option autoImplicit false

namespace SuiteDocs

open SuiteDocs.Text

/-! ## Specs in their suites -/

/-- A spec, and the file of the suite that it stands in. -/
structure Placement where
  suiteFile : Option Text
  spec : ResultSpec

namespace Placement

/-- The key of the file in which the spec is documented. -/
def filed? (root : Path) (placement : Placement) : Option Text :=
  (placement.suiteFile.filter (!·.isEmpty)).bind fun file => (Path.keyFrom root file).toOption

/-- The outcomes of the spec. -/
def outcomes (placement : Placement) : List Outcome :=
  placement.spec.reports.map (⟨placement.spec.file, placement.spec.title, ·⟩)

end Placement

namespace ResultSuite

mutual

/-- The specs of a suite, before those of the suites in it. -/
def placements : ResultSuite → List Placement
  | .node _ file specs suites => specs.map (⟨file, ·⟩) ++ placementsOfAll suites

/-- The specs of suites. -/
def placementsOfAll : List ResultSuite → List Placement
  | [] => []
  | suite :: suites => placements suite ++ placementsOfAll suites

end

mutual

theorem outcomes_eq (suite : ResultSuite) :
    suite.outcomes = suite.placements.flatMap Placement.outcomes := by
  cases suite with
  | node title file specs suites =>
    rw [outcomes, placements, List.flatMap_append, List.flatMap_map, outcomesOfAll_eq suites]
    rfl

theorem outcomesOfAll_eq (suites : List ResultSuite) :
    outcomesOfAll suites = (placementsOfAll suites).flatMap Placement.outcomes := by
  cases suites with
  | nil => rfl
  | cons suite rest =>
    rw [outcomesOfAll, placementsOfAll, List.flatMap_append, outcomes_eq suite, outcomesOfAll_eq rest]

end

end ResultSuite

namespace Hierarchy

variable {root : Path}

/-- The titles of the specs that are documented under a key. -/
def titlesFiled (root : Path) (key : Text) (placements : List Placement) : List Text :=
  (placements.filter fun placement => placement.filed? root == some key).map (·.spec.title)

theorem titlesFiled_append (key : Text) (placements others : List Placement) :
    titlesFiled root key (placements ++ others) =
      titlesFiled root key placements ++ titlesFiled root key others := by
  rw [titlesFiled, List.filter_append, List.map_append]
  rfl

theorem titlesFiled_map (key : Text) (file : Option Text) (specs : List ResultSpec) :
    titlesFiled root key (specs.map (⟨file, ·⟩)) =
      if ((file.filter (!·.isEmpty)).bind fun file => (Path.keyFrom root file).toOption) = some key then
        specs.map (·.title)
      else [] := by
  rw [titlesFiled, List.filter_map, List.map_map]
  split
  · rename_i here
    have all : specs.filter ((fun placement : Placement => placement.filed? root == some key) ∘
        (⟨file, ·⟩)) = specs :=
      List.filter_eq_self.mpr fun spec _ => beq_iff_eq.mpr here
    rw [all]
    rfl
  · rename_i elsewhere
    have none : specs.filter ((fun placement : Placement => placement.filed? root == some key) ∘
        (⟨file, ·⟩)) = [] :=
      List.filter_eq_nil_iff.mpr fun spec _ => mt beq_iff_eq.mp elsewhere
    rw [none]
    rfl

mutual

theorem titlesUnder_toHost (key : Text) (suite : ResultSuite) :
    titlesUnder root key (HostSuite.preorder suite.toHost) = titlesFiled root key suite.placements := by
  cases suite with
  | node title file specs suites =>
    rw [ResultSuite.toHost, HostSuite.preorder, titlesUnder_cons, ResultSuite.placements,
      titlesFiled_append, titlesFiled_map, titlesUnder_toHostAll key suites]
    congr 1
    change (if _ then List.map _ (List.map _ specs) else []) = _
    rw [List.map_map]
    rfl

theorem titlesUnder_toHostAll (key : Text) (suites : List ResultSuite) :
    titlesUnder root key (HostSuite.preorderAll (ResultSuite.toHostAll suites)) =
      titlesFiled root key (ResultSuite.placementsOfAll suites) := by
  cases suites with
  | nil => rfl
  | cons suite rest =>
    rw [ResultSuite.toHostAll, HostSuite.preorderAll, titlesUnder_append, ResultSuite.placementsOfAll,
      titlesFiled_append, titlesUnder_toHost key suite, titlesUnder_toHostAll key rest]

end

end Hierarchy

/-! ## Reports read from results -/

/-- An outcome as the report of its host. -/
def Outcome.report (outcome : Outcome) : Report :=
  ⟨outcome.file, outcome.title, outcome.records⟩

theorem ResultSpec.reported_of_mem_report {test : Json} {record : HostRecord}
    (member : record ∈ ResultSpec.report test) : ∃ reported, record.reported = .ok reported := by
  obtain ⟨item, -, found⟩ := List.mem_filterMap.mp member
  unfold ResultSpec.record? at found
  split at found
  · obtain rfl := Option.some.inj found
    exact ⟨_, rfl⟩
  · cases found

/-- Every outcome of the spec reports annotations alone. -/
def Placement.WellFormed (placement : Placement) : Prop :=
  ∀ outcome ∈ placement.outcomes, outcome.report.WellFormed

theorem ResultSpec.wellFormed_of_ofJson? {around file : Option Text} {value : Json} {spec : ResultSpec}
    (found : ResultSpec.ofJson? around value = some spec) : Placement.WellFormed ⟨file, spec⟩ := by
  simp only [ResultSpec.ofJson?, Option.bind_eq_bind, Option.bind_eq_some_iff] at found
  obtain ⟨title, -, own, -, made⟩ := found
  obtain rfl := Option.some.inj made
  intro outcome member record listed
  obtain ⟨records, inReports, rfl⟩ := List.mem_map.mp member
  obtain ⟨test, -, rfl⟩ := List.mem_map.mp inReports
  exact ResultSpec.reported_of_mem_report listed

namespace ResultSuite

mutual

theorem wellFormed_ofJson? (around : Option Text) (value : Json) :
    ∀ suite ∈ ofJson? around value, ∀ placement ∈ suite.placements, placement.WellFormed := by
  intro suite found placement member
  cases value with
  | object fields =>
    rw [ofJson?] at found
    obtain rfl := Option.some.inj found
    rw [placements] at member
    rcases List.mem_append.mp member with own | inner
    · obtain ⟨spec, listed, rfl⟩ := List.mem_map.mp own
      obtain ⟨item, -, made⟩ := List.mem_filterMap.mp listed
      exact ResultSpec.wellFormed_of_ofJson? made
    · exact wellFormed_suitesAmong _ fields placement inner
  | _ => cases found

theorem wellFormed_suitesAmong (file : Option Text) (fields : List (Text × Json)) :
    ∀ placement ∈ placementsOfAll (suitesAmong file fields), placement.WellFormed := by
  intro placement member
  cases fields with
  | nil => cases member
  | cons field rest =>
    obtain ⟨name, value⟩ := field
    cases value with
    | array items =>
      simp only [suitesAmong] at member
      split at member
      · exact wellFormed_ofItems file items placement member
      · exact wellFormed_suitesAmong file rest placement member
    | _ =>
      simp only [suitesAmong] at member
      split at member
      · cases member
      · exact wellFormed_suitesAmong file rest placement member

theorem wellFormed_ofItems (around : Option Text) (items : List Json) :
    ∀ placement ∈ placementsOfAll (ofItems around items), placement.WellFormed := by
  intro placement member
  cases items with
  | nil => cases member
  | cons item rest =>
    rw [ofItems] at member
    cases found : ofJson? around item with
    | none =>
      rw [found] at member
      exact wellFormed_ofItems around rest placement member
    | some suite =>
      rw [found, Option.toList_some, List.singleton_append, placementsOfAll] at member
      rcases List.mem_append.mp member with first | later
      · exact wellFormed_ofJson? around item suite found placement first
      · exact wellFormed_ofItems around rest placement later

end

/-- The suites that a value describes. -/
def ofValue (value : Json) : List ResultSuite :=
  ofItems none (ResultSpec.itemsOf value "suites")

end ResultSuite

namespace Results

theorem suites_of_load {surroundings : Path.Surroundings} {tree : FileTree} {path : Path}
    {root : Option Path} {value : Json} {results : Results}
    (read : readValue tree surroundings.workingDirectory path = .ok value)
    (loaded : load surroundings tree path root = .ok results) :
    results.suites = ResultSuite.toHostAll (ResultSuite.ofValue value) ∧
      results.outcomes = ResultSuite.outcomesOfAll (ResultSuite.ofValue value) := by
  obtain ⟨other, again, loaded⟩ := bind_eq_ok_iff.mp loaded
  obtain rfl := Except.ok.inj (again.symm.trans read)
  split at loaded
  · rename_i items found
    obtain ⟨expanded, -, loaded⟩ := bind_eq_ok_iff.mp loaded
    obtain ⟨resolved, -, made⟩ := bind_eq_ok_iff.mp loaded
    obtain rfl := Except.ok.inj made
    have same : ResultSuite.ofValue other = ResultSuite.ofItems none items := by
      rw [ResultSuite.ofValue, ResultSpec.itemsOf, found]
      rfl
    rw [same]
    exact ⟨rfl, rfl⟩
  · cases loaded

end Results

namespace OrderedMap

variable {κ α : Type} [DecidableEq κ]

theorem get?_adjust_of_ne {map : OrderedMap κ α} {key other : κ} (different : other ≠ key)
    (change : α → α) : (map.adjust key change).get? other = map.get? other := by
  obtain ⟨entries⟩ := map
  simp only [get?, adjust]
  induction entries with
  | nil => rfl
  | cons entry rest ih =>
    rw [List.map_cons, List.find?_cons, List.find?_cons]
    by_cases here : entry.1 = key
    · simp only [here, if_true, Ne.symm different, decide_false]
      exact ih
    · by_cases found : entry.1 = other
      · simp [found, different]
      · simp only [here, if_false, found, decide_false]
        exact ih

end OrderedMap

/-! ## Playing back outcomes -/

namespace TestRun

/-- A report on another file leaves a file as it is. -/
theorem get?_step_of_ne {run : TestRun} {report : Report} {key : Text}
    (elsewhere : Path.keyFrom run.root report.file ≠ .ok key) :
    (run.step report).model.get? key = run.model.get? key := by
  rw [step, testEnded]
  cases keyed : Path.keyFrom run.root report.file with
  | error error => rfl
  | ok other =>
    have different : key ≠ other := fun same => elsewhere (same ▸ keyed)
    dsimp only
    cases (run.model.get? other).bind (·.findTest? report.title) with
    | none => rfl
    | some test =>
      dsimp only
      split
      · exact OrderedMap.get?_adjust_of_ne different _
      · exact OrderedMap.get?_adjust_of_ne different _

end TestRun

namespace Project

open LoggedExcept

/-- Playing back an outcome is a step of the run, unless the outcome is refused. -/
theorem outcome_replayOutcome (run : TestRun) (ended : Outcome) :
    (replayOutcome run ended).outcome =
      match (run.testEnded ended.file ended.title ended.records).value.2 with
      | .error error => .error (.testRun error)
      | .ok _ => .ok (run.step ended.report) := by
  rw [replayOutcome, outcome_bind, outcome_lift, TestRun.step, Outcome.report]
  dsimp only
  generalize (run.testEnded ended.file ended.title ended.records).value = answer
  obtain ⟨next, exchanged⟩ := answer
  cases exchanged with
  | error error => rfl
  | ok exchanged => rfl

theorem eq_step_of_replayOutcome {run next : TestRun} {ended : Outcome}
    (played : (replayOutcome run ended).outcome = .ok next) : next = run.step ended.report := by
  rw [outcome_replayOutcome] at played
  split at played
  · cases played
  · exact (Except.ok.inj played).symm

/-- An outcome of annotations alone on a test that is found is not refused. -/
theorem outcome_replayOutcome_of_known {run : TestRun} {ended : Outcome} {key : Text} {test : TestCase}
    (wellFormed : ended.report.WellFormed) (keyed : Path.keyFrom run.root ended.file = .ok key)
    (known : (run.model.get? key).bind (·.findTest? ended.title) = some test) :
    (replayOutcome run ended).outcome = .ok (run.step ended.report) := by
  have merged : ∀ baseline, TestCase.merge baseline ended.records = _ := Report.merge_eq wellFormed
  rw [outcome_replayOutcome, TestRun.testEnded, keyed]
  simp only [known, merged]
  rfl

theorem eq_replay_of_foldlM {run now : TestRun} {earlier : List Outcome}
    (played : (earlier.foldlM replayOutcome run).outcome = .ok now) :
    now = run.replay (earlier.map Outcome.report) := by
  rw [outcome_foldlM] at played
  induction earlier generalizing run with
  | nil => exact (Except.ok.inj played).symm
  | cons ended rest ih =>
    rw [List.foldlM_cons, bind_eq_ok_iff] at played
    obtain ⟨next, first, played⟩ := played
    rw [eq_step_of_replayOutcome first] at played
    exact ih played

/-- Playing back an outcome finds the test with its title under a key, and gives it the described
annotations, or those of its source if there are none. -/
def Delivered (now : TestRun) (ended : Outcome) (key : Text) : Prop :=
  ∃ suite test, now.model.get? key = some suite ∧ suite.findTest? ended.title = some test ∧
    (replayOutcome now ended).outcome = .ok (now.annotate key ended.title
      (if ended.report.described.isEmpty then (now.baselines.get? (key, ended.title)).getD []
        else ended.report.described))

/-- Playing back an outcome leaves the file with a key as it is. -/
def Spared (now : TestRun) (ended : Outcome) (key : Text) : Prop :=
  ∀ next, (replayOutcome now ended).outcome = .ok next → next.model.get? key = now.model.get? key

theorem delivered_of_known {now : TestRun} {ended : Outcome} {key : Text} {suite : Suite}
    {test : TestCase} (wellFormed : ended.report.WellFormed)
    (keyed : Path.keyFrom now.root ended.file = .ok key) (found : now.model.get? key = some suite)
    (titled : suite.findTest? ended.title = some test) : Delivered now ended key := by
  have known : (now.model.get? key).bind (·.findTest? ended.title) = some test := by
    rw [found]
    exact titled
  refine ⟨suite, test, found, titled, ?_⟩
  rw [outcome_replayOutcome_of_known wellFormed keyed known]
  exact congrArg Except.ok (TestRun.step_of_known wellFormed keyed known)

theorem spared_of_ne {now : TestRun} {ended : Outcome} {key : Text}
    (elsewhere : Path.keyFrom now.root ended.file ≠ .ok key) : Spared now ended key := by
  intro next played
  rw [eq_step_of_replayOutcome played]
  exact TestRun.get?_step_of_ne elsewhere

/-- A title of the start is found at any later point of the run. -/
theorem exists_findTest?_settledBy {run : TestRun} {key title : Text} (reports : List Report)
    (listed : title ∈ (((run.model.get? key).map Suite.tests).getD []).map (·.title)) :
    ∃ suite test, (run.settledBy reports).model.get? key = some suite ∧
      suite.findTest? title = some test := by
  rw [TestRun.get?_settledBy]
  cases found : run.model.get? key with
  | none =>
    rw [found] at listed
    cases listed
  | some suite =>
    rw [found] at listed
    obtain ⟨test, member, titled⟩ := List.mem_map.mp listed
    have present (choose : TestCase → List Annotation) :
        Suite.findTest? { suite with tests := Suite.settle choose suite.tests } title ≠ none :=
      fun absent => Suite.findTest?_settle.mp absent test member titled
    obtain ⟨first, finds⟩ :=
      Option.ne_none_iff_exists'.mp (present (TestRun.decided run.root reports key))
    exact ⟨_, first, rfl, finds⟩

/-- Every spec of the results is documented in the file of its suite. At any point of the playback an
outcome of it reaches the test with its title there if the spec names the same file, and leaves that
file as it is otherwise. -/
theorem outcomes_delivered {surroundings : Path.Surroundings} {tree : FileTree} {path : Path}
    {root : Option Path} {value : Json} {results : Results} {calls : Calls} {run : TestRun}
    (read : Results.readValue tree surroundings.workingDirectory path = .ok value)
    (loaded : Results.load surroundings tree path root = .ok results)
    (began : ((TestRun.idle results.root calls).start tree results.suites).outcome = .ok run) :
    let placements := ResultSuite.placementsOfAll (ResultSuite.ofValue value)
    results.outcomes = placements.flatMap Placement.outcomes ∧
      (∀ key, (((run.model.get? key).map Suite.tests).getD []).map (·.title) =
        Hierarchy.titlesFiled results.root key placements) ∧
      ∀ placement ∈ placements, ∀ ended ∈ placement.outcomes, ∀ earlier later now,
        results.outcomes = earlier ++ ended :: later →
        (earlier.foldlM replayOutcome run).outcome = .ok now →
        ∀ key, placement.filed? results.root = some key →
          (Path.keyFrom results.root placement.spec.file = .ok key → Delivered now ended key) ∧
          (Path.keyFrom results.root placement.spec.file ≠ .ok key → Spared now ended key) := by
  intro placements
  obtain ⟨hosted, outcomes⟩ := Results.suites_of_load read loaded
  rw [ResultSuite.outcomesOfAll_eq] at outcomes
  obtain ⟨built, sameRoot, -, kept⟩ := TestRun.start_eq_ok_iff.mp began
  have titles (key : Text) : (((run.model.get? key).map Suite.tests).getD []).map (·.title) =
      Hierarchy.titlesFiled results.root key placements := by
    rw [(Hierarchy.tests_of_model built).1 key, hosted]
    exact Hierarchy.titlesUnder_toHostAll key _
  have wellFormed : ∀ ended ∈ results.outcomes, ended.report.WellFormed := by
    intro ended member
    rw [outcomes] at member
    obtain ⟨placement, listed, inOutcomes⟩ := List.mem_flatMap.mp member
    exact ResultSuite.wellFormed_ofItems _ _ placement listed ended inOutcomes
  refine ⟨outcomes, titles, ?_⟩
  intro placement listed ended inOutcomes earlier later now parted played key filed
  obtain ⟨records, -, rfl⟩ := List.mem_map.mp inOutcomes
  have consistent := Model.consistent_of_hierarchy built
  -- What was played back so far has changed annotations alone, so titles are found as at the start.
  have settled : now = run.settledBy (earlier.map Outcome.report) := by
    have reported : ∀ report ∈ earlier.map Outcome.report, report.WellFormed := by
      intro report member
      obtain ⟨other, inEarlier, rfl⟩ := List.mem_map.mp member
      exact wellFormed other (parted ▸ List.mem_append_left _ inEarlier)
    have all := TestRun.replay_settledBy consistent kept [] _ reported
    rw [TestRun.settledBy_nil] at all
    exact (eq_replay_of_foldlM played).trans all
  have nowRoot : now.root = results.root := by
    rw [settled]
    exact sameRoot
  constructor
  · intro keyed
    have here : placement.spec.title ∈ Hierarchy.titlesFiled results.root key placements :=
      List.mem_map_of_mem (List.mem_filter.mpr ⟨listed, beq_iff_eq.mpr filed⟩)
    rw [← titles] at here
    obtain ⟨suite, test, found, titled⟩ :=
      exists_findTest?_settledBy (earlier.map Outcome.report) here
    rw [← settled] at found
    refine delivered_of_known (wellFormed _ ?_) (nowRoot ▸ keyed) found titled
    rw [parted]
    exact List.mem_append_right _ List.mem_cons_self
  · intro elsewhere
    exact spared_of_ne (nowRoot ▸ elsewhere)

/-- A directory with a source and the results of its run. The results have two specs in the suite of the
source: `a`, which names no file, and `z`, which names another one. -/
def resultsTree : FileTree :=
  .directory
    [("a.ts", .file (("s('s',()=>\x7bt('a',()=>\x7b\x7d)\x7d)" : Text).flatMap Utf8.bytesOf)),
      ("r.json", .file (("\x7b\"suites\":[\x7b\"title\":\"s\",\"file\":\"a.ts\",\"specs\":[" ++
        "\x7b\"title\":\"a\",\"tests\":[\x7b\"annotations\":" ++
          "[\x7b\"type\":\"k\",\"description\":\"d\"\x7d]\x7d]\x7d," ++
        "\x7b\"title\":\"z\",\"file\":\"b.ts\",\"tests\":[\x7b\"annotations\":" ++
          "[\x7b\"type\":\"k\",\"description\":\"e\"\x7d]\x7d]\x7d]\x7d]\x7d" : Text).flatMap
          Utf8.bytesOf))]

/-- The value of these results. -/
def resultsValue : Json :=
  .object [("suites", .array [.object [("title", .string "s"), ("file", .string "a.ts"),
    ("specs", .array [
      .object [("title", .string "a"), ("tests", .array [.object [("annotations", .array
        [.object [("type", .string "k"), ("description", .string "d")]])]])],
      .object [("title", .string "z"), ("file", .string "b.ts"), ("tests", .array [
        .object [("annotations", .array
          [.object [("type", .string "k"), ("description", .string "e")]])]])]])]])]

/-- The results that are read from it. -/
def sampleResults : Results :=
  ⟨⟨.root, []⟩, ResultSuite.toHostAll (ResultSuite.ofValue resultsValue),
    [⟨"a.ts", "a", [.note "k" (some "d")]⟩, ⟨"b.ts", "z", [.note "k" (some "e")]⟩]⟩

/-- The working directory and the home directory are the root. -/
def atRoot : Path.Surroundings := ⟨⟨.root, []⟩, "/", []⟩

theorem readValue_resultsTree :
    Results.readValue resultsTree atRoot.workingDirectory ⟨.root, ["r.json"]⟩ = .ok resultsValue := by
  refine eq_ok_of_toOption ?_
  rw [resultsTree]
  simp only [Text.ofString, String.reduceToList]
  decide +kernel

theorem load_resultsTree :
    Results.load atRoot resultsTree ⟨.root, ["r.json"]⟩ none = .ok sampleResults := by
  rw [Results.load, readValue_resultsTree]
  rfl

theorem outcomes_delivered_sampleResults :
    Results.readValue resultsTree atRoot.workingDirectory ⟨.root, ["r.json"]⟩ = .ok resultsValue ∧
      Results.load atRoot resultsTree ⟨.root, ["r.json"]⟩ none = .ok sampleResults ∧
      ∃ run, ((TestRun.idle sampleResults.root ⟨["s"], ["t"]⟩).start resultsTree
          sampleResults.suites).outcome = .ok run ∧
        Delivered run ⟨"a.ts", "a", [.note "k" (some "d")]⟩ "a.ts" ∧
        ∀ now, (List.foldlM replayOutcome run
            [(⟨"a.ts", "a", [.note "k" (some "d")]⟩ : Outcome)]).outcome = .ok now →
          Spared now ⟨"b.ts", "z", [.note "k" (some "e")]⟩ "a.ts" := by
  obtain ⟨model, built⟩ := @Hierarchy.exists_model ⟨["s"], ["t"]⟩ ⟨.root, []⟩ resultsTree
    sampleResults.suites (by decide +kernel)
  have began : ((TestRun.idle sampleResults.root ⟨["s"], ["t"]⟩).start resultsTree
      sampleResults.suites).outcome = .ok ⟨⟨.root, []⟩, ⟨["s"], ["t"]⟩, model,
        TestRun.baselinesOf model⟩ :=
    TestRun.start_eq_ok_iff.mpr ⟨built, rfl, rfl, rfl⟩
  obtain ⟨-, -, each⟩ := outcomes_delivered readValue_resultsTree load_resultsTree began
  refine ⟨readValue_resultsTree, load_resultsTree, _, began, ?_, ?_⟩
  · refine (each ⟨some "a.ts", ⟨"a", "a.ts", [[.note "k" (some "d")]]⟩⟩ ?_ _ ?_ [] _ _ rfl rfl _ ?_).1 ?_
    · exact List.mem_cons_self
    · exact List.mem_cons_self
    · decide +kernel
    · decide +kernel
  · intro now played
    refine (each ⟨some "a.ts", ⟨"z", "b.ts", [[.note "k" (some "e")]]⟩⟩ ?_ _ ?_ [_] [] now rfl played _ ?_).2 ?_
    · exact List.mem_cons_of_mem _ List.mem_cons_self
    · exact List.mem_cons_self
    · decide +kernel
    · decide +kernel

/-- The outcome of a spec that names another file than its suite is lost: the test has no annotations
when all outcomes are played back, though its run described one. -/
theorem outcome_lost_of_other_file :
    Results.load atRoot resultsTree ⟨.root, ["r.json"]⟩ none = .ok sampleResults ∧
      ⟨"b.ts", "z", [.note "k" (some "e")]⟩ ∈ sampleResults.outcomes ∧
      ((replay resultsTree ⟨["s"], ["t"]⟩ sampleResults).outcome.toOption.map (·.model)) =
        some ⟨[("a.ts", ⟨"s", "a.ts", [], [], [⟨"a", [⟨"k", "d"⟩]⟩, ⟨"z", []⟩]⟩)]⟩ := by
  refine ⟨load_resultsTree, List.mem_cons_of_mem _ List.mem_cons_self, ?_⟩
  decide +kernel

end Project

end SuiteDocs
