import SuiteDocs.Proofs.Replay

/-!
Test runs with refused reports.

A report is refused when its file has no key, or when it is about a documented test and one of its
records is no annotation. The first kind leaves the run as it is. The second kind counts as a report
without records: the test goes back to the annotations of its source, and what earlier reports gave
it is lost.
-/

set_option autoImplicit false

namespace SuiteDocs

namespace Report

theorem wellFormed_iff {report : Report} :
    report.WellFormed ↔ ∃ annotations, HostRecord.described report.records = .ok annotations := by
  constructor
  · intro wellFormed
    exact ⟨_, described_eq wellFormed⟩
  · rintro ⟨annotations, described⟩ record listed
    rw [HostRecord.described, bind_eq_ok_iff] at described
    obtain ⟨reported, passed, -⟩ := described
    obtain ⟨found, -, reports⟩ := exists_of_forall₂ (mapM_eq_ok_iff.mp passed).flip listed
    exact ⟨found, reports⟩

theorem not_wellFormed_iff {report : Report} :
    ¬ report.WellFormed ↔ ∃ record ∈ report.records, ∃ error, record.reported = .error error := by
  have refused (record : HostRecord) :
      (¬ ∃ reported, record.reported = .ok reported) ↔ ∃ error, record.reported = .error error := by
    cases record.reported <;> simp
  simp only [WellFormed, not_forall, refused, exists_prop]

/-- The report that counts in place of a report: the same without its records if one of them is
refused. -/
def heeded (report : Report) : Report :=
  match HostRecord.described report.records with
  | .ok _ => report
  | .error _ => { report with records := [] }

theorem heeded_of_wellFormed {report : Report} (wellFormed : report.WellFormed) :
    report.heeded = report := by
  rw [heeded, described_eq wellFormed]

theorem heeded_of_refused {report : Report} (refused : ¬ report.WellFormed) :
    report.heeded = { report with records := [] } := by
  rw [heeded]
  cases described : HostRecord.described report.records with
  | ok annotations => exact absurd (wellFormed_iff.mpr ⟨annotations, described⟩) refused
  | error error => rfl

theorem wellFormed_of_silent {report : Report} (silent : report.records = []) :
    report.WellFormed := by
  intro record listed
  rw [silent] at listed
  cases listed

theorem wellFormed_heeded (report : Report) : report.heeded.WellFormed := by
  by_cases wellFormed : report.WellFormed
  · rwa [heeded_of_wellFormed wellFormed]
  · rw [heeded_of_refused wellFormed]
    exact wellFormed_of_silent rfl

theorem address?_heeded (root : Path) (report : Report) :
    report.heeded.address? root = report.address? root := by
  by_cases wellFormed : report.WellFormed
  · rw [heeded_of_wellFormed wellFormed]
  · rw [heeded_of_refused wellFormed]
    rfl

end Report

namespace Suite

/-- The first test with a title has the annotations that are chosen for it. -/
theorem find?_settleAfter {earlier : List TestCase} {title : Text}
    (fresh : ∀ other ∈ earlier, other.title ≠ title) (choose : TestCase → List Annotation)
    (tests : List TestCase) :
    (settleAfter earlier choose tests).find? (·.title == title) =
      (tests.find? (·.title == title)).map fun test => { test with annotations := choose test } := by
  induction tests generalizing earlier with
  | nil => rfl
  | cons test rest ih =>
    rw [settleAfter_cons]
    by_cases here : test.title = title
    · have new : ¬ earlier.any (·.title == test.title) = true := by simpa [here] using fresh
      rw [if_neg new, List.find?_cons_of_pos (by simpa using here),
        List.find?_cons_of_pos (by simpa using here), Option.map_some]
    · have kept : (if earlier.any (·.title == test.title) then test
          else { test with annotations := choose test }).title = test.title := by
        split <;> rfl
      rw [List.find?_cons_of_neg (by rw [kept]; simpa using here),
        List.find?_cons_of_neg (by simpa using here)]
      refine ih fun other member => ?_
      rcases List.mem_append.mp member with old | single
      · exact fresh other old
      · exact List.mem_singleton.mp single ▸ here

end Suite

namespace TestRun

/-- The first test with a title in a file. -/
def test? (run : TestRun) (key title : Text) : Option TestCase :=
  (run.model.get? key).bind (·.findTest? title)

/-! ## One report -/

/-- What a report can come to. -/
inductive Ends (run : TestRun) (report : Report) : TestRun → Except Error Bool → Prop where
  | unkeyed {error : Path.Error} (keyed : Path.keyFrom run.root report.file = .error error) :
      Ends run report run (.error (.path error))
  | unknown {key : Text} (keyed : Path.keyFrom run.root report.file = .ok key)
      (unknown : run.test? key report.title = none) : Ends run report run (.ok false)
  | refused {key : Text} {test : TestCase} {error : HostRecord.Error}
      (keyed : Path.keyFrom run.root report.file = .ok key)
      (known : run.test? key report.title = some test)
      (described : HostRecord.described report.records = .error error) :
      Ends run report
        (run.annotate key report.title ((run.baselines.get? (key, report.title)).getD []))
        (.error (.record error))
  | heard {key : Text} {test : TestCase} (keyed : Path.keyFrom run.root report.file = .ok key)
      (known : run.test? key report.title = some test) (wellFormed : report.WellFormed) :
      Ends run report
        (run.annotate key report.title
          (if report.described.isEmpty then (run.baselines.get? (key, report.title)).getD []
            else report.described))
        (.ok (!report.described.isEmpty))

theorem ends_of_testEnded {run after : TestRun} {report : Report} {answer : Except Error Bool}
    (ended : (run.testEnded report.file report.title report.records).value = (after, answer)) :
    run.Ends report after answer := by
  rw [testEnded] at ended
  cases keyed : Path.keyFrom run.root report.file with
  | error error =>
    simp only [keyed] at ended
    cases ended
    exact .unkeyed keyed
  | ok key =>
    simp only [keyed] at ended
    cases known : (run.model.get? key).bind (·.findTest? report.title) with
    | none =>
      simp only [known] at ended
      cases ended
      exact .unknown keyed known
    | some test =>
      simp only [known] at ended
      cases described : HostRecord.described report.records with
      | error error =>
        simp only [TestCase.merge, described] at ended
        cases ended
        exact .refused keyed known described
      | ok annotations =>
        have wellFormed : report.WellFormed := Report.wellFormed_iff.mpr ⟨annotations, described⟩
        have heard := Ends.heard keyed known wellFormed
        rw [Report.merge_eq wellFormed] at ended
        cases empty : report.described.isEmpty <;> rw [empty] at heard ended <;> cases ended <;>
          exact heard

/-- A report is refused if its file has no key, or if it is about a known test and one of its records
is no annotation. -/
theorem refused_iff {run : TestRun} {report : Report} :
    (∃ error, (run.testEnded report.file report.title report.records).value.2 = .error error) ↔
      (∃ error, Path.keyFrom run.root report.file = .error error) ∨
        ∃ key, Path.keyFrom run.root report.file = .ok key ∧
          (run.test? key report.title).isSome = true ∧ ¬ report.WellFormed := by
  generalize ended : (run.testEnded report.file report.title report.records).value = result
  obtain ⟨after, answer⟩ := result
  cases ends_of_testEnded ended with
  | unkeyed keyed => simp [keyed]
  | unknown keyed unknown => simp [keyed, unknown]
  | refused keyed known described => simp [keyed, known, Report.wellFormed_iff, described]
  | heard keyed known wellFormed => simp [keyed, wellFormed]

/-- A report whose records are refused changes the run as the same report without records. -/
theorem step_heeded (run : TestRun) (report : Report) : run.step report.heeded = run.step report := by
  by_cases wellFormed : report.WellFormed
  · rw [Report.heeded_of_wellFormed wellFormed]
  · rw [Report.heeded_of_refused wellFormed]
    generalize ended : (run.testEnded report.file report.title report.records).value = result
    obtain ⟨after, answer⟩ := result
    rw [step.eq_def run report, ended]
    cases ends_of_testEnded ended with
    | unkeyed keyed =>
      refine step_of_unknown fun key found => ?_
      cases keyed.symm.trans found
    | @unknown key keyed unknown =>
      refine step_of_unknown fun other found => ?_
      obtain rfl := Except.ok.inj (keyed.symm.trans found)
      exact unknown
    | refused keyed known described =>
      exact @step_of_known run { report with records := [] } (Report.wellFormed_of_silent rfl) _ _
        keyed known
    | heard keyed known heard => exact absurd heard wellFormed

theorem replay_heeded (run : TestRun) (reports : List Report) :
    run.replay (reports.map Report.heeded) = run.replay reports := by
  rw [replay, List.foldl_map, replay]
  congr 1
  funext run report
  exact step_heeded run report

/-! ## Runs -/

/-- After any reports, refused ones among them, the last one on each test that counts has decided. -/
theorem replay_eq_settledBy {run : TestRun} (consistent : run.model.Consistent)
    (kept : run.baselines = baselinesOf run.model) (reports : List Report) :
    run.replay reports = run.settledBy (reports.map Report.heeded) := by
  have wellFormed : ∀ report ∈ reports.map Report.heeded, report.WellFormed := by
    intro report listed
    obtain ⟨given, -, rfl⟩ := List.mem_map.mp listed
    exact given.wellFormed_heeded
  have replayed := replay_settledBy consistent kept [] (reports.map Report.heeded) wellFormed
  rwa [settledBy_nil, replay_heeded] at replayed

theorem root_replay (run : TestRun) (reports : List Report) : (run.replay reports).root = run.root := by
  induction reports generalizing run with
  | nil => rfl
  | cons report rest ih =>
    have first : (run.step report).root = run.root := by
      generalize ended : (run.testEnded report.file report.title report.records).value = result
      obtain ⟨after, answer⟩ := result
      rw [step, ended]
      cases ends_of_testEnded ended <;> rfl
    rw [replay, List.foldl_cons]
    exact (ih _).trans first

theorem test?_settledBy (run : TestRun) (reports : List Report) (key title : Text) :
    (run.settledBy reports).test? key title = (run.test? key title).map fun test =>
      { test with annotations := decided run.root reports key test } := by
  rw [test?, get?_settledBy, test?]
  cases run.model.get? key with
  | none => rfl
  | some suite =>
    exact Suite.find?_settleAfter (fun _ member => absurd member List.not_mem_nil)
      (decided run.root reports key) suite.tests

/-- The reports that are not on the test that a report is on. -/
def others (root : Path) (reports : List Report) (report : Report) : List Report :=
  reports.filter fun other => other.address? root ≠ report.address? root

theorem lastReport?_others_of_eq {root : Path} {reports : List Report} {report : Report}
    {key title : Text} (address : report.address? root = some (key, title)) :
    lastReport? root (others root reports report) key title = none := by
  rw [lastReport?, List.find?_eq_none]
  intro other listed found
  have kept := (List.mem_filter.mp (List.mem_reverse.mp listed)).2
  rw [address] at kept
  simp only [decide_eq_true_eq] at kept
  exact kept (by simpa using found)

theorem lastReport?_others_of_ne {root : Path} {reports : List Report} {report : Report}
    {key title : Text} (elsewhere : report.address? root ≠ some (key, title)) :
    lastReport? root (others root reports report) key title =
      lastReport? root reports key title := by
  rw [lastReport?, lastReport?, others, ← List.filter_reverse, List.find?_filter]
  congr 1
  funext other
  by_cases found : other.address? root = some (key, title)
  · simp [found, Ne.symm elsewhere]
  · simp [found]

/-- A test on which there is no other report keeps the annotations of its source. -/
theorem decided_others_of_eq {root : Path} {reports : List Report} {report : Report} {key : Text}
    {test : TestCase} (address : report.address? root = some (key, test.title)) :
    decided root (others root reports report) key test = test.annotations := by
  rw [decided, lastReport?_others_of_eq address]

theorem decided_others_of_ne {root : Path} {reports : List Report} {report : Report} {key : Text}
    {test : TestCase} (elsewhere : report.address? root ≠ some (key, test.title)) :
    decided root (others root reports report) key test = decided root reports key test := by
  rw [decided, lastReport?_others_of_ne elsewhere, decided]

/-- A report without records decides as if there had been no report on its test. -/
theorem settledBy_append_of_silent (run : TestRun) (reports : List Report) {report : Report}
    (silent : report.records = []) :
    run.settledBy (reports ++ [report]) = run.settledBy (others run.root reports report) := by
  refine settledBy_congr fun entry member test inTests => ?_
  by_cases here : report.address? run.root = some (entry.1, test.title)
  · rw [decided_append_of_eq here, decided_others_of_eq here, Report.described, silent]
    rfl
  · rw [decided_append_of_ne here, decided_others_of_ne here]

theorem others_heeded (root : Path) (reports : List Report) (report : Report) :
    others root (reports.map Report.heeded) report.heeded =
      (others root reports report).map Report.heeded := by
  rw [others, others, List.filter_map]
  congr 2
  funext other
  simp [Report.address?_heeded]

section Started

variable {run : TestRun} (consistent : run.model.Consistent)
  (kept : run.baselines = baselinesOf run.model) (reports : List Report) {report : Report}

include consistent kept

/-- A report with a refused record leaves the run as if there had been no report on its test. -/
theorem replay_append_of_refused (refused : ¬ report.WellFormed) :
    run.replay (reports ++ [report]) = run.replay (others run.root reports report) := by
  have silent : report.heeded.records = [] := by rw [Report.heeded_of_refused refused]
  rw [replay_eq_settledBy consistent kept, replay_eq_settledBy consistent kept, List.map_append,
    List.map_singleton, settledBy_append_of_silent run _ silent, others_heeded]

theorem test?_replay_others {key : Text}
    (keyed : Path.keyFrom run.root report.file = .ok key) :
    (run.replay (others run.root reports report)).test? key report.title =
      run.test? key report.title := by
  rw [replay_eq_settledBy consistent kept, ← others_heeded, test?_settledBy]
  cases known : run.test? key report.title with
  | none => rfl
  | some test =>
    have titled : test.title = report.title := by
      obtain ⟨suite, -, found⟩ := Option.bind_eq_some_iff.mp known
      simpa using List.find?_some found
    have address : report.heeded.address? run.root = some (key, test.title) := by
      rw [Report.address?_heeded, Report.address?_eq_some_iff]
      exact ⟨keyed, titled.symm⟩
    rw [Option.map_some, decided_others_of_eq address]

omit kept in
/-- Of a file's tests that share a title, looking up the title gives the first; all of them start
alike. -/
theorem test?_of_mem {entry : Text × Suite} (member : entry ∈ run.model.entries) {test : TestCase}
    (inTests : test ∈ entry.2.tests) : run.test? entry.1 test.title = some test := by
  rw [test?, OrderedMap.get?_of_mem consistent.distinct member]
  change entry.2.tests.find? (·.title == test.title) = some test
  cases found : entry.2.tests.find? (·.title == test.title) with
  | none =>
    have passed := List.find?_eq_none.mp found test inTests
    simp at passed
  | some first =>
    have title : first.title = test.title := by simpa using List.find?_some found
    have annotations := consistent.alike entry member first (List.mem_of_find?_eq_some found) test
      inTests title
    obtain ⟨_, _⟩ := first
    obtain ⟨_, _⟩ := test
    cases title
    cases annotations
    rfl

/-- Forgetting the reports on a test changes nothing if the test has the annotations of its
source. -/
theorem replay_others_of_same {key : Text} (keyed : Path.keyFrom run.root report.file = .ok key)
    (same : (run.replay reports).test? key report.title = run.test? key report.title) :
    run.replay (others run.root reports report) = run.replay reports := by
  rw [replay_eq_settledBy consistent kept, test?_settledBy] at same
  rw [replay_eq_settledBy consistent kept, replay_eq_settledBy consistent kept, ← others_heeded]
  refine settledBy_congr fun entry member test inTests => ?_
  by_cases here : report.heeded.address? run.root = some (entry.1, test.title)
  · rw [Report.address?_heeded, Report.address?_eq_some_iff] at here
    obtain rfl := Except.ok.inj (keyed.symm.trans here.1)
    rw [here.2, test?_of_mem consistent member inTests, Option.map_some] at same
    have standing : decided run.root (reports.map Report.heeded) entry.1 test = test.annotations :=
      congrArg TestCase.annotations (Option.some.inj same)
    rw [standing]
    refine decided_others_of_eq ?_
    rw [Report.address?_heeded, Report.address?_eq_some_iff]
    exact here
  · exact decided_others_of_ne here

end Started

/-- What a refused report does, whatever reports came before it. A report is refused if its file has
no key, which leaves the run as it is, or if it is about a documented test and one of its records is
no annotation. The latter undoes every earlier report on that test and touches nothing else, so the
model stays as it was just where the test has the annotations of its source anyway. -/
theorem refused_report_undoes {initial run : TestRun} {tree : FileTree} {nodes : List HostSuite}
    (began : (initial.start tree nodes).outcome = .ok run) (reports : List Report) (report : Report) :
    let ended := ((run.replay reports).testEnded report.file report.title report.records).value
    ((∃ error, ended.2 = .error error) ↔
      (∃ error, Path.keyFrom run.root report.file = .error error) ∨
        ∃ key, Path.keyFrom run.root report.file = .ok key ∧
          (run.test? key report.title).isSome = true ∧
          ∃ record ∈ report.records, ∃ error, record.reported = .error error) ∧
    (∀ error, ended.2 = .error (.path error) → ended.1 = run.replay reports) ∧
    (∀ error, ended.2 = .error (.record error) →
      ended.1 = run.replay (others run.root reports report)) ∧
    ∀ error, ended.2 = .error error →
      (ended.1.model = (run.replay reports).model ↔
        ∀ key, Path.keyFrom run.root report.file = .ok key →
          (run.replay reports).test? key report.title = run.test? key report.title) := by
  obtain ⟨built, -, -, kept⟩ := start_eq_ok_iff.mp began
  have consistent := Model.consistent_of_hierarchy built
  have known (key : Text) : ((run.replay reports).test? key report.title).isSome =
      (run.test? key report.title).isSome := by
    rw [replay_eq_settledBy consistent kept, test?_settledBy, Option.isSome_map]
  refine ⟨?_, ?_⟩
  · rw [refused_iff]
    simp only [root_replay, known, Report.not_wellFormed_iff]
  generalize ended : ((run.replay reports).testEnded report.file report.title report.records).value =
    result
  have stepped : result.1 = run.replay (reports ++ [report]) := by
    rw [replay, List.foldl_concat, ← ended]
    rfl
  obtain ⟨after, answer⟩ := result
  have undone (refused : ¬ report.WellFormed) : after = run.replay (others run.root reports report) :=
    stepped.trans (replay_append_of_refused consistent kept reports refused)
  cases ends_of_testEnded ended with
  | unkeyed keyed =>
    rw [root_replay] at keyed
    simp [keyed]
  | unknown => simp
  | heard => simp
  | @refused key test error keyed known described =>
    rw [root_replay] at keyed
    have refused : ¬ report.WellFormed := by simp [Report.wellFormed_iff, described]
    refine ⟨fun _ unkeyed => ?_, fun _ _ => undone refused, fun _ _ => ?_⟩
    · cases unkeyed
    simp only [undone refused, keyed, Except.ok.injEq, forall_eq']
    constructor
    · intro intact
      rw [test?, ← intact]
      exact test?_replay_others consistent kept reports keyed
    · intro same
      rw [replay_others_of_same consistent kept reports keyed same]

/-- A report that describes an annotation, and one that goes on to a record that is none. -/
def sampleRetry : Report × Report :=
  (⟨"a.ts", "a", [.note "x" (some "first")]⟩,
    ⟨"./a.ts", "a", [.note "x" (some "second"), .other .null]⟩)

theorem refused_report_undoes_sample :
    ((idle ⟨.root, []⟩ ⟨["s"], ["t"]⟩).start sampleTree sampleNodes).outcome = .ok sampleRun ∧
      let ended := ((sampleRun.replay [sampleRetry.1]).testEnded sampleRetry.2.file
        sampleRetry.2.title sampleRetry.2.records).value
      ended.2 = .error (.record ⟨"None"⟩) ∧
        ended.1 = sampleRun.replay (others sampleRun.root [sampleRetry.1] sampleRetry.2) := by
  have refused : ((sampleRun.replay [sampleRetry.1]).testEnded sampleRetry.2.file
      sampleRetry.2.title sampleRetry.2.records).value.2 = .error (.record ⟨"None"⟩) := by
    decide +kernel
  obtain ⟨-, -, undone, -⟩ := refused_report_undoes outcome_start_sample [sampleRetry.1] sampleRetry.2
  exact ⟨outcome_start_sample, refused, undone _ refused⟩

/-- A refused report does not leave the model intact: the annotation of the report before it is
gone. -/
theorem runtime_annotations_lost :
    ((idle ⟨.root, []⟩ ⟨["s"], ["t"]⟩).start sampleTree sampleNodes).outcome = .ok sampleRun ∧
      let before := sampleRun.replay [sampleRetry.1]
      let ended := (before.testEnded sampleRetry.2.file sampleRetry.2.title
        sampleRetry.2.records).value
      ended.2 = .error (.record ⟨"None"⟩) ∧ ended.1.model ≠ before.model ∧
        (before.test? "a.ts" "a").map (·.annotations) = some [⟨"x", "first"⟩] ∧
        (ended.1.test? "a.ts" "a").map (·.annotations) = some [⟨"k", "d"⟩] :=
  ⟨outcome_start_sample, by decide +kernel, by decide +kernel, by decide +kernel, by decide +kernel⟩

end TestRun

end SuiteDocs
