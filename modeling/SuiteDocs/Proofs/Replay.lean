import SuiteDocs.Proofs.Baselines

/-!
Test runs: the last report on a test decides.

However reports follow one another, a run differs from its start in the annotations of the reported
tests alone, and these are given by the last report on each of them. Reports on different tests may
therefore change places.
-/

set_option autoImplicit false

namespace SuiteDocs

/-! ## Reports -/

/-- The report of a host that a test has ended. -/
structure Report where
  file : Text
  title : Text
  records : List HostRecord

namespace Report

/-- The file and the title that a report is about; none if the file has no key. -/
def address? (root : Path) (report : Report) : Option (Text × Text) :=
  (Path.keyFrom root report.file).toOption.map (·, report.title)

theorem address?_eq_some_iff {root : Path} {report : Report} {key title : Text} :
    report.address? root = some (key, title) ↔
      Path.keyFrom root report.file = .ok key ∧ report.title = title := by
  rw [address?]
  cases Path.keyFrom root report.file <;> simp [Except.toOption]

/-- Whether every record of a report is an annotation. -/
def WellFormed (report : Report) : Prop :=
  ∀ record ∈ report.records, ∃ reported, record.reported = .ok reported

/-- The annotations with a description among the records. -/
def described (report : Report) : List Annotation :=
  report.records.filterMap fun record =>
    record.reported.toOption.bind fun reported => reported.description.map (⟨reported.kind, ·⟩)

theorem described_eq {report : Report} (wellFormed : report.WellFormed) :
    HostRecord.described report.records = .ok report.described := by
  obtain ⟨file, title, records⟩ := report
  simp only [WellFormed, described, HostRecord.described] at *
  rw [bind_eq_ok_iff]
  induction records with
  | nil => exact ⟨[], rfl, rfl⟩
  | cons record rest ih =>
    obtain ⟨first, found⟩ := wellFormed record List.mem_cons_self
    obtain ⟨others, passed, same⟩ := ih fun other member =>
      wellFormed other (List.mem_cons_of_mem _ member)
    refine ⟨first :: others, mapM_eq_ok_iff.mpr (.cons found (mapM_eq_ok_iff.mp passed)), ?_⟩
    have rest := Except.ok.inj same
    rw [List.filterMap_cons, List.filterMap_cons, ← rest, found]
    rfl

theorem merge_eq {report : Report} (wellFormed : report.WellFormed) (baseline : List Annotation) :
    TestCase.merge baseline report.records =
      .ok (if report.described.isEmpty then (baseline, false) else (report.described, true)) := by
  rw [TestCase.merge, described_eq wellFormed]
  rfl

end Report

/-! ## Choosing annotations for tests -/

/-- Gives the first test with each title the annotations that are chosen for it. -/
def Suite.settle (choose : TestCase → List Annotation) (tests : List TestCase) : List TestCase :=
  tests.mapIdx fun index test =>
    if (tests.take index).any (·.title == test.title) then test
    else { test with annotations := choose test }

namespace Suite

/-- The same behind tests that come earlier. -/
def settleAfter (earlier : List TestCase) (choose : TestCase → List Annotation)
    (tests : List TestCase) : List TestCase :=
  tests.mapIdx fun index test =>
    if (earlier ++ tests.take index).any (·.title == test.title) then test
    else { test with annotations := choose test }

theorem settleAfter_cons (earlier : List TestCase) (choose : TestCase → List Annotation)
    (test : TestCase) (rest : List TestCase) :
    settleAfter earlier choose (test :: rest) =
      (if earlier.any (·.title == test.title) then test
        else { test with annotations := choose test }) ::
      settleAfter (earlier ++ [test]) choose rest := by
  simp only [settleAfter, List.mapIdx_cons, List.take_zero, List.append_nil, List.take_succ_cons,
    List.append_assoc, List.singleton_append]
  rfl

theorem settleAfter_congr {earlier : List TestCase} {choose choose' : TestCase → List Annotation}
    {tests : List TestCase}
    (same : ∀ test ∈ tests, (∀ other ∈ earlier, other.title ≠ test.title) →
      choose test = choose' test) :
    settleAfter earlier choose tests = settleAfter earlier choose' tests := by
  induction tests generalizing earlier with
  | nil => rfl
  | cons test rest ih =>
    rw [settleAfter_cons, settleAfter_cons]
    congr 1
    · split
      · rfl
      · rename_i new
        have fresh : ∀ other ∈ earlier, other.title ≠ test.title := by simpa using new
        rw [same test List.mem_cons_self fresh]
    · refine ih fun other member fresh => same other (List.mem_cons_of_mem _ member) ?_
      exact fun before listed => fresh before (List.mem_append_left _ listed)

/-- Changing the first test with a title chooses anew for that title. -/
theorem adjustFirst_settleAfter {earlier : List TestCase} {title : Text}
    (fresh : ∀ other ∈ earlier, other.title ≠ title) (annotations : List Annotation)
    (choose : TestCase → List Annotation) (tests : List TestCase) :
    TestCase.adjustFirst title (fun test => { test with annotations })
        (settleAfter earlier choose tests) =
      settleAfter earlier (fun test => if test.title = title then annotations else choose test)
        tests := by
  induction tests generalizing earlier with
  | nil => rfl
  | cons test rest ih =>
    rw [settleAfter_cons, settleAfter_cons]
    by_cases here : test.title = title
    · have new : ¬ earlier.any (·.title == test.title) = true := by
        simpa [here] using fresh
      rw [if_neg new, if_neg new, TestCase.adjustFirst, if_pos (by simpa using here), if_pos here]
      congr 1
      refine settleAfter_congr fun other member later => ?_
      have different : other.title ≠ title := fun same =>
        later test (List.mem_append_right _ List.mem_cons_self) (here.trans same.symm)
      rw [if_neg different]
    · have kept : (if earlier.any (·.title == test.title) then test
          else { test with annotations := choose test }).title = test.title := by
        split <;> rfl
      rw [TestCase.adjustFirst, if_neg (by rw [kept]; simpa using here), if_neg here]
      congr 1
      refine ih fun other member => ?_
      rcases List.mem_append.mp member with old | single
      · exact fresh other old
      · exact List.mem_singleton.mp single ▸ here

theorem settle_congr {choose choose' : TestCase → List Annotation} {tests : List TestCase}
    (same : ∀ test ∈ tests, choose test = choose' test) :
    settle choose tests = settle choose' tests := by
  change settleAfter [] choose tests = settleAfter [] choose' tests
  exact settleAfter_congr fun test member _ => same test member

theorem adjustFirst_settle (title : Text) (annotations : List Annotation)
    (choose : TestCase → List Annotation) (tests : List TestCase) :
    TestCase.adjustFirst title (fun test => { test with annotations }) (settle choose tests) =
      settle (fun test => if test.title = title then annotations else choose test) tests :=
  adjustFirst_settleAfter (fun _ member => absurd member List.not_mem_nil) annotations choose tests

theorem settle_annotations (tests : List TestCase) : settle (·.annotations) tests = tests := by
  have after (earlier : List TestCase) : settleAfter earlier (·.annotations) tests = tests := by
    induction tests generalizing earlier with
    | nil => rfl
    | cons test rest ih =>
      rw [settleAfter_cons, ih]
      congr 1
      split <;> rfl
  exact after []

/-- Choosing annotations keeps the titles in their order. -/
theorem titles_settle (choose : TestCase → List Annotation) (tests : List TestCase) :
    (settle choose tests).map (·.title) = tests.map (·.title) := by
  have after (earlier : List TestCase) :
      (settleAfter earlier choose tests).map (·.title) = tests.map (·.title) := by
    induction tests generalizing earlier with
    | nil => rfl
    | cons test rest ih =>
      rw [settleAfter_cons, List.map_cons, List.map_cons, ih]
      congr 1
      split <;> rfl
  exact after []

theorem findTest?_settle {suite : Suite} {choose : TestCase → List Annotation} {title : Text} :
    Suite.findTest? { suite with tests := settle choose suite.tests } title = none ↔
      ∀ test ∈ suite.tests, test.title ≠ title := by
  have titles := titles_settle choose suite.tests
  constructor
  · intro absent test member same
    have listed : title ∈ (settle choose suite.tests).map (·.title) :=
      titles ▸ same ▸ List.mem_map_of_mem member
    obtain ⟨other, inSettled, rfl⟩ := List.mem_map.mp listed
    have passed := List.find?_eq_none.mp absent other inSettled
    simp at passed
  · intro absent
    rw [findTest?, List.find?_eq_none]
    intro other inSettled here
    have listed : title ∈ suite.tests.map (·.title) :=
      titles ▸ List.mem_map.mpr ⟨other, inSettled, by simpa using here⟩
    obtain ⟨test, member, same⟩ := List.mem_map.mp listed
    exact absent test member same

end Suite

/-! ## Runs -/

namespace TestRun

/-- A run after one report. -/
def step (run : TestRun) (report : Report) : TestRun :=
  (run.testEnded report.file report.title report.records).value.1

/-- A run after reports. -/
def replay (run : TestRun) (reports : List Report) : TestRun :=
  reports.foldl step run

/-- The last report on a test. -/
def lastReport? (root : Path) (reports : List Report) (key title : Text) : Option Report :=
  reports.reverse.find? fun report => report.address? root == some (key, title)

/-- The annotations that the last report on a test leaves it: the described ones, or those it had if
there is no report or none is described. -/
def decided (root : Path) (reports : List Report) (key : Text) (test : TestCase) : List Annotation :=
  match lastReport? root reports key test.title with
  | none => test.annotations
  | some report => if report.described.isEmpty then test.annotations else report.described

/-- A run in which the first test with each title has the annotations decided by reports, and all
else is as it was. -/
def settledBy (run : TestRun) (reports : List Report) : TestRun :=
  { run with model := ⟨run.model.entries.map fun entry => (entry.1,
      { entry.2 with tests := Suite.settle (decided run.root reports entry.1) entry.2.tests })⟩ }

theorem lastReport?_append (root : Path) (reports : List Report) (report : Report)
    (key title : Text) :
    lastReport? root (reports ++ [report]) key title =
      if report.address? root = some (key, title) then some report
      else lastReport? root reports key title := by
  rw [lastReport?, List.reverse_append, List.reverse_singleton, List.singleton_append,
    List.find?_cons]
  by_cases here : report.address? root = some (key, title)
  · rw [if_pos here]
    simp [here]
  · rw [if_neg here]
    simp only [beq_eq_false_iff_ne.mpr here]
    rfl

theorem decided_append_of_ne {root : Path} {reports : List Report} {report : Report} {key : Text}
    {test : TestCase} (other : report.address? root ≠ some (key, test.title)) :
    decided root (reports ++ [report]) key test = decided root reports key test := by
  rw [decided, lastReport?_append, if_neg other, decided]

theorem decided_append_of_eq {root : Path} {reports : List Report} {report : Report} {key : Text}
    {test : TestCase} (addressed : report.address? root = some (key, test.title)) :
    decided root (reports ++ [report]) key test =
      if report.described.isEmpty then test.annotations else report.described := by
  rw [decided, lastReport?_append, if_pos addressed]

/-- Runs that decide alike on every test of the model are the same. -/
theorem settledBy_congr {run : TestRun} {reports reports' : List Report}
    (same : ∀ entry ∈ run.model.entries, ∀ test ∈ entry.2.tests,
      decided run.root reports entry.1 test = decided run.root reports' entry.1 test) :
    run.settledBy reports = run.settledBy reports' := by
  have entries : (run.model.entries.map fun entry => (entry.1,
      { entry.2 with tests := Suite.settle (decided run.root reports entry.1) entry.2.tests })) =
    run.model.entries.map fun entry => (entry.1,
      { entry.2 with tests := Suite.settle (decided run.root reports' entry.1) entry.2.tests }) := by
    refine List.map_congr_left fun entry member => ?_
    rw [Suite.settle_congr fun test inTests => same entry member test inTests]
  rw [settledBy, settledBy, entries]

/-- A report on no test of the model decides nothing. -/
theorem settledBy_append_of_unknown {run : TestRun} {reports : List Report} {report : Report}
    (unknown : ∀ entry ∈ run.model.entries, ∀ test ∈ entry.2.tests,
      report.address? run.root ≠ some (entry.1, test.title)) :
    run.settledBy (reports ++ [report]) = run.settledBy reports :=
  settledBy_congr fun entry member test inTests =>
    decided_append_of_ne (unknown entry member test inTests)

theorem get?_settledBy (run : TestRun) (reports : List Report) (key : Text) :
    (run.settledBy reports).model.get? key = (run.model.get? key).map fun suite =>
      { suite with tests := Suite.settle (decided run.root reports key) suite.tests } := by
  simp only [settledBy, OrderedMap.get?, List.find?_map, Option.map_map]
  change Option.map _ (run.model.entries.find? fun entry => decide (entry.1 = key)) = _
  cases found : run.model.entries.find? fun entry => decide (entry.1 = key) with
  | none => rfl
  | some entry =>
    have same : entry.1 = key := by simpa using List.find?_some found
    subst same
    rfl

/-- A report on no test of the model leaves the run as it is. -/
theorem step_of_unknown {run : TestRun} {report : Report}
    (unknown : ∀ key, Path.keyFrom run.root report.file = .ok key →
      (run.model.get? key).bind (·.findTest? report.title) = none) :
    run.step report = run := by
  rw [step, testEnded]
  cases keyed : Path.keyFrom run.root report.file with
  | error error => rfl
  | ok key =>
    simp only [unknown key keyed]
    rfl

/-- A report on a test gives it the described annotations, or those of its source. -/
theorem step_of_known {run : TestRun} {report : Report} (wellFormed : report.WellFormed) {key : Text}
    {test : TestCase} (keyed : Path.keyFrom run.root report.file = .ok key)
    (known : (run.model.get? key).bind (·.findTest? report.title) = some test) :
    run.step report = run.annotate key report.title
      (if report.described.isEmpty then (run.baselines.get? (key, report.title)).getD []
        else report.described) := by
  rw [step, testEnded]
  simp only [keyed, known, Report.merge_eq wellFormed]
  split <;> rfl

/-- Annotating the test that a report is about decides for it, and for no other. -/
theorem annotate_settledBy {run : TestRun} (consistent : run.model.Consistent)
    {reports : List Report} {report : Report} {key : Text} {suite : Suite} {test : TestCase}
    (member : (key, suite) ∈ run.model.entries) (inTests : test ∈ suite.tests)
    (address : report.address? run.root = some (key, test.title)) :
    (run.settledBy reports).annotate key report.title
        (if report.described.isEmpty then test.annotations else report.described) =
      run.settledBy (reports ++ [report]) := by
  obtain ⟨-, titled⟩ := Report.address?_eq_some_iff.mp address
  simp only [annotate, settledBy, OrderedMap.adjust, List.map_map]
  congr 2
  refine List.map_congr_left fun entry listed => ?_
  simp only [Function.comp_apply]
  by_cases here : entry.1 = key
  · obtain ⟨name, other⟩ := entry
    obtain rfl : name = key := here
    obtain rfl := consistent.suite_unique listed member
    -- Tests with the reported title start alike, so the fallback is the own source of each.
    have same : ∀ found ∈ other.tests, (if found.title = report.title then
        if report.described.isEmpty then test.annotations else report.described
        else decided run.root reports name found) =
          decided run.root (reports ++ [report]) name found := by
      intro found inFound
      by_cases reported : found.title = report.title
      · have sameTitle : found.title = test.title := reported.trans titled
        rw [if_pos reported, decided_append_of_eq (sameTitle ▸ address),
          consistent.alike _ member found inFound test inTests sameTitle]
      · rw [if_neg reported, decided_append_of_ne]
        rw [address]
        intro equal
        exact reported (titled ▸ (Prod.mk.inj (Option.some.inj equal)).2.symm)
    rw [if_pos rfl, Suite.annotate, Suite.adjustFirst_settle, Suite.settle_congr same]
  · have elsewhere (found : TestCase) : report.address? run.root ≠ some (entry.1, found.title) := by
      rw [address]
      exact fun same => here (Prod.mk.inj (Option.some.inj same)).1.symm
    rw [if_neg here, Suite.settle_congr fun found _ => (decided_append_of_ne (elsewhere found)).symm]

/-- One more report decides as the definition says. -/
theorem step_settledBy {run : TestRun} (consistent : run.model.Consistent)
    (kept : run.baselines = baselinesOf run.model) {reports : List Report} {report : Report}
    (wellFormed : report.WellFormed) :
    (run.settledBy reports).step report = run.settledBy (reports ++ [report]) := by
  by_cases about : ∃ entry ∈ run.model.entries, ∃ test ∈ entry.2.tests,
      report.address? run.root = some (entry.1, test.title)
  · obtain ⟨⟨key, suite⟩, member, test, inTests, address⟩ := about
    obtain ⟨keyed, titled⟩ := Report.address?_eq_some_iff.mp address
    obtain ⟨found, known⟩ : ∃ found, ((run.settledBy reports).model.get? key).bind
        (·.findTest? report.title) = some found := by
      rw [get?_settledBy, OrderedMap.get?_of_mem consistent.distinct member]
      refine Option.ne_none_iff_exists'.mp fun absent => ?_
      exact Suite.findTest?_settle.mp absent test inTests titled.symm
    have base : (run.settledBy reports).baselines.get? (key, report.title) = some test.annotations := by
      change run.baselines.get? (key, report.title) = some test.annotations
      rw [kept, titled]
      exact consistent.get?_baselinesOf member inTests
    have keyed : Path.keyFrom (run.settledBy reports).root report.file = .ok key := keyed
    rw [step_of_known wellFormed keyed known, base, Option.getD_some]
    exact annotate_settledBy consistent member inTests address
  · have unknown : ∀ entry ∈ run.model.entries, ∀ test ∈ entry.2.tests,
        report.address? run.root ≠ some (entry.1, test.title) := by
      intro entry member test inTests address
      exact about ⟨entry, member, test, inTests, address⟩
    rw [settledBy_append_of_unknown unknown]
    refine step_of_unknown fun key keyed => ?_
    rw [get?_settledBy]
    cases found : run.model.get? key with
    | none => rfl
    | some suite =>
      refine Suite.findTest?_settle.mpr fun test inTests same => ?_
      exact unknown _ (OrderedMap.mem_of_get? found) test inTests
        (Report.address?_eq_some_iff.mpr ⟨keyed, same.symm⟩)

theorem settledBy_nil (run : TestRun) : run.settledBy [] = run := by
  have kept (entry : Text × Suite) : (entry.1,
      { entry.2 with tests := Suite.settle (decided run.root [] entry.1) entry.2.tests }) = entry := by
    change (entry.1, { entry.2 with tests := Suite.settle (·.annotations) entry.2.tests }) = entry
    rw [Suite.settle_annotations]
  simp only [settledBy, kept, List.map_id']

/-- After any reports, the last one on each test has decided. -/
theorem replay_settledBy {run : TestRun} (consistent : run.model.Consistent)
    (kept : run.baselines = baselinesOf run.model) (earlier reports : List Report)
    (wellFormed : ∀ report ∈ reports, report.WellFormed) :
    (run.settledBy earlier).replay reports = run.settledBy (earlier ++ reports) := by
  induction reports generalizing earlier with
  | nil => rw [List.append_nil]; rfl
  | cons report rest ih =>
    rw [replay, List.foldl_cons, step_settledBy consistent kept (wellFormed report List.mem_cons_self)]
    have later := ih (earlier ++ [report]) fun other member =>
      wellFormed other (List.mem_cons_of_mem _ member)
    rw [List.append_assoc, List.singleton_append] at later
    exact later

/-- A run that has begun holds the model of its suites, and the annotations of each test as they are
there. -/
theorem start_eq_ok_iff {initial run : TestRun} {tree : FileTree} {nodes : List HostSuite} :
    (initial.start tree nodes).outcome = .ok run ↔
      (Hierarchy.model tree initial.calls initial.root nodes).outcome = .ok run.model ∧
        run.root = initial.root ∧ run.calls = initial.calls ∧
        run.baselines = baselinesOf run.model := by
  rw [start, LoggedExcept.outcome_bind, bind_eq_ok_iff]
  constructor
  · rintro ⟨model, built, began⟩
    obtain rfl := Except.ok.inj began
    exact ⟨built, rfl, rfl, rfl⟩
  · rintro ⟨built, sameRoot, sameCalls, kept⟩
    refine ⟨run.model, built, ?_⟩
    rw [← sameRoot, ← sameCalls, ← kept]
    rfl

/-- A directory with one file, in which a suite `s` declares a test `a` with one annotation. -/
def sampleTree : FileTree :=
  .directory [("a.ts", .file (("s('s',()=>\x7bt('a',()=>\x7b" ++
    "o.annotations.push(\x7btype:'k',description:'d'\x7d)\x7d)\x7d)" : Text).flatMap Text.Utf8.bytesOf))]

/-- A host that knows the test twice. -/
def sampleNodes : List HostSuite :=
  [.node "s" (some "a.ts") [⟨"a", "a.ts"⟩, ⟨"a", "a.ts"⟩] [] none none]

/-- The model at the start of the run. -/
def sampleModel : Model :=
  ⟨[("a.ts", ⟨"s", "a.ts", [], [], [⟨"a", [⟨"k", "d"⟩]⟩, ⟨"a", [⟨"k", "d"⟩]⟩]⟩)]⟩

/-- The run at its start. -/
def sampleRun : TestRun :=
  ⟨⟨.root, []⟩, ⟨["s"], ["t"]⟩, sampleModel, baselinesOf sampleModel⟩

theorem outcome_start_sample :
    ((idle ⟨.root, []⟩ ⟨["s"], ["t"]⟩).start sampleTree sampleNodes).outcome = .ok sampleRun := by
  have built : (Hierarchy.model sampleTree ⟨["s"], ["t"]⟩ ⟨.root, []⟩ sampleNodes).outcome =
      .ok sampleModel := by
    refine eq_ok_of_toOption ?_
    rw [sampleTree]
    -- The literal is spelled out here, so that it is not taken apart again at each look at the file.
    simp only [Text.ofString, String.reduceToList]
    decide +kernel
  exact start_eq_ok_iff.mpr ⟨built, rfl, rfl, rfl⟩

end TestRun

end SuiteDocs
