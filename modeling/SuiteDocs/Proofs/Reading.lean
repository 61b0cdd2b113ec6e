import SuiteDocs.Proofs.Logged
import SuiteDocs.Suite.Reading

/-!
What reading a source file gives, and what it reports on the way.

The tests of a suite are the declarations that were read among the visited calls, in order; the
calls that were not read are reported, each by one warning.
-/

set_option autoImplicit false

namespace SuiteDocs

open SuiteDocs.Text SuiteDocs.Source

/-- The declarations that were read. -/
def Block.collected (visited : List (CallSite × Except Block.Error Block)) : List Block :=
  visited.filterMap (·.2.toOption)

/-- The calls that were not read, and why. -/
def Block.skipped (visited : List (CallSite × Except Block.Error Block)) :
    List (CallSite × Block.Error) :=
  visited.filterMap fun
    | (site, .error error) => some (site, error)
    | (_, .ok _) => none

theorem Block.mem_collected {visited : List (CallSite × Except Block.Error Block)} {block : Block} :
    block ∈ Block.collected visited ↔ ∃ site, (site, .ok block) ∈ visited := by
  simp only [Block.collected, List.mem_filterMap, Prod.exists]
  constructor
  · rintro ⟨site, result, member, some⟩
    cases result with
    | error error => cases some
    | ok other =>
      obtain rfl : other = block := Option.some.inj some
      exact ⟨site, member⟩
  · rintro ⟨site, member⟩
    exact ⟨site, _, member, rfl⟩

theorem Block.mem_skipped {visited : List (CallSite × Except Block.Error Block)} {site : CallSite}
    {error : Block.Error} :
    (site, error) ∈ Block.skipped visited ↔ (site, .error error) ∈ visited := by
  simp only [Block.skipped, List.mem_filterMap, Prod.exists]
  constructor
  · rintro ⟨other, result, member, some⟩
    cases result with
    | ok block => cases some
    | error reason =>
      obtain ⟨rfl, rfl⟩ := Prod.mk.inj (Option.some.inj some)
      exact member
  · intro member
    exact ⟨site, _, member, rfl⟩

namespace Suite

open LoggedExcept

/-! ## Outcomes -/

/-- A declaration and the test that it documents: the same title, and the annotations of the body. -/
def Documents (file : SourceFile) (constants : Constants) (block : Block) (test : TestCase) : Prop :=
  test.title = block.title ∧
    (annotationsOf block.body constants file.path).outcome = .ok test.annotations

theorem titles_of_documents {file : SourceFile} {constants : Constants} {blocks : List Block}
    {tests : List TestCase} (documents : List.Forall₂ (Documents file constants) blocks tests) :
    blocks.map (·.title) = tests.map (·.title) := by
  induction documents with
  | nil => rfl
  | cons head tail ih => rw [List.map_cons, List.map_cons, head.1, ih]

theorem outcome_testOf_error {file : SourceFile} {constants : Constants} {site : CallSite}
    {error : Block.Error} {result : Option TestCase} :
    (testOf file constants (site, .error error)).outcome = .ok result ↔
      error.isNotFound = true ∧ result = none := by
  cases error with
  | faulty fault => simp [testOf, Block.Error.isNotFound]
  | _ =>
    change Except.ok none = .ok result ↔ true = true ∧ result = none
    simp [eq_comm]

theorem outcome_testOf_ok {file : SourceFile} {constants : Constants} {site : CallSite}
    {block : Block} {result : Option TestCase} :
    (testOf file constants (site, .ok block)).outcome = .ok result ↔
      ∃ test, Documents file constants block test ∧ result = some test := by
  simp only [testOf, outcome_bind, outcome_lift, bind_eq_ok_iff, outcome_pure]
  constructor
  · rintro ⟨annotations, found, _, _, made⟩
    exact ⟨⟨block.title, annotations⟩, ⟨rfl, found⟩, (Except.ok.inj made).symm⟩
  · rintro ⟨⟨title, annotations⟩, ⟨rfl, found⟩, rfl⟩
    exact ⟨annotations, found, (), trivial, rfl⟩

/-- The tests of a suite are those of the declarations that were read, unless the text is faulty. -/
theorem outcome_testsFrom {calls : Calls} {file : SourceFile} {constants : Constants}
    {stop cursor : Nat} {tests : List TestCase} :
    (testsFrom calls file constants stop cursor).outcome = .ok tests ↔
      (∀ skip ∈ Block.skipped (Block.outermost file.text calls.tests cursor (some stop)),
        skip.2.isNotFound = true) ∧
      List.Forall₂ (Documents file constants)
        (Block.collected (Block.outermost file.text calls.tests cursor (some stop))) tests := by
  simp only [testsFrom, outcome_bind, outcome_mapM, bind_eq_ok_iff, outcome_pure,
    Except.ok.injEq, mapM_eq_ok_iff]
  generalize Block.outermost file.text calls.tests cursor (some stop) = visited
  induction visited generalizing tests with
  | nil =>
    simp only [List.forall₂_nil_left_iff, Block.skipped, Block.collected, List.filterMap_nil]
    constructor
    · rintro ⟨_, rfl, same⟩
      exact ⟨fun _ member => absurd member (List.not_mem_nil), same.symm⟩
    · rintro ⟨-, rfl⟩
      exact ⟨[], rfl, rfl⟩
  | cons visit rest ih =>
    obtain ⟨site, result⟩ := visit
    simp only [List.forall₂_cons_left_iff]
    cases result with
    | error error =>
      have left : Block.collected ((site, .error error) :: rest) = Block.collected rest := rfl
      have right : Block.skipped ((site, .error error) :: rest) =
        (site, error) :: Block.skipped rest := rfl
      rw [left, right, List.forall_mem_cons, and_assoc, ← ih]
      constructor
      · rintro ⟨_, ⟨made, found, head, tail, rfl⟩, same⟩
        obtain ⟨known, rfl⟩ := outcome_testOf_error.mp head
        exact ⟨known, found, tail, same⟩
      · rintro ⟨known, found, tail, same⟩
        exact ⟨_, ⟨none, found, outcome_testOf_error.mpr ⟨known, rfl⟩, tail, rfl⟩, same⟩
    | ok block =>
      have left : Block.collected ((site, .ok block) :: rest) = block :: Block.collected rest := rfl
      have right : Block.skipped ((site, .ok block) :: rest) = Block.skipped rest := rfl
      rw [left, right, List.forall₂_cons_left_iff]
      constructor
      · rintro ⟨_, ⟨made, found, head, tail, rfl⟩, rfl⟩
        obtain ⟨test, documents, rfl⟩ := outcome_testOf_ok.mp head
        obtain ⟨known, others⟩ := ih.mp ⟨found, tail, rfl⟩
        exact ⟨known, test, _, documents, others, rfl⟩
      · rintro ⟨known, test, others, documents, related, rfl⟩
        obtain ⟨found, tail, rfl⟩ := ih.mpr ⟨known, related⟩
        exact ⟨_, ⟨some test, found, outcome_testOf_ok.mpr ⟨test, documents, rfl⟩, tail, rfl⟩, rfl⟩

/-- A suite is read from the first declaration of a suite, its options and its tests. -/
theorem outcome_ofSource {calls : Calls} {file : SourceFile} {documented : Suite} :
    (ofSource calls file).outcome = .ok documented ↔
      ∃ suite options tests, Block.first file.text calls.suites 0 none = .ok suite ∧
        SuiteOptions.ofText suite.options = .ok options ∧
        (testsFrom calls file (Constants.ofText file.text) suite.bodyStop
          (suite.bodyStart + 1)).outcome = .ok tests ∧
        documented = ⟨suite.title, file.path, options.tag, options.description, tests⟩ := by
  unfold ofSource
  cases found : Block.first file.text calls.suites 0 none with
  | error error => cases error <;> simp
  | ok suite =>
    simp only [outcome_bind, outcome_ofExcept, outcome_lift, bind_eq_ok_iff, outcome_pure,
      mapError_eq_ok_iff, Except.ok.injEq]
    constructor
    · rintro ⟨options, given, tests, read, _, _, _, _, made⟩
      exact ⟨suite, options, tests, rfl, given, read, made.symm⟩
    · rintro ⟨_, options, tests, rfl, given, read, rfl⟩
      exact ⟨options, given, tests, read, (), trivial, (), trivial, rfl⟩

end Suite

/-! ## Messages -/

namespace Extraction

open LoggedExcept

/-- A message of the extraction of annotations. -/
def Own (record : LogRecord) : Prop := record.component = component

theorem emits_info {ε : Type} (message : Text) :
    Emits Own (monadLift (Logged.info component message) : LoggedExcept ε Unit) := by
  refine emits_lift fun record member => ?_
  obtain rfl := List.mem_singleton.mp member
  rfl

theorem resolveDescription_own (raw : Text) (constants : Constants) (source : Option Text) :
    ∀ record ∈ (resolveDescription raw constants source).records, Own record := by
  unfold resolveDescription
  intro record member
  split at member
  · cases member
  · split at member
    · cases member
    · obtain rfl := List.mem_singleton.mp member
      rfl

theorem ofFields_own (fields : Fields) (constants : Constants) (source : Option Text) :
    ∀ record ∈ (ofFields fields constants source).records, Own record := by
  unfold ofFields
  intro record member
  split at member
  · split at member
    · cases member
    · split at member
      · cases member
      · rw [Logged.records_bind, Logged.records_pure, List.append_nil] at member
        exact resolveDescription_own _ _ _ record member
  · cases member

theorem emits_ofArgument (body : Text) (constants : Constants) (source : Option Text) (span : Span) :
    Emits Own (ofArgument body constants source span) := by
  unfold ofArgument
  split
  · split
    · exact emits_lift (ofFields_own _ _ _)
    · split <;> exact emits_of_silent rfl
  · exact emits_of_silent rfl

theorem emits_ofCall (body : Text) (constants : Constants) (source : Option Text) (paren : Nat) :
    Emits Own (ofCall body constants source paren) := by
  unfold ofCall
  split
  · split
    · exact (emits_info _).bind fun _ => emits_of_silent rfl
    · exact emits_of_silent rfl
  · refine Emits.bind (emits_of_silent (messages_ofExcept _)) fun arguments => ?_
    refine Emits.bind (Emits.mapM (emits_ofArgument _ _ _) _) fun found => ?_
    dsimp only
    split
    · exact (emits_info _).bind fun _ => emits_of_silent rfl
    · exact emits_of_silent rfl

/-- All messages about annotations come from their extraction. -/
theorem emits_annotations (body : Text) (constants : Constants) (source : Option Text) :
    Emits Own (annotations body constants source) := by
  refine Emits.bind (Emits.mapM (fun place => emits_ofCall _ _ _ _) _) fun found => ?_
  dsimp only
  split
  · exact (emits_info _).bind fun _ => emits_of_silent rfl
  · exact emits_of_silent rfl

end Extraction

namespace Suite

open LoggedExcept

/-- The warning about a call that was not read. -/
def skipReport (file : SourceFile) (skip : CallSite × Block.Error) : LogRecord :=
  ⟨.warning, component, "Skipping unparseable test in " ++ file.path ++ " at line " ++
    Text.ofNat (lineOf file.text skip.1.start) ++ ": " ++ skip.2.message⟩

/-- Whether a message is a warning about a call that was not read. -/
def isSkipReport (record : LogRecord) : Bool :=
  record.level == .warning && record.component == component &&
    ("Skipping unparseable test" : Text).isPrefixOf record.message

theorem isSkipReport_skipReport (file : SourceFile) (skip : CallSite × Block.Error) :
    isSkipReport (skipReport file skip) = true := by
  have opening : ("Skipping unparseable test in " : Text) =
    ("Skipping unparseable test" : Text) ++ (" in " : Text) := rfl
  simp only [isSkipReport, skipReport, opening, List.append_assoc, Bool.and_eq_true, beq_self_eq_true,
    true_and]
  exact List.isPrefixOf_iff_prefix.mpr (List.prefix_append _ _)

theorem messages_testOf_error {file : SourceFile} {constants : Constants} {site : CallSite}
    {error : Block.Error} (known : error.isNotFound = true) :
    (testOf file constants (site, .error error)).messages = [skipReport file (site, error)] := by
  cases error with
  | faulty fault => cases known
  | _ => rfl

theorem filter_messages_testOf_ok {file : SourceFile} {constants : Constants} {site : CallSite}
    {block : Block} {test : TestCase} (documents : Documents file constants block test) :
    (testOf file constants (site, .ok block)).messages.filter isSkipReport = [] := by
  rw [List.filter_eq_nil_iff]
  intro record member
  rw [testOf, messages_bind_of_ok documents.2] at member
  rcases List.mem_append.mp member with early | late
  · rw [annotationsOf, messages_adapt] at early
    have own : record.component = Extraction.component := Extraction.emits_annotations _ _ _ record early
    simp only [isSkipReport, own, Bool.and_eq_true, beq_iff_eq, not_and]
    intro same
    exact absurd same.2 (by decide)
  · obtain rfl := List.mem_singleton.mp late
    simp [isSkipReport]

theorem filter_records_warnRepeatedTitles (suite : Suite) :
    (warnRepeatedTitles suite).records.filter isSkipReport = [] := by
  unfold warnRepeatedTitles
  induction distinctTitles suite.tests with
  | nil => rfl
  | cons title rest ih =>
    rw [List.forM, Logged.records_bind, List.filter_append, ih, List.append_nil]
    dsimp only
    split
    · rfl
    · rfl

theorem filter_messages_testsFrom {calls : Calls} {file : SourceFile} {constants : Constants}
    {stop cursor : Nat} {tests : List TestCase}
    (read : (testsFrom calls file constants stop cursor).outcome = .ok tests) :
    (testsFrom calls file constants stop cursor).messages.filter isSkipReport =
      (Block.skipped (Block.outermost file.text calls.tests cursor (some stop))).map
        (skipReport file) := by
  unfold testsFrom at read ⊢
  rw [outcome_bind, bind_eq_ok_iff] at read
  obtain ⟨results, passed, -⟩ := read
  rw [messages_bind_of_ok passed, messages_mapM_of_ok passed, messages_pure, List.append_nil,
    List.filter_flatMap]
  rw [outcome_mapM, mapM_eq_ok_iff] at passed
  generalize Block.outermost file.text calls.tests cursor (some stop) = visited at passed ⊢
  induction passed with
  | nil => rfl
  | @cons visit result rest others head tail ih =>
    rw [List.flatMap_cons, ih]
    obtain ⟨site, declaration⟩ := visit
    cases declaration with
    | error error =>
      obtain ⟨known, -⟩ := outcome_testOf_error.mp head
      rw [messages_testOf_error known, List.filter_singleton, isSkipReport_skipReport]
      rfl
    | ok block =>
      obtain ⟨test, documents, -⟩ := outcome_testOf_ok.mp head
      rw [filter_messages_testOf_ok documents]
      rfl

/-- The calls that were not read are reported in order, each by one warning. -/
theorem filter_messages_ofSource {calls : Calls} {file : SourceFile} {documented : Suite}
    {suite : Block} (found : Block.first file.text calls.suites 0 none = .ok suite)
    (read : (ofSource calls file).outcome = .ok documented) :
    (ofSource calls file).messages.filter isSkipReport =
      (Block.skipped (Block.outermost file.text calls.tests (suite.bodyStart + 1)
        (some suite.bodyStop))).map (skipReport file) := by
  obtain ⟨_, options, tests, again, given, passed, rfl⟩ := outcome_ofSource.mp read
  obtain rfl := Except.ok.inj (found.symm.trans again)
  have options? : outcome (MonadExcept.ofExcept ((SuiteOptions.ofText suite.options).mapError .faulty) :
      LoggedExcept SourceFile.Error SuiteOptions) = .ok options := by
    rw [outcome_ofExcept]
    exact mapError_eq_ok_iff.mpr given
  rw [ofSource, found]
  simp only
  rw [messages_bind_of_ok options?, messages_ofExcept, List.nil_append, messages_bind_of_ok passed,
    List.filter_append, filter_messages_testsFrom passed, messages_bind_of_ok rfl, messages_lift,
    List.filter_append, filter_records_warnRepeatedTitles, List.nil_append, messages_bind_of_ok rfl,
    messages_lift]
  exact List.append_nil _

end Suite

end SuiteDocs
