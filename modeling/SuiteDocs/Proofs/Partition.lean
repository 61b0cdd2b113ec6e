import SuiteDocs.Proofs.Declarations
import SuiteDocs.Proofs.Reading

/-!
The calls in the body of a suite.

In a well nested text no test is lost and no body is shared: the collected tests follow one another
without overlap, and each call in the body of the suite is collected, lies inside a collected test,
or is reported.
-/

set_option autoImplicit false

namespace SuiteDocs

open SuiteDocs.Text SuiteDocs.Source

/-- One of three statements holds, and no other. -/
def ExactlyOne (first second third : Prop) : Prop :=
  (first ∧ ¬ second ∧ ¬ third) ∨ (¬ first ∧ second ∧ ¬ third) ∨ (¬ first ∧ ¬ second ∧ third)

namespace Suite

/-- The calls of tests that reading a suite visits. -/
def visited (calls : Calls) (file : SourceFile) (suite : Block) :
    List (CallSite × Except Block.Error Block) :=
  Block.outermost file.text calls.tests (suite.bodyStart + 1) (some suite.bodyStop)

/-- The offsets in the file at which the body of a declaration registers annotations. -/
def registrations (block : Block) : List Nat :=
  (codeMatches Extraction.recogniseCall block.body 0 none).map (block.bodyStart + 1 + ·.offset)

/-- How the calls of tests in the body of a suite are accounted for by the collected declarations and
by the calls that were skipped. -/
structure Accounts (calls : Calls) (file : SourceFile) (suite : Block) (tests : List Block)
    (skipped : List (CallSite × Block.Error)) : Prop where
  declared : ∀ test ∈ tests, ∃ site : CallSite,
    site.StandsIn file.text (CallSite.searchOrder calls.tests) suite.bodyStop ∧
      Block.read file.text site (some suite.bodyStop) = .ok test
  body_eq : ∀ test ∈ tests, test.body = slice file.text (test.bodyStart + 1) test.bodyStop
  body_inside : ∀ test ∈ tests, test.start < test.bodyStart ∧ test.bodyStart < test.bodyStop ∧
    test.bodyStop + 1 < test.stop
  span_inside : ∀ test ∈ tests, suite.bodyStart < test.start ∧ test.stop ≤ suite.bodyStop
  increasing : tests.Pairwise (·.start < ·.start)
  spans_disjoint : tests.Pairwise (·.stop ≤ ·.start)
  bodies_disjoint : tests.Pairwise (·.bodyStop < ·.bodyStart)
  skips_increasing : skipped.Pairwise (·.1.start < ·.1.start)
  accounted : ∀ site : CallSite, site.StandsIn file.text calls.tests file.text.length →
    suite.bodyStart < site.start → site.start < suite.bodyStop →
    ExactlyOne (∃ test ∈ tests, test.start = site.start)
      (∃ test ∈ tests, test.start < site.start ∧ site.openParen < test.stop)
      (∃ skip ∈ skipped, skip.1 = site)
  registrations_disjoint : tests.Pairwise fun test other =>
    List.Disjoint (registrations test) (registrations other)

variable {calls : Calls} {file : SourceFile} {suite : Block}

/-- A registration stands inside the body. -/
theorem mem_registrations {text : Text} {block : Block} {offset : Nat}
    (body : block.body = slice text (block.bodyStart + 1) block.bodyStop)
    (member : offset ∈ registrations block) :
    block.bodyStart < offset ∧ offset < block.bodyStop := by
  obtain ⟨place, found, rfl⟩ := List.mem_map.mp member
  obtain ⟨leading, c, rest, shape, same, -⟩ := mem_matchesAt (List.mem_filter.mp found).1
  have length : leading.length < block.body.length := by
    have parts := congrArg List.length shape
    simp [slice] at parts
    omega
  have bound : block.body.length ≤ block.bodyStop - (block.bodyStart + 1) := by
    rw [body, slice]
    exact List.length_take_le _ _
  omega

/-- A collected declaration lies behind the start of its call, in the body of the suite. -/
theorem liesIn_of_visited (nested : HasNestedCode file.text)
    (names : ∀ name ∈ calls.tests, CallSite.IsCallName name) {site : CallSite} {block : Block}
    (member : (site, .ok block) ∈ visited calls file suite) :
    block.LiesIn file.text site ∧ site.start ≤ site.openParen ∧ suite.bodyStart < site.start ∧
      block.stop ≤ suite.bodyStop := by
  obtain ⟨isRead, after, stands⟩ := Block.mem_walk member
  obtain ⟨code, order⟩ := stands.isCode_openParen (CallSite.callSymbols_of_searchOrder names)
  obtain ⟨lies, room⟩ := Block.liesIn_of_read nested code isRead.symm
  exact ⟨lies, by omega, by omega, room _ rfl⟩

theorem collected_ordered (nested : HasNestedCode file.text)
    (names : ∀ name ∈ calls.tests, CallSite.IsCallName name) :
    (Block.collected (visited calls file suite)).Pairwise (·.stop ≤ ·.start) := by
  have ordered := List.Pairwise.and_mem.mp
    (Block.outermost_ordered file.text calls.tests (suite.bodyStart + 1) (some suite.bodyStop))
  refine ordered.filterMap _ ?_
  rintro ⟨site, result⟩ ⟨other, result'⟩ ⟨-, later, apart⟩ block made block' made'
  cases result with
  | error error => cases made
  | ok _ =>
    cases result' with
    | error error => cases made'
    | ok _ =>
      obtain rfl := Option.some.inj made
      obtain rfl := Option.some.inj made'
      rw [(liesIn_of_visited nested names later).1.start_eq]
      exact apart

theorem skipped_ordered :
    (Block.skipped (visited calls file suite)).Pairwise (·.1.start < ·.1.start) := by
  refine Block.walk_increasing.filterMap _ ?_
  rintro ⟨site, result⟩ ⟨other, result'⟩ apart skip made skip' made'
  cases result with
  | ok _ => cases made
  | error error =>
    cases result' with
    | ok _ => cases made'
    | error error' =>
      obtain rfl := Option.some.inj made
      obtain rfl := Option.some.inj made'
      exact apart

theorem related_of_pairwise {α : Type} {relation : α → α → Prop} {items : List α}
    (ordered : items.Pairwise relation) {item other : α} (member : item ∈ items)
    (member' : other ∈ items) : item = other ∨ relation item other ∨ relation other item := by
  induction ordered with
  | nil => cases member
  | cons head tail ih =>
    rcases List.mem_cons.mp member with rfl | inTail
    · rcases List.mem_cons.mp member' with rfl | inTail'
      · exact .inl rfl
      · exact .inr (.inl (head _ inTail'))
    · rcases List.mem_cons.mp member' with rfl | inTail'
      · exact .inr (.inr (head _ inTail))
      · exact ih inTail inTail'

/-! ## Each call has one fate -/

section Fates

variable (nested : HasNestedCode file.text)
  (names : ∀ name ∈ calls.tests, CallSite.IsCallName name)
include nested names

theorem body_of_collected {test : Block} (member : test ∈ Block.collected (visited calls file suite)) :
    test.start < test.bodyStart ∧ test.bodyStart < test.bodyStop ∧ test.bodyStop + 1 < test.stop := by
  obtain ⟨site, visit⟩ := Block.mem_collected.mp member
  obtain ⟨lies, order, -⟩ := liesIn_of_visited nested names visit
  refine ⟨?_, lies.bodyStart_lt_bodyStop, lies.bodyStop_lt_stop⟩
  rw [lies.start_eq]
  exact Nat.lt_of_le_of_lt order lies.openParen_lt_bodyStart

theorem not_inside_of_collected {test other : Block} {start : Nat}
    (member : test ∈ Block.collected (visited calls file suite)) (starts : test.start = start)
    (member' : other ∈ Block.collected (visited calls file suite)) :
    ¬ (other.start < start ∧ start < other.stop) := by
  rintro ⟨after, before⟩
  have shape := body_of_collected nested names member
  rcases related_of_pairwise (collected_ordered nested names) member member' with rfl | apart | apart
  · omega
  · omega
  · omega

theorem not_collected_of_skipped {skip : CallSite × Block.Error} {test : Block}
    (member : skip ∈ Block.skipped (visited calls file suite))
    (member' : test ∈ Block.collected (visited calls file suite)) : test.start ≠ skip.1.start := by
  intro same
  obtain ⟨site, error⟩ := skip
  obtain ⟨other, visit⟩ := Block.mem_collected.mp member'
  have lies := (liesIn_of_visited nested names visit).1
  rw [lies.start_eq] at same
  rcases related_of_pairwise Block.walk_increasing visit
    (Block.mem_skipped.mp member) with equal | apart | apart
  · cases equal
  · exact Nat.ne_of_lt apart same
  · exact Nat.ne_of_gt apart same

theorem not_inside_of_skipped {skip : CallSite × Block.Error} {test : Block}
    (member : skip ∈ Block.skipped (visited calls file suite))
    (member' : test ∈ Block.collected (visited calls file suite)) :
    ¬ (test.start < skip.1.start ∧ skip.1.start < test.stop) := by
  rintro ⟨after, before⟩
  obtain ⟨site, error⟩ := skip
  obtain ⟨other, visit⟩ := Block.mem_collected.mp member'
  have lies := (liesIn_of_visited nested names visit).1
  rw [lies.start_eq] at after
  rcases related_of_pairwise (Block.outermost_ordered _ _ _ _) visit
    (Block.mem_skipped.mp member) with equal | apart | apart
  · cases equal
  · exact absurd before (Nat.not_lt.mpr apart)
  · have order := (Block.mem_walk (Block.mem_skipped.mp member)).2.2.start_le
    simp only [Block.resume] at apart after
    omega

/-- A call in the body of the suite is collected, lies inside a collected test, or is skipped. -/
theorem covered (closing : IsCode file.text suite.bodyStop '}') {site : CallSite}
    (stands : site.StandsIn file.text calls.tests file.text.length)
    (after : suite.bodyStart < site.start) (before : site.start < suite.bodyStop) :
    (∃ test ∈ Block.collected (visited calls file suite), test.start = site.start) ∨
      (∃ test ∈ Block.collected (visited calls file suite),
        test.start < site.start ∧ site.openParen < test.stop) ∨
      ∃ skip ∈ Block.skipped (visited calls file suite), skip.1 = site := by
  obtain ⟨seen, -⟩ := stands.upTo names closing.getElem? (by decide) (Nat.le_of_lt before) closing.lt
  have seen : site.StandsIn file.text calls.tests ((some suite.bodyStop).getD file.text.length) := seen
  rcases Block.outermost_covers names seen after with
    ⟨result, visit⟩ | ⟨other, block, visit, starts, inside⟩
  · cases result with
    | error error => exact .inr (.inr ⟨_, Block.mem_skipped.mpr visit, rfl⟩)
    | ok block =>
      have lies := (liesIn_of_visited nested names visit).1
      exact .inl ⟨block, Block.mem_collected.mpr ⟨_, visit⟩, lies.start_eq⟩
  · have lies := (liesIn_of_visited nested names visit).1
    have behind := (stands.upTo names lies.parenthesis.getElem? (by decide) (by omega)
      lies.parenthesis.lt).2
    refine .inr (.inl ⟨block, Block.mem_collected.mpr ⟨_, visit⟩, ?_, by omega⟩)
    rw [lies.start_eq]
    exact starts

/-- The three fates of a call exclude each other. -/
theorem exactlyOne_fate (closing : IsCode file.text suite.bodyStop '}') {site : CallSite}
    (stands : site.StandsIn file.text calls.tests file.text.length)
    (after : suite.bodyStart < site.start) (before : site.start < suite.bodyStop) :
    ExactlyOne (∃ test ∈ Block.collected (visited calls file suite), test.start = site.start)
      (∃ test ∈ Block.collected (visited calls file suite),
        test.start < site.start ∧ site.openParen < test.stop)
      (∃ skip ∈ Block.skipped (visited calls file suite), skip.1 = site) := by
  have order := stands.start_le
  rcases covered nested names closing stands after before with
    ⟨test, member, starts⟩ | ⟨test, member, starts, inside⟩ | ⟨skip, member, rfl⟩
  · refine .inl ⟨⟨test, member, starts⟩, ?_, ?_⟩
    · rintro ⟨other, member', starts', inside⟩
      exact not_inside_of_collected nested names member starts member' ⟨starts', by omega⟩
    · rintro ⟨skip, member', rfl⟩
      exact not_collected_of_skipped nested names member' member starts
  · refine .inr (.inl ⟨?_, ⟨test, member, starts, inside⟩, ?_⟩)
    · rintro ⟨other, member', starts'⟩
      exact not_inside_of_collected nested names member' starts' member ⟨starts, by omega⟩
    · rintro ⟨skip, member', rfl⟩
      exact not_inside_of_skipped nested names member' member ⟨starts, by omega⟩
  · refine .inr (.inr ⟨?_, ?_, ⟨skip, member, rfl⟩⟩)
    · rintro ⟨test, member', starts⟩
      exact not_collected_of_skipped nested names member member' starts
    · rintro ⟨test, member', starts, inside⟩
      exact not_inside_of_skipped nested names member member' ⟨starts, by omega⟩

theorem accounts (closing : IsCode file.text suite.bodyStop '}') :
    Accounts calls file suite (Block.collected (visited calls file suite))
      (Block.skipped (visited calls file suite)) := by
  have bodies : ∀ test ∈ Block.collected (visited calls file suite),
      test.body = slice file.text (test.bodyStart + 1) test.bodyStop := by
    intro test member
    obtain ⟨site, visit⟩ := Block.mem_collected.mp member
    exact (liesIn_of_visited nested names visit).1.body_eq
  have shapes : ∀ test ∈ Block.collected (visited calls file suite), test.start < test.bodyStart ∧
      test.bodyStart < test.bodyStop ∧ test.bodyStop + 1 < test.stop := fun test member =>
    body_of_collected nested names member
  have ordered : (Block.collected (visited calls file suite)).Pairwise (·.stop ≤ ·.start) :=
    collected_ordered nested names
  refine ⟨?_, bodies, shapes, ?_, ?_, ordered, ?_, skipped_ordered, ?_, ?_⟩
  · intro test member
    obtain ⟨site, visit⟩ := Block.mem_collected.mp member
    obtain ⟨isRead, -, stands⟩ := Block.mem_walk visit
    exact ⟨site, stands, isRead.symm⟩
  · intro test member
    obtain ⟨site, visit⟩ := Block.mem_collected.mp member
    obtain ⟨lies, -, after, before⟩ := liesIn_of_visited nested names visit
    exact ⟨lies.start_eq ▸ after, before⟩
  · refine ordered.imp_of_mem fun {test other} member _ apart => ?_
    have shape := shapes test member
    omega
  · refine ordered.imp_of_mem fun {test other} member member' apart => ?_
    have shape := shapes test member
    have shape' := shapes other member'
    omega
  · intro site stands after before
    exact exactlyOne_fate nested names closing stands after before
  · refine ordered.imp_of_mem fun {test other} member member' apart => ?_
    intro offset here there
    have shape := shapes test member
    have shape' := shapes other member'
    have inside := mem_registrations (bodies test member) here
    have inside' := mem_registrations (bodies other member') there
    omega

end Fates

/-- The body of a suite that was found ends with a brace of code. -/
theorem isCode_bodyStop (nested : HasNestedCode file.text)
    (names : ∀ name ∈ calls.suites, CallSite.IsCallName name)
    (found : Block.first file.text calls.suites 0 none = .ok suite) :
    IsCode file.text suite.bodyStop '}' := by
  obtain ⟨site, member⟩ := Block.exists_of_select found
  obtain ⟨isRead, -, stands⟩ := Block.mem_walk member
  obtain ⟨code, -⟩ := stands.isCode_openParen (CallSite.callSymbols_of_searchOrder names)
  exact (Block.liesIn_of_read nested code isRead.symm).1.closing

/-- No test is lost and no body is shared: in a well nested text, the tests of a suite are documented by
declarations that follow one another in its body without overlap, and each call in that body is one of
them, lies inside one of them, or is reported by one warning. -/
theorem calls_accounted {documented : Suite} (nested : HasNestedCode file.text)
    (suiteNames : ∀ name ∈ calls.suites, CallSite.IsCallName name)
    (testNames : ∀ name ∈ calls.tests, CallSite.IsCallName name)
    (read : (ofSource calls file).outcome = .ok documented) :
    ∃ suite, Block.first file.text calls.suites 0 none = .ok suite ∧
      List.Forall₂ (Documents file (Constants.ofText file.text))
        (Block.collected (visited calls file suite)) documented.tests ∧
      (ofSource calls file).messages.filter isSkipReport =
        (Block.skipped (visited calls file suite)).map (skipReport file) ∧
      Accounts calls file suite (Block.collected (visited calls file suite))
        (Block.skipped (visited calls file suite)) := by
  obtain ⟨suite, options, tests, found, -, passed, rfl⟩ := outcome_ofSource.mp read
  obtain ⟨-, documents⟩ := outcome_testsFrom.mp passed
  exact ⟨suite, found, documents, filter_messages_ofSource found read,
    accounts nested testNames (isCode_bodyStop nested suiteNames found)⟩

/-- A suite with a test inside another, a call without a body and a string that looks like a call. -/
def mixedFile : SourceFile :=
  ⟨"a.spec.ts", "test.describe('s', () => \x7b\n" ++
    "  test('a', () => \x7b\n" ++
    "    test('inner', () => \x7b\x7d);\n" ++
    "    test.info().annotations.push(\x7b type: 'k', description: 'see test(\"x\"' \x7d);\n" ++
    "  \x7d);\n" ++
    "  test('b');\n" ++
    "  test.skip('c', async () => \x7b\x7d);\n" ++
    "\x7d);\n"⟩

theorem calls_accounted_mixedFile :
    HasNestedCode mixedFile.text ∧
      (∀ name ∈ Calls.default.suites, CallSite.IsCallName name) ∧
      (∀ name ∈ Calls.default.tests, CallSite.IsCallName name) ∧
      (ofSource Calls.default mixedFile).outcome = .ok ⟨"s", "a.spec.ts", [], [],
        [⟨"a", [⟨"k", "see test(\"x\""⟩]⟩, ⟨"c", []⟩]⟩ ∧
      ∃ suite, Block.first mixedFile.text Calls.default.suites 0 none = .ok suite ∧
        List.Forall₂ (Documents mixedFile (Constants.ofText mixedFile.text))
          (Block.collected (visited Calls.default mixedFile suite))
          [⟨"a", [⟨"k", "see test(\"x\""⟩]⟩, ⟨"c", []⟩] ∧
        (ofSource Calls.default mixedFile).messages.filter isSkipReport =
          (Block.skipped (visited Calls.default mixedFile suite)).map (skipReport mixedFile) ∧
        Accounts Calls.default mixedFile suite
          (Block.collected (visited Calls.default mixedFile suite))
          (Block.skipped (visited Calls.default mixedFile suite)) := by
  have nested : HasNestedCode mixedFile.text := by decide +kernel
  have suiteNames : ∀ name ∈ Calls.default.suites, CallSite.IsCallName name := by decide +kernel
  have testNames : ∀ name ∈ Calls.default.tests, CallSite.IsCallName name := by decide +kernel
  have read : (ofSource Calls.default mixedFile).outcome = .ok ⟨"s", "a.spec.ts", [], [],
      [⟨"a", [⟨"k", "see test(\"x\""⟩]⟩, ⟨"c", []⟩]⟩ := eq_ok_of_toOption (by decide +kernel)
  exact ⟨nested, suiteNames, testNames, read, calls_accounted nested suiteNames testNames read⟩

end Suite

end SuiteDocs
