import Mathlib.Data.Set.List
import SuiteDocs.Proofs.Declaring
import SuiteDocs.Proofs.Reading
import SuiteDocs.Proofs.Registering

/-!
Suites as they are written, and read back.

A suite is written as one declaring call with its tests in the body. The choices of a writer are
kept: the names of the calls, the quotes of every string, how the kind of an annotation is given,
and white space. Whatever the strings hold, and whatever the choices are, reading gives back the
suite that is meant.
-/

set_option autoImplicit false

namespace SuiteDocs

open SuiteDocs.Text SuiteDocs.Source

/-! ## Tests -/

/-- A test as it is written, with white space around the statement in its body and behind it. -/
structure WrittenTest where
  call : Text
  title : StringLiteral
  opening : Blanks
  annotations : List WrittenNote
  closing : Blanks
  trail : Blanks
  named : call ∈ defaultTestCalls

theorem isCallName_defaultTestCalls : ∀ name ∈ defaultTestCalls, CallSite.IsCallName name := by
  decide

theorem isCallName_defaultSuiteCalls : ∀ name ∈ defaultSuiteCalls, CallSite.IsCallName name := by
  decide

namespace WrittenTest

/-- The statement that declares the test. -/
def text (test : WrittenTest) : Text :=
  test.call ++ "(" ++ test.title.text ++ ", async (\x7b page \x7d) => \x7b" ++ test.opening.text ++
    WrittenNote.registration test.annotations ++ test.closing.text ++ "\x7d);"

/-- The test that is meant. -/
def meaning (test : WrittenTest) : TestCase :=
  ⟨test.title.contents, test.annotations.map WrittenNote.meaning⟩

/-- The call that declares the test. -/
def declaring (test : WrittenTest) : DeclaringCall where
  name := test.call
  title := test.title
  options := []
  header := "async (\x7b page \x7d) "
  body := WrittenNote.bodyPieces test.opening test.annotations test.closing
  callName := isCallName_defaultTestCalls _ test.named
  elements := by simp
  isHeader := by decide
  stable := WrittenNote.stable_bodyPieces _ _ _
  nested := WrittenNote.nested_bodyPieces _ _ _

/-- What stands behind the call. -/
def after (test : WrittenTest) : Text :=
  .char ';' :: test.trail.text

theorem isBetweenCalls_after (test : WrittenTest) : CallSite.IsBetweenCalls test.after := by
  intro c member
  rcases List.mem_cons.mp member with rfl | member
  · exact .inr rfl
  · exact .inl (test.trail.blank c member)

theorem textOf_declaring (test : WrittenTest) :
    textOf test.declaring.pieces ++ [.char ';'] = test.text := by
  have others : test.declaring.others = [arrow test.declaring.header test.declaring.body] := rfl
  have body : textOf test.declaring.body = test.opening.text ++
      (WrittenNote.registration test.annotations ++ test.closing.text) :=
    WrittenNote.textOf_bodyPieces _ _ _
  rw [DeclaringCall.textOf_pieces, others, List.map_singleton, List.intercalate_cons_cons,
    List.intercalate_singleton, textOf_arrow, body, text]
  repeat rw [List.append_assoc]
  rfl

open LoggedExcept in
/-- A declaration that was read as a written test documents the test that is meant. -/
theorem documents_meaning (file : SourceFile) (constants : Constants) (test : WrittenTest)
    {block : Block} (titled : block.title = test.title.contents)
    (bodied : block.body = textOf test.declaring.body) :
    Suite.Documents file constants block test.meaning := by
  refine ⟨titled.symm, ?_⟩
  rw [Suite.annotationsOf, outcome_adapt, bodied]
  exact mapError_eq_ok_iff.mpr
    (WrittenNote.outcome_annotations test.opening test.annotations test.closing _ _)

/-- Where all calls were read as written tests, none was skipped. -/
theorem documents_of_readAs (file : SourceFile) (constants : Constants)
    {visited : List (CallSite × Except Block.Error Block)} {tests : List WrittenTest}
    (readAs : List.Forall₂
      (fun visit test => DeclaringCall.ReadAs visit (test.declaring, test.after)) visited tests) :
    Block.skipped visited = [] ∧
      List.Forall₂ (Suite.Documents file constants) (Block.collected visited)
        (tests.map meaning) := by
  induction readAs with
  | nil => exact ⟨rfl, .nil⟩
  | @cons visit test visited tests head _ ih =>
    obtain ⟨site, result⟩ := visit
    obtain ⟨block, rfl, titled, bodied⟩ := head
    exact ⟨ih.1, .cons (test.documents_meaning file constants titled bodied) ih.2⟩

end WrittenTest

/-! ## Suites -/

/-- A suite as it is written. Its description is that of an annotation, of whatever kind. -/
structure WrittenSuite where
  call : Text
  name : StringLiteral
  tag : StringLiteral
  note : WrittenNote
  opening : Blanks
  tests : List WrittenTest
  named : call ∈ defaultSuiteCalls

namespace WrittenSuite

/-- The statement that declares the suite. -/
def text (suite : WrittenSuite) : Text :=
  suite.call ++ "(" ++ suite.name.text ++ ", \x7b tag: " ++ suite.tag.text ++ ", annotation: " ++
    suite.note.text ++ " \x7d, () => \x7b" ++ suite.opening.text ++
    suite.tests.flatMap (fun test => test.text ++ test.trail.text) ++ "\x7d);"

/-- The suite that is meant, in the file with a path. -/
def meaning (suite : WrittenSuite) (path : Text) : Suite :=
  ⟨suite.name.contents, path, suite.tag.contents, suite.note.description.contents,
    suite.tests.map WrittenTest.meaning⟩

def tagField (suite : WrittenSuite) : ObjectField where
  key := "tag"
  value := [suite.tag.piece]
  identifier := by decide
  element := isElement_string suite.tag

def annotationField (suite : WrittenSuite) : ObjectField where
  key := "annotation"
  value := suite.note.pieces
  identifier := by decide
  element := suite.note.isElement_pieces

/-- The options of the suite. -/
def optionsPieces (suite : WrittenSuite) : List Piece :=
  object suite.tagField [suite.annotationField]

/-- What the options say. -/
def optionFields (suite : WrittenSuite) : Fields :=
  OrderedMap.ofList ([suite.tagField, suite.annotationField].map ObjectField.entry)

theorem get?_tag (suite : WrittenSuite) :
    suite.optionFields.get? ("tag" : Text) = some suite.tag.text := by
  rw [← suite.tag.textOf_singleton]
  rfl

theorem get?_annotation (suite : WrittenSuite) :
    suite.optionFields.get? ("annotation" : Text) = some suite.note.text := by
  rw [← suite.note.textOf_pieces]
  rfl

/-- The calls in the body, each with what stands behind it. -/
def items (suite : WrittenSuite) : List (DeclaringCall × Text) :=
  suite.tests.map fun test => (test.declaring, test.after)

theorem isBetweenCalls_opening (suite : WrittenSuite) :
    CallSite.IsBetweenCalls suite.opening.text :=
  fun c member => .inl (suite.opening.blank c member)

theorem isBetweenCalls_of_mem_items (suite : WrittenSuite) :
    ∀ item ∈ suite.items, CallSite.IsBetweenCalls item.2 := by
  rw [items, List.forall_mem_map]
  exact fun test _ => test.isBetweenCalls_after

/-- The call that declares the suite. -/
def declaring (suite : WrittenSuite) : DeclaringCall where
  name := suite.call
  title := suite.name
  options := [suite.optionsPieces]
  header := "() "
  body := DeclaringCall.sequence suite.opening.text suite.items
  callName := isCallName_defaultSuiteCalls _ suite.named
  elements := by
    intro part member
    obtain rfl := List.mem_singleton.mp member
    exact isElement_object _ _
  isHeader := by decide
  stable := DeclaringCall.stable_sequence suite.isBetweenCalls_opening
    suite.isBetweenCalls_of_mem_items
  nested := DeclaringCall.nested_sequence suite.isBetweenCalls_opening
    suite.isBetweenCalls_of_mem_items

/-- The pieces of the whole statement. -/
def pieces (suite : WrittenSuite) : List Piece :=
  suite.declaring.pieces ++ [.code ';']

theorem textOf_sequence (gap : Text) (tests : List WrittenTest) :
    textOf (DeclaringCall.sequence gap (tests.map fun test => (test.declaring, test.after))) =
      gap ++ tests.flatMap fun test => test.text ++ test.trail.text := by
  induction tests generalizing gap with
  | nil => simp [DeclaringCall.sequence]
  | cons test tests ih =>
    have semicolon (following : Text) : textOf test.declaring.pieces ++ (test.after ++ following) =
        (test.text ++ test.trail.text) ++ following := by
      rw [← test.textOf_declaring]
      simp [WrittenTest.after]
    rw [List.map_cons, DeclaringCall.sequence, textOf_append, textOf_append, textOf_codes, ih,
      semicolon, List.flatMap_cons]

theorem textOf_pieces (suite : WrittenSuite) : textOf suite.pieces = suite.text := by
  have others : suite.declaring.others =
      [suite.optionsPieces, arrow suite.declaring.header suite.declaring.body] := rfl
  have body : textOf suite.declaring.body = suite.opening.text ++
      suite.tests.flatMap fun test => test.text ++ test.trail.text :=
    textOf_sequence _ _
  have options : textOf suite.optionsPieces = "\x7b tag: " ++ (suite.tag.text ++
      (", annotation: " ++ (suite.note.text ++ " \x7d"))) := by
    rw [optionsPieces, textOf_object, List.map_cons, List.map_singleton,
      List.intercalate_cons_cons, List.intercalate_singleton, ObjectField.text, ObjectField.text,
      tagField, annotationField, StringLiteral.textOf_singleton, WrittenNote.textOf_pieces]
    repeat rw [List.append_assoc]
    rfl
  rw [pieces, textOf_append, DeclaringCall.textOf_pieces, others, List.map_cons,
    List.map_singleton, List.intercalate_cons_cons, List.intercalate_cons_cons,
    List.intercalate_singleton, textOf_arrow, body, options, text]
  repeat rw [List.append_assoc]
  rfl

theorem stable_pieces (suite : WrittenSuite) : ∀ piece ∈ suite.pieces, piece.Stable := by
  refine List.forall_mem_append.mpr ⟨suite.declaring.stable_pieces, ?_⟩
  intro piece member
  obtain rfl := List.mem_singleton.mp member
  exact .code (by decide)

/-! ## Reading back -/

theorem descriptionOf_text (note : WrittenNote) :
    SuiteOptions.descriptionOf (some note.text) = .ok note.description.contents := by
  have fields : objectFields note.text 0 = .ok note.fields := by
    rw [← note.textOf_pieces]
    exact note.objectFields_pieces (stands_textOf note.isElement_pieces.stable)
  have opens : note.text.head? = some (.char '\x7b') := rfl
  simp only [SuiteOptions.descriptionOf, SuiteOptions.firstDescription, opens, fields,
    note.get?_description, Option.bind_some, note.description.literalValue?_text, bind,
    Except.bind]
  cases note.description.contents <;> rfl

/-- The options are read as the tag and the description that are meant. -/
theorem ofText_optionsPieces (suite : WrittenSuite) :
    SuiteOptions.ofText (textOf suite.optionsPieces) =
      .ok ⟨suite.tag.contents, suite.note.description.contents⟩ := by
  have element : IsElement suite.optionsPieces := isElement_object _ _
  have fields : objectFields (textOf suite.optionsPieces) 0 = .ok suite.optionFields :=
    objectFields_object (stands_textOf element.stable)
  have opens : (textOf suite.optionsPieces).head? = some (.char '\x7b') := rfl
  have said : objectFields (textOf suite.optionsPieces) 0 >>= SuiteOptions.ofFields =
      .ok ⟨suite.tag.contents, suite.note.description.contents⟩ := by
    refine bind_eq_ok_iff.mpr ⟨_, fields, ?_⟩
    rw [SuiteOptions.ofFields, get?_tag, get?_annotation, descriptionOf_text, SuiteOptions.tagOf,
      suite.tag.literalValue?_text]
    rfl
  simp only [SuiteOptions.ofText, strip_eq_self element.solid, opens, said]
  rfl

/-- The options of the suite are the first of its arguments that is an object. -/
theorem optionsOf_others (suite : WrittenSuite) {text : Text} {others : List Span}
    (covered : List.Forall₂ (Covers text) others suite.declaring.others) :
    Block.optionsOf text others = textOf suite.optionsPieces := by
  cases covered with
  | cons options _ =>
    have opens := options.1.isCode.getElem?
    rw [Block.optionsOf, List.find?_cons]
    simp only [opens]
    exact options.slice

/-- The tests are read as those that are meant, in order. -/
theorem outcome_testsFrom_items (suite : WrittenSuite) (file : SourceFile) (constants : Constants)
    {start : Nat} (stands : Stands file.text start suite.declaring.body)
    (fresh : CallSite.continuesName (charBefore? file.text start) = false) :
    (Suite.testsFrom Calls.default file constants (start + (textOf suite.declaring.body).length)
      start).outcome = .ok (suite.tests.map WrittenTest.meaning) := by
  have each : ∀ item ∈ suite.items, item.1.name ∈ defaultTestCalls ∧
      CallSite.IsBetweenCalls item.2 := by
    rw [items, List.forall_mem_map]
    exact fun test _ => ⟨test.named, test.isBetweenCalls_after⟩
  have visited : List.Forall₂
      (fun visit test => DeclaringCall.ReadAs visit (test.declaring, test.after))
      (Block.outermost file.text Calls.default.tests start
        (some (start + (textOf suite.declaring.body).length))) suite.tests :=
    List.forall₂_map_right_iff.mp (DeclaringCall.outermost_sequence isCallName_defaultTestCalls
      (by decide) each suite.isBetweenCalls_opening fresh stands)
  obtain ⟨nothing, documented⟩ := WrittenTest.documents_of_readAs file constants visited
  refine Suite.outcome_testsFrom.mpr ⟨fun skip member => ?_, documented⟩
  rw [nothing] at member
  cases member

/-- The first declaration in the text is that of the suite. -/
theorem exists_first (suite : WrittenSuite) :
    ∃ block, Block.first suite.text Calls.default.suites 0 none = .ok block ∧
      block.title = suite.name.contents ∧
      SuiteOptions.ofText block.options =
        .ok ⟨suite.tag.contents, suite.note.description.contents⟩ ∧
      Stands suite.text block.bodyStart (enclosed '\x7b' '\x7d' suite.declaring.body) ∧
      block.bodyStop = block.bodyStart + 1 + (textOf suite.declaring.body).length := by
  have stands : Stands suite.text 0 (suite.declaring.pieces ++ [.code ';']) := by
    rw [← suite.textOf_pieces]
    exact stands_textOf suite.stable_pieces
  have next : CallSite.next? suite.text Calls.default.suites 0 none =
      some ⟨suite.call, 0, suite.call.length⟩ := by
    obtain ⟨more, shape⟩ := suite.declaring.exists_pieces_eq
    have call := stands.left
    rw [shape] at call
    have nothing : CallSite.IsBetweenCalls [] := by simp [CallSite.IsBetweenCalls]
    have found := CallSite.next?_eq_some isCallName_defaultSuiteCalls suite.named nothing rfl call
      (by simp : ∀ bound ∈ (none : Option Nat), _)
    rwa [List.length_nil, Nat.add_zero, Nat.zero_add] at found
  have opened : Stands suite.text suite.call.length suite.declaring.arguments := by
    have behind := stands.left.right
    rwa [textOf_codes, Nat.zero_add] at behind
  obtain ⟨block, others, isRead, titled, -, covered, options, body, stops, -⟩ :=
    suite.declaring.exists_read ⟨suite.call, 0, suite.call.length⟩ none opened (by simp)
  refine ⟨block, ?_, titled, ?_, body, stops⟩
  · rw [Block.first, Block.declarations, Block.walk_of_next? next, isRead]
    rfl
  · rw [options, suite.optionsOf_others covered, ofText_optionsPieces]

/-! ## Writings of a suite -/

/-- A space. -/
def space : Blanks := ⟨" ", by decide⟩

theorem exists_writing_of_test {test : TestCase}
    (kinds : ∀ note ∈ test.annotations, note.kind ≠ []) :
    ∃ written : WrittenTest, written.meaning = test := by
  have each : ∀ note ∈ test.annotations,
      note ∈ Set.range WrittenNote.meaning := by
    intro note member
    exact ⟨⟨.string (.ofContents note.kind) (kinds note member),
      .ofContents note.description⟩, rfl⟩
  obtain ⟨annotations, same⟩ : test.annotations ∈ Set.range (List.map WrittenNote.meaning) := by
    rw [Set.range_list_map]
    exact each
  refine ⟨⟨"test", .ofContents test.title, space, annotations, space, space, by decide⟩, ?_⟩
  rw [WrittenTest.meaning, same]
  rfl

/-- Every suite whose annotations have kinds can be written. -/
theorem exists_writing {suite : Suite}
    (kinds : ∀ test ∈ suite.tests, ∀ note ∈ test.annotations, note.kind ≠ []) :
    ∃ written : WrittenSuite, written.meaning suite.filePath = suite := by
  obtain ⟨tests, same⟩ : suite.tests ∈ Set.range (List.map WrittenTest.meaning) := by
    rw [Set.range_list_map]
    exact fun test member => exists_writing_of_test (kinds test member)
  have kind : WrittenKind := .member "x" (by decide)
  refine ⟨⟨"test.describe", .ofContents suite.name, .ofContents suite.tag,
    ⟨kind, .ofContents suite.description⟩, space, tests, by decide⟩, ?_⟩
  rw [meaning, same]
  rfl

/-- Every suite whose annotations have kinds can be written, and each way of writing it is read as
exactly that suite: whatever its strings hold, and whatever quotes, names of calls and white space
are chosen. -/
theorem ofSource_text (suite : Suite)
    (kinds : ∀ test ∈ suite.tests, ∀ note ∈ test.annotations, note.kind ≠ []) :
    (∃ written : WrittenSuite, written.meaning suite.filePath = suite) ∧
      ∀ written : WrittenSuite, written.meaning suite.filePath = suite →
        (Suite.ofSource Calls.default ⟨suite.filePath, written.text⟩).outcome = .ok suite := by
  refine ⟨exists_writing kinds, ?_⟩
  intro written meant
  obtain ⟨block, first, titled, said, body, stops⟩ := written.exists_first
  have fresh : CallSite.continuesName (charBefore? written.text (block.bodyStart + 1)) = false := by
    have brace : charBefore? written.text (block.bodyStart + 1) = some (.char '\x7b') :=
      body.isCode.getElem?
    rw [brace]
    decide
  have tests := written.outcome_testsFrom_items ⟨suite.filePath, written.text⟩
    (Constants.ofText written.text) body.next.left fresh
  rw [← stops] at tests
  refine Suite.outcome_ofSource.mpr ⟨block, _, _, first, said, tests, ?_⟩
  rw [titled]
  exact meant.symm

/-- A suite whose strings look like calls, comments and brackets. -/
def decoySuite : Suite :=
  ⟨"it's test('x', () => \x7b", "a.spec.ts", "@a, \"b\"", "/* no\n// comment",
    [⟨"a\\b", [⟨"priority", ".annotations.push(\x7b"⟩, ⟨"kind", ""⟩]⟩, ⟨"", []⟩]⟩

/-- The same suite as it is written with all kinds of quotes. -/
def decoyWriting : WrittenSuite where
  call := "test.describe.only"
  name := ⟨.single, "it's test('x', () => \x7b", .inr (by decide)⟩
  tag := ⟨.double, "@a, \"b\"", .inr (by decide)⟩
  note := ⟨.string ⟨.single, "x", .inr (by decide)⟩ (by decide),
    ⟨.backtick, "/* no\n// comment", .inl rfl⟩⟩
  opening := ⟨"\n  ", by decide⟩
  tests := [
    ⟨"test.only", ⟨.single, "a\\b", .inr (by decide)⟩, space,
      [⟨.member "priority" (by decide), ⟨.double, ".annotations.push(\x7b", .inr (by decide)⟩⟩,
        ⟨.string ⟨.backtick, "kind", .inl rfl⟩ (by decide), ⟨.single, "", .inr (by decide)⟩⟩],
      space, ⟨"\n  ", by decide⟩, by decide⟩,
    ⟨"test", ⟨.double, "", .inr (by decide)⟩, space, [], ⟨"", by decide⟩, ⟨"\n", by decide⟩,
      by decide⟩]
  named := by decide

example : decoyWriting.text = "test.describe.only('it\\'s test(\\'x\\', () => \x7b', " ++
    "\x7b tag: \"@a, \\\"b\\\"\", " ++
    "annotation: \x7b type: 'x', description: `/* no\n// comment` \x7d \x7d, () => \x7b\n  " ++
    "test.only('a\\\\b', async (\x7b page \x7d) => \x7b test.info().annotations.push(" ++
    "\x7b type: AnnotationType.priority, description: \".annotations.push(\x7b\" \x7d, " ++
    "\x7b type: `kind`, description: '' \x7d); \x7d);\n  " ++
    "test(\"\", async (\x7b page \x7d) => \x7b \x7d);\n\x7d);" := by decide +kernel

theorem ofSource_text_decoys :
    (∀ test ∈ decoySuite.tests, ∀ note ∈ test.annotations, note.kind ≠ []) ∧
      decoyWriting.meaning decoySuite.filePath = decoySuite ∧
      (Suite.ofSource Calls.default ⟨decoySuite.filePath, decoyWriting.text⟩).outcome =
        .ok decoySuite := by
  have kinds : ∀ test ∈ decoySuite.tests, ∀ note ∈ test.annotations,
      note.kind ≠ [] := by decide
  have meant : decoyWriting.meaning decoySuite.filePath = decoySuite := by decide
  exact ⟨kinds, meant, (ofSource_text decoySuite kinds).2 decoyWriting meant⟩

end WrittenSuite

end SuiteDocs
