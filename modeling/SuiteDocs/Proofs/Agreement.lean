import SuiteDocs.Host.Hierarchy
import SuiteDocs.Proofs.Declarations
import SuiteDocs.Proofs.Reading

/-!
Sources alone and sources with a host.

A suite that is read from its source, and the same suite found in that source by the titles that a
host gives, are the same, provided that no call of a test stands inside a test. The host's search
visits every call, the other one passes over the declarations that it has read; without calls inside
them both see the same declarations.
-/

set_option autoImplicit false

namespace SuiteDocs

open SuiteDocs.Text SuiteDocs.Source

namespace Block

/-! ## Two ways through the declarations -/

/-- A walk from an offset on is the walk from the first call on. -/
theorem walk_congr {text : Text} {keywords : List Text} {start start' : Nat} {stop : Option Nat}
    {stride : Stride}
    (same : CallSite.next? text keywords start stop = CallSite.next? text keywords start' stop) :
    walk text keywords stop stride start = walk text keywords stop stride start' := by
  cases next : CallSite.next? text keywords start' stop with
  | none => rw [walk_of_none (same.trans next), walk_of_none next]
  | some site => rw [walk_of_next? (same.trans next), walk_of_next? next]

/-- Behind the parenthesis of a declaration without calls inside, the next call is the one behind the
declaration. -/
theorem next?_of_read {text : Text} {keywords : List Text} {limit : Nat} {site : CallSite}
    {block : Block} (free : ∀ name ∈ CallSite.searchOrder keywords, .char ')' ∉ name)
    (stands : site.StandsIn text (CallSite.searchOrder keywords) limit)
    (isRead : read text site (some limit) = .ok block)
    (empty : ∀ other : CallSite, other.StandsIn text (CallSite.searchOrder keywords) limit →
      ¬ (block.start < other.start ∧ other.start < block.stop)) :
    CallSite.next? text keywords (site.openParen + 1) (some limit) =
      CallSite.next? text keywords block.stop (some limit) := by
  obtain ⟨close, first, others, title, bodyStart, bodyStop, closed, room, -, -, -, -, rfl⟩ :=
    read_eq_ok_iff.mp isRead
  obtain ⟨rest, paren⟩ := stands.drop_openParen
  obtain ⟨inner, after, shape, rfl⟩ := exists_of_matchingClose paren rfl closed
  have inside := room limit rfl
  have seen : slice text (site.openParen + 1) limit =
      inner ++ .char ')' :: after.take (limit - (site.openParen + 1) - inner.length - 1) := by
    rw [slice, shape, List.take_append, List.take_of_length_le (by omega)]
    obtain ⟨count, same⟩ : ∃ count, limit - (site.openParen + 1) - inner.length = count + 1 :=
      ⟨limit - (site.openParen + 1) - inner.length - 1, by omega⟩
    rw [same]
    rfl
  have order := stands.start_le
  refine CallSite.next?_past free seen fun other standsOther between => empty other standsOther ?_
  simp only
  omega

/-- Without calls inside the declarations that are read, visiting all calls and passing over those
declarations is the same. -/
theorem declarations_eq_outermost {text : Text} {keywords : List Text} {start limit : Nat}
    (free : ∀ name ∈ CallSite.searchOrder keywords, .char ')' ∉ name)
    (empty : ∀ block ∈ collected (outermost text keywords start (some limit)),
      ∀ other : CallSite, other.StandsIn text (CallSite.searchOrder keywords) limit →
        ¬ (block.start < other.start ∧ other.start < block.stop)) :
    declarations text keywords start (some limit) = outermost text keywords start (some limit) := by
  rw [outermost] at empty
  rw [declarations, outermost]
  generalize strided : Stride.past text (some limit) = stride at empty ⊢
  generalize bound : some limit = stop at empty ⊢
  fun_induction walk text keywords stop stride start with
  | case1 start nothing => exact walk_of_none nothing
  | case2 start site next ih =>
    subst bound strided
    obtain ⟨-, stands⟩ := CallSite.standsIn_of_next? next
    rw [walk_of_next? next]
    congr 1
    have others : ∀ block ∈ collected (walk text keywords (some limit) (.past text (some limit))
        ((Stride.past text (some limit)).next site)),
        ∀ other : CallSite, other.StandsIn text (CallSite.searchOrder keywords) limit →
          ¬ (block.start < other.start ∧ other.start < block.stop) := by
      intro block member
      obtain ⟨visit, later⟩ := mem_collected.mp member
      exact empty block (mem_collected.mpr ⟨visit, List.mem_cons_of_mem _ later⟩)
    rw [← ih others, Stride.next_into, Stride.next_past]
    cases result : read text site (some limit) with
    | error error => rfl
    | ok block =>
      refine walk_congr (next?_of_read free stands result ?_)
      exact empty block (mem_collected.mpr ⟨site, by rw [result]; exact List.mem_cons_self⟩)

/-- The first declaration of a suite is found by its title too. -/
theorem select_title_of_first {missing missing' : Error}
    {visited : List (CallSite × Except Error Block)} {block : Block}
    (selected : select missing none visited = .ok block) :
    select missing' (some block.title) visited = .ok block := by
  induction visited with
  | nil => cases selected
  | cons visit rest ih =>
    obtain ⟨site, result⟩ := visit
    cases result with
    | ok found =>
      obtain rfl : found = block := by simpa [select] using selected
      simp [select]
    | error error =>
      rw [select] at selected ⊢
      split at selected
      · rename_i known
        rw [if_pos known]
        exact ih selected
      · cases selected

/-- Among declarations with different titles each is found by its own. -/
theorem select_of_mem_collected {missing : Error} {visited : List (CallSite × Except Error Block)}
    {block : Block} (known : ∀ skip ∈ skipped visited, skip.2.isNotFound = true)
    (distinct : ((collected visited).map (·.title)).Nodup)
    (member : block ∈ collected visited) :
    select missing (some block.title) visited = .ok block := by
  induction visited with
  | nil => cases member
  | cons visit rest ih =>
    obtain ⟨site, result⟩ := visit
    cases result with
    | error error =>
      rw [select, if_pos (known (site, error) List.mem_cons_self)]
      exact ih (fun skip listed => known skip (List.mem_cons_of_mem _ listed)) distinct member
    | ok found =>
      have parts : collected ((site, .ok found) :: rest) = found :: collected rest := rfl
      rw [parts] at distinct member
      rw [select]
      rcases List.mem_cons.mp member with rfl | later
      · simp
      · have different : found.title ≠ block.title := by
          intro same
          rw [List.map_cons, List.nodup_cons] at distinct
          exact distinct.1 (same ▸ List.mem_map_of_mem later)
        have passed : ¬ (some block.title).all (· == found.title) = true := by
          simpa using Ne.symm different
        rw [if_neg passed]
        exact ih known (List.nodup_cons.mp distinct).2 later

end Block

namespace Path

theorem length_foldl_enter_le (place parts : List Text) :
    (parts.foldl enter place).length ≤ place.length + parts.length := by
  induction parts generalizing place with
  | nil => exact Nat.le_refl _
  | cons part rest ih =>
    have step : (enter place part).length ≤ place.length + 1 := by
      unfold enter
      split
      · rw [List.length_dropLast]
        omega
      · rw [List.length_append]
        exact Nat.le_refl _
    have later := ih (enter place part)
    rw [List.foldl_cons, List.length_cons]
    omega

theorem sharedLength_self (parts : List Text) : sharedLength parts parts = parts.length := by
  induction parts with
  | nil => rfl
  | cons part rest ih => simp [sharedLength, ih]

/-- The empty text names the root itself, which is written as a dot. -/
theorem ne_nil_of_keyFrom {root : Path} {path : Text} (absolute : root.isAbsolute = true)
    (canonical : keyFrom root path = .ok path) : path ≠ [] := by
  rintro rfl
  obtain ⟨target, resolved, keyed⟩ := bind_eq_ok_iff.mp canonical
  have here : root.join (ofText []) = root := by
    have empty : ofText [] = ⟨.relative, []⟩ := by decide
    rw [empty, join, if_neg (by decide), List.append_nil]
  rw [here] at resolved
  obtain ⟨-, -, made⟩ := bind_eq_ok_iff.mp resolved
  have same : root.join root = root := by rw [join, if_pos absolute]
  rw [same] at made
  obtain rfl := Except.ok.inj made
  have dot : toText ⟨.relative, []⟩ ≠ [] := by decide
  cases below : below? root ⟨.root, normalise root.parts⟩ with
  | some parts =>
    rw [below] at keyed
    have none : parts = [] := by
      unfold below? at below
      split at below
      · obtain rfl := Option.some.inj below
        have short := length_foldl_enter_le [] root.parts
        exact List.drop_eq_nil_of_le (by simpa [normalise] using short)
      · cases below
    rw [none] at keyed
    exact dot (Except.ok.inj keyed)
  | none =>
    rw [below] at keyed
    have none : wayBetween (normalise root.parts) (normalise root.parts) = [] := by
      simp [wayBetween, sharedLength_self]
    simp only [none] at keyed
    exact dot (Except.ok.inj keyed)

end Path

/-- The suite of a host that has the name, file and titles of a documented one, and no tag or
description of its own. -/
def HostSuite.ofDocumented (suite : Suite) : HostSuite :=
  .node suite.name (some suite.filePath)
    (suite.tests.map fun test => ⟨test.title, suite.filePath⟩) [] none none

namespace Suite

/-- No call of a test stands inside a test that the source declares. -/
def Unnested (calls : Calls) (file : SourceFile) : Prop :=
  ∀ suite, Block.first file.text calls.suites 0 none = .ok suite →
    ∀ test ∈ Block.collected (Block.outermost file.text calls.tests (suite.bodyStart + 1)
      (some suite.bodyStop)),
    ∀ site : CallSite, site.StandsIn file.text (CallSite.searchOrder calls.tests) suite.bodyStop →
      ¬ (test.start < site.start ∧ site.start < test.stop)

/-- Whether a call of a test stands inside a test, by a look at every offset. -/
def isUnnested (calls : Calls) (file : SourceFile) : Bool :=
  match Block.first file.text calls.suites 0 none with
  | .error _ => true
  | .ok suite =>
    (Block.collected (Block.outermost file.text calls.tests (suite.bodyStart + 1)
      (some suite.bodyStop))).all fun test =>
        (List.range test.stop).all fun offset => offset ≤ test.start ||
          !CallSite.isCallAt file.text (CallSite.searchOrder calls.tests) suite.bodyStop offset

theorem isUnnested_iff {calls : Calls} {file : SourceFile} :
    isUnnested calls file = true ↔ Unnested calls file := by
  unfold isUnnested Unnested
  cases Block.first file.text calls.suites 0 none with
  | error error => simp
  | ok suite =>
    simp only [List.all_eq_true, List.mem_range, Bool.or_eq_true, decide_eq_true_eq,
      Bool.not_eq_true', Except.ok.injEq, forall_eq']
    refine forall₂_congr fun test member => ⟨fun look site stands inside => ?_,
      fun unnested offset before => ?_⟩
    · rcases look site.start inside.2 with early | absent
      · omega
      · have call := CallSite.isCallAt_iff.mpr ⟨site, rfl, stands⟩
        rw [absent] at call
        cases call
    · by_cases early : offset ≤ test.start
      · exact .inl early
      · right
        rw [Bool.eq_false_iff]
        intro call
        obtain ⟨site, rfl, stands⟩ := CallSite.isCallAt_iff.mp call
        exact unnested site stands ⟨Nat.lt_of_not_le early, before⟩

instance (calls : Calls) (file : SourceFile) : Decidable (Unnested calls file) :=
  decidable_of_iff _ isUnnested_iff

end Suite

namespace Hierarchy

open LoggedExcept

theorem namedBlock?_eq_some {text : Text} {keywords : List Text} {title : Text} {start : Nat}
    {stop : Option Nat} {block : Block} (found : Block.named text keywords title start stop = .ok block) :
    namedBlock? text keywords title start stop = .ok (some block) := by
  rw [namedBlock?, found]

theorem outcome_passFault {α : Type} {result : Except Fault α} {value : α} (given : result = .ok value) :
    (passFault result).outcome = .ok value := by
  rw [passFault, outcome_ofExcept, given]
  rfl

variable {tree : FileTree} {calls : Calls} {root : Path}

/-- A file is opened with the declaration that has the title of its suite. -/
theorem outcome_openFile {node : HostSuite} {file key text : Text} {block : Block}
    {options : SuiteOptions}
    (stored : SourceFile.readText tree root (root.join (Path.ofText file)) = .ok text)
    (titled : node.isFileContainer key = false)
    (found : Block.named text calls.suites node.title 0 none = .ok block)
    (given : SuiteOptions.ofText block.options = .ok options) :
    (openFile tree calls root node file key).outcome = .ok
      ⟨⟨node.title, key, node.tag?.getD options.tag, node.description?.getD options.description, []⟩,
        some text, some block, Constants.ofText text⟩ := by
  have source : (sourceText? tree root file key).value = some text := by
    rw [sourceText?, stored]
    rfl
  have located : (locateSuite calls text node.title key).outcome = .ok (some block, options) := by
    rw [locateSuite, outcome_bind, outcome_passFault (namedBlock?_eq_some found)]
    change (passFault (SuiteOptions.ofText block.options) >>= fun options => _).outcome = _
    rw [outcome_bind, outcome_passFault given]
    rfl
  rw [openFile, outcome_bind, outcome_lift, source]
  change outcome (if node.isFileContainer key = true then _
    else locateSuite calls text node.title key >>= fun located => _) = _
  rw [titled, if_neg Bool.false_ne_true, outcome_bind, located]
  rfl

/-- A test starts from the annotations of the declaration that has its title in the suite. -/
theorem outcome_baseline {context : FileContext} {text title : Text} {suite block : Block}
    {annotations : List Annotation} (hasText : context.text = some text)
    (hasBlock : context.block = some suite)
    (found : Block.named text calls.tests title (suite.bodyStart + 1) (some suite.bodyStop) = .ok block)
    (given : (Extraction.annotations block.body context.constants
      (some context.suite.filePath)).outcome = .ok annotations) :
    (baseline calls context title).outcome = .ok annotations := by
  have located : locateTest? calls text context.block title = .ok (some block) := by
    rw [hasBlock, locateTest?]
    change (namedBlock? _ _ _ _ _ >>= fun inSuite => _) = _
    rw [namedBlock?_eq_some found]
    rfl
  rw [baseline, hasText]
  change (passFault (locateTest? calls text context.block title) >>= fun located => _).outcome = _
  rw [outcome_bind, outcome_passFault located]
  change outcome (ExceptT.adapt Error.faulty (Extraction.annotations _ _ _)) = _
  rw [outcome_adapt, given]
  rfl

theorem outcome_addTests {context : FileContext} {tests : List HostTest} {added : List TestCase}
    (each : List.Forall₂ (fun test entry => entry.title = test.title ∧
      (baseline calls context test.title).outcome = .ok entry.annotations) tests added) :
    (addTests calls context tests).outcome =
      .ok { context with suite := { context.suite with tests := context.suite.tests ++ added } } := by
  have passed : outcome (tests.mapM fun test => do
      return (⟨test.title, ← baseline calls context test.title⟩ : TestCase)) = .ok added := by
    rw [outcome_mapM, mapM_eq_ok_iff]
    refine each.imp ?_
    rintro test ⟨title, annotations⟩ ⟨rfl, given⟩
    rw [outcome_bind, given]
    rfl
  rw [addTests, outcome_bind, passed]
  rfl

/-- A model of one node without suites inside has the suite of that node. -/
theorem outcome_model_singleton {title file : Text} {tests : List HostTest} {tag description : Option Text}
    {key : Text} {context final : FileContext} (given : file ≠ [])
    (keyed : Path.keyFrom root file = .ok key)
    (titled : (HostSuite.node title (some file) tests [] tag description).isFileContainer key = false)
    (opened : (openFile tree calls root (.node title (some file) tests [] tag description) file
      key).outcome = .ok context)
    (added : (addTests calls context tests).outcome = .ok final) :
    (model tree calls root [.node title (some file) tests [] tag description]).outcome =
      .ok ⟨[(key, final.suite)]⟩ := by
  have named : (HostSuite.node title (some file) tests [] tag description).file? = some file := by
    simp [HostSuite.file?, given]
  have step : (addSuite tree calls root OrderedMap.empty
      (.node title (some file) tests [] tag description)).outcome = .ok ⟨[(key, final)]⟩ := by
    rw [addSuite, named]
    change outcome (MonadExcept.ofExcept ((Path.keyFrom root file).mapError Error.path) >>=
      fun key => _) = _
    rw [outcome_bind, outcome_ofExcept, keyed]
    change outcome (if (HostSuite.isFileContainer _ key && _) = true then _
      else openFile tree calls root _ file key >>= fun context => _) = _
    rw [titled, Bool.false_and, if_neg Bool.false_ne_true, outcome_bind, opened]
    change outcome (addTests calls context tests >>= fun context => _) = _
    rw [outcome_bind, added]
    rfl
  have alone : HostSuite.preorderAll [.node title (some file) tests [] tag description] =
      [.node title (some file) tests [] tag description] := by
    simp [HostSuite.preorderAll, HostSuite.preorder]
  rw [model, outcome_bind, outcome_foldlM, alone, List.foldlM_cons, step]
  rfl

/-- Reading a source alone and reading it with a host that knows the titles of its tests give the same
suite, if the titles are different, no call of a test stands inside a test and no name of a call holds
a closing parenthesis. The source is stored under its key, and its suite has a title that does not name
the file. -/
theorem model_ofDocumented {path text : Text} {documented : Suite}
    (free : ∀ name ∈ calls.tests, .char ')' ∉ name) (absolute : root.isAbsolute = true)
    (canonical : Path.keyFrom root path = .ok path)
    (stored : SourceFile.readText tree root (root.join (Path.ofText path)) = .ok text)
    (read : (Suite.ofSource calls ⟨path, text⟩).outcome = .ok documented)
    (distinct : (documented.tests.map (·.title)).Nodup)
    (titled : (HostSuite.ofDocumented documented).isFileContainer path = false)
    (unnested : Suite.Unnested calls ⟨path, text⟩) :
    (model tree calls root [HostSuite.ofDocumented documented]).outcome =
      .ok ⟨[(path, documented)]⟩ := by
  obtain ⟨suite, options, tests, first, given, passed, rfl⟩ := Suite.outcome_ofSource.mp read
  obtain ⟨known, documents⟩ := Suite.outcome_testsFrom.mp passed
  have same : Block.declarations text calls.tests (suite.bodyStart + 1) (some suite.bodyStop) =
      Block.outermost text calls.tests (suite.bodyStart + 1) (some suite.bodyStop) :=
    Block.declarations_eq_outermost (CallSite.forall_searchOrder List.not_mem_nil free)
      (unnested suite first)
  have titles := Suite.titles_of_documents documents
  have suiteNamed : Block.named text calls.suites suite.title 0 none = .ok suite :=
    Block.select_title_of_first first
  have opened := outcome_openFile stored titled suiteNamed given
  refine outcome_model_singleton (Path.ne_nil_of_keyFrom absolute canonical) canonical titled opened
    (outcome_addTests ?_)
  rw [List.forall₂_map_left_iff, List.forall₂_same]
  intro test member
  obtain ⟨block, collected, sameTitle, annotations⟩ := exists_of_forall₂ documents member
  have named : Block.named text calls.tests test.title (suite.bodyStart + 1)
      (some suite.bodyStop) = .ok block := by
    rw [sameTitle, Block.named, same]
    exact Block.select_of_mem_collected known (titles ▸ distinct) collected
  refine ⟨rfl, outcome_baseline rfl rfl named ?_⟩
  exact mapError_eq_ok_iff.mp annotations

/-- A directory with one file. -/
def treeOf (file : SourceFile) : FileTree :=
  .directory [(file.path, .file (file.text.flatMap Utf8.bytesOf))]

/-- A suite with a call without a body, and with strings and comments that look like calls. -/
def decoyFile : SourceFile :=
  ⟨"a.spec.ts", "test.describe('s', () => \x7b\n" ++
    "  test('a', () => \x7b // test('x'\n" ++
    "    test.info().annotations.push(\x7b type: 'k', description: 'test(\"y\"' \x7d);\n" ++
    "  \x7d);\n" ++
    "  test('b');\n" ++
    "  test.skip('c', async () => \x7b\x7d);\n" ++
    "\x7d);\n"⟩

/-- The suite that is read from it. -/
def decoySuite : Suite :=
  ⟨"s", "a.spec.ts", [], [], [⟨"a", [⟨"k", "test(\"y\""⟩]⟩, ⟨"c", []⟩]⟩

theorem model_ofDocumented_decoyFile :
    (∀ name ∈ Calls.default.tests, .char ')' ∉ name) ∧
      (Path.mk .root []).isAbsolute = true ∧
      Path.keyFrom ⟨.root, []⟩ decoyFile.path = .ok decoyFile.path ∧
      SourceFile.readText (treeOf decoyFile) ⟨.root, []⟩
        ((Path.mk .root []).join (Path.ofText decoyFile.path)) = .ok decoyFile.text ∧
      (Suite.ofSource Calls.default decoyFile).outcome = .ok decoySuite ∧
      (decoySuite.tests.map (·.title)).Nodup ∧
      (HostSuite.ofDocumented decoySuite).isFileContainer decoyFile.path = false ∧
      Suite.Unnested Calls.default decoyFile ∧
      (model (treeOf decoyFile) Calls.default ⟨.root, []⟩
        [HostSuite.ofDocumented decoySuite]).outcome = .ok ⟨[(decoyFile.path, decoySuite)]⟩ := by
  have free : ∀ name ∈ Calls.default.tests, .char ')' ∉ name := by decide +kernel
  have canonical : Path.keyFrom ⟨.root, []⟩ decoyFile.path = .ok decoyFile.path :=
    eq_ok_of_toOption (by decide +kernel)
  have stored : SourceFile.readText (treeOf decoyFile) ⟨.root, []⟩
      ((Path.mk .root []).join (Path.ofText decoyFile.path)) = .ok decoyFile.text :=
    eq_ok_of_toOption (by decide +kernel)
  have read : (Suite.ofSource Calls.default decoyFile).outcome = .ok decoySuite :=
    eq_ok_of_toOption (by decide +kernel)
  have distinct : (decoySuite.tests.map (·.title)).Nodup := by decide +kernel
  have titled : (HostSuite.ofDocumented decoySuite).isFileContainer decoyFile.path = false := by
    decide +kernel
  have unnested : Suite.Unnested Calls.default decoyFile := by decide +kernel
  exact ⟨free, rfl, canonical, stored, read, distinct, titled, unnested,
    model_ofDocumented free rfl canonical stored read distinct titled unnested⟩

/-- Calls of which one has a name that ends a string and a call. -/
def closingCalls : Calls := ⟨defaultSuiteCalls, ["test", "x') test"]⟩

/-- A suite in which that name runs from one test into the next. -/
def closingFile : SourceFile :=
  ⟨"a.spec.ts", "test.describe('s', () => \x7b test('a', () => \x7b\x7d, 'x') test('b', () => \x7b " ++
    "test.info().annotations.push(\x7b type: 'k', description: 'd' \x7d); \x7d); \x7d);"⟩

/-- The suite that is read from it. -/
def closingSuite : Suite :=
  ⟨"s", "a.spec.ts", [], [], [⟨"a", []⟩, ⟨"b", [⟨"k", "d"⟩]⟩]⟩

/-- The declaration of that suite. -/
def closingBlock : Block :=
  ⟨"test.describe", "s", 0, 139, [], 25, 137, slice closingFile.text 26 137⟩

/-- What is known of the file when a host has named the suite. -/
def closingContext : FileContext :=
  ⟨⟨"s", "a.spec.ts", [], [], []⟩, some closingFile.text, some closingBlock,
    Constants.ofText closingFile.text⟩

/-- With a name that holds a closing parenthesis, the two ways of reading may differ. -/
theorem model_ne_of_closing_name :
    (Path.mk .root []).isAbsolute = true ∧
      Path.keyFrom ⟨.root, []⟩ closingFile.path = .ok closingFile.path ∧
      SourceFile.readText (treeOf closingFile) ⟨.root, []⟩
        ((Path.mk .root []).join (Path.ofText closingFile.path)) = .ok closingFile.text ∧
      (Suite.ofSource closingCalls closingFile).outcome = .ok closingSuite ∧
      (closingSuite.tests.map (·.title)).Nodup ∧
      (HostSuite.ofDocumented closingSuite).isFileContainer closingFile.path = false ∧
      Suite.Unnested closingCalls closingFile ∧
      (model (treeOf closingFile) closingCalls ⟨.root, []⟩
        [HostSuite.ofDocumented closingSuite]).outcome ≠ .ok ⟨[(closingFile.path, closingSuite)]⟩ := by
  have canonical : Path.keyFrom ⟨.root, []⟩ closingFile.path = .ok closingFile.path :=
    eq_ok_of_toOption (by decide +kernel)
  have stored : SourceFile.readText (treeOf closingFile) ⟨.root, []⟩
      ((Path.mk .root []).join (Path.ofText closingFile.path)) = .ok closingFile.text :=
    eq_ok_of_toOption (by decide +kernel)
  have read : (Suite.ofSource closingCalls closingFile).outcome = .ok closingSuite :=
    eq_ok_of_toOption (by decide +kernel)
  have distinct : (closingSuite.tests.map (·.title)).Nodup := by decide +kernel
  have titled : (HostSuite.ofDocumented closingSuite).isFileContainer closingFile.path = false := by
    decide +kernel
  have unnested : Suite.Unnested closingCalls closingFile := by decide +kernel
  have named : Block.named closingFile.text closingCalls.suites "s" 0 none = .ok closingBlock :=
    eq_ok_of_toOption (by decide +kernel)
  have options : SuiteOptions.ofText closingBlock.options = .ok .none :=
    eq_ok_of_toOption (by decide +kernel)
  have first : (baseline closingCalls closingContext "a").outcome = .ok [] :=
    eq_ok_of_toOption (by decide +kernel)
  have second : (baseline closingCalls closingContext "b").outcome = .ok [] :=
    eq_ok_of_toOption (by decide +kernel)
  have opened : (openFile (treeOf closingFile) closingCalls ⟨.root, []⟩
      (HostSuite.ofDocumented closingSuite) closingFile.path closingFile.path).outcome =
        .ok closingContext := outcome_openFile stored titled named options
  have each : List.Forall₂ (fun (test : HostTest) (entry : TestCase) => entry.title = test.title ∧
        (baseline closingCalls closingContext test.title).outcome = .ok entry.annotations)
      (HostSuite.ofDocumented closingSuite).tests [⟨"a", []⟩, ⟨"b", []⟩] := by
    refine .cons ?_ (.cons ?_ .nil)
    · exact ⟨rfl, first⟩
    · exact ⟨rfl, second⟩
  have given : closingFile.path ≠ [] := by decide
  have built : (model (treeOf closingFile) closingCalls ⟨.root, []⟩
      [HostSuite.ofDocumented closingSuite]).outcome = _ :=
    outcome_model_singleton given canonical titled opened (outcome_addTests each)
  refine ⟨rfl, canonical, stored, read, distinct, titled, unnested, ?_⟩
  rw [built]
  intro same
  exact absurd (Except.ok.inj same) (by decide +kernel)

end Hierarchy

end SuiteDocs
