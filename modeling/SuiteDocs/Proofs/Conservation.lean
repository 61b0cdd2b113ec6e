import SuiteDocs.Proofs.Agreement
import SuiteDocs.Proofs.Baselines
import SuiteDocs.Proofs.Recovery

/-!
A model built from the suites of a host has all their tests.

Taking in a suite appends its titles to those of its file and changes no other file. The titles of a
file are therefore those of its suites, in the order in which the host lists them, whether or not the
file can be read and its declarations are found. Only a file that has no key stops the building.
-/

set_option autoImplicit false

namespace SuiteDocs

open SuiteDocs.Text SuiteDocs.Source

namespace OrderedMap

variable {κ α β : Type} [DecidableEq κ]

theorem get?_map (map : OrderedMap κ α) (change : α → β) (key : κ) :
    (OrderedMap.mk (map.entries.map fun entry => (entry.1, change entry.2))).get? key =
      (map.get? key).map change := by
  simp only [get?, List.find?_map, Option.map_map]
  rfl

/-- Adding a pair exchanges the share of its key in all that the values hold. -/
theorem length_flatMap_insert (map : OrderedMap κ α) (share : α → List β) (key : κ) (value : α) :
    ((map.insert key value).values.flatMap share).length +
        (((map.get? key).map share).getD []).length =
      (map.values.flatMap share).length + (share value).length := by
  obtain ⟨entries⟩ := map
  simp only [values, insert, get?]
  induction entries with
  | nil => simp [insertEntry]
  | cons first rest ih =>
    obtain ⟨other, old⟩ := first
    rw [insertEntry]
    by_cases same : other = key
    · simp only [same, if_true, List.map_cons, List.flatMap_cons, List.length_append, List.find?_cons,
        decide_true, Option.map_some, Option.getD_some]
      omega
    · simp only [same, if_false, List.map_cons, List.flatMap_cons, List.length_append,
        List.find?_cons, decide_false]
      omega

end OrderedMap

namespace HostSuite

/-- The key of the file of a suite. -/
def key? (root : Path) (suite : HostSuite) : Option Text :=
  suite.file?.bind fun file => (Path.keyFrom root file).toOption

/-- Why the file of a suite has no key. -/
def pathError? (root : Path) (suite : HostSuite) : Option Path.Error :=
  suite.file?.bind fun file =>
    match Path.keyFrom root file with
    | .error error => some error
    | .ok _ => none

theorem key?_eq_some {root : Path} {suite : HostSuite} {file key : Text}
    (named : suite.file? = some file) (keyed : Path.keyFrom root file = .ok key) :
    suite.key? root = some key := by
  rw [key?, named, Option.bind_some, keyed]
  rfl

end HostSuite

namespace Hierarchy

open LoggedExcept

variable {calls : Calls} {root : Path} {tree : FileTree}

/-- Why the first file without a key has none. -/
def pathError? (root : Path) (nodes : List HostSuite) : Option Path.Error :=
  nodes.findSome? (·.pathError? root)

/-- The titles of the tests of all suites whose file has a key. -/
def titlesUnder (root : Path) (key : Text) (nodes : List HostSuite) : List Text :=
  (nodes.filter fun node => node.key? root == some key).flatMap fun node => node.tests.map (·.title)

/-- The number of tests of all suites that have a file. -/
def testsWithFile (nodes : List HostSuite) : Nat :=
  ((nodes.filter (·.file?.isSome)).flatMap (·.tests)).length

theorem titlesUnder_append (key : Text) (nodes others : List HostSuite) :
    titlesUnder root key (nodes ++ others) = titlesUnder root key nodes ++ titlesUnder root key others := by
  rw [titlesUnder, List.filter_append, List.flatMap_append]
  rfl

theorem titlesUnder_cons (key : Text) (node : HostSuite) (nodes : List HostSuite) :
    titlesUnder root key (node :: nodes) =
      (if node.key? root = some key then node.tests.map (·.title) else []) ++
        titlesUnder root key nodes := by
  rw [titlesUnder, List.filter_cons]
  by_cases here : node.key? root = some key
  · simp [here, titlesUnder]
  · simp [here, titlesUnder]

theorem testsWithFile_cons (node : HostSuite) (nodes : List HostSuite) :
    testsWithFile (node :: nodes) =
      (if node.file?.isSome then node.tests.length else 0) + testsWithFile nodes := by
  rw [testsWithFile, List.filter_cons]
  split
  · rw [List.flatMap_cons, List.length_append]
    rfl
  · rw [Nat.zero_add]
    rfl

/-! ## Reading the sources of a host -/

theorem namedBlock?_total (text : Text) (keywords : List Text) (title : Text) (start : Nat)
    (stop : Option Nat) : ∃ found, namedBlock? text keywords title start stop = .ok found := by
  rw [namedBlock?]
  rcases Block.named_total text keywords title start stop with ⟨block, found⟩ | missing
  · exact ⟨some block, by rw [found]⟩
  · exact ⟨none, by rw [missing]⟩

theorem locateTest?_total (calls : Calls) (text : Text) (suite : Option Block) (title : Text) :
    ∃ found, locateTest? calls text suite title = .ok found := by
  cases suite with
  | none => exact namedBlock?_total text calls.tests title 0 none
  | some block =>
    obtain ⟨inSuite, given⟩ :=
      namedBlock?_total text calls.tests title (block.bodyStart + 1) (some block.bodyStop)
    unfold locateTest?
    dsimp only
    rw [given]
    cases inSuite with
    | some block => exact ⟨some block, rfl⟩
    | none => exact namedBlock?_total text calls.tests title 0 none

theorem locateSuite_total (calls : Calls) (text title key : Text) :
    ∃ located, (locateSuite calls text title key).outcome = .ok located := by
  obtain ⟨found, given⟩ := namedBlock?_total text calls.suites title 0 none
  refine exists_outcome_bind ⟨found, outcome_passFault given⟩ fun found => ?_
  cases found with
  | none => exact ⟨_, rfl⟩
  | some block =>
    obtain ⟨options, given⟩ := SuiteOptions.ofText_total block.options
    exact exists_outcome_bind ⟨options, outcome_passFault given⟩ fun options => ⟨_, rfl⟩

theorem openFile_total (node : HostSuite) (file key : Text) :
    ∃ context, (openFile tree calls root node file key).outcome = .ok context := by
  refine exists_outcome_bind ⟨_, outcome_lift _⟩ fun text => ?_
  cases text with
  | none => exact ⟨_, rfl⟩
  | some text =>
    dsimp only
    split
    · exact ⟨_, rfl⟩
    · exact exists_outcome_bind (locateSuite_total calls text node.title key) fun located => ⟨_, rfl⟩

/-- A test always has annotations to start from. -/
theorem baseline_total (context : FileContext) (title : Text) :
    ∃ annotations, (baseline calls context title).outcome = .ok annotations := by
  rw [baseline]
  cases context.text with
  | none => exact ⟨[], rfl⟩
  | some text =>
    obtain ⟨found, given⟩ := locateTest?_total calls text context.block title
    refine exists_outcome_bind ⟨found, outcome_passFault given⟩ fun found => ?_
    cases found with
    | none => exact ⟨[], rfl⟩
    | some block =>
      obtain ⟨annotations, given⟩ := Extraction.annotations_total block.body context.constants
        (some context.suite.filePath)
      exact ⟨annotations, by rw [outcome_adapt, given]; rfl⟩

/-! ## Taking in suites -/

/-- The titles of the tests of a file. -/
def FileContext.titles (context : FileContext) : List Text :=
  context.suite.tests.map (·.title)

/-- The titles under a key so far. -/
def titlesAt (contexts : Contexts) (key : Text) : List Text :=
  ((contexts.get? key).map FileContext.titles).getD []

/-- The number of tests so far. -/
def testsIn (contexts : Contexts) : Nat :=
  (contexts.values.flatMap (·.suite.tests)).length

theorem addTests_total (context : FileContext) (tests : List HostTest) :
    ∃ final, (addTests calls context tests).outcome = .ok final ∧
      final.titles = context.titles ++ tests.map (·.title) := by
  choose annotations given using fun title => @baseline_total calls context title
  have related : List.Forall₂ (fun (test : HostTest) (entry : TestCase) => entry.title = test.title ∧
      (baseline calls context test.title).outcome = .ok entry.annotations) tests
      (tests.map fun test => ⟨test.title, annotations test.title⟩) := by
    rw [List.forall₂_map_right_iff, List.forall₂_same]
    exact fun test _ => ⟨rfl, given test.title⟩
  refine ⟨_, outcome_addTests related, ?_⟩
  simp [FileContext.titles]

theorem titles_of_addTests {context final : FileContext} {tests : List HostTest}
    (added : (addTests calls context tests).outcome = .ok final) :
    final.titles = context.titles ++ tests.map (·.title) := by
  obtain ⟨other, given, titles⟩ := @addTests_total calls context tests
  obtain rfl := Except.ok.inj (given.symm.trans added)
  exact titles

theorem titlesAt_insert (contexts : Contexts) (key other : Text) (context : FileContext) :
    titlesAt (contexts.insert key context) other =
      if other = key then context.titles else titlesAt contexts other := by
  rw [titlesAt, OrderedMap.get?_insert]
  split
  · rfl
  · rfl

theorem testsIn_insert {contexts : Contexts} {key : Text} {context : FileContext} {more : List Text}
    (extended : context.titles = titlesAt contexts key ++ more) :
    testsIn (contexts.insert key context) = testsIn contexts + more.length := by
  have exchanged := contexts.length_flatMap_insert (·.suite.tests) key context
  have before : (((contexts.get? key).map (·.suite.tests)).getD []).length =
      (titlesAt contexts key).length := by
    rw [titlesAt]
    cases contexts.get? key with
    | none => rfl
    | some context => exact (List.length_map _).symm
  have after : context.suite.tests.length = (titlesAt contexts key).length + more.length := by
    rw [← List.length_append, ← extended]
    exact (List.length_map _).symm
  simp only [testsIn]
  omega

/-- Nothing but a file without a key keeps a suite from being taken in. -/
theorem addSuite_total {node : HostSuite} (keyed : node.pathError? root = none) (contexts : Contexts) :
    ∃ final, (addSuite tree calls root contexts node).outcome = .ok final := by
  cases named : node.file? with
  | none => exact ⟨contexts, by rw [addSuite, named]; rfl⟩
  | some file =>
    cases given : Path.keyFrom root file with
    | error error => simp [HostSuite.pathError?, named, given] at keyed
    | ok key =>
      have extended (context : FileContext) :
          ∃ final, (addTests calls context node.tests).outcome = .ok final := by
        obtain ⟨final, added, -⟩ := addTests_total context node.tests
        exact ⟨final, added⟩
      rw [addSuite, named]
      refine exists_outcome_bind ⟨key, by rw [outcome_ofExcept, given]; rfl⟩ fun key => ?_
      cases contexts.get? key with
      | some context => exact exists_outcome_bind (extended context) fun final => ⟨_, rfl⟩
      | none =>
        dsimp only
        split
        · exact ⟨contexts, rfl⟩
        · exact exists_outcome_bind (openFile_total node file key) fun context =>
            exists_outcome_bind (extended context) fun final => ⟨_, rfl⟩

/-- Taking in a suite appends its titles under its key, if it has a file, and changes nothing else. -/
theorem titles_of_addSuite {contexts final : Contexts} {node : HostSuite}
    (added : (addSuite tree calls root contexts node).outcome = .ok final) :
    (∀ key, titlesAt final key = titlesAt contexts key ++
        if node.key? root = some key then node.tests.map (·.title) else []) ∧
      testsIn final = testsIn contexts + if node.file?.isSome then node.tests.length else 0 := by
  -- Whether the file is known or opened now, its context has the titles of the key and is extended.
  have inserted {file key : Text} {context extended : FileContext} (named : node.file? = some file)
      (keyed : Path.keyFrom root file = .ok key) (same : context.titles = titlesAt contexts key)
      (more : (addTests calls context node.tests).outcome = .ok extended) :
      (∀ other, titlesAt (contexts.insert key extended) other = titlesAt contexts other ++
          if node.key? root = some other then node.tests.map (·.title) else []) ∧
        testsIn (contexts.insert key extended) =
          testsIn contexts + if node.file?.isSome then node.tests.length else 0 := by
    have titles := titles_of_addTests more
    rw [same] at titles
    constructor
    · intro other
      rw [titlesAt_insert, titles, HostSuite.key?_eq_some named keyed]
      by_cases here : other = key
      · rw [if_pos here, if_pos (congrArg some here.symm), here]
      · rw [if_neg here, if_neg (by simpa using Ne.symm here), List.append_nil]
    · rw [testsIn_insert titles, named, List.length_map]
      rfl
  cases takes_of_addSuite added with
  | unfiled named => simp [HostSuite.key?, named]
  | known named keyed found more =>
    exact inserted named keyed (by rw [titlesAt, found]; rfl) more
  | passed named keyed unknown container =>
    -- A container that is passed over has no tests to lose.
    have empty : node.tests = [] := List.isEmpty_iff.mp (Bool.and_eq_true_iff.mp container).2
    simp [empty]
  | opened named keyed unknown counts starts more =>
    refine inserted named keyed ?_ more
    rw [titlesAt, unknown, FileContext.titles, (openFile_suite starts).2.1]
    rfl

theorem addSuite_of_pathError {node : HostSuite} {error : Path.Error}
    (failed : node.pathError? root = some error) (contexts : Contexts) :
    (addSuite tree calls root contexts node).outcome = .error (.path error) := by
  obtain ⟨file, named, failed⟩ := Option.bind_eq_some_iff.mp failed
  cases given : Path.keyFrom root file with
  | ok key => simp [given] at failed
  | error other =>
    rw [given] at failed
    obtain rfl := Option.some.inj failed
    rw [addSuite, named]
    dsimp only
    rw [outcome_bind, outcome_ofExcept, given]
    rfl

/-- A pass over suites whose files have keys appends their titles, in order. -/
theorem foldlM_addSuite {nodes : List HostSuite} (keyed : pathError? root nodes = none)
    (contexts : Contexts) :
    ∃ final, nodes.foldlM (fun contexts node => (addSuite tree calls root contexts node).outcome)
        contexts = .ok final ∧
      (∀ key, titlesAt final key = titlesAt contexts key ++ titlesUnder root key nodes) ∧
      testsIn final = testsIn contexts + testsWithFile nodes := by
  induction nodes generalizing contexts with
  | nil =>
    refine ⟨contexts, rfl, ?_, rfl⟩
    intro key
    exact (List.append_nil _).symm
  | cons node rest ih =>
    obtain ⟨own, others⟩ := List.forall_mem_cons.mp (List.findSome?_eq_none_iff.mp keyed)
    obtain ⟨next, step⟩ := @addSuite_total calls root tree _ own contexts
    obtain ⟨appended, added⟩ := titles_of_addSuite step
    obtain ⟨final, passed, titles, count⟩ := ih (List.findSome?_eq_none_iff.mpr others) next
    refine ⟨final, ?_, ?_, ?_⟩
    · rw [List.foldlM_cons, step]
      exact passed
    · intro key
      rw [titles, appended, titlesUnder_cons, List.append_assoc]
    · rw [count, added, testsWithFile_cons, Nat.add_assoc]

/-- A pass stops at the first file without a key. -/
theorem foldlM_addSuite_of_pathError {nodes : List HostSuite} {error : Path.Error}
    (failed : pathError? root nodes = some error) (contexts : Contexts) :
    nodes.foldlM (fun contexts node => (addSuite tree calls root contexts node).outcome) contexts =
      .error (.path error) := by
  induction nodes generalizing contexts with
  | nil => cases failed
  | cons node rest ih =>
    rw [pathError?, List.findSome?_cons] at failed
    rw [List.foldlM_cons]
    cases own : node.pathError? root with
    | some other =>
      rw [own] at failed
      obtain rfl := Option.some.inj failed
      rw [addSuite_of_pathError own]
      rfl
    | none =>
      rw [own] at failed
      obtain ⟨next, step⟩ := @addSuite_total calls root tree _ own contexts
      rw [step]
      exact ih failed next

/-! ## The model -/

theorem outcome_model {nodes : List HostSuite} :
    (model tree calls root nodes).outcome =
      ((HostSuite.preorderAll nodes).foldlM
        (fun contexts node => (addSuite tree calls root contexts node).outcome)
        OrderedMap.empty).map fun contexts =>
          ⟨contexts.entries.map fun entry => (entry.1, entry.2.suite)⟩ := by
  rw [model, outcome_bind, outcome_foldlM]
  cases (HostSuite.preorderAll nodes).foldlM
    (fun contexts node => (addSuite tree calls root contexts node).outcome) OrderedMap.empty with
  | error error => rfl
  | ok contexts =>
    change outcome (contexts.values.forM (fun context =>
      (monadLift (Suite.warnRepeatedTitles context.suite) : LoggedExcept Error Unit)) >>=
        fun _ => _) = _
    rw [outcome_bind, outcome_forM_lift]
    rfl

/-- A model holds the suites of the contexts that the pass over the host leaves. -/
theorem exists_contexts_of_model {nodes : List HostSuite} {built : Model}
    (given : (model tree calls root nodes).outcome = .ok built) :
    ∃ contexts, (HostSuite.preorderAll nodes).foldlM
        (fun contexts node => (addSuite tree calls root contexts node).outcome) OrderedMap.empty =
          .ok contexts ∧
      built = ⟨contexts.entries.map fun entry => (entry.1, entry.2.suite)⟩ := by
  rw [outcome_model] at given
  cases passed : (HostSuite.preorderAll nodes).foldlM
      (fun contexts node => (addSuite tree calls root contexts node).outcome) OrderedMap.empty with
  | error error =>
    rw [passed] at given
    cases given
  | ok contexts =>
    rw [passed] at given
    exact ⟨contexts, rfl, (Except.ok.inj given).symm⟩

theorem testCount_eq_length (model : Model) :
    model.testCount = (model.values.flatMap Suite.tests).length := by
  rw [Model.testCount, Model.suites]
  induction model.values with
  | nil => rfl
  | cons suite rest ih => rw [List.foldr_cons, ih, List.flatMap_cons, List.length_append]

theorem exists_model {nodes : List HostSuite}
    (keyed : pathError? root (HostSuite.preorderAll nodes) = none) :
    ∃ built, (model tree calls root nodes).outcome = .ok built := by
  obtain ⟨contexts, passed, -⟩ := @foldlM_addSuite calls root tree _ keyed OrderedMap.empty
  rw [outcome_model, passed]
  exact ⟨_, rfl⟩

theorem model_of_pathError {nodes : List HostSuite} {error : Path.Error}
    (failed : pathError? root (HostSuite.preorderAll nodes) = some error) :
    (model tree calls root nodes).outcome = .error (.path error) := by
  rw [outcome_model, foldlM_addSuite_of_pathError failed]
  rfl

/-- A model has the titles of the host, file by file, and no others. -/
theorem tests_of_model {nodes : List HostSuite} {built : Model}
    (given : (model tree calls root nodes).outcome = .ok built) :
    (∀ key, (((built.get? key).map Suite.tests).getD []).map (·.title) =
        titlesUnder root key (HostSuite.preorderAll nodes)) ∧
      built.testCount = testsWithFile (HostSuite.preorderAll nodes) := by
  cases keyed : pathError? root (HostSuite.preorderAll nodes) with
  | some error =>
    rw [model_of_pathError keyed] at given
    cases given
  | none =>
    obtain ⟨contexts, passed, titles, count⟩ :=
      @foldlM_addSuite calls root tree _ keyed OrderedMap.empty
    rw [outcome_model, passed] at given
    obtain rfl := Except.ok.inj given
    constructor
    · intro key
      have listed : titlesAt contexts key = titlesUnder root key (HostSuite.preorderAll nodes) :=
        titles key
      rw [OrderedMap.get?_map contexts FileContext.suite, ← listed, titlesAt]
      cases contexts.get? key with
      | none => rfl
      | some context => rfl
    · have counted : testsIn contexts = testsWithFile (HostSuite.preorderAll nodes) := by
        rw [count]
        exact Nat.zero_add _
      rw [testCount_eq_length, ← counted, testsIn, OrderedMap.values, OrderedMap.values, List.map_map,
        List.flatMap_map, List.flatMap_map]
      rfl

/-- Building loses, doubles and reorders no test: the titles under a key are those of all suites whose
file has that key, in the order of the host, and the tests are as many as the suites with a file have.
Only a file without a key stops it. -/
theorem tests_conserved (tree : FileTree) (calls : Calls) (root : Path) (nodes : List HostSuite) :
    (pathError? root (HostSuite.preorderAll nodes) = none →
      ∃ built, (model tree calls root nodes).outcome = .ok built ∧
        (∀ key, (((built.get? key).map Suite.tests).getD []).map (·.title) =
          titlesUnder root key (HostSuite.preorderAll nodes)) ∧
        built.testCount = testsWithFile (HostSuite.preorderAll nodes)) ∧
    ∀ error, pathError? root (HostSuite.preorderAll nodes) = some error →
      (model tree calls root nodes).outcome = .error (.path error) := by
  constructor
  · intro keyed
    obtain ⟨built, given⟩ := @exists_model calls root tree nodes keyed
    exact ⟨built, given, tests_of_model given⟩
  · intro error failed
    exact model_of_pathError failed

/-- A file met as a container, with suites inside it and under three spellings, a file that cannot be
read, and a suite without a file. -/
def interleavedNodes : List HostSuite :=
  [.node "a.spec.ts" (some "a.spec.ts") []
      [.node "s" (some "a.spec.ts") [⟨"a", "a.spec.ts"⟩]
        [.node "inner" (some "./x/../a.spec.ts") [⟨"gone", "a.spec.ts"⟩] [] none none] none none]
      none none,
    .node "other" (some "b.spec.ts") [⟨"b", "b.spec.ts"⟩] [] none none,
    .node "none" none [⟨"unfiled", "a.spec.ts"⟩] [] none none,
    .node "s" (some "/a.spec.ts") [⟨"a", "a.spec.ts"⟩] [] none none]

/-- A suite with a test, and a container without tests whose name holds a NUL character. -/
def unnamedNodes : List HostSuite :=
  [.node "s" (some "a.spec.ts") [⟨"t", "a.spec.ts"⟩] [] none none,
    .node "" (some "a\x00b") [] [] none none]

theorem tests_conserved_interleavedNodes :
    pathError? ⟨.root, []⟩ (HostSuite.preorderAll interleavedNodes) = none ∧
      (∃ built, (model (treeOf decoyFile) Calls.default ⟨.root, []⟩ interleavedNodes).outcome =
          .ok built ∧
        (((built.get? "a.spec.ts").map Suite.tests).getD []).map (·.title) = ["a", "gone", "a"] ∧
        (((built.get? "b.spec.ts").map Suite.tests).getD []).map (·.title) = ["b"] ∧
        built.testCount = 4) ∧
      pathError? ⟨.root, []⟩ (HostSuite.preorderAll unnamedNodes) = some .nul ∧
      (model (treeOf decoyFile) Calls.default ⟨.root, []⟩ unnamedNodes).outcome =
        .error (.path .nul) := by
  have keyed : pathError? ⟨.root, []⟩ (HostSuite.preorderAll interleavedNodes) = none := by
    decide +kernel
  have failed : pathError? ⟨.root, []⟩ (HostSuite.preorderAll unnamedNodes) = some .nul := by
    decide +kernel
  obtain ⟨built, given, titles, count⟩ :=
    (tests_conserved (treeOf decoyFile) Calls.default ⟨.root, []⟩ interleavedNodes).1 keyed
  refine ⟨keyed, ⟨built, given, ?_, ?_, ?_⟩, failed, ?_⟩
  · rw [titles]
    decide +kernel
  · rw [titles]
    decide +kernel
  · rw [count]
    decide +kernel
  · exact (tests_conserved (treeOf decoyFile) Calls.default ⟨.root, []⟩ unnamedNodes).2 _ failed

/-- A name without a key on a suite without tests loses the tests of all others. -/
theorem model_fails_of_nul :
    (model (treeOf decoyFile) Calls.default ⟨.root, []⟩ unnamedNodes).outcome = .error (.path .nul) ∧
      titlesUnder ⟨.root, []⟩ "a.spec.ts" (HostSuite.preorderAll unnamedNodes) = ["t"] := by
  constructor
  · exact model_of_pathError (by decide +kernel)
  · decide +kernel

end Hierarchy

end SuiteDocs
