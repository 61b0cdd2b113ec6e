import SuiteDocs.Proofs.Conservation

/-!
The names of the suites of a model.

A file gets its name when it is opened and keeps it. The first suite of a file that has a title of
its own or tests opens it, so the outermost title names the file unless the file itself has tests
that the host lists before.
-/

set_option autoImplicit false

namespace SuiteDocs

open SuiteDocs.Text SuiteDocs.Source

namespace Hierarchy

open LoggedExcept

variable {calls : Calls} {root : Path} {tree : FileTree}

/-- Whether a suite of the file has a title of its own. -/
def isTitled (root : Path) (key : Text) (node : HostSuite) : Bool :=
  node.key? root == some key && !node.isFileContainer key

/-- Whether a suite of the file has tests. -/
def holdsTests (root : Path) (key : Text) (node : HostSuite) : Bool :=
  node.key? root == some key && !node.tests.isEmpty

/-- Whether a suite opens the file, if no other did. -/
def opens (root : Path) (key : Text) (node : HostSuite) : Bool :=
  isTitled root key node || holdsTests root key node

/-- The name that a suite gives to its file. -/
def nameFrom (key : Text) (node : HostSuite) : Text :=
  if node.isFileContainer key then (Path.ofText key).name else node.title

/-- The name under a key so far. -/
def nameAt (contexts : Contexts) (key : Text) : Option Text :=
  (contexts.get? key).map (·.suite.name)

theorem nameAt_insert (contexts : Contexts) (key other : Text) (context : FileContext) :
    nameAt (contexts.insert key context) other =
      if other = key then some context.suite.name else nameAt contexts other := by
  rw [nameAt, OrderedMap.get?_insert]
  split
  · rfl
  · rfl

theorem opens_of_key {node : HostSuite} {here : Text} (keyed : node.key? root = some here)
    (key : Text) :
    opens root key node =
      (decide (here = key) && !(node.isFileContainer key && node.tests.isEmpty)) := by
  have compared : (some here == some key) = decide (here = key) := by
    rw [Bool.eq_iff_iff]
    simp
  rw [opens, isTitled, holdsTests, keyed, compared, Bool.not_and, Bool.and_or_distrib_left]

theorem name_of_addTests {context final : FileContext} {tests : List HostTest}
    (added : (addTests calls context tests).outcome = .ok final) :
    final.suite.name = context.suite.name := by
  rw [addTests, outcome_bind, bind_eq_ok_iff] at added
  obtain ⟨entries, -, made⟩ := added
  obtain rfl := Except.ok.inj made
  rfl

/-- Taking in a suite names its file if it opens the file, and changes no name. -/
theorem nameAt_of_addSuite {contexts final : Contexts} {node : HostSuite}
    (added : (addSuite tree calls root contexts node).outcome = .ok final) (key : Text) :
    nameAt final key = (nameAt contexts key).or
      (if opens root key node then some (nameFrom key node) else none) := by
  cases takes_of_addSuite added with
  | unfiled named =>
    have closed : opens root key node = false := by
      simp [opens, isTitled, holdsTests, HostSuite.key?, named]
    rw [closed]
    exact Option.or_none.symm
  | @known file here context extended named keyed found more =>
    rw [nameAt_insert]
    by_cases same : key = here
    · rw [if_pos same, nameAt, same, found, name_of_addTests more]
      rfl
    · rw [if_neg same, opens_of_key (HostSuite.key?_eq_some named keyed), decide_eq_false (Ne.symm same)]
      exact Option.or_none.symm
  | @passed file here named keyed unknown container =>
    have closed : opens root key node = false := by
      rw [opens_of_key (HostSuite.key?_eq_some named keyed)]
      by_cases same : here = key
      · rw [← same, container]
        exact Bool.and_false _
      · rw [decide_eq_false same]
        rfl
    rw [closed]
    exact Option.or_none.symm
  | @opened file here context extended named keyed unknown counts starts more =>
    rw [nameAt_insert, opens_of_key (HostSuite.key?_eq_some named keyed)]
    by_cases same : key = here
    · rw [if_pos same, same, counts, decide_eq_true rfl, nameAt, unknown, name_of_addTests more,
        (openFile_suite starts).2.2]
      rfl
    · rw [if_neg same, decide_eq_false (Ne.symm same)]
      exact Option.or_none.symm

/-- A pass names a file by the first suite that opens it. -/
theorem nameAt_of_foldlM {nodes : List HostSuite} {contexts final : Contexts}
    (passed : nodes.foldlM (fun contexts node => (addSuite tree calls root contexts node).outcome)
      contexts = .ok final) (key : Text) :
    nameAt final key =
      (nameAt contexts key).or ((nodes.find? (opens root key)).map (nameFrom key)) := by
  induction nodes generalizing contexts with
  | nil =>
    obtain rfl := Except.ok.inj passed
    exact Option.or_none.symm
  | cons node rest ih =>
    rw [List.foldlM_cons, bind_eq_ok_iff] at passed
    obtain ⟨next, step, passed⟩ := passed
    rw [ih passed, nameAt_of_addSuite step, Option.or_assoc, List.find?_cons]
    cases opens root key node with
    | true => rfl
    | false => rfl

/-- The name of a documented file is given by the first suite that opens it. -/
theorem name_of_model {nodes : List HostSuite} {built : Model}
    (given : (model tree calls root nodes).outcome = .ok built) (key : Text) :
    (built.get? key).map Suite.name =
      ((HostSuite.preorderAll nodes).find? (opens root key)).map (nameFrom key) := by
  obtain ⟨contexts, passed, rfl⟩ := exists_contexts_of_model given
  have named := nameAt_of_foldlM passed key
  rw [OrderedMap.get?_map contexts FileContext.suite, Option.map_map]
  exact named

/-! ## The first title -/

theorem nameFrom_of_isTitled {key : Text} {node : HostSuite} (titled : isTitled root key node = true) :
    nameFrom key node = node.title := by
  rw [isTitled, Bool.and_eq_true, Bool.not_eq_true'] at titled
  rw [nameFrom, titled.2]
  rfl

theorem nameFrom_of_opens {key : Text} {node : HostSuite} (opening : opens root key node = true)
    (untitled : isTitled root key node = false) : nameFrom key node = (Path.ofText key).name := by
  rw [opens, untitled, Bool.false_or, holdsTests, Bool.and_eq_true] at opening
  rw [isTitled, opening.1, Bool.true_and, Bool.not_eq_false'] at untitled
  rw [nameFrom, untitled]
  rfl

/-- The first suite that opens a file is the first with a title, unless one before it has tests. -/
theorem map_nameFrom_find? (key : Text) (nodes : List HostSuite) :
    (∀ node, nodes.find? (isTitled root key) = some node →
      (nodes.find? (opens root key)).map (nameFrom key) =
        some (if (nodes.takeWhile (!isTitled root key ·)).any (holdsTests root key) then
          (Path.ofText key).name else node.title)) ∧
    (nodes.find? (isTitled root key) = none →
      (nodes.find? (opens root key)).map (nameFrom key) =
        if nodes.any (holdsTests root key) then some (Path.ofText key).name else none) := by
  induction nodes with
  | nil =>
    constructor
    · intro node found
      cases found
    · intro untitled
      rfl
  | cons first rest ih =>
    rw [List.find?_cons, List.find?_cons]
    cases titled : isTitled root key first with
    | true =>
      have opening : opens root key first = true := by rw [opens, titled, Bool.true_or]
      constructor
      · intro node found
        obtain rfl := Option.some.inj found
        rw [opening, List.takeWhile_cons, titled]
        exact congrArg some (nameFrom_of_isTitled titled)
      · intro untitled
        cases untitled
    | false =>
      have same : opens root key first = holdsTests root key first := by
        rw [opens, titled, Bool.false_or]
      cases holds : holdsTests root key first with
      | true =>
        rw [holds] at same
        have named := nameFrom_of_opens same titled
        rw [same, List.takeWhile_cons, titled]
        constructor
        · intro node found
          simp [holds, named]
        · intro untitled
          simp [holds, named]
      | false =>
        rw [holds] at same
        rw [same, List.takeWhile_cons, titled]
        simpa [holds] using ih

/-- A model is built unless a file has no key. It documents a file if some suite of the file has a
title of its own or tests. The first title in the order of the host names the file, unless a suite of
the file before it has tests: then, and without any title, the file has its own name. -/
theorem name_of_documented (tree : FileTree) (calls : Calls) (root : Path) (nodes : List HostSuite)
    (keyed : pathError? root (HostSuite.preorderAll nodes) = none) :
    ∃ built, (model tree calls root nodes).outcome = .ok built ∧ ∀ key,
      ((built.get? key).isSome ↔ ∃ node ∈ HostSuite.preorderAll nodes,
        isTitled root key node = true ∨ holdsTests root key node = true) ∧
      ∀ suite, built.get? key = some suite →
        (∀ node, (HostSuite.preorderAll nodes).find? (isTitled root key) = some node →
          suite.name =
            if ((HostSuite.preorderAll nodes).takeWhile (!isTitled root key ·)).any
                (holdsTests root key) then
              (Path.ofText key).name
            else node.title) ∧
        ((HostSuite.preorderAll nodes).find? (isTitled root key) = none →
          suite.name = (Path.ofText key).name) := by
  obtain ⟨built, given⟩ := @exists_model calls root tree nodes keyed
  refine ⟨built, given, fun key => ?_⟩
  have named := name_of_model given key
  obtain ⟨titled, untitled⟩ := @map_nameFrom_find? root key (HostSuite.preorderAll nodes)
  constructor
  · rw [← Option.isSome_map, named, Option.isSome_map, List.find?_isSome]
    simp only [opens, Bool.or_eq_true]
  · intro suite documented
    rw [documented, Option.map_some] at named
    constructor
    · intro node found
      exact Option.some.inj (named.trans (titled node found))
    · intro found
      rw [untitled found] at named
      split at named
      · exact Option.some.inj named
      · cases named

/-- A file with a test of its own before its first titled suite. -/
def mixedNodes : List HostSuite :=
  [.node "a.spec.ts" (some "a.spec.ts") [⟨"t", "a.spec.ts"⟩]
    [.node "s" (some "a.spec.ts") [⟨"u", "a.spec.ts"⟩] [] none none] none none]

theorem name_of_documented_samples :
    pathError? ⟨.root, []⟩ (HostSuite.preorderAll interleavedNodes) = none ∧
      (∃ built, (model (treeOf decoyFile) Calls.default ⟨.root, []⟩ interleavedNodes).outcome =
          .ok built ∧
        ∃ suite, built.get? "a.spec.ts" = some suite ∧ suite.name = "s") ∧
      pathError? ⟨.root, []⟩ (HostSuite.preorderAll mixedNodes) = none ∧
      ∃ built, (model (treeOf decoyFile) Calls.default ⟨.root, []⟩ mixedNodes).outcome = .ok built ∧
        ∃ suite, built.get? "a.spec.ts" = some suite ∧ suite.name = "a.spec.ts" := by
  have keyed : pathError? ⟨.root, []⟩ (HostSuite.preorderAll interleavedNodes) = none := by
    decide +kernel
  have mixed : pathError? ⟨.root, []⟩ (HostSuite.preorderAll mixedNodes) = none := by
    decide +kernel
  refine ⟨keyed, ?_, mixed, ?_⟩
  · obtain ⟨built, given, names⟩ :=
      name_of_documented (treeOf decoyFile) Calls.default ⟨.root, []⟩ interleavedNodes keyed
    obtain ⟨documented, named⟩ := names "a.spec.ts"
    obtain ⟨suite, found⟩ := Option.isSome_iff_exists.mp (documented.mpr (by decide +kernel))
    refine ⟨built, given, suite, found, ?_⟩
    exact ((named suite found).1 _ rfl).trans (by decide +kernel)
  · obtain ⟨built, given, names⟩ :=
      name_of_documented (treeOf decoyFile) Calls.default ⟨.root, []⟩ mixedNodes mixed
    obtain ⟨documented, named⟩ := names "a.spec.ts"
    obtain ⟨suite, found⟩ := Option.isSome_iff_exists.mp (documented.mpr (by decide +kernel))
    refine ⟨built, given, suite, found, ?_⟩
    exact ((named suite found).1 _ rfl).trans (by decide +kernel)

/-- A title after a test of the file does not name it. -/
theorem untitled_mixedNodes :
    (∃ node, (HostSuite.preorderAll mixedNodes).find? (isTitled ⟨.root, []⟩ "a.spec.ts") = some node ∧
      node.title = "s") ∧
    ∃ built, (model (treeOf decoyFile) Calls.default ⟨.root, []⟩ mixedNodes).outcome = .ok built ∧
      (built.get? "a.spec.ts").map Suite.name = some "a.spec.ts" := by
  have keyed : pathError? ⟨.root, []⟩ (HostSuite.preorderAll mixedNodes) = none := by decide +kernel
  obtain ⟨built, given⟩ := @exists_model Calls.default _ (treeOf decoyFile) _ keyed
  refine ⟨⟨_, rfl, rfl⟩, built, given, ?_⟩
  rw [name_of_model given]
  decide +kernel

end Hierarchy

end SuiteDocs
