import SuiteDocs.Host.TestRun
import SuiteDocs.Proofs.Logged
import SuiteDocs.Proofs.Maps

/-!
What a model built from the suites of a host keeps of its sources.

Every file is documented once, under its own key, and the annotations of a test depend on its title
alone. Tests of one file that share a title therefore start alike, and looking up the annotations by
file and title gives those of each of them.
-/

set_option autoImplicit false

namespace SuiteDocs

namespace Hierarchy

open LoggedExcept

variable {tree : FileTree} {calls : Calls} {root : Path}

/-- Each test has the annotations that the source gives to its title. -/
def Based (calls : Calls) (context : FileContext) : Prop :=
  ∀ test ∈ context.suite.tests, (baseline calls context test.title).outcome = .ok test.annotations

/-- Each file is known once, by its own key, and its tests are based on its source. -/
structure Sound (calls : Calls) (contexts : Contexts) : Prop where
  distinct : contexts.keys.Nodup
  filed : ∀ entry ∈ contexts.entries, entry.2.suite.filePath = entry.1
  based : ∀ entry ∈ contexts.entries, Based calls entry.2

theorem sound_empty : Sound calls OrderedMap.empty := by
  refine ⟨List.nodup_nil, ?_, ?_⟩
  · intro entry member
    cases member
  · intro entry member
    cases member

theorem Sound.insert {contexts : Contexts} (sound : Sound calls contexts) {key : Text}
    {context : FileContext} (filed : context.suite.filePath = key) (based : Based calls context) :
    Sound calls (contexts.insert key context) := by
  refine ⟨OrderedMap.nodup_keys_insert sound.distinct key context, ?_, ?_⟩
  · intro entry member
    rcases OrderedMap.mem_insertEntry member with rfl | old
    · exact filed
    · exact sound.filed entry old
  · intro entry member
    rcases OrderedMap.mem_insertEntry member with rfl | old
    · exact based
    · exact sound.based entry old

/-- Adding tests keeps the file and bases the new tests on its source. -/
theorem based_of_addTests {context final : FileContext} {tests : List HostTest}
    (based : Based calls context) (added : (addTests calls context tests).outcome = .ok final) :
    final.suite.filePath = context.suite.filePath ∧ Based calls final := by
  rw [addTests, outcome_bind, bind_eq_ok_iff] at added
  obtain ⟨entries, passed, made⟩ := added
  obtain rfl := Except.ok.inj made
  rw [outcome_mapM, mapM_eq_ok_iff] at passed
  refine ⟨rfl, ?_⟩
  intro test member
  -- The source gives annotations by the title alone: the tests added before do not matter.
  change (baseline calls context test.title).outcome = .ok test.annotations
  rcases List.mem_append.mp member with old | new
  · exact based test old
  · obtain ⟨host, -, gives⟩ := exists_of_forall₂ passed new
    rw [outcome_bind, bind_eq_ok_iff] at gives
    obtain ⟨annotations, found, same⟩ := gives
    obtain rfl := Except.ok.inj same
    exact found

theorem openFile_suite {node : HostSuite} {file key : Text} {context : FileContext}
    (opened : (openFile tree calls root node file key).outcome = .ok context) :
    context.suite.filePath = key ∧ context.suite.tests = [] ∧
      context.suite.name =
        if node.isFileContainer key then (Path.ofText key).name else node.title := by
  rw [openFile, outcome_bind, bind_eq_ok_iff] at opened
  obtain ⟨text, -, opened⟩ := opened
  cases text with
  | none =>
    obtain rfl := Except.ok.inj opened
    exact ⟨rfl, rfl, rfl⟩
  | some text =>
    dsimp only at opened
    split at opened
    · rename_i container
      obtain rfl := Except.ok.inj opened
      exact ⟨rfl, rfl, (if_pos container).symm⟩
    · rename_i titled
      rw [outcome_bind, bind_eq_ok_iff] at opened
      obtain ⟨located, -, opened⟩ := opened
      obtain rfl := Except.ok.inj opened
      exact ⟨rfl, rfl, (if_neg titled).symm⟩

/-- What taking in a suite can come to. -/
inductive Takes (tree : FileTree) (calls : Calls) (root : Path) (contexts : Contexts)
    (node : HostSuite) : Contexts → Prop where
  | unfiled (named : node.file? = none) : Takes tree calls root contexts node contexts
  | known {file key : Text} {context extended : FileContext} (named : node.file? = some file)
      (keyed : Path.keyFrom root file = .ok key) (found : contexts.get? key = some context)
      (added : (addTests calls context node.tests).outcome = .ok extended) :
      Takes tree calls root contexts node (contexts.insert key extended)
  | passed {file key : Text} (named : node.file? = some file)
      (keyed : Path.keyFrom root file = .ok key) (unknown : contexts.get? key = none)
      (container : (node.isFileContainer key && node.tests.isEmpty) = true) :
      Takes tree calls root contexts node contexts
  | opened {file key : Text} {context extended : FileContext} (named : node.file? = some file)
      (keyed : Path.keyFrom root file = .ok key) (unknown : contexts.get? key = none)
      (counts : (node.isFileContainer key && node.tests.isEmpty) = false)
      (starts : (openFile tree calls root node file key).outcome = .ok context)
      (added : (addTests calls context node.tests).outcome = .ok extended) :
      Takes tree calls root contexts node (contexts.insert key extended)

theorem takes_of_addSuite {contexts final : Contexts} {node : HostSuite}
    (added : (addSuite tree calls root contexts node).outcome = .ok final) :
    Takes tree calls root contexts node final := by
  unfold addSuite at added
  cases named : node.file? with
  | none =>
    rw [named] at added
    obtain rfl := Except.ok.inj added
    exact .unfiled named
  | some file =>
    simp only [named] at added
    rw [outcome_bind, bind_eq_ok_iff] at added
    obtain ⟨key, given, added⟩ := added
    have keyed : Path.keyFrom root file = .ok key := by
      rw [outcome_ofExcept] at given
      exact mapError_eq_ok_iff.mp given
    cases found : contexts.get? key with
    | some context =>
      simp only [found] at added
      rw [outcome_bind, bind_eq_ok_iff] at added
      obtain ⟨extended, more, made⟩ := added
      obtain rfl := Except.ok.inj made
      exact .known named keyed found more
    | none =>
      simp only [found] at added
      split at added
      · rename_i container
        obtain rfl := Except.ok.inj added
        exact .passed named keyed found container
      · rename_i counts
        rw [outcome_bind, bind_eq_ok_iff] at added
        obtain ⟨context, starts, added⟩ := added
        rw [outcome_bind, bind_eq_ok_iff] at added
        obtain ⟨extended, more, made⟩ := added
        obtain rfl := Except.ok.inj made
        exact .opened named keyed found (Bool.eq_false_iff.mpr counts) starts more

theorem sound_of_addSuite {contexts final : Contexts} {node : HostSuite}
    (sound : Sound calls contexts)
    (added : (addSuite tree calls root contexts node).outcome = .ok final) : Sound calls final := by
  cases takes_of_addSuite added with
  | unfiled named => exact sound
  | @known file key context extended named keyed found more =>
    have member : (key, context) ∈ contexts.entries := OrderedMap.mem_of_get? found
    obtain ⟨filed, based⟩ := based_of_addTests (sound.based _ member) more
    exact sound.insert (filed.trans (sound.filed _ member)) based
  | passed => exact sound
  | @opened file key context extended named keyed unknown counts starts more =>
    obtain ⟨isFiled, empty, -⟩ := openFile_suite starts
    have none : Based calls context := by
      intro test member
      rw [empty] at member
      cases member
    obtain ⟨filed, based⟩ := based_of_addTests none more
    exact sound.insert (filed.trans isFiled) based

/-- What every step of a pass keeps, the pass keeps. -/
theorem foldlM_keeps {ε α β : Type} {step : β → α → Except ε β} {kept : β → Prop}
    (each : ∀ state item next, kept state → step state item = .ok next → kept next)
    {items : List α} {initial final : β} (first : kept initial)
    (passed : items.foldlM step initial = .ok final) : kept final := by
  induction items generalizing initial with
  | nil =>
    obtain rfl := Except.ok.inj passed
    exact first
  | cons item rest ih =>
    rw [List.foldlM_cons, bind_eq_ok_iff] at passed
    obtain ⟨next, stepped, passed⟩ := passed
    exact ih (each initial item next first stepped) passed

end Hierarchy

namespace Model

/-- Each file is documented once, by its own key, and tests of one file that share a title have the
same annotations. -/
structure Consistent (model : Model) : Prop where
  distinct : model.keys.Nodup
  filed : ∀ entry ∈ model.entries, entry.2.filePath = entry.1
  alike : ∀ entry ∈ model.entries, ∀ test ∈ entry.2.tests, ∀ other ∈ entry.2.tests,
    test.title = other.title → test.annotations = other.annotations

/-- Models built from the suites of a host are consistent. -/
theorem consistent_of_hierarchy {tree : FileTree} {calls : Calls} {root : Path}
    {nodes : List HostSuite} {model : Model}
    (built : (Hierarchy.model tree calls root nodes).outcome = .ok model) : Consistent model := by
  rw [Hierarchy.model, LoggedExcept.outcome_bind, bind_eq_ok_iff] at built
  obtain ⟨contexts, passed, built⟩ := built
  rw [LoggedExcept.outcome_foldlM] at passed
  have sound : Hierarchy.Sound calls contexts :=
    Hierarchy.foldlM_keeps (fun _ _ _ sound added => Hierarchy.sound_of_addSuite sound added)
      Hierarchy.sound_empty passed
  rw [LoggedExcept.outcome_bind, bind_eq_ok_iff] at built
  obtain ⟨-, -, made⟩ := built
  obtain rfl := Except.ok.inj made
  have listed : ∀ entry ∈ contexts.entries.map fun entry => (entry.1, entry.2.suite),
      ∃ context, (entry.1, context) ∈ contexts.entries ∧ entry.2 = context.suite := by
    intro entry member
    obtain ⟨⟨key, context⟩, known, rfl⟩ := List.mem_map.mp member
    exact ⟨context, known, rfl⟩
  refine ⟨?_, ?_, ?_⟩
  · change ((contexts.entries.map fun entry => (entry.1, entry.2.suite)).map (·.1)).Nodup
    rw [List.map_map]
    exact sound.distinct
  · intro entry member
    obtain ⟨context, known, same⟩ := listed entry member
    rw [same]
    exact sound.filed _ known
  · intro entry member test inTests other inTests' title
    obtain ⟨context, known, same⟩ := listed entry member
    rw [same] at inTests inTests'
    have first := sound.based _ known test inTests
    have second := sound.based _ known other inTests'
    rw [title] at first
    exact Except.ok.inj (first.symm.trans second)

variable {model : Model}

theorem Consistent.suite_unique (consistent : Consistent model) {key : Text} {suite other : Suite}
    (member : (key, suite) ∈ model.entries) (member' : (key, other) ∈ model.entries) :
    suite = other := by
  have first := OrderedMap.get?_of_mem consistent.distinct member
  have second := OrderedMap.get?_of_mem consistent.distinct member'
  exact Option.some.inj (first.symm.trans second)

/-- The annotations kept by file and title are those of every test with that title. -/
theorem Consistent.get?_baselinesOf (consistent : Consistent model) {key : Text} {suite : Suite}
    {test : TestCase} (member : (key, suite) ∈ model.entries) (inTests : test ∈ suite.tests) :
    (TestRun.baselinesOf model).get? (key, test.title) = some test.annotations := by
  refine OrderedMap.get?_ofList ?_ ?_
  · intro pair listed same
    obtain ⟨other, inSuites, entry⟩ := List.mem_flatMap.mp listed
    obtain ⟨found, inOther, rfl⟩ := List.mem_map.mp entry
    obtain ⟨⟨name, _⟩, known, rfl⟩ := List.mem_map.mp inSuites
    obtain ⟨file, title⟩ := Prod.mk.inj same
    have isKey : name = key := (consistent.filed _ known).symm.trans file
    subst isKey
    have sameSuite := consistent.suite_unique known member
    exact consistent.alike _ member found (sameSuite ▸ inOther) test inTests title
  · refine ⟨((key, test.title), test.annotations), List.mem_flatMap.mpr ⟨suite, ?_, ?_⟩, rfl⟩
    · exact List.mem_map.mpr ⟨_, member, rfl⟩
    · have file : suite.filePath = key := consistent.filed _ member
      exact List.mem_map.mpr ⟨test, inTests, by rw [file]⟩

end Model

end SuiteDocs
