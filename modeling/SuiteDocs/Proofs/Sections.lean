import Mathlib.Data.List.Forall2
import SuiteDocs.Document

/-!
The sections of a document.

A document shows the annotations of a test by kind. So only the order among annotations of one kind
shows, and each of them gives one item of the section of its kind. Annotations of other kinds give
nothing, but a test that has some is not one without annotations.
-/

set_option autoImplicit false

namespace SuiteDocs.Document

/-- The kinds of annotations that are shown. -/
inductive Kind where
  | feature
  | description
  | step
  | expected
  deriving DecidableEq, Repr

namespace Kind

/-- The kinds in the order of their sections. -/
def all : List Kind := [.feature, .description, .step, .expected]

/-- The kind as annotations name it. -/
def name : Kind → Text
  | .feature => "Feature"
  | .description => "Description"
  | .step => "Step"
  | .expected => "Expected"

/-- What stands over the section. -/
def heading : Kind → Text
  | .feature => "Feature"
  | .description => "Description"
  | .step => "Steps"
  | .expected => "Expected Results"

/-- An item of the section, given which one it is. Only steps are numbered. -/
def item : Kind → Nat → Text → Text
  | .feature, _, contents => contents ++ "\n\n"
  | .description, _, contents => contents ++ "\n\n"
  | .step, number, contents => Text.ofNat number ++ ". " ++ contents ++ "\n"
  | .expected, _, contents => "- " ++ contents ++ "\n"

/-- What stands behind the last item. -/
def closing : Kind → Text
  | .feature => ""
  | .description => ""
  | .step => "\n"
  | .expected => "\n"

/-- A section with its items. Without items there is none. -/
def sectionText (kind : Kind) (items : List Text) : Text :=
  if items = [] then [] else "#### " ++ kind.heading ++ "\n\n" ++ items.flatten ++ kind.closing

/-- The descriptions of the annotations of the kind, in order. -/
def descriptions (kind : Kind) (annotations : List Annotation) : List Text :=
  (annotations.filter (·.kind = kind.name)).map (·.description)

/-- How many annotations of the kind come before a position. -/
def rank (kind : Kind) (annotations : List Annotation) (position : Nat) : Nat :=
  (annotations.take position).countP (·.kind = kind.name)

/-- An annotation of the kind stands at a position. -/
def StandsAt (kind : Kind) (annotations : List Annotation) (position : Nat) : Prop :=
  ∃ note, annotations[position]? = some note ∧ note.kind = kind.name

/-- The items of a section: each annotation of the kind gives the one whose number tells which of them
it is, and there are no others. -/
structure Lists (kind : Kind) (annotations : List Annotation) (items : List Text) : Prop where
  gives : ∀ position note, annotations[position]? = some note →
    note.kind = kind.name → items[kind.rank annotations position]? =
      some (kind.item (kind.rank annotations position + 1) note.description)
  ordered : ∀ earlier later, kind.StandsAt annotations earlier → kind.StandsAt annotations later →
    earlier < later → kind.rank annotations earlier < kind.rank annotations later
  given : ∀ index < items.length, ∃ position, kind.StandsAt annotations position ∧
    kind.rank annotations position = index

def items (kind : Kind) (annotations : List Annotation) : List Text :=
  (kind.descriptions annotations).mapIdx fun index description => kind.item (index + 1) description

variable (kind : Kind) {annotations : List Annotation}

theorem descriptions_cons (note : Annotation) (rest : List Annotation) :
    kind.descriptions (note :: rest) =
      if note.kind = kind.name then note.description :: kind.descriptions rest
      else kind.descriptions rest := by
  by_cases same : note.kind = kind.name <;> simp [descriptions, same]

theorem rank_cons (note : Annotation) (rest : List Annotation) (position : Nat) :
    kind.rank (note :: rest) (position + 1) =
      kind.rank rest position + if note.kind = kind.name then 1 else 0 := by
  simp [rank, List.countP_cons]

theorem rank_lt_rank {earlier later : Nat} (stands : kind.StandsAt annotations earlier)
    (order : earlier < later) : kind.rank annotations earlier < kind.rank annotations later := by
  obtain ⟨note, here, same⟩ := stands
  have counted : kind.rank annotations (earlier + 1) = kind.rank annotations earlier + 1 := by
    rw [rank, List.take_add_one, here, List.countP_append, Option.toList_some,
      List.countP_singleton, if_pos (by simpa using same)]
    rfl
  have grows : kind.rank annotations (earlier + 1) ≤ kind.rank annotations later :=
    (List.take_sublist_take_left order).countP_le
  omega

theorem getElem?_descriptions {position : Nat} {note : Annotation}
    (here : annotations[position]? = some note) (same : note.kind = kind.name) :
    (kind.descriptions annotations)[kind.rank annotations position]? =
      some note.description := by
  induction annotations generalizing position with
  | nil => cases here
  | cons first rest ih =>
    rw [descriptions_cons]
    cases position with
    | zero =>
      obtain rfl := Option.some.inj here
      rw [if_pos same]
      rfl
    | succ position =>
      rw [rank_cons]
      have later := ih here
      split
      · exact later
      · exact later

theorem exists_rank {index : Nat} (inside : index < (kind.descriptions annotations).length) :
    ∃ position, kind.StandsAt annotations position ∧ kind.rank annotations position = index := by
  induction annotations generalizing index with
  | nil => cases inside
  | cons first rest ih =>
    have shift {position index : Nat} (stands : kind.StandsAt rest position)
        (count : kind.rank rest position + (if first.kind = kind.name then 1 else 0) = index) :
        ∃ position, kind.StandsAt (first :: rest) position ∧
          kind.rank (first :: rest) position = index :=
      ⟨position + 1, stands, by rw [rank_cons, count]⟩
    rw [descriptions_cons] at inside
    split at inside
    · rename_i same
      cases index with
      | zero => exact ⟨0, ⟨first, rfl, same⟩, rfl⟩
      | succ index =>
        obtain ⟨position, stands, rfl⟩ := ih (Nat.lt_of_succ_lt_succ inside)
        exact shift stands (by rw [if_pos same])
    · rename_i other
      obtain ⟨position, stands, rfl⟩ := ih inside
      exact shift stands (by rw [if_neg other]; rfl)

theorem lists_items : kind.Lists annotations (kind.items annotations) := by
  refine ⟨?_, ?_, ?_⟩
  · intro position note here same
    rw [items, List.getElem?_mapIdx, kind.getElem?_descriptions here same]
    rfl
  · intro earlier later stands _ order
    exact kind.rank_lt_rank stands order
  · intro index inside
    rw [items, List.length_mapIdx] at inside
    exact kind.exists_rank inside

end Kind

/-! ## The part of a test -/

/-- The part on a test: the sections of the four kinds, or the placeholder if there is no annotation at
all, of whatever kind. -/
def IsPart (test : TestCase) (text : Text) : Prop :=
  ∃ items : Kind → List Text, (∀ kind : Kind, kind.Lists test.annotations (items kind)) ∧
    text = "### " ++ test.title ++ "\n\n" ++
      if test.annotations = [] then placeholder ++ "\n\n"
      else Kind.all.flatMap fun kind => kind.sectionText (items kind)

theorem map_eq_mapIdx (descriptions : List Text) (item : Text → Text) :
    descriptions.map item = descriptions.mapIdx fun _ contents => item contents := by
  apply List.ext_getElem?
  intro index
  simp

theorem descriptionsOf_name (kind : Kind) (annotations : List Annotation) :
    descriptionsOf kind.name annotations = kind.descriptions annotations := by
  simp only [descriptionsOf, Kind.descriptions, beq_eq_decide]

theorem sectionOf_items (kind : Kind) (annotations : List Annotation) :
    sectionOf kind.heading (kind.items annotations) kind.closing =
      kind.sectionText (kind.items annotations) := by
  simp only [sectionOf, Kind.sectionText, List.isEmpty_iff]
  rfl

theorem testText_eq (test : TestCase) :
    testText test = "### " ++ test.title ++ "\n\n" ++
      if test.annotations = [] then placeholder ++ "\n\n"
      else Kind.all.flatMap fun kind => kind.sectionText (kind.items test.annotations) := by
  have feature : paragraphs (descriptionsOf "Feature" test.annotations) =
      Kind.feature.items test.annotations := by
    rw [Kind.items, ← descriptionsOf_name]
    exact map_eq_mapIdx _ _
  have description : paragraphs (descriptionsOf "Description" test.annotations) =
      Kind.description.items test.annotations := by
    rw [Kind.items, ← descriptionsOf_name]
    exact map_eq_mapIdx _ _
  have step : numbered (descriptionsOf "Step" test.annotations) =
      Kind.step.items test.annotations := by
    rw [Kind.items, ← descriptionsOf_name]
    rfl
  have expected : bulleted (descriptionsOf "Expected" test.annotations) =
      Kind.expected.items test.annotations := by
    rw [Kind.items, ← descriptionsOf_name]
    exact map_eq_mapIdx _ _
  simp only [testText, feature, description, step, expected, Kind.all, List.flatMap_cons,
    List.flatMap_nil, ← sectionOf_items, Kind.heading, Kind.closing, List.isEmpty_iff,
    List.append_assoc, List.append_nil]

/-! ## Documents -/

/-- Two tests with the same title and in each of the four kinds the same descriptions in the same order,
both of them with annotations or both without. -/
structure SameSections (a b : TestCase) : Prop where
  title : a.title = b.title
  empty : a.annotations = [] ↔ b.annotations = []
  descriptions : ∀ kind : Kind, kind.descriptions a.annotations = kind.descriptions b.annotations

theorem SameSections.testText_eq {a b : TestCase} (same : SameSections a b) :
    testText a = testText b := by
  have items (kind : Kind) : kind.items a.annotations = kind.items b.annotations := by
    rw [Kind.items, same.descriptions]
    rfl
  simp only [Document.testText_eq, same.title, same.empty, items]

theorem map_testText_eq {testsA testsB : List TestCase}
    (same : List.Forall₂ SameSections testsA testsB) : testsA.map testText = testsB.map testText := by
  induction same with
  | nil => rfl
  | cons alike _ ih => rw [List.map_cons, List.map_cons, alike.testText_eq, ih]

/-- The parts of all tests, each with a rule behind it. -/
def partsText (parts : List Text) : Text :=
  parts.flatMap (· ++ ("---\n\n" : Text))

theorem exists_render_eq (generator timestamp : Text) (suite : Suite) :
    ∃ head foot, ∀ tests, render generator timestamp { suite with tests } =
      head ++ partsText (tests.map testText) ++ foot := by
  let tag : Text := if suite.tag.isEmpty then "" else "**Tag:** `" ++ suite.tag ++ "`\n\n"
  let description : Text :=
    if suite.description.isEmpty then "" else "## Description\n\n" ++ suite.description ++ "\n\n"
  refine ⟨"# " ++ suite.name ++ "\n\n" ++ tag ++ description ++ "## Test Cases\n\n",
    "---\n\n" ++ ("*Generated on " ++ timestamp ++ " by " ++ generator ++ "*\n" ++
      "*Source file: `" ++ suite.filePath ++ "`*\n"), fun tests => ?_⟩
  simp only [render, partsText, List.flatMap_map, List.append_assoc]
  rfl

/-- A document shows the annotations by kind. Two suites that differ only in how annotations of different
kinds are mixed, or in annotations of kinds that are not shown, have the same document. A document is that
of the suite without tests, with a part for each test put in, and in a part each annotation of the four
kinds gives one item, in the section of its kind and in order. -/
theorem render_by_kind (generator timestamp : Text) :
    (∀ a b : Suite, a.name = b.name → a.tag = b.tag → a.description = b.description →
      a.filePath = b.filePath → List.Forall₂ SameSections a.tests b.tests →
        render generator timestamp a = render generator timestamp b) ∧
    ∀ suite : Suite, ∃ head parts foot,
      render generator timestamp { suite with tests := [] } = head ++ foot ∧
        render generator timestamp suite = head ++ partsText parts ++ foot ∧
          List.Forall₂ IsPart suite.tests parts := by
  constructor
  · rintro ⟨name, filePath, tag, description, testsA⟩ ⟨_, _, _, _, testsB⟩ rfl rfl rfl rfl same
    obtain ⟨head, foot, whole⟩ :=
      exists_render_eq generator timestamp ⟨name, filePath, tag, description, testsA⟩
    calc render generator timestamp ⟨name, filePath, tag, description, testsA⟩
      _ = head ++ partsText (testsA.map testText) ++ foot := whole testsA
      _ = head ++ partsText (testsB.map testText) ++ foot := by rw [map_testText_eq same]
      _ = render generator timestamp ⟨name, filePath, tag, description, testsB⟩ := (whole testsB).symm
  · intro suite
    obtain ⟨head, foot, whole⟩ := exists_render_eq generator timestamp suite
    refine ⟨head, suite.tests.map testText, foot, ?_, whole suite.tests, ?_⟩
    · rw [whole []]
      simp [partsText]
    · rw [List.forall₂_map_right_iff, List.forall₂_same]
      intro test _
      exact ⟨_, fun kind => kind.lists_items, testText_eq test⟩

theorem render_by_kind_mixed :
    let mixed : TestCase := ⟨"t", [⟨"Expected", "e"⟩, ⟨"issue", "i"⟩, ⟨"Step", "a"⟩, ⟨"Feature", "f"⟩,
      ⟨"Step", "b"⟩]⟩
    let sorted : TestCase := ⟨"t", [⟨"Feature", "f"⟩, ⟨"Step", "a"⟩, ⟨"Step", "b"⟩, ⟨"Expected", "e"⟩]⟩
    let unknown : TestCase := ⟨"u", [⟨"issue", "i"⟩]⟩
    let other : TestCase := ⟨"u", [⟨"bug", "j"⟩]⟩
    List.Forall₂ SameSections [mixed, unknown] [sorted, other] ∧
      render "g" "now" ⟨"s", "p", "", "", [mixed, unknown]⟩ =
        render "g" "now" ⟨"s", "p", "", "", [sorted, other]⟩ := by
  intro mixed sorted unknown other
  have first : SameSections mixed sorted :=
    ⟨rfl, by decide, by intro kind; cases kind <;> decide⟩
  have second : SameSections unknown other :=
    ⟨rfl, by decide, by intro kind; cases kind <;> decide⟩
  have same := List.Forall₂.cons first (.cons second .nil)
  exact ⟨same, (render_by_kind "g" "now").1 _ _ rfl rfl rfl rfl same⟩

end SuiteDocs.Document
