import SuiteDocs.Path.Basic
import SuiteDocs.Proofs.Logged
import SuiteDocs.Proofs.Recognition

/-!
Texts of paths, and the places that they name.

A path is read back from its text as long as its components are neither empty nor a dot and hold no
slash, as those of every path that was read are. Components that do not lead back only descend.
-/

set_option autoImplicit false

namespace SuiteDocs

open SuiteDocs.Text

theorem Text.not_mem_of_mem_splitOn {separator : Symbol} {text part : Text}
    (member : part ∈ splitOn separator text) : separator ∉ part := by
  induction text generalizing part with
  | nil =>
    obtain rfl := List.mem_singleton.mp member
    exact List.not_mem_nil
  | cons c rest ih =>
    rw [splitOn] at member
    split at member
    · rcases List.mem_cons.mp member with rfl | later
      · exact List.not_mem_nil
      · exact ih later
    · rename_i different
      have other : separator ≠ c := fun same => different (beq_iff_eq.mpr same.symm)
      split at member
      · obtain rfl := List.mem_singleton.mp member
        exact List.not_mem_cons_of_ne_of_not_mem other List.not_mem_nil
      · rename_i piece pieces split
        rcases List.mem_cons.mp member with rfl | later
        · have absent : separator ∉ piece := ih (split ▸ List.mem_cons_self)
          exact List.not_mem_cons_of_ne_of_not_mem other absent
        · exact ih (split ▸ List.mem_cons_of_mem _ later)

theorem Text.splitOn_ne_nil (separator : Symbol) (text : Text) : splitOn separator text ≠ [] := by
  fun_induction splitOn separator text with
  | case1 => exact List.cons_ne_nil _ _
  | case2 => exact List.cons_ne_nil _ _
  | case3 => exact List.cons_ne_nil _ _
  | case4 => exact List.cons_ne_nil _ _

/-- A text is the parts between its separators, joined by them. -/
theorem Text.intercalate_splitOn (separator : Symbol) (text : Text) :
    List.intercalate [separator] (splitOn separator text) = text := by
  fun_induction splitOn separator text with
  | case1 => rfl
  | case2 c rest found ih =>
    obtain rfl := eq_of_beq found
    obtain ⟨part, parts, split⟩ := List.exists_cons_of_ne_nil (splitOn_ne_nil c rest)
    rw [split] at ih ⊢
    rw [List.intercalate_cons_cons, ih]
    rfl
  | case3 c rest other none ih => exact absurd none (splitOn_ne_nil separator rest)
  | case4 c rest other part parts split ih =>
    rw [split] at ih
    rw [← ih]
    cases parts with
    | nil => simp
    | cons next parts => simp [List.intercalate_cons_cons]

theorem Text.splitOn_intercalate {separator : Symbol} {parts : List Text} (nonempty : parts ≠ [])
    (whole : ∀ part ∈ parts, separator ∉ part) :
    splitOn separator (List.intercalate [separator] parts) = parts := by
  induction parts with
  | nil => exact absurd rfl nonempty
  | cons part rest ih =>
    obtain ⟨here, later⟩ := List.forall_mem_cons.mp whole
    cases rest with
    | nil => rw [List.intercalate_singleton, splitOn_of_not_mem here]
    | cons next rest =>
      rw [List.intercalate_cons_cons, List.append_assoc, List.singleton_append, splitOn_append here,
        ih (List.cons_ne_nil _ _) later]

namespace Path

/-! ## Components -/

/-- A component that a path keeps when it is read. -/
def IsComponent (part : Text) : Prop :=
  part ≠ "" ∧ part ≠ "." ∧ .char '/' ∉ part

/-- A component that names something in the directory in which it stands. -/
def IsName (part : Text) : Prop :=
  IsComponent part ∧ part ≠ back

instance (part : Text) : Decidable (IsComponent part) :=
  inferInstanceAs (Decidable (part ≠ "" ∧ part ≠ "." ∧ .char '/' ∉ part))

instance (part : Text) : Decidable (IsName part) :=
  inferInstanceAs (Decidable (IsComponent part ∧ part ≠ back))

theorem isComponent_of_mem_ofText {text part : Text} (member : part ∈ (ofText text).parts) :
    IsComponent part := by
  obtain ⟨listed, kept⟩ := List.mem_filter.mp member
  obtain ⟨nonempty, noDot⟩ := Bool.and_eq_true_iff.mp kept
  exact ⟨bne_iff_ne.mp nonempty, bne_iff_ne.mp noDot, not_mem_of_mem_splitOn listed⟩

/-- The text of components, with a slash between any two. -/
def joined (parts : List Text) : Text :=
  List.intercalate "/" parts

theorem joined_singleton (part : Text) : joined [part] = part :=
  List.intercalate_singleton

theorem joined_cons {part : Text} {parts : List Text} (more : parts ≠ []) :
    joined (part :: parts) = part ++ .char '/' :: joined parts := by
  cases parts with
  | nil => exact absurd rfl more
  | cons next rest =>
    rw [joined, List.intercalate_cons_cons, List.append_assoc]
    rfl

theorem componentsOf_joined {parts : List Text} (each : ∀ part ∈ parts, IsComponent part) :
    componentsOf (joined parts) = parts := by
  have kept {part : Text} (component : IsComponent part) : (part != "" && part != ".") = true := by
    rw [Bool.and_eq_true_iff, bne_iff_ne, bne_iff_ne]
    exact ⟨component.1, component.2.1⟩
  induction parts with
  | nil => rfl
  | cons part rest ih =>
    obtain ⟨component, others⟩ := List.forall_mem_cons.mp each
    cases rest with
    | nil =>
      rw [joined_singleton, componentsOf, splitOn_of_not_mem component.2.2, List.filter_cons,
        if_pos (kept component)]
      rfl
    | cons next rest =>
      rw [joined_cons (List.cons_ne_nil _ _), componentsOf, splitOn_append component.2.2,
        List.filter_cons, if_pos (kept component)]
      exact congrArg (part :: ·) (ih others)

theorem joined_inj {parts others : List Text} (each : ∀ part ∈ parts, IsComponent part)
    (each' : ∀ part ∈ others, IsComponent part) (same : joined parts = joined others) :
    parts = others := by
  rw [← componentsOf_joined each, same, componentsOf_joined each']

theorem joined_ne_nil {parts : List Text} (each : ∀ part ∈ parts, IsComponent part)
    (nonempty : parts ≠ []) : joined parts ≠ [] := by
  intro empty
  have none := componentsOf_joined each
  rw [empty] at none
  exact nonempty none.symm

theorem joined_append {path parts : List Text} (nonempty : path ≠ []) (more : parts ≠ []) :
    joined (path ++ parts) = joined path ++ .char '/' :: joined parts := by
  induction path with
  | nil => exact absurd rfl nonempty
  | cons part rest ih =>
    rw [List.cons_append, joined_cons (List.append_ne_nil_of_right_ne_nil _ more)]
    cases rest with
    | nil => rw [List.nil_append, joined_singleton]
    | cons next rest =>
      rw [ih (List.cons_ne_nil _ _), joined_cons (List.cons_ne_nil next rest), List.append_assoc]
      rfl

theorem joined_of_joined_append {path parts others : List Text} (nonempty : parts ≠ [])
    (nonempty' : others ≠ []) (same : joined (path ++ parts) = joined (path ++ others)) :
    joined parts = joined others := by
  cases path with
  | nil => exact same
  | cons part rest =>
    rw [joined_append (List.cons_ne_nil _ _) nonempty, joined_append (List.cons_ne_nil _ _) nonempty'] at same
    exact List.tail_eq_of_cons_eq (List.append_cancel_left same)

/-- The text of components does not start with a slash. -/
theorem takeWhile_joined {parts : List Text} (each : ∀ part ∈ parts, IsComponent part) :
    (joined parts).takeWhile (· == .char '/') = [] := by
  cases parts with
  | nil => rfl
  | cons part rest =>
    have component := each part List.mem_cons_self
    cases part with
    | nil => exact absurd rfl component.1
    | cons c more =>
      have noSlash : (c == .char '/') = false :=
        beq_eq_false_iff_ne.mpr fun same => component.2.2 (same ▸ List.mem_cons_self)
      cases rest with
      | nil => rw [joined_singleton, List.takeWhile_cons, noSlash]; rfl
      | cons next rest =>
        rw [joined_cons (List.cons_ne_nil _ _), List.cons_append, List.takeWhile_cons, noSlash]
        rfl

theorem ofText_joined {parts : List Text} (each : ∀ part ∈ parts, IsComponent part) :
    ofText (joined parts) = ⟨.relative, parts⟩ := by
  rw [ofText, takeWhile_joined each, componentsOf_joined each]

theorem toText_relative {parts : List Text} (nonempty : parts ≠ []) :
    toText ⟨.relative, parts⟩ = joined parts := by
  cases parts with
  | nil => exact absurd rfl nonempty
  | cons part rest => rfl

/-- A path is read back from its text. -/
theorem ofText_toText {path : Path} (each : ∀ part ∈ path.parts, IsComponent part) :
    ofText path.toText = path := by
  obtain ⟨anchor, parts⟩ := path
  change ∀ part ∈ parts, IsComponent part at each
  have none := takeWhile_joined each
  have read := componentsOf_joined each
  cases anchor with
  | relative =>
    cases parts with
    | nil => decide
    | cons part rest => rw [toText_relative (List.cons_ne_nil _ _), ofText_joined each]
  | root =>
    have text : toText ⟨.root, parts⟩ = .char '/' :: joined parts := rfl
    rw [ofText, text, List.takeWhile_cons_of_pos rfl, none]
    exact congrArg (Path.mk .root) read
  | doubleRoot =>
    have text : toText ⟨.doubleRoot, parts⟩ = .char '/' :: .char '/' :: joined parts := rfl
    rw [ofText, text, List.takeWhile_cons_of_pos rfl, List.takeWhile_cons_of_pos rfl, none]
    exact congrArg (Path.mk .doubleRoot) read

/-! ## Paths below a path -/

/-- The path that leads on from a path by some components. -/
def under (path : Path) (parts : List Text) : Path :=
  ⟨path.anchor, path.parts ++ parts⟩

theorem child_joined (path : Path) {parts : List Text} (each : ∀ part ∈ parts, IsComponent part) :
    path.child (joined parts) = path.under parts := by
  rw [child, ofText_joined each]
  rfl

theorem child_of_component (path : Path) {part : Text} (component : IsComponent part) :
    path.child part = path.under [part] := by
  have each : ∀ other ∈ [part], IsComponent other := by
    intro other member
    exact List.mem_singleton.mp member ▸ component
  rw [← child_joined path each, joined_singleton]

theorem under_under (path : Path) (parts more : List Text) :
    (path.under parts).under more = path.under (parts ++ more) := by
  rw [under, under, under, List.append_assoc]

theorem toText_under {path : Path} {parts : List Text} (nonempty : parts ≠ []) :
    (path.under parts).toText = path.anchor.text ++ joined (path.parts ++ parts) := by
  have more : (path.under parts).parts.isEmpty = false :=
    List.isEmpty_eq_false_iff.mpr (List.append_ne_nil_of_right_ne_nil _ nonempty)
  rw [toText, more, Bool.and_false, if_neg Bool.false_ne_true]
  rfl

/-- Below one path, different components have different texts. -/
theorem toText_under_inj {path : Path} {parts others : List Text} (nonempty : parts ≠ [])
    (nonempty' : others ≠ []) (each : ∀ part ∈ parts, IsComponent part)
    (each' : ∀ part ∈ others, IsComponent part)
    (same : (path.under parts).toText = (path.under others).toText) : parts = others := by
  rw [toText_under nonempty, toText_under nonempty'] at same
  exact joined_inj each each' (joined_of_joined_append nonempty nonempty' (List.append_cancel_left same))

theorem join_under (base path : Path) (parts : List Text) :
    base.join (path.under parts) = (base.join path).under parts := by
  have same : (path.under parts).isAbsolute = path.isAbsolute := rfl
  rw [join, join, same]
  split
  · rfl
  · rw [under, under, List.append_assoc]

theorem foldl_child (path : Path) {parts : List Text} (each : ∀ part ∈ parts, IsComponent part) :
    parts.foldl child path = path.under parts := by
  induction parts generalizing path with
  | nil => rw [under, List.append_nil]; rfl
  | cons part rest ih =>
    obtain ⟨component, others⟩ := List.forall_mem_cons.mp each
    rw [List.foldl_cons, child_of_component path component, ih _ others, under_under]
    rfl

/-! ## Places -/

theorem foldl_enter_of_forward (place : List Text) {parts : List Text}
    (forward : ∀ part ∈ parts, part ≠ back) : parts.foldl enter place = place ++ parts := by
  induction parts generalizing place with
  | nil => exact (List.append_nil _).symm
  | cons part rest ih =>
    obtain ⟨first, others⟩ := List.forall_mem_cons.mp forward
    have descends : enter place part = place ++ [part] := if_neg (mt beq_iff_eq.mp first)
    rw [List.foldl_cons, descends, ih _ others, List.append_assoc]
    rfl

theorem normalise_append (parts : List Text) {more : List Text}
    (forward : ∀ part ∈ more, part ≠ back) : normalise (parts ++ more) = normalise parts ++ more := by
  rw [normalise, List.foldl_append, foldl_enter_of_forward _ forward]
  rfl

theorem normalise_of_forward {parts : List Text} (forward : ∀ part ∈ parts, part ≠ back) :
    normalise parts = parts :=
  foldl_enter_of_forward [] forward

theorem ne_back_of_mem_foldl_enter {place parts : List Text} (forward : ∀ part ∈ place, part ≠ back) :
    ∀ part ∈ parts.foldl enter place, part ≠ back := by
  induction parts generalizing place with
  | nil => exact forward
  | cons part rest ih =>
    refine ih ?_
    intro other member
    unfold enter at member
    split at member
    · exact forward other (List.dropLast_subset _ member)
    · rename_i descends
      rcases List.mem_append.mp member with old | new
      · exact forward other old
      · obtain rfl := List.mem_singleton.mp new
        exact fun same => descends (beq_iff_eq.mpr same)

theorem ne_back_of_mem_normalise {parts : List Text} : ∀ part ∈ normalise parts, part ≠ back :=
  ne_back_of_mem_foldl_enter fun _ member => absurd member List.not_mem_nil

/-- A path that was located starts at the root and does not lead back. -/
theorem of_locate {surroundings : Surroundings} {text : Text} {path : Path}
    (located : locate surroundings text = .ok path) :
    path.anchor = .root ∧ ∀ part ∈ path.parts, part ≠ back := by
  obtain ⟨expanded, -, resolved⟩ := bind_eq_ok_iff.mp located
  obtain ⟨-, -, made⟩ := bind_eq_ok_iff.mp resolved
  obtain rfl := Except.ok.inj made
  exact ⟨rfl, ne_back_of_mem_normalise⟩

/-! ## Keys -/

/-- The key of a path below the root is what leads there from the root. -/
theorem eq_joined_of_keyFrom {root : Path} {parts : List Text} {key : Text} (anchored : root.anchor = .root)
    (rooted : ∀ part ∈ root.parts, IsName part) (each : ∀ part ∈ parts, IsName part)
    (nonempty : parts ≠ []) (keyed : keyFrom root (root.under parts).toText = .ok key) :
    key = joined parts := by
  obtain ⟨anchor, above⟩ := root
  subst anchored
  have names : ∀ part ∈ above ++ parts, IsName part := by
    intro part member
    rcases List.mem_append.mp member with old | new
    · exact rooted part old
    · exact each part new
  have read : ofText (under ⟨.root, above⟩ parts).toText = ⟨.root, above ++ parts⟩ :=
    ofText_toText fun part member => (names part member).1
  have absolute : join ⟨.root, above⟩ ⟨.root, above ++ parts⟩ = ⟨.root, above ++ parts⟩ := rfl
  obtain ⟨target, resolved, keyed⟩ := bind_eq_ok_iff.mp keyed
  rw [read, absolute] at resolved
  obtain ⟨-, -, made⟩ := bind_eq_ok_iff.mp resolved
  rw [absolute, normalise_of_forward fun part member => (names part member).2] at made
  obtain rfl := Except.ok.inj made
  have below : below? ⟨.root, above⟩ ⟨.root, above ++ parts⟩ = some parts := by
    rw [below?, if_pos, List.drop_left]
    exact Bool.and_eq_true_iff.mpr ⟨rfl, List.isPrefixOf_iff_prefix.mpr (List.prefix_append _ _)⟩
  rw [below] at keyed
  rw [← Except.ok.inj keyed, toText_relative nonempty]

end Path

end SuiteDocs
