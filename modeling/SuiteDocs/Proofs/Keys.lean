import SuiteDocs.Proofs.Names

/-!
Keys of files.

A key leads from the root of a project to a file. A file has the same key however its path is spelled,
and no other file has that key.
-/

set_option autoImplicit false

namespace SuiteDocs.Path

open SuiteDocs.Text

/-! ## Places named by texts -/

/-- Where one part of a text leads from a place: nowhere else if it is empty or a dot, back if it is
two dots, though never above the top, and down otherwise. -/
def walk (place : List Text) (part : Text) : List Text :=
  if part = "" ∨ part = "." then place
  else if part = ".." then place.dropLast
  else place ++ [part]

/-- The place that a text names, from the top if it starts with a slash and from a base otherwise. -/
def placeFrom (base : List Text) (text : Text) : List Text :=
  (splitOn '/' text).foldl walk (if text.head? = some (.char '/') then [] else base)

theorem foldl_walk (place : List Text) (text : Text) :
    (splitOn '/' text).foldl walk place = (componentsOf text).foldl enter place := by
  rw [componentsOf]
  generalize splitOn '/' text = parts
  induction parts generalizing place with
  | nil => rfl
  | cons part rest ih =>
    rw [List.foldl_cons, ih, List.filter_cons]
    by_cases skipped : part = "" ∨ part = "."
    · have dropped : (part != "" && part != ".") = false := by
        rcases skipped with rfl | rfl
        · rfl
        · rfl
      rw [walk, if_pos skipped, dropped, if_neg Bool.false_ne_true]
    · have kept : (part != "" && part != ".") = true := by
        obtain ⟨nonempty, noDot⟩ := not_or.mp skipped
        exact Bool.and_eq_true_iff.mpr ⟨bne_iff_ne.mpr nonempty, bne_iff_ne.mpr noDot⟩
      rw [walk, if_neg skipped, if_pos kept, List.foldl_cons, enter]
      simp only [beq_iff_eq]
      rfl

theorem isAbsolute_ofText (text : Text) :
    (ofText text).isAbsolute = decide (text.head? = some (.char '/')) := by
  cases text with
  | nil => rfl
  | cons c rest =>
    by_cases slash : c = .char '/'
    · obtain rfl := slash
      rw [ofText, List.takeWhile_cons_of_pos rfl]
      cases rest.takeWhile (· == .char '/') with
      | nil => rfl
      | cons second more =>
        cases more with
        | nil => rfl
        | cons third more => rfl
    · rw [ofText, List.takeWhile_cons, beq_eq_false_iff_ne.mpr slash, List.head?_cons]
      exact (decide_eq_false (mt Option.some.inj slash)).symm

/-- The symbols of a text are slashes and those of its components, but for dots. -/
theorem spellable_of_components {text : Text}
    (each : ∀ part ∈ (ofText text).parts, part ≠ back → Spellable part) : Spellable text := by
  intro c member
  rw [← intercalate_splitOn '/' text] at member
  rcases mem_joined member with rfl | ⟨part, listed, inside⟩
  · decide
  · have spellable : Spellable part := by
      by_cases empty : part = ""
      · exact empty ▸ by decide
      · by_cases dot : part = "."
        · exact dot ▸ by decide
        · by_cases leads : part = back
          · exact leads ▸ spellable_back
          · refine each part (List.mem_filter.mpr ⟨listed, ?_⟩) leads
            exact Bool.and_eq_true_iff.mpr ⟨bne_iff_ne.mpr empty, bne_iff_ne.mpr dot⟩
    exact spellable c inside

/-! ## Ways between places -/

theorem sharedLength_le (start target : List Text) : sharedLength start target ≤ start.length := by
  fun_induction sharedLength start target with
  | case1 => simpa
  | case2 => exact Nat.zero_le _
  | case3 => exact Nat.zero_le _

theorem take_sharedLength (start target : List Text) :
    start.take (sharedLength start target) = target.take (sharedLength start target) := by
  fun_induction sharedLength start target with
  | case1 a start b target same ih =>
    rw [List.take_succ_cons, List.take_succ_cons, ih, eq_of_beq same]
  | case2 => rfl
  | case3 => rfl

theorem sharedLength_append (start more : List Text) :
    sharedLength start (start ++ more) = start.length := by
  induction start with
  | nil => rfl
  | cons part rest ih => rw [List.cons_append, sharedLength, if_pos BEq.rfl, ih, List.length_cons]

/-- Down from a place, the way goes through nothing else. -/
theorem wayBetween_append (start more : List Text) : wayBetween start (start ++ more) = more := by
  rw [wayBetween, sharedLength_append, Nat.sub_self, List.drop_left]
  rfl

theorem mem_wayBetween {start target : List Text} {part : Text}
    (member : part ∈ wayBetween start target) : part = back ∨ part ∈ target := by
  cases List.mem_append.mp member with
  | inl up => exact .inl (List.eq_of_mem_replicate up)
  | inr down => exact .inr (List.mem_of_mem_drop down)

theorem foldl_enter_replicate (count : Nat) (place : List Text) :
    (List.replicate count back).foldl enter place = place.take (place.length - count) := by
  induction count generalizing place with
  | zero => rw [Nat.sub_zero, List.take_length]; rfl
  | succ count ih =>
    have leads : enter place back = place.dropLast := if_pos BEq.rfl
    rw [List.replicate_succ, List.foldl_cons, leads, ih, List.dropLast_eq_take, List.take_take,
      List.length_take]
    congr 1
    omega

/-- Taking the way from one place to another leads there. -/
theorem foldl_enter_wayBetween (start : List Text) {target : List Text}
    (forward : ∀ part ∈ target, part ≠ back) : (wayBetween start target).foldl enter start = target := by
  have down : ∀ part ∈ target.drop (sharedLength start target), part ≠ back :=
    fun part member => forward part (List.mem_of_mem_drop member)
  rw [wayBetween, List.foldl_append, foldl_enter_replicate, Nat.sub_sub_self (sharedLength_le _ _),
    take_sharedLength, foldl_enter_of_forward _ down, List.take_append_drop]

/-! ## Keys -/

/-- The root of a project: a place in the file system. -/
structure IsBase (root : Path) : Prop where
  absolute : root.isAbsolute = true
  names : ∀ part ∈ root.parts, IsName part
  nameable : Nameable root.parts

section Base

variable {root : Path} (base : IsBase root)

include base

theorem join_join (path : Path) : root.join (root.join path) = root.join path := by
  have absolute : (root.join path).isAbsolute = true := by
    rw [join]
    split
    next absolute => exact absolute
    next => exact base.absolute
  rw [join, if_pos absolute]

theorem normalise_root : normalise root.parts = root.parts :=
  normalise_of_forward fun part member => (base.names part member).2

theorem placeFrom_eq (text : Text) :
    placeFrom root.parts text = normalise (root.join (ofText text)).parts := by
  rw [placeFrom, foldl_walk, join, isAbsolute_ofText]
  simp only [decide_eq_true_eq]
  split
  · rfl
  · rw [normalise, List.foldl_append]
    exact congrArg (List.foldl enter · _) (normalise_root base).symm

theorem isName_of_mem_placeFrom {text part : Text} (member : part ∈ placeFrom root.parts text) :
    IsName part := by
  rw [placeFrom_eq base] at member
  refine ⟨?_, ne_back_of_mem_normalise part member⟩
  have listed := normalise_subset _ member
  rw [join] at listed
  split at listed
  · exact isComponent_of_mem_ofText listed
  · cases List.mem_append.mp listed with
    | inl above => exact (base.names part above).1
    | inr below => exact isComponent_of_mem_ofText below

/-- What a key says: the path could be spelled, and the key is the way to its place. -/
theorem of_keyFrom {text key : Text} (keyed : keyFrom root text = .ok key) :
    Spellable text ∧
      key = toText ⟨.relative, wayBetween root.parts (placeFrom root.parts text)⟩ := by
  obtain ⟨target, resolved, keyed⟩ := bind_eq_ok_iff.mp keyed
  obtain ⟨done, checked, made⟩ := bind_eq_ok_iff.mp resolved
  constructor
  · refine spellable_of_components fun part member forward => ?_
    refine spellable_of_checkFrom checked ?_ forward
    rw [join]
    split
    · exact member
    · exact List.mem_append_right _ member
  · rw [join_join base, ← placeFrom_eq base] at made
    obtain rfl := Except.ok.inj made
    split at keyed
    · rename_i parts below
      rw [below?] at below
      split at below
      · rename_i leads
        obtain ⟨more, whole⟩ := List.isPrefixOf_iff_prefix.mp (Bool.and_eq_true_iff.mp leads).2
        change root.parts ++ more = placeFrom root.parts text at whole
        rw [← whole, List.drop_left] at below
        rw [← whole, wayBetween_append, ← Except.ok.inj keyed, Option.some.inj below]
      · cases below
    · rw [← Except.ok.inj keyed, normalise_root base]

/-- The way to a place, read from a base, names that place. -/
theorem placeFrom_key {text key : Text} (keyed : keyFrom root text = .ok key) :
    placeFrom root.parts key = placeFrom root.parts text := by
  have names : ∀ part ∈ placeFrom root.parts text, IsName part :=
    fun part => isName_of_mem_placeFrom base
  have components : ∀ part ∈ wayBetween root.parts (placeFrom root.parts text), IsComponent part := by
    intro part member
    rcases mem_wayBetween member with rfl | inside
    · decide
    · exact (names part inside).1
  rw [(of_keyFrom base keyed).2, placeFrom_eq base, ofText_toText components]
  calc normalise (root.parts ++ wayBetween root.parts (placeFrom root.parts text))
      = (wayBetween root.parts (placeFrom root.parts text)).foldl enter (normalise root.parts) :=
        List.foldl_append
    _ = (wayBetween root.parts (placeFrom root.parts text)).foldl enter root.parts := by
        rw [normalise_root base]
    _ = placeFrom root.parts text :=
        foldl_enter_wayBetween root.parts fun part member => (names part member).2

/-- Keys are canonical. Exactly the paths that can be spelled have a key, two paths have the same key
just if they name the same place, and a key is its own key. -/
theorem keyFrom_canonical :
    (∀ text, (∃ key, keyFrom root text = .ok key) ↔ Spellable text) ∧
      (∀ text other key otherKey, keyFrom root text = .ok key → keyFrom root other = .ok otherKey →
        (key = otherKey ↔ placeFrom root.parts text = placeFrom root.parts other)) ∧
      ∀ text key, keyFrom root text = .ok key → keyFrom root key = .ok key := by
  refine ⟨fun text => ⟨?_, exists_keyFrom base.nameable⟩, ?_, ?_⟩
  · rintro ⟨key, keyed⟩
    exact (of_keyFrom base keyed).1
  · intro text other key otherKey keyed otherKeyed
    constructor
    · rintro rfl
      rw [← placeFrom_key base keyed, placeFrom_key base otherKeyed]
    · intro same
      rw [(of_keyFrom base keyed).2, (of_keyFrom base otherKeyed).2, same]
  · intro text key keyed
    obtain ⟨again, keyedAgain⟩ := exists_keyFrom base.nameable (spellable_of_keyFrom base.nameable keyed)
    rw [keyedAgain, (of_keyFrom base keyedAgain).2, placeFrom_key base keyed, ← (of_keyFrom base keyed).2]

end Base

/-- A project below the top. -/
def sampleRoot : Path := ⟨.root, ["w", "repo"]⟩

theorem isBase_sampleRoot : IsBase sampleRoot := by
  refine ⟨?_, ?_, ?_⟩
  · decide
  · decide
  · decide

theorem keyFrom_canonical_sample :
    keyFrom sampleRoot "/w//lib/./x/../a.ts" = .ok "../lib/a.ts" ∧
      keyFrom sampleRoot "../../../w/lib/a.ts" = .ok "../lib/a.ts" ∧
      placeFrom sampleRoot.parts "/w//lib/./x/../a.ts" =
        placeFrom sampleRoot.parts "../../../w/lib/a.ts" ∧
      keyFrom sampleRoot "../lib/a.ts" = .ok "../lib/a.ts" := by
  have keyed : keyFrom sampleRoot "/w//lib/./x/../a.ts" = .ok "../lib/a.ts" := by decide +kernel
  have otherKeyed : keyFrom sampleRoot "../../../w/lib/a.ts" = .ok "../lib/a.ts" := by decide +kernel
  obtain ⟨-, same, stable⟩ := keyFrom_canonical isBase_sampleRoot
  exact ⟨keyed, otherKeyed, (same _ _ _ _ keyed otherKeyed).mp rfl, stable _ _ keyed⟩

/-- A path through a directory whose name is half of a pair, and back out of it. -/
def throughHalf : Text := .char '/' :: .half 61 :: "/../w/repo/a.ts"

/-- It holds no NUL character and names a file of the project, but has no key. -/
theorem no_key_through_half :
    .char '\x00' ∉ throughHalf ∧
      placeFrom sampleRoot.parts throughHalf = placeFrom sampleRoot.parts "a.ts" ∧
      keyFrom sampleRoot "a.ts" = .ok "a.ts" ∧
      keyFrom sampleRoot throughHalf = .error (.encoding ⟨0xD83D, 1, 1⟩) := by
  refine ⟨?_, ?_, ?_, ?_⟩
  · decide
  · decide
  · decide
  · decide

end SuiteDocs.Path
