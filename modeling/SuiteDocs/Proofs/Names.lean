import SuiteDocs.Proofs.Paths

/-!
Which texts have bytes, and which paths can name a place.

A text has bytes if it holds no half of a pair. The name of a place may hold halves that stand for a
single byte, but no NUL character. Whether a path is refused depends on the symbols of its components
alone.
-/

set_option autoImplicit false

namespace SuiteDocs

open SuiteDocs.Text

theorem Text.mem_of_mem_splitOn {separator c : Symbol} {text part : Text}
    (listed : part ∈ splitOn separator text) (inside : c ∈ part) : c ∈ text := by
  induction text generalizing part with
  | nil =>
    obtain rfl := List.mem_singleton.mp listed
    exact inside
  | cons first rest ih =>
    rw [splitOn] at listed
    split at listed
    · cases List.mem_cons.mp listed with
      | inl empty =>
        subst empty
        cases inside
      | inr later => exact List.mem_cons_of_mem _ (ih later inside)
    · split at listed
      · obtain rfl := List.mem_singleton.mp listed
        exact List.mem_singleton.mp inside ▸ List.mem_cons_self
      · rename_i piece pieces split
        cases List.mem_cons.mp listed with
        | inl first =>
          subst first
          cases List.mem_cons.mp inside with
          | inl first => exact first ▸ List.mem_cons_self
          | inr inside => exact List.mem_cons_of_mem _ (ih (split ▸ List.mem_cons_self) inside)
        | inr later =>
          exact List.mem_cons_of_mem _ (ih (split ▸ List.mem_cons_of_mem _ later) inside)

namespace Text.Utf8

theorem encodeErrorFrom?_eq_none_iff {accepts : Nat → Bool} {position : Nat} {text : Text} :
    encodeErrorFrom? accepts position text = none ↔
      ∀ c ∈ text, (c.isHalf && !accepts c.code) = false := by
  induction text generalizing position with
  | nil => simp [encodeErrorFrom?]
  | cons c rest ih =>
    rw [encodeErrorFrom?, List.forall_mem_cons]
    cases bad : c.isHalf && !accepts c.code with
    | true => simp
    | false => simpa using ih

/-- Exactly the texts without halves have bytes. -/
theorem exists_encode_iff {text : Text} :
    (∃ bytes, encode text = .ok bytes) ↔ ∀ c ∈ text, c.isHalf = false := by
  have free : (∀ c ∈ text, c.isHalf = false) ↔
      encodeErrorFrom? (fun _ => false) 0 text = none := by
    rw [encodeErrorFrom?_eq_none_iff]
    simp
  rw [free, encode]
  cases encodeErrorFrom? (fun _ => false) 0 text <;> simp

end Text.Utf8

namespace Path

/-- A symbol that may stand in the name of a place. -/
def isNameSymbol (c : Symbol) : Bool :=
  !(c.isHalf && !Utf8.isByteHalf c.code) && c != '\x00'

/-- A text of such symbols. -/
def Spellable (text : Text) : Prop :=
  ∀ c ∈ text, isNameSymbol c = true

instance (text : Text) : Decidable (Spellable text) :=
  inferInstanceAs (Decidable (∀ c ∈ text, isNameSymbol c = true))

/-- The components could all name something. -/
def Nameable (parts : List Text) : Prop :=
  ∀ part ∈ parts, Spellable part

instance (parts : List Text) : Decidable (Nameable parts) :=
  inferInstanceAs (Decidable (∀ part ∈ parts, Spellable part))

theorem Nameable.append {parts others : List Text} (first : Nameable parts) (second : Nameable others) :
    Nameable (parts ++ others) := by
  intro part member
  cases List.mem_append.mp member with
  | inl member => exact first part member
  | inr member => exact second part member

theorem Nameable.subset {parts others : List Text} (nameable : Nameable others)
    (within : parts ⊆ others) : Nameable parts :=
  fun part member => nameable part (within member)

theorem isNameSymbol_of_not_isHalf {c : Symbol} (whole : c.isHalf = false) (notNul : c ≠ '\x00') :
    isNameSymbol c = true := by
  simp [isNameSymbol, whole, notNul]

theorem mem_joined {parts : List Text} {c : Symbol} (member : c ∈ joined parts) :
    c = '/' ∨ ∃ part ∈ parts, c ∈ part := by
  induction parts with
  | nil => cases member
  | cons part rest ih =>
    cases rest with
    | nil =>
      rw [joined_singleton] at member
      exact .inr ⟨part, List.mem_cons_self, member⟩
    | cons next rest =>
      rw [joined_cons (List.cons_ne_nil _ _), List.mem_append, List.mem_cons] at member
      rcases member with member | slash | member
      · exact .inr ⟨part, List.mem_cons_self, member⟩
      · exact .inl slash
      · cases ih member with
        | inl slash => exact .inl slash
        | inr found =>
          obtain ⟨other, listed, inside⟩ := found
          exact .inr ⟨other, List.mem_cons_of_mem _ listed, inside⟩

theorem mem_joined_of_mem {parts : List Text} {part : Text} {c : Symbol} (listed : part ∈ parts)
    (inside : c ∈ part) : c ∈ joined parts := by
  obtain ⟨before, after, rfl⟩ := List.append_of_mem listed
  have here : c ∈ joined (part :: after) := by
    cases after with
    | nil => rwa [joined_singleton]
    | cons next rest =>
      rw [joined_cons (List.cons_ne_nil _ _)]
      exact List.mem_append_left _ inside
  cases before with
  | nil => exact here
  | cons first more =>
    rw [joined_append (List.cons_ne_nil _ _) (List.cons_ne_nil _ _)]
    exact List.mem_append_right _ (List.mem_cons_of_mem _ here)

theorem mem_toText {path : Path} {c : Symbol} (member : c ∈ path.toText) :
    c = '.' ∨ c = '/' ∨ ∃ part ∈ path.parts, c ∈ part := by
  rw [toText] at member
  split at member
  · exact .inl (List.mem_singleton.mp member)
  · cases List.mem_append.mp member with
    | inl anchor =>
      have slash : c = '/' := by
        cases shape : path.anchor with
        | relative =>
          rw [shape] at anchor
          cases anchor
        | root =>
          rw [shape] at anchor
          exact List.mem_singleton.mp anchor
        | doubleRoot =>
          rw [shape] at anchor
          cases List.mem_cons.mp anchor with
          | inl slash => exact slash
          | inr anchor => exact List.mem_singleton.mp anchor
      exact .inr (.inl slash)
    | inr inside => exact .inr (mem_joined inside)

theorem mem_toText_of_mem {path : Path} {part : Text} {c : Symbol} (listed : part ∈ path.parts)
    (inside : c ∈ part) : c ∈ path.toText := by
  have more : path.parts.isEmpty = false :=
    List.isEmpty_eq_false_iff.mpr (List.ne_nil_of_mem listed)
  rw [toText, more, Bool.and_false, if_neg Bool.false_ne_true]
  exact List.mem_append_right _ (mem_joined_of_mem listed inside)

/-- A path is refused exactly for a symbol in one of its components. -/
theorem check_eq_ok_iff {path : Path} : path.check = .ok () ↔ Nameable path.parts := by
  have spelled : Utf8.nameError? path.toText = none ↔
      ∀ part ∈ path.parts, ∀ c ∈ part, (c.isHalf && !Utf8.isByteHalf c.code) = false := by
    rw [Utf8.nameError?, Utf8.encodeErrorFrom?_eq_none_iff]
    constructor
    · intro each part listed c inside
      exact each c (mem_toText_of_mem listed inside)
    · intro each c member
      rcases mem_toText member with rfl | rfl | ⟨part, listed, inside⟩
      · rfl
      · rfl
      · exact each part listed c inside
  have free : path.parts.any (·.contains '\x00') = false ↔
      ∀ part ∈ path.parts, ∀ c ∈ part, c ≠ '\x00' := by
    simp only [List.any_eq_false, List.contains_iff_mem]
    constructor
    · intro each part listed c inside same
      exact each part listed (same ▸ inside)
    · intro each part listed inside
      exact each part listed _ inside rfl
  have whole : Nameable path.parts ↔
      Utf8.nameError? path.toText = none ∧ path.parts.any (·.contains '\x00') = false := by
    rw [spelled, free]
    simp only [Nameable, Spellable, isNameSymbol, Bool.and_eq_true, Bool.not_eq_true', bne_iff_ne]
    constructor
    · intro each
      exact ⟨fun part listed c inside => (each part listed c inside).1,
        fun part listed c inside => (each part listed c inside).2⟩
    · intro each part listed c inside
      exact ⟨each.1 part listed c inside, each.2 part listed c inside⟩
  rw [whole, check]
  cases Utf8.nameError? path.toText with
  | some error => simp
  | none => cases path.parts.any (·.contains '\x00') <;> simp

/-! ## Paths of places -/

theorem spellable_back : Spellable back := by
  decide

theorem spellable_toText {path : Path} (nameable : Nameable path.parts) : Spellable path.toText := by
  intro c member
  rcases mem_toText member with rfl | rfl | ⟨part, listed, inside⟩
  · decide
  · decide
  · exact nameable part listed c inside

theorem nameable_ofText {text : Text} (spellable : Spellable text) : Nameable (ofText text).parts := by
  intro part listed c inside
  exact spellable c (mem_of_mem_splitOn (List.mem_of_mem_filter listed) inside)

theorem nameable_join {base path : Path} (first : Nameable base.parts) (second : Nameable path.parts) :
    Nameable (base.join path).parts := by
  rw [join]
  split
  · exact second
  · exact first.append second

theorem nameable_parent {path : Path} (nameable : Nameable path.parts) : Nameable path.parent.parts :=
  nameable.subset (List.dropLast_subset _)

theorem nameable_singleton {part : Text} (spellable : Spellable part) : Nameable [part] := by
  intro other listed
  exact List.mem_singleton.mp listed ▸ spellable

theorem normalise_subset (parts : List Text) : normalise parts ⊆ parts := by
  have step (place : List Text) : parts.foldl enter place ⊆ place ++ parts := by
    induction parts generalizing place with
    | nil => exact List.subset_append_left _ _
    | cons part rest ih =>
      intro other listed
      cases List.mem_append.mp (ih (enter place part) listed) with
      | inr later => exact List.mem_append_right _ (List.mem_cons_of_mem _ later)
      | inl entered =>
        rw [enter] at entered
        split at entered
        · exact List.mem_append_left _ (List.dropLast_subset _ entered)
        · cases List.mem_append.mp entered with
          | inl before => exact List.mem_append_left _ before
          | inr here => exact List.mem_append_right _ (List.mem_singleton.mp here ▸ List.mem_cons_self)
  exact step []

theorem checkFrom_eq_ok (anchor : Anchor) {walked parts : List Text} (before : Nameable walked)
    (nameable : Nameable parts) : checkFrom anchor walked parts = .ok () := by
  induction parts generalizing walked with
  | nil => rfl
  | cons part rest ih =>
    obtain ⟨first, others⟩ := List.forall_mem_cons.mp nameable
    have further : Nameable (walked ++ [part]) := before.append (nameable_singleton first)
    rw [checkFrom]
    split
    · refine ih ?_ others
      rw [leave]
      split
      · exact before.append (nameable_singleton spellable_back)
      · exact before.subset (List.dropLast_subset _)
    · have checked : check ⟨anchor, walked ++ [part]⟩ = .ok () := check_eq_ok_iff.mpr further
      rw [checked, ok_bind]
      exact ih further others

/-- Every component but `..` is refused if it could name nothing. -/
theorem spellable_of_checkFrom {anchor : Anchor} {walked parts : List Text}
    (checked : checkFrom anchor walked parts = .ok ()) {part : Text} (listed : part ∈ parts)
    (forward : part ≠ back) : Spellable part := by
  induction parts generalizing walked with
  | nil => cases listed
  | cons first rest ih =>
    rw [checkFrom] at checked
    split at checked
    · rename_i leads
      cases List.mem_cons.mp listed with
      | inl same => exact absurd (same.trans (beq_iff_eq.mp leads)) forward
      | inr later => exact ih checked later
    · obtain ⟨done, here, checked⟩ := bind_eq_ok_iff.mp checked
      cases List.mem_cons.mp listed with
      | inl same =>
        have nameable : Nameable (walked ++ [first]) := check_eq_ok_iff.mp here
        exact same ▸ nameable first (List.mem_append_right _ List.mem_cons_self)
      | inr later => exact ih checked later

/-- The path of a place: it starts at the root, does not lead back, and can be named. -/
structure Rooted (path : Path) : Prop where
  anchored : path.anchor = .root
  forward : ∀ part ∈ path.parts, part ≠ back
  nameable : Nameable path.parts

theorem exists_resolve (directory : Path) {path : Path} (nameable : Nameable path.parts) :
    ∃ resolved, resolve directory path = .ok resolved := by
  refine ⟨⟨.root, normalise (directory.join path).parts⟩, ?_⟩
  rw [resolve, checkFrom_eq_ok _ (fun part listed => absurd listed List.not_mem_nil) nameable, ok_bind]
  rfl

/-- Resolving gives the path of a place, whatever path it starts from. -/
theorem rooted_of_resolve {directory path resolved : Path} (named : Nameable directory.parts)
    (given : resolve directory path = .ok resolved) : Rooted resolved := by
  obtain ⟨done, checked, made⟩ := bind_eq_ok_iff.mp given
  obtain rfl := Except.ok.inj made
  refine ⟨rfl, ne_back_of_mem_normalise, ?_⟩
  intro part listed
  have forward := ne_back_of_mem_normalise part listed
  have inJoin := normalise_subset _ listed
  rw [join] at inJoin
  split at inJoin
  · exact spellable_of_checkFrom checked inJoin forward
  · cases List.mem_append.mp inJoin with
    | inl inDirectory => exact named part inDirectory
    | inr inPath => exact spellable_of_checkFrom checked inPath forward

namespace Rooted

variable {path : Path}

theorem isAbsolute (rooted : Rooted path) : path.isAbsolute = true := by
  rw [Path.isAbsolute, rooted.anchored]
  rfl

theorem resolve_eq (rooted : Rooted path) (directory : Path) : resolve directory path = .ok path := by
  have checked : checkFrom .root [] path.parts = .ok () :=
    checkFrom_eq_ok _ (fun part listed => absurd listed List.not_mem_nil) rooted.nameable
  rw [resolve, rooted.isAbsolute, if_pos rfl, checked, ok_bind, join, if_pos rooted.isAbsolute,
    normalise_of_forward rooted.forward, ← rooted.anchored]
  rfl

theorem expandHome_eq (rooted : Rooted path) (surroundings : Surroundings) :
    expandHome surroundings path = .ok path := by
  rw [expandHome, rooted.anchored]

theorem parent (rooted : Rooted path) : Rooted path.parent where
  anchored := rooted.anchored
  forward part listed := rooted.forward part (List.dropLast_subset _ listed)
  nameable := nameable_parent rooted.nameable

theorem child (rooted : Rooted path) {name : Text} (isName : IsName name) (spellable : Spellable name) :
    Rooted (path.child name) := by
  rw [child_of_component path isName.1]
  refine ⟨rooted.anchored, ?_, rooted.nameable.append (nameable_singleton spellable)⟩
  intro part listed
  cases List.mem_append.mp listed with
  | inl above => exact rooted.forward part above
  | inr here => exact List.mem_singleton.mp here ▸ isName.2

end Rooted

/-- The working directory and the home directories can be named. -/
structure Surroundings.Named (surroundings : Surroundings) : Prop where
  workingDirectory : Nameable surroundings.workingDirectory.parts
  home : Spellable surroundings.home
  otherHomes : ∀ entry ∈ surroundings.otherHomes, Spellable entry.2

section Named

variable {surroundings : Surroundings}

theorem nameable_inHome {home : Text} {rest : List Text} (spellable : Spellable home)
    (nameable : Nameable rest) : Nameable (expandHome.inHome home rest).parts :=
  (nameable_ofText spellable).append nameable

/-- A path that can be named has a home directory in its place of a `~`, or there is no such directory. -/
theorem expandHome_cases (named : surroundings.Named) {path : Path} (nameable : Nameable path.parts) :
    (∃ expanded, expandHome surroundings path = .ok expanded ∧ Nameable expanded.parts) ∨
      expandHome surroundings path = .error .noHome := by
  rw [expandHome]
  split
  · rename_i first rest anchor parts
    rw [parts] at nameable
    have others : Nameable rest := nameable.subset (List.subset_cons_self _ _)
    split
    · exact .inl ⟨_, rfl, nameable_inHome named.home others⟩
    · split
      · split
        · rename_i user home found
          have listed := named.otherHomes _ (List.mem_of_find?_eq_some found)
          exact .inl ⟨_, rfl, nameable_inHome listed others⟩
        · exact .inr rfl
      · exact .inl ⟨path, rfl, parts ▸ nameable⟩
  · exact .inl ⟨path, rfl, nameable⟩

/-- A text that can be spelled leads to a place, or asks for a home directory that is
not there. -/
theorem locate_cases (named : surroundings.Named) {text : Text} (spellable : Spellable text) :
    (∃ path, locate surroundings text = .ok path) ∨ locate surroundings text = .error .noHome := by
  rw [locate]
  rcases expandHome_cases named (nameable_ofText spellable) with ⟨expanded, found, nameable⟩ | missing
  · rw [found, ok_bind]
    exact .inl (exists_resolve _ nameable)
  · rw [missing]
    exact .inr rfl

theorem rooted_of_locate (named : surroundings.Named) {text : Text} {path : Path}
    (located : locate surroundings text = .ok path) : Rooted path := by
  obtain ⟨expanded, -, resolved⟩ := bind_eq_ok_iff.mp located
  exact rooted_of_resolve named.workingDirectory resolved

end Named

/-- A file whose path can be spelled has a key. -/
theorem exists_keyFrom {root : Path} {text : Text} (rooted : Nameable root.parts)
    (spellable : Spellable text) : ∃ key, keyFrom root text = .ok key := by
  obtain ⟨target, resolved⟩ := exists_resolve root (nameable_join rooted (nameable_ofText spellable))
  rw [keyFrom, resolved, ok_bind]
  split
  · exact ⟨_, rfl⟩
  · exact ⟨_, rfl⟩

/-- Only what can be spelled is a key. -/
theorem spellable_of_keyFrom {root : Path} {text key : Text} (rooted : Nameable root.parts)
    (keyed : keyFrom root text = .ok key) : Spellable key := by
  obtain ⟨target, resolved, keyed⟩ := bind_eq_ok_iff.mp keyed
  have nameable := (rooted_of_resolve rooted resolved).nameable
  split at keyed
  · rename_i parts below
    obtain rfl := Except.ok.inj keyed
    apply spellable_toText
    rw [below?] at below
    split at below
    · obtain rfl := Option.some.inj below
      exact nameable.subset (List.drop_subset _ _)
    · cases below
  · obtain rfl := Except.ok.inj keyed
    apply spellable_toText
    apply Nameable.append
    · intro part listed
      rw [List.eq_of_mem_replicate listed]
      exact spellable_back
    · exact nameable.subset (List.drop_subset _ _)

end Path

end SuiteDocs
