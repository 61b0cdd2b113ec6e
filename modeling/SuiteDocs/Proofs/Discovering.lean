import Mathlib.Data.List.Nodup
import SuiteDocs.Discovery
import SuiteDocs.Proofs.Order
import SuiteDocs.Proofs.Trees

/-!
Which files are found.

The walk through a tree leaves out whole directories, so a file is found only if no rule leaves out a
directory above it. What a rule of the configuration leaves out is lost for good: those rules come last
and none of them brings back.
-/

set_option autoImplicit false

namespace SuiteDocs

open SuiteDocs.Text SuiteDocs.Path

/-! ## Rules -/

namespace IgnoreRule

/-- The last rule that matches a path leaves it out. -/
def Ignored (rules : List IgnoreRule) (path : Text) (isDirectory : Bool) : Prop :=
  ∃ rule, (rules.filter (·.matchesPath path isDirectory)).getLast? = some rule ∧ rule.negate = false

theorem ignores_append_singleton (rules : List IgnoreRule) (rule : IgnoreRule) (path : Text)
    (isDirectory : Bool) :
    ignores (rules ++ [rule]) path isDirectory =
      if rule.matchesPath path isDirectory then !rule.negate else ignores rules path isDirectory := by
  rw [ignores, List.foldl_append]
  rfl

theorem ignores_iff (rules : List IgnoreRule) (path : Text) (isDirectory : Bool) :
    ignores rules path isDirectory = true ↔ Ignored rules path isDirectory := by
  induction rules using List.reverseRecOn with
  | nil => simp [ignores, Ignored]
  | append_singleton rules rule ih =>
    rw [ignores_append_singleton, Ignored, List.filter_append]
    by_cases here : rule.matchesPath path isDirectory = true
    · simp [here]
    · rw [if_neg here, List.filter_cons, if_neg here, List.filter_nil, List.append_nil]
      exact ih

end IgnoreRule

/-! ## Well-named trees -/

namespace FileTree

/-- Entries as directories have them: their names are names of files, and no two of them are equal, also
in all directories below. -/
inductive WellNamed : List (Text × FileTree) → Prop where
  | nil : WellNamed []
  | file {name bytes rest} : IsName name → name ∉ rest.map (·.1) → WellNamed rest →
      WellNamed ((name, .file bytes) :: rest)
  | directory {name entries rest} : IsName name → name ∉ rest.map (·.1) → WellNamed entries →
      WellNamed rest → WellNamed ((name, .directory entries) :: rest)

theorem child?_of_absent {entries : List (Text × FileTree)} {name : Text}
    (absent : name ∉ entries.map (·.1)) : child? entries name = none := by
  cases found : child? entries name with
  | none => rfl
  | some child => exact absurd (List.mem_map.mpr ⟨_, mem_of_child? found, rfl⟩) absent

theorem WellNamed.child? {entries : List (Text × FileTree)} (named : WellNamed entries) {name : Text}
    {child : FileTree} (found : FileTree.child? entries name = some child) :
    IsName name ∧ ∀ inside, child = .directory inside → WellNamed inside := by
  induction named with
  | nil => cases found
  | file isName fresh others ih =>
    rw [child?_cons] at found
    split at found
    · rename_i here
      subst here
      obtain rfl := Option.some.inj found
      exact ⟨isName, fun inside same => by cases same⟩
    · exact ih found
  | directory isName fresh below others _ ih =>
    rw [child?_cons] at found
    split at found
    · rename_i here
      subst here
      obtain rfl := Option.some.inj found
      refine ⟨isName, fun inside same => ?_⟩
      obtain rfl := FileTree.directory.inj same
      exact below
    · exact ih found

/-- What is found in a well-named tree has names above it, and is well named itself. -/
theorem WellNamed.find? {entries : List (Text × FileTree)} (named : WellNamed entries) {place : List Text}
    {node : FileTree} (found : (FileTree.directory entries).find? place = some node) :
    (∀ part ∈ place, IsName part) ∧ ∀ inside, node = .directory inside → WellNamed inside := by
  induction place generalizing entries with
  | nil =>
    obtain rfl := Option.some.inj ((find?_nil _).symm.trans found)
    refine ⟨fun part member => absurd member List.not_mem_nil, fun inside same => ?_⟩
    obtain rfl := FileTree.directory.inj same
    exact named
  | cons name rest ih =>
    rw [find?_directory_cons] at found
    obtain ⟨child, here, below⟩ := Option.bind_eq_some_iff.mp found
    obtain ⟨isName, inside⟩ := named.child? here
    cases child with
    | file bytes =>
      cases rest with
      | nil =>
        obtain rfl := Option.some.inj ((find?_nil _).symm.trans below)
        exact ⟨by simpa using isName, fun inside same => by cases same⟩
      | cons part more => cases below
    | directory others =>
      obtain ⟨names, final⟩ := ih (inside others rfl) below
      exact ⟨List.forall_mem_cons.mpr ⟨isName, names⟩, final⟩

end FileTree

/-! ## The walk -/

namespace Discovery

open FileTree IgnoreRule

/-- A directory can be entered: its name is none of those that are always left out, and no rule leaves
it out. -/
def Enters (rules : List IgnoreRule) (above : List Text) (name : Text) : Prop :=
  name ∉ excludedNames ∧ ¬ Ignored rules (joined (above ++ [name])) true

/-- A file below a node at a place `above` is kept: the walk enters all directories on the way to it, and
no rule leaves it out. -/
structure Kept (rules : List IgnoreRule) (above : List Text) (node : FileTree) (place : List Text) :
    Prop where
  stands : ∃ bytes, node.find? place = some (.file bytes)
  entered : ∀ way name below, place = way ++ name :: below → below ≠ [] →
    Enters rules (above ++ way) name
  spared : ¬ Ignored rules (joined (above ++ place)) false

variable {rules : List IgnoreRule} {above : List Text}

theorem kept_file_iff {bytes : List UInt8} {place : List Text} :
    Kept rules above (.file bytes) place ↔ place = [] ∧ ¬ Ignored rules (joined above) false := by
  constructor
  · rintro ⟨⟨others, found⟩, -, spared⟩
    cases place with
    | nil => exact ⟨rfl, List.append_nil above ▸ spared⟩
    | cons name rest => cases found
  · rintro ⟨rfl, spared⟩
    refine ⟨⟨bytes, find?_nil _⟩, fun way name below empty => ?_, (List.append_nil above).symm ▸ spared⟩
    exact absurd empty.symm (List.append_ne_nil_of_right_ne_nil _ (List.cons_ne_nil _ _))

theorem Kept.isName {entries : List (Text × FileTree)} (named : WellNamed entries) {place : List Text}
    (kept : Kept rules above (.directory entries) place) : ∀ part ∈ place, IsName part := by
  obtain ⟨bytes, found⟩ := kept.stands
  exact (named.find? found).1

theorem not_kept_directory_nil {entries : List (Text × FileTree)} :
    ¬ Kept rules above (.directory entries) [] := by
  rintro ⟨⟨bytes, found⟩, -, -⟩
  cases (find?_nil _).symm.trans found

theorem kept_directory_cons_iff {entries : List (Text × FileTree)} {name : Text} {more : List Text} :
    Kept rules above (.directory entries) (name :: more) ↔
      ∃ child, child? entries name = some child ∧ (more ≠ [] → Enters rules above name) ∧
        Kept rules (above ++ [name]) child more := by
  -- The way to the file is the name and the way behind it, so the directories to enter are the first one
  -- and those seen from there.
  have shifted (place : List Text) : above ++ [name] ++ place = above ++ name :: place :=
    List.append_assoc above [name] place
  constructor
  · rintro ⟨⟨bytes, found⟩, entered, spared⟩
    rw [find?_directory_cons] at found
    obtain ⟨child, here, below⟩ := Option.bind_eq_some_iff.mp found
    refine ⟨child, here, fun nonempty => ?_, ⟨bytes, below⟩, ?_, shifted more ▸ spared⟩
    · exact List.append_nil above ▸ entered [] name more rfl nonempty
    · intro way other below parted nonempty
      rw [shifted]
      exact entered (name :: way) other below (by rw [parted]; rfl) nonempty
  · rintro ⟨child, here, first, ⟨bytes, found⟩, entered, spared⟩
    refine ⟨⟨bytes, ?_⟩, ?_, shifted more ▸ spared⟩
    · rw [find?_directory_cons, here]
      exact found
    · intro way other below parted nonempty
      cases way with
      | nil =>
        obtain ⟨rfl, rfl⟩ := List.cons.inj parted
        exact (List.append_nil above).symm ▸ first nonempty
      | cons part way =>
        obtain ⟨rfl, rest⟩ := List.cons.inj parted
        exact shifted way ▸ entered way other below rest nonempty

theorem not_kept_of_absent {entries : List (Text × FileTree)} {name : Text}
    (absent : name ∉ entries.map (·.1)) (more : List Text) :
    ¬ Kept rules above (.directory entries) (name :: more) := by
  rw [kept_directory_cons_iff, child?_of_absent absent]
  rintro ⟨child, found, -⟩
  cases found

theorem kept_entry_iff {name : Text} {child : FileTree} {rest : List (Text × FileTree)}
    (fresh : name ∉ rest.map (·.1)) {place : List Text} :
    Kept rules above (.directory ((name, child) :: rest)) place ↔
      (∃ more, place = name :: more ∧ (more ≠ [] → Enters rules above name) ∧
        Kept rules (above ++ [name]) child more) ∨ Kept rules above (.directory rest) place := by
  cases place with
  | nil => simp [not_kept_directory_nil]
  | cons part more =>
    rw [kept_directory_cons_iff, child?_cons]
    by_cases here : name = part
    · subst here
      simp [not_kept_of_absent fresh]
    · simp [here, Ne.symm here, kept_directory_cons_iff]

/-- The places of the files that the walk keeps, below a directory at a place `above`. -/
def placesBelow (rules : List IgnoreRule) (above : List Text) :
    List (Text × FileTree) → List (List Text)
  | [] => []
  | (name, .file _) :: rest =>
    (if ignores rules (joined (above ++ [name])) false then [] else [[name]]) ++
      placesBelow rules above rest
  | (name, .directory entries) :: rest =>
    (if excludedNames.contains name || ignores rules (joined (above ++ [name])) true then []
      else (placesBelow rules (above ++ [name]) entries).map (name :: ·)) ++ placesBelow rules above rest

theorem pathIn_joined (each : ∀ part ∈ above, IsComponent part) (name : Text) :
    pathIn (joined above) name = joined (above ++ [name]) := by
  rw [pathIn]
  cases above with
  | nil => exact (joined_singleton name).symm
  | cons part rest =>
    have nonempty := joined_ne_nil each (List.cons_ne_nil part rest)
    rw [if_neg (by simpa using nonempty),
      joined_append (List.cons_ne_nil part rest) (List.cons_ne_nil name []), joined_singleton,
      List.append_assoc]
    rfl

theorem keptAmong_eq {entries : List (Text × FileTree)} (named : WellNamed entries)
    (each : ∀ part ∈ above, IsComponent part) :
    keptAmong rules (joined above) entries =
      (placesBelow rules above entries).map fun place => joined (above ++ place) := by
  induction named generalizing above with
  | nil => rw [keptAmong, placesBelow, List.map_nil]
  | file isName fresh others ih =>
    rw [keptAmong, placesBelow, pathIn_joined each, ih each, List.map_append]
    congr 1
    split <;> rfl
  | @directory name inside rest isName fresh below others ihBelow ih =>
    have eachBelow : ∀ part ∈ above ++ [name], IsComponent part := by
      intro part member
      rcases List.mem_append.mp member with old | new
      · exact each part old
      · exact List.mem_singleton.mp new ▸ isName.1
    rw [keptAmong, placesBelow, pathIn_joined each, ih each, ihBelow eachBelow, List.map_append]
    congr 1
    split
    · rfl
    · rw [List.map_map]
      refine List.map_congr_left fun place _ => ?_
      rw [List.append_assoc]
      rfl

theorem mem_placesBelow {entries : List (Text × FileTree)} (named : WellNamed entries)
    {place : List Text} :
    place ∈ placesBelow rules above entries ↔ Kept rules above (.directory entries) place := by
  induction named generalizing above place with
  | nil =>
    rw [placesBelow]
    refine iff_of_false List.not_mem_nil ?_
    rintro ⟨⟨bytes, found⟩, -, -⟩
    cases place <;> cases found
  | @file name bytes rest isName fresh others ih =>
    rw [placesBelow, List.mem_append, ih, kept_entry_iff fresh, List.mem_ite_nil_left, List.mem_singleton,
      ignores_iff]
    refine or_congr_left ?_
    constructor
    · rintro ⟨spared, rfl⟩
      exact ⟨[], rfl, fun nonempty => absurd rfl nonempty, kept_file_iff.mpr ⟨rfl, spared⟩⟩
    · rintro ⟨more, rfl, -, kept⟩
      obtain ⟨rfl, spared⟩ := kept_file_iff.mp kept
      exact ⟨spared, rfl⟩
  | @directory name inside rest isName fresh below others ihBelow ih =>
    have enters : ¬ (excludedNames.contains name || ignores rules (joined (above ++ [name])) true) = true ↔
        Enters rules above name := by
      rw [Enters, ← ignores_iff, Bool.or_eq_true, List.contains_iff_mem, not_or]
    rw [placesBelow, List.mem_append, ih, kept_entry_iff fresh, List.mem_ite_nil_left, enters, List.mem_map]
    refine or_congr_left ?_
    constructor
    · rintro ⟨entered, more, member, rfl⟩
      exact ⟨more, rfl, fun _ => entered, ihBelow.mp member⟩
    · rintro ⟨more, rfl, entered, kept⟩
      -- A directory is not kept itself, so the walk has to enter it.
      have nonempty : more ≠ [] := by
        rintro rfl
        exact not_kept_directory_nil kept
      exact ⟨entered nonempty, more, ihBelow.mpr kept, rfl⟩

theorem not_mem_placesBelow {name : Text} {rest : List (Text × FileTree)}
    (fresh : name ∉ rest.map (·.1)) (others : WellNamed rest) (more : List Text) :
    name :: more ∉ placesBelow rules above rest :=
  fun member => not_kept_of_absent fresh more ((mem_placesBelow others).mp member)

theorem nodup_placesBelow {entries : List (Text × FileTree)} (named : WellNamed entries) :
    (placesBelow rules above entries).Nodup := by
  induction named generalizing above with
  | nil =>
    rw [placesBelow]
    exact List.nodup_nil
  | file isName fresh others ih =>
    rw [placesBelow]
    split
    · exact ih
    · exact List.nodup_cons.mpr ⟨not_mem_placesBelow fresh others [], ih⟩
  | @directory name inside rest isName fresh below others ihBelow ih =>
    rw [placesBelow]
    split
    · exact ih
    · refine List.nodup_append.mpr ⟨?_, ih, ?_⟩
      · exact List.Pairwise.map (name :: ·) (fun _ _ => mt List.tail_eq_of_cons_eq) ihBelow
      · rintro place member other known rfl
        obtain ⟨more, -, rfl⟩ := List.mem_map.mp member
        exact not_mem_placesBelow fresh others more known

/-! ## Discovery -/

theorem kept_eq {tree : FileTree} {root : Path} {entries : List (Text × FileTree)}
    (stands : tree.lookup root root = .ok (.directory entries)) (named : WellNamed entries)
    {excluded : List Text} (ruled : ignoreRules tree root excluded = .ok rules) (written : Text) :
    kept tree root written excluded = .ok ((placesBelow rules [] entries).map joined) := by
  have walked : keptAmong rules "" entries = (placesBelow rules [] entries).map joined :=
    keptAmong_eq named fun part member => absurd member List.not_mem_nil
  unfold kept
  rw [search, stands]
  dsimp only
  rw [ruled]
  dsimp only
  rw [walked]

theorem exists_of_kept {tree : FileTree} {root : Path} {written : Text} {excluded paths : List Text}
    (given : kept tree root written excluded = .ok paths) :
    ∃ entries rules, tree.lookup root root = .ok (.directory entries) ∧
      ignoreRules tree root excluded = .ok rules := by
  unfold kept search at given
  cases looked : tree.lookup root root with
  | error cause => cases cause <;> (rw [looked] at given; cases given)
  | ok node =>
    rw [looked] at given
    cases node with
    | file bytes => cases given
    | directory entries =>
      dsimp only at given
      cases ruled : ignoreRules tree root excluded with
      | error error =>
        rw [ruled] at given
        cases given
      | ok rules => exact ⟨entries, rules, rfl, rfl⟩

/-- The places of the files that discovery returns, in its order. -/
def placesSelected (rules : List IgnoreRule) (patterns : List Text) (entries : List (Text × FileTree)) :
    List (List Text) :=
  ((placesBelow rules [] entries).filter fun place => isSelected patterns (joined place)).mergeSort
    fun a b => Text.le (joined a) (joined b)

theorem mem_placesSelected {entries : List (Text × FileTree)} (named : WellNamed entries)
    {patterns : List Text} {place : List Text} :
    place ∈ placesSelected rules patterns entries ↔ Kept rules [] (.directory entries) place ∧
      ∃ pattern ∈ patterns, Glob.selects pattern (joined place) = true := by
  rw [placesSelected, List.mem_mergeSort, List.mem_filter, mem_placesBelow named, isSelected,
    List.any_eq_true]

theorem isName_of_mem_placesSelected {entries : List (Text × FileTree)} (named : WellNamed entries)
    {patterns : List Text} {place : List Text} (member : place ∈ placesSelected rules patterns entries) :
    ∀ part ∈ place, IsName part :=
  ((mem_placesSelected named).mp member).1.isName named

theorem ne_nil_of_mem_placesSelected {entries : List (Text × FileTree)} (named : WellNamed entries)
    {patterns : List Text} {place : List Text} (member : place ∈ placesSelected rules patterns entries) :
    place ≠ [] := by
  rintro rfl
  exact not_kept_directory_nil ((mem_placesSelected named).mp member).1

theorem map_joined_placesSelected (patterns : List Text) (entries : List (Text × FileTree)) :
    (placesSelected rules patterns entries).map joined =
      (((placesBelow rules [] entries).map joined).filter (isSelected patterns)).mergeSort Text.le := by
  rw [List.filter_map]
  exact List.map_mergeSort fun _ _ _ _ => rfl

theorem pairwise_placesSelected {entries : List (Text × FileTree)} (named : WellNamed entries)
    (patterns : List Text) :
    ((placesSelected rules patterns entries).map joined).Pairwise Before := by
  have components {place : List Text} (member : place ∈ placesBelow rules [] entries) :
      ∀ part ∈ place, IsComponent part :=
    fun part inside => (((mem_placesBelow named).mp member).isName named part inside).1
  have distinct : ((placesBelow rules [] entries).map joined).Nodup :=
    List.Nodup.map_on
      (fun _ member _ member' same => joined_inj (components member) (components member') same)
      (nodup_placesBelow named)
  rw [map_joined_placesSelected]
  exact Text.pairwise_mergeSort (distinct.filter _)

theorem discover_eq {tree : FileTree} {root : Path} {entries : List (Text × FileTree)}
    (stands : tree.lookup root root = .ok (.directory entries)) (named : WellNamed entries)
    {excluded : List Text} (ruled : ignoreRules tree root excluded = .ok rules) (written : Text)
    (patterns : List Text) :
    discover tree root written patterns excluded =
      .ok ((placesSelected rules patterns entries).map root.under) := by
  rw [discover, kept_eq stands named ruled]
  refine congrArg Except.ok ?_
  rw [← map_joined_placesSelected, List.map_map]
  refine List.map_congr_left fun place member => ?_
  exact child_joined root fun part inside => (isName_of_mem_placesSelected named member part inside).1

/-- The entries of a project whose ignore file leaves out all sources and brings back those with two
names. -/
def sampleEntries : List (Text × FileTree) :=
  [(".gitignore", .file (("*.ts\n!a.ts\n!b.ts" : Text).flatMap Utf8.bytesOf)),
    ("x", .directory [("a.ts", .file [])]), ("dist", .directory [("a.ts", .file [])]),
    ("a.ts", .file []), ("b.ts", .file []), ("c.ts", .file [])]

def sampleTree : FileTree := .directory [("p", .directory sampleEntries)]

end Discovery

end SuiteDocs
