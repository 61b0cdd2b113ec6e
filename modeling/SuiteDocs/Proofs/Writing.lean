import SuiteDocs.Proofs.Trees

/-!
What making directories and writing files does to a tree.

Directories that are made touch no file. A file that is written touches its own place, which is the
one that its path names, and can be read there afterwards by the same path.
-/

set_option autoImplicit false

namespace SuiteDocs.FileTree

open SuiteDocs.Text

variable {touched : List Text → Prop}

/-- The entry that a path names stands in a directory, which the path leads to. -/
theorem parentPlace_eq_ok {tree : FileTree} {directory path : Path} {ending : Cause}
    {place : List Text} {name : Text}
    (given : parentPlace tree directory path ending = .ok (place, name)) :
    ∃ above entries, rawParts directory path = above ++ [name] ∧ follow tree [] above = .ok place ∧
      tree.find? place = some (.directory entries) ∧ name ≠ Path.back ∧ isLongName name = false ∧
      isLongPath path = false := by
  rw [parentPlace] at given
  cases short : isLongPath path with
  | true =>
    rw [short] at given
    cases given
  | false =>
    rw [short, if_neg Bool.false_ne_true] at given
    dsimp only at given
    split at given
    · cases given
    · rename_i last ends
      obtain ⟨found, followed, given⟩ := bind_eq_ok_iff.mp given
      split at given
      · rename_i entries stands
        split at given
        · cases given
        · rename_i descends
          split at given
          · cases given
          · rename_i shortName
            obtain ⟨rfl, rfl⟩ := Prod.mk.inj (Except.ok.inj given)
            refine ⟨_, entries, ?_, followed, stands, fun same => descends (beq_iff_eq.mpr same),
              Bool.eq_false_iff.mpr shortName, rfl⟩
            exact (List.dropLast_append_getLast? _ ends).symm
      · cases given
      · cases given

theorem placeOf_of_parentPlace {tree : FileTree} {directory path : Path} {ending : Cause}
    {place : List Text} {name : Text}
    (given : parentPlace tree directory path ending = .ok (place, name)) :
    placeOf directory path = place ++ [name] := by
  obtain ⟨above, entries, parts, followed, -, forward, -, -⟩ := parentPlace_eq_ok given
  have only : ∀ part ∈ [name], part ≠ Path.back := by
    intro part member
    exact List.mem_singleton.mp member ▸ forward
  rw [placeOf, parts, Path.normalise_append above only, follow_eq followed]
  rfl

/-! ## Directories -/

theorem grown_of_makeDirectory {tree made : FileTree} {directory path : Path}
    (given : tree.makeDirectory directory path = .ok made) : Grown touched tree made := by
  rw [makeDirectory] at given
  split at given
  · cases given
  · rename_i place name parent
    obtain ⟨above, entries, -, -, stands, -⟩ := parentPlace_eq_ok parent
    split at given
    · cases given
    · rename_i nothing
      obtain rfl := Except.ok.inj given
      refine grown_put stands (fun part more => rfl) ?_ ?_ ?_
      · intro others found
        rw [nothing] at found
        cases found
      · intro bytes found
        rw [nothing] at found
        cases found
      · rintro bytes (isFile | found)
        · cases isFile
        · rw [nothing] at found
          cases found

theorem grown_of_acceptExisting {tree made : FileTree} {directory path : Path}
    {result : Except Error FileTree} (steps : ∀ made, result = .ok made → Grown touched tree made)
    (given : acceptExisting tree directory path result = .ok made) : Grown touched tree made := by
  cases result with
  | ok other => exact steps made given
  | error error =>
    rw [acceptExisting] at given
    split at given
    · cases given
    · obtain ⟨found, -, given⟩ := bind_eq_ok_iff.mp given
      cases found with
      | false => cases given
      | true =>
        obtain rfl := Except.ok.inj given
        exact grown_refl tree

theorem grown_finish {tree : FileTree} {result : Except Error FileTree}
    (steps : ∀ made, result = .ok made → Grown touched tree made) :
    Grown touched tree (makeDirectoriesUpTo.finish tree result).1 := by
  cases result with
  | ok made => exact steps made rfl
  | error error => exact grown_refl tree

theorem grown_attempt (tree : FileTree) (directory path : Path) :
    Grown touched tree (makeDirectoriesUpTo.finish tree
      (acceptExisting tree directory path (tree.makeDirectory directory path))).1 :=
  grown_finish fun _ given => grown_of_acceptExisting (fun _ => grown_of_makeDirectory) given

/-- Making directories touches no file, whether or not it is refused in the end. -/
theorem grown_makeDirectoriesUpTo (directory : Path) (depth : Nat) (tree : FileTree) (path : Path) :
    Grown touched tree (makeDirectoriesUpTo directory depth tree path).1 := by
  induction depth generalizing tree path with
  | zero => exact grown_attempt tree directory path
  | succ depth ih =>
    rw [makeDirectoriesUpTo]
    split
    · rename_i made given
      exact grown_of_makeDirectory given
    · rename_i error refused
      split
      · have above := ih tree path.parent
        split
        · rename_i result
          rw [result] at above
          exact above
        · rename_i result
          rw [result] at above
          exact above.trans (grown_attempt _ directory path)
      · refine grown_finish fun made given => grown_of_acceptExisting ?_ given
        intro made given
        cases given

theorem grown_makeDirectories (tree : FileTree) (directory path : Path) :
    Grown touched tree (tree.makeDirectories directory path).1 :=
  grown_makeDirectoriesUpTo directory _ tree path

/-! ## Files -/

/-- A file that is written touches the place that its path names. -/
theorem grown_of_writeFile {tree written : FileTree} {directory path : Path} {bytes : List UInt8}
    (given : tree.writeFile directory path bytes = .ok written) :
    Grown (· = placeOf directory path) tree written := by
  rw [writeFile] at given
  split at given
  · cases given
  · rename_i place name parent
    obtain ⟨above, entries, -, -, stands, -⟩ := parentPlace_eq_ok parent
    split at given
    · cases given
    · rename_i noDirectory
      obtain rfl := Except.ok.inj given
      refine grown_put stands (fun part more => rfl) noDirectory (fun _ _ => ⟨bytes, rfl⟩) ?_
      intro others _
      exact (placeOf_of_parentPlace parent).symm

/-- A file that was written is found by its path. -/
theorem lookup_of_writeFile {tree written : FileTree} {directory path : Path} {bytes : List UInt8}
    (checked : path.check.isOk = true)
    (given : tree.writeFile directory path bytes = .ok written) :
    written.lookup directory path = .ok (.file bytes) := by
  have grown := grown_of_writeFile given
  rw [writeFile] at given
  split at given
  · cases given
  · rename_i place name parent
    obtain ⟨above, entries, parts, followed, stands, forward, shortName, short⟩ :=
      parentPlace_eq_ok parent
    split at given
    · cases given
    · obtain rfl := Except.ok.inj given
      have here := find?_put_below (.file bytes) stands name []
      rw [find?_nil] at here
      refine lookup_eq_ok_iff.mpr ⟨checked, short, place ++ [name], ?_, here⟩
      obtain ⟨others, isDirectory⟩ := grown.directories stands
      have entry : (child? others name).isSome = true := by
        rw [find?_append, isDirectory, Option.bind_some, find?_directory_cons] at here
        obtain ⟨child, found, -⟩ := Option.bind_eq_some_iff.mp here
        rw [found]
        rfl
      rw [parts, follow_append, grown.follow followed, ok_bind, follow, isDirectory]
      dsimp only
      rw [if_neg (mt beq_iff_eq.mp forward), if_neg (Bool.eq_false_iff.mp shortName), if_pos entry,
        follow]

/-! ## Writing once more -/

theorem follow_last {tree : FileTree} {above found : List Text} {name : Text}
    (followed : follow tree [] (above ++ [name]) = .ok found) :
    ∃ place entries, follow tree [] above = .ok place ∧ tree.find? place = some (.directory entries) ∧
      (name ≠ Path.back → isLongName name = false ∧ found = place ++ [name]) := by
  rw [follow_append] at followed
  obtain ⟨place, reached, last⟩ := bind_eq_ok_iff.mp followed
  rw [follow] at last
  split at last
  · cases last
  · cases last
  · rename_i entries stands
    refine ⟨place, entries, reached, stands, fun forward => ?_⟩
    rw [if_neg (mt beq_iff_eq.mp forward)] at last
    split at last
    · cases last
    · rename_i short
      split at last
      · rw [follow] at last
        exact ⟨Bool.eq_false_iff.mpr short, (Except.ok.inj last).symm⟩
      · cases last

/-- The entry that a path leads to is refused as a new one only if the path does not name it. -/
theorem parentPlace_of_lookup {tree node : FileTree} {directory path : Path}
    (looked : tree.lookup directory path = .ok node) (ending : Cause) :
    (parentPlace tree directory path ending = .error ending ∧
      ∀ above name, rawParts directory path = above ++ [name] → name = Path.back) ∨
    ∃ place name, parentPlace tree directory path ending = .ok (place, name) ∧
      tree.find? (place ++ [name]) = some node := by
  obtain ⟨-, short, found, followed, stands⟩ := lookup_eq_ok_iff.mp looked
  rw [parentPlace, short, if_neg Bool.false_ne_true]
  dsimp only
  cases last : (rawParts directory path).getLast? with
  | none =>
    apply Or.inl
    refine ⟨rfl, ?_⟩
    intro above name parts
    rw [parts, List.getLast?_concat] at last
    cases last
  | some name =>
    have parts := (List.dropLast_append_getLast? name last).symm
    rw [parts] at followed
    obtain ⟨place, entries, reached, isDirectory, named⟩ := follow_last followed
    by_cases back : name = Path.back
    · apply Or.inl
      constructor
      · dsimp only
        rw [reached, ok_bind, isDirectory]
        dsimp only
        rw [if_pos (beq_iff_eq.mpr back)]
        rfl
      · intro above other others
        rw [others, List.getLast?_concat] at last
        exact (Option.some.inj last).trans back
    · apply Or.inr
      obtain ⟨shortName, rfl⟩ := named back
      refine ⟨place, name, ?_, stands⟩
      dsimp only
      rw [reached, ok_bind, isDirectory]
      dsimp only
      rw [if_neg (mt beq_iff_eq.mp back), shortName]
      rfl

/-- A directory that is there already is not made again, and nothing changes. -/
theorem makeDirectories_of_lookup {tree : FileTree} {directory path : Path}
    {entries : List (Text × FileTree)} (looked : tree.lookup directory path = .ok (.directory entries)) :
    tree.makeDirectories directory path = (tree, .ok ()) := by
  have refused : tree.makeDirectory directory path = .error ⟨.exists, path.toText⟩ := by
    rw [makeDirectory]
    rcases parentPlace_of_lookup looked .exists with ⟨refused, -⟩ | ⟨place, name, parent, stands⟩
    · rw [refused]
    · simp only [parent, stands]
  have accepted : acceptExisting tree directory path (.error ⟨.exists, path.toText⟩) = .ok tree := by
    simp only [acceptExisting, isDirectoryAt, search, looked]
    rfl
  rw [makeDirectories]
  cases path.parts.length with
  | zero => rw [makeDirectoriesUpTo, refused, accepted, makeDirectoriesUpTo.finish]
  | succ depth =>
    rw [makeDirectoriesUpTo, refused]
    change makeDirectoriesUpTo.finish tree (acceptExisting tree directory path _) = _
    rw [accepted, makeDirectoriesUpTo.finish]

/-- A file that is there already can be written. -/
theorem writeFile_of_lookup {tree : FileTree} {directory path : Path} {old : List UInt8}
    (looked : tree.lookup directory path = .ok (.file old)) {above : List Text} {name : Text}
    (parts : rawParts directory path = above ++ [name]) (forward : name ≠ Path.back)
    (bytes : List UInt8) : ∃ written, tree.writeFile directory path bytes = .ok written := by
  rcases parentPlace_of_lookup looked .isDirectory with ⟨-, back⟩ | ⟨place, name, parent, stands⟩
  · exact absurd (back above name parts) forward
  · rw [writeFile, parent]
    simp only [stands]
    exact ⟨_, rfl⟩

theorem rawParts_parent (directory : Path) {path : Path} {above : List Text} {name : Text}
    (parts : path.parts = above ++ [name]) :
    rawParts directory path = rawParts directory path.parent ++ [name] := by
  have same : path.parent.isAbsolute = path.isAbsolute := rfl
  rw [rawParts, rawParts, Path.join, Path.join, same]
  split
  · rw [Path.parent, parts, List.dropLast_concat]
  · rw [Path.parent, parts, List.dropLast_concat, List.append_assoc]

theorem nameSize_le_append (leading following : Text) :
    Utf8.nameSize leading ≤ Utf8.nameSize (leading ++ following) := by
  rw [Utf8.nameSize, Utf8.nameSize, List.foldl_append]
  generalize leading.foldl _ 0 = start
  induction following generalizing start with
  | nil => exact Nat.le_refl _
  | cons c rest ih => exact Nat.le_trans (Nat.le_add_right _ _) (ih _)

theorem isLongPath_parent {path : Path} (short : isLongPath path = false) {above : List Text}
    {name : Text} (parts : path.parts = above ++ [name]) : isLongPath path.parent = false := by
  obtain ⟨anchor, components⟩ := path
  subst parts
  have parent : Path.parent ⟨anchor, above ++ [name]⟩ = ⟨anchor, above⟩ := by
    rw [Path.parent, List.dropLast_concat]
  rw [parent]
  cases above with
  | nil => cases anchor <;> decide +kernel
  | cons first rest =>
    have text (parts : List Text) (nonempty : parts ≠ []) :
        Path.toText ⟨anchor, parts⟩ = anchor.text ++ Path.joined parts := by
      simpa [Path.under] using @Path.toText_under ⟨anchor, []⟩ parts nonempty
    simp only [isLongPath, decide_eq_false_iff_not, Nat.not_lt] at short ⊢
    refine Nat.le_trans ?_ short
    rw [text _ (List.cons_ne_nil _ _), text _ (by simp),
      Path.joined_append (List.cons_ne_nil first rest) (List.cons_ne_nil name []), ← List.append_assoc]
    exact nameSize_le_append _ _

/-- What a path leads to stands in the directory that the path without its last component leads to. -/
theorem lookup_parent {tree node : FileTree} {directory path : Path}
    (looked : tree.lookup directory path = .ok node) {above : List Text} {name : Text}
    (parts : path.parts = above ++ [name]) (checked : path.parent.check.isOk = true) :
    ∃ entries, tree.lookup directory path.parent = .ok (.directory entries) := by
  obtain ⟨-, short, found, followed, -⟩ := lookup_eq_ok_iff.mp looked
  rw [rawParts_parent directory parts] at followed
  obtain ⟨place, entries, reached, isDirectory, -⟩ := follow_last followed
  exact ⟨entries, lookup_eq_ok_iff.mpr
    ⟨checked, isLongPath_parent short parts, place, reached, isDirectory⟩⟩

end SuiteDocs.FileTree
