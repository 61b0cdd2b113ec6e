import SuiteDocs.FileTree.Basic
import SuiteDocs.Proofs.Baselines
import SuiteDocs.Proofs.Paths

/-!
What stands where in a file tree, and how trees grow.

Making a directory or writing a file changes one place. All directories stay, and so do all files,
with their bytes except at the place that is written. A path that could be followed can still be
followed afterwards, and leads to the same place.
-/

set_option autoImplicit false

namespace SuiteDocs.FileTree

open SuiteDocs.Text

/-! ## Entries and places -/

theorem child?_eq_get? (entries : List (Text × FileTree)) (name : Text) :
    child? entries name = OrderedMap.get? ⟨entries⟩ name := by
  rw [child?, OrderedMap.get?]
  congr 2
  funext entry
  exact Bool.beq_eq_decide_eq entry.1 name

theorem child?_cons (name other : Text) (child : FileTree) (rest : List (Text × FileTree)) :
    child? ((name, child) :: rest) other = if name = other then some child else child? rest other := by
  rw [child?, List.find?_cons]
  by_cases same : name = other
  · simp [same]
  · rw [beq_false_of_ne same, if_neg same, child?]

theorem child?_insertEntry (name other : Text) (child : FileTree) (entries : List (Text × FileTree)) :
    child? (OrderedMap.insertEntry name child entries) other =
      if other = name then some child else child? entries other := by
  rw [child?_eq_get?, child?_eq_get?]
  exact OrderedMap.get?_insert ⟨entries⟩ name other child

theorem mem_of_child? {entries : List (Text × FileTree)} {name : Text} {child : FileTree}
    (found : child? entries name = some child) : (name, child) ∈ entries := by
  rw [child?_eq_get?] at found
  exact OrderedMap.mem_of_get? found

@[simp] theorem find?_nil (tree : FileTree) : tree.find? [] = some tree := by
  cases tree <;> rfl

@[simp] theorem find?_file_cons (bytes : List UInt8) (name : Text) (rest : List Text) :
    (file bytes).find? (name :: rest) = none := rfl

theorem find?_directory_cons (entries : List (Text × FileTree)) (name : Text) (rest : List Text) :
    (directory entries).find? (name :: rest) = (child? entries name).bind (·.find? rest) := by
  rw [find?]
  cases child? entries name <;> rfl

theorem find?_append (tree : FileTree) (place more : List Text) :
    tree.find? (place ++ more) = (tree.find? place).bind (·.find? more) := by
  induction place generalizing tree with
  | nil => rw [List.nil_append, find?_nil, Option.bind_some]
  | cons name rest ih =>
    cases tree with
    | file bytes => rfl
    | directory entries =>
      rw [List.cons_append, find?_directory_cons, find?_directory_cons, Option.bind_assoc]
      exact congrArg _ (funext ih)

/-- Below a file nothing stands. -/
theorem find?_below_file {tree : FileTree} {place : List Text} {bytes : List UInt8}
    (found : tree.find? place = some (.file bytes)) (name : Text) (more : List Text) :
    tree.find? (place ++ name :: more) = none := by
  rw [find?_append, found, Option.bind_some, find?_file_cons]

/-- Whatever stands below a place, the place is a directory. -/
theorem exists_directory_of_below {tree node : FileTree} {above more : List Text}
    (found : tree.find? (above ++ more) = some node) (below : more ≠ []) :
    ∃ others, tree.find? above = some (.directory others) := by
  obtain ⟨name, rest, rfl⟩ := List.exists_cons_of_ne_nil below
  cases stands : tree.find? above with
  | none =>
    rw [find?_append, stands] at found
    cases found
  | some node =>
    cases node with
    | directory others => exact ⟨others, rfl⟩
    | file bytes =>
      rw [find?_below_file stands] at found
      cases found

/-- Above a directory there are directories only. -/
theorem exists_directory_above {tree : FileTree} {place above : List Text}
    {entries : List (Text × FileTree)} (found : tree.find? place = some (.directory entries))
    (isAbove : above <+: place) : ∃ others, tree.find? above = some (.directory others) := by
  obtain ⟨more, rfl⟩ := isAbove
  cases more with
  | nil => exact ⟨entries, by rw [List.append_nil] at found; exact found⟩
  | cons name rest => exact exists_directory_of_below found (List.cons_ne_nil name rest)

/-! ## Putting something at a place -/

theorem find?_put_apart (new tree : FileTree) {place other : List Text} (notAbove : ¬ other <+: place)
    (notBelow : ¬ place <+: other) : (put new tree place).find? other = tree.find? other := by
  induction place generalizing tree other with
  | nil => exact absurd List.nil_prefix notBelow
  | cons name rest ih =>
    cases other with
    | nil => exact absurd List.nil_prefix notAbove
    | cons first more =>
      cases tree with
      | file bytes => rfl
      | directory entries =>
        rw [put, find?_directory_cons, find?_directory_cons, child?_insertEntry]
        by_cases same : first = name
        · subst same
          rw [List.cons_prefix_cons] at notAbove notBelow
          have inner := ih ((child? entries first).getD empty)
            (fun above => notAbove ⟨rfl, above⟩) (fun below => notBelow ⟨rfl, below⟩)
          rw [if_pos rfl, Option.bind_some, inner]
          cases child? entries first with
          | some child => rfl
          | none =>
            -- What is put makes the directories on its way, and nothing else stands in them.
            cases more with
            | nil => exact absurd ⟨rfl, List.nil_prefix⟩ notAbove
            | cons next rest => rfl
        · rw [if_neg same]

theorem find?_put_below (new : FileTree) {tree : FileTree} {place : List Text}
    {entries : List (Text × FileTree)} (found : tree.find? place = some (.directory entries))
    (name : Text) (more : List Text) :
    (put new tree (place ++ [name])).find? (place ++ name :: more) = new.find? more := by
  induction place generalizing tree with
  | nil =>
    rw [find?_nil] at found
    obtain rfl := Option.some.inj found
    rw [List.nil_append, List.nil_append, put, find?_directory_cons, child?_insertEntry, if_pos rfl]
    cases (child? entries name).getD empty <;> rfl
  | cons first rest ih =>
    cases tree with
    | file bytes => cases found
    | directory others =>
      rw [find?_directory_cons] at found
      obtain ⟨child, stands, found⟩ := Option.bind_eq_some_iff.mp found
      rw [List.cons_append, List.cons_append, put, find?_directory_cons, child?_insertEntry,
        if_pos rfl, Option.bind_some, stands]
      exact ih found

theorem exists_directory_put (new : FileTree) {tree : FileTree} {place above : List Text}
    {entries : List (Text × FileTree)} (found : tree.find? place = some (.directory entries))
    (name : Text) (isAbove : above <+: place) :
    ∃ others, (put new tree (place ++ [name])).find? above = some (.directory others) := by
  have here := find?_put_below new found name []
  obtain ⟨more, rfl⟩ := isAbove
  rw [find?_nil, List.append_assoc] at here
  rw [List.append_assoc]
  exact exists_directory_of_below here (by simp)

/-- Any place is at or below an entry, above it, or apart from it. -/
theorem place_cases (other place : List Text) (name : Text) :
    (∃ more, other = place ++ name :: more) ∨ other <+: place ∨
      (¬ other <+: place ++ [name] ∧ ¬ place ++ [name] <+: other) := by
  by_cases below : place ++ [name] <+: other
  · obtain ⟨more, rfl⟩ := below
    exact .inl ⟨more, by rw [List.append_assoc]; rfl⟩
  · by_cases above : other <+: place ++ [name]
    · rcases List.prefix_concat_iff.mp above with same | above
      · exact absurd (same ▸ List.prefix_rfl) below
      · exact .inr (.inl above)
    · exact .inr (.inr ⟨above, below⟩)

/-- Something without contents that is put in place of nothing or of a file changes what stands at its
own place only: directories above it stay directories, and all else is as it was. -/
theorem find?_put_cases {tree new : FileTree} {place : List Text} {entries : List (Text × FileTree)}
    {name : Text} (found : tree.find? place = some (.directory entries))
    (leaf : ∀ part more, new.find? (part :: more) = none)
    (free : ∀ others, tree.find? (place ++ [name]) ≠ some (.directory others)) (other : List Text) :
    (other = place ++ [name] ∧ (put new tree (place ++ [name])).find? other = some new) ∨
      ((∃ others, tree.find? other = some (.directory others)) ∧
        ∃ others, (put new tree (place ++ [name])).find? other = some (.directory others)) ∨
      (put new tree (place ++ [name])).find? other = tree.find? other := by
  rcases place_cases other place name with ⟨more, rfl⟩ | above | ⟨notAbove, notBelow⟩
  · cases more with
    | nil => exact .inl ⟨rfl, by rw [find?_put_below new found, find?_nil]⟩
    | cons part more =>
      -- Nothing stands below the entry, be it new or not.
      have nothing : tree.find? (place ++ name :: part :: more) = none := by
        rw [Option.eq_none_iff_forall_ne_some]
        intro node stands
        rw [← List.singleton_append, ← List.append_assoc] at stands
        obtain ⟨others, stands⟩ := exists_directory_of_below stands (List.cons_ne_nil part more)
        exact free others stands
      rw [find?_put_below new found, leaf, nothing]
      exact .inr (.inr rfl)
  · exact .inr (.inl ⟨exists_directory_above found above, exists_directory_put new found name above⟩)
  · exact .inr (.inr (find?_put_apart new tree notAbove notBelow))

/-! ## Growth -/

/-- All directories and files of a tree are still there, and the files at all places that are not
touched have the same bytes. -/
structure Grown (touched : List Text → Prop) (before after : FileTree) : Prop where
  directories : ∀ {place entries}, before.find? place = some (.directory entries) →
    ∃ others, after.find? place = some (.directory others)
  files : ∀ {place bytes}, before.find? place = some (.file bytes) →
    ∃ others, after.find? place = some (.file others)
  untouched : ∀ {place}, ¬ touched place → ∀ bytes,
    (after.find? place = some (.file bytes) ↔ before.find? place = some (.file bytes))

variable {touched : List Text → Prop} {before middle after : FileTree}

theorem grown_refl (tree : FileTree) : Grown touched tree tree where
  directories found := ⟨_, found⟩
  files found := ⟨_, found⟩
  untouched _ _ := Iff.rfl

theorem Grown.trans (first : Grown touched before middle) (second : Grown touched middle after) :
    Grown touched before after where
  directories found := by
    obtain ⟨others, found⟩ := first.directories found
    exact second.directories found
  files found := by
    obtain ⟨others, found⟩ := first.files found
    exact second.files found
  untouched spared bytes := (second.untouched spared bytes).trans (first.untouched spared bytes)

theorem Grown.mono {others : List Text → Prop} (grown : Grown touched before after)
    (wider : ∀ place, touched place → others place) : Grown others before after where
  directories := grown.directories
  files := grown.files
  untouched spared := grown.untouched fun here => spared (wider _ here)

theorem Grown.isSome (grown : Grown touched before after) {place : List Text}
    (stands : (before.find? place).isSome = true) : (after.find? place).isSome = true := by
  obtain ⟨node, found⟩ := Option.isSome_iff_exists.mp stands
  cases node with
  | file bytes =>
    obtain ⟨others, found⟩ := grown.files found
    rw [found]
    rfl
  | directory entries =>
    obtain ⟨others, found⟩ := grown.directories found
    rw [found]
    rfl

/-- Something without contents is put into a directory, in place of nothing or of a file. -/
theorem grown_put {tree new : FileTree} {place : List Text} {entries : List (Text × FileTree)}
    {name : Text} (found : tree.find? place = some (.directory entries))
    (leaf : ∀ part more, new.find? (part :: more) = none)
    (free : ∀ others, tree.find? (place ++ [name]) ≠ some (.directory others))
    (kept : ∀ bytes, tree.find? (place ++ [name]) = some (.file bytes) → ∃ others, new = .file others)
    (noted : ∀ bytes, new = .file bytes ∨ tree.find? (place ++ [name]) = some (.file bytes) →
      touched (place ++ [name])) :
    Grown touched tree (put new tree (place ++ [name])) := by
  refine ⟨?_, ?_, ?_⟩
  · intro other others stands
    rcases find?_put_cases found leaf free other with ⟨rfl, -⟩ | ⟨-, isDirectory⟩ | same
    · exact absurd stands (free others)
    · exact isDirectory
    · exact ⟨others, same.trans stands⟩
  · intro other bytes stands
    rcases find?_put_cases found leaf free other with ⟨rfl, here⟩ | ⟨⟨others, wasDirectory⟩, -⟩ | same
    · obtain ⟨others, rfl⟩ := kept bytes stands
      exact ⟨others, here⟩
    · rw [wasDirectory] at stands
      cases stands
    · exact ⟨bytes, same.trans stands⟩
  · intro other spared bytes
    rcases find?_put_cases found leaf free other with
      ⟨rfl, here⟩ | ⟨⟨others, wasDirectory⟩, ⟨others', isDirectory⟩⟩ | same
    · constructor
      · intro stands
        exact absurd (noted bytes (.inl (Option.some.inj (here.symm.trans stands)))) spared
      · intro stands
        exact absurd (noted bytes (.inr stands)) spared
    · rw [wasDirectory, isDirectory]
      constructor <;> intro stands <;> cases stands
    · rw [same]

/-! ## Following paths -/

theorem follow_eq {tree : FileTree} {place parts found : List Text}
    (followed : follow tree place parts = .ok found) : found = parts.foldl Path.enter place := by
  induction parts generalizing place with
  | nil => exact (Except.ok.inj followed).symm
  | cons part rest ih =>
    rw [follow] at followed
    rw [List.foldl_cons, Path.enter]
    split at followed
    · cases followed
    · cases followed
    · split at followed
      · rename_i leads
        rw [if_pos leads]
        exact ih followed
      · rename_i descends
        rw [if_neg descends]
        split at followed
        · cases followed
        · split at followed
          · exact ih followed
          · cases followed

theorem follow_append (tree : FileTree) (place parts more : List Text) :
    follow tree place (parts ++ more) = follow tree place parts >>= (follow tree · more) := by
  induction parts generalizing place with
  | nil => rfl
  | cons part rest ih =>
    rw [List.cons_append, follow, follow]
    split
    · rfl
    · rfl
    · split
      · exact ih _
      · split
        · rfl
        · split
          · exact ih _
          · rfl

theorem Grown.follow (grown : Grown touched before after) {place parts found : List Text}
    (followed : FileTree.follow before place parts = .ok found) :
    FileTree.follow after place parts = .ok found := by
  induction parts generalizing place with
  | nil => exact followed
  | cons part rest ih =>
    rw [FileTree.follow] at followed
    split at followed
    · cases followed
    · cases followed
    · rename_i entries stands
      obtain ⟨others, stays⟩ := grown.directories stands
      rw [FileTree.follow, stays]
      dsimp only
      split at followed
      · rename_i leads
        rw [if_pos leads]
        exact ih followed
      · rename_i descends
        rw [if_neg descends]
        split at followed
        · cases followed
        · rename_i short
          rw [if_neg short]
          split at followed
          · rename_i present
            have entry (tree : FileTree) {entries : List (Text × FileTree)}
                (stands : tree.find? place = some (.directory entries)) :
                tree.find? (place ++ [part]) = child? entries part := by
              rw [find?_append, stands, Option.bind_some, find?_directory_cons]
              cases child? entries part with
              | none => rfl
              | some child => exact find?_nil child
            have still : (child? others part).isSome = true := by
              rw [← entry after stays]
              exact grown.isSome (by rw [entry before stands]; exact present)
            rw [if_pos still]
            exact ih followed
          · cases followed

/-- Components that do not lead back are followed to what stands at them. -/
theorem find?_of_follow {tree : FileTree} {place parts found : List Text}
    (stands : (tree.find? place).isSome = true) (followed : follow tree place parts = .ok found)
    (forward : ∀ part ∈ parts, part ≠ Path.back) :
    found = place ++ parts ∧ (tree.find? found).isSome = true := by
  have descended : found = place ++ parts := by
    rw [follow_eq followed, Path.foldl_enter_of_forward place forward]
  refine ⟨descended, ?_⟩
  clear descended
  induction parts generalizing place with
  | nil =>
    obtain rfl := Except.ok.inj followed
    exact stands
  | cons part rest ih =>
    obtain ⟨first, others⟩ := List.forall_mem_cons.mp forward
    rw [follow] at followed
    split at followed
    · cases followed
    · cases followed
    · rename_i entries isDirectory
      rw [if_neg (mt beq_iff_eq.mp first)] at followed
      split at followed
      · cases followed
      · split at followed
        · rename_i present
          refine ih ?_ followed others
          rw [find?_append, isDirectory, Option.bind_some, find?_directory_cons]
          obtain ⟨child, found⟩ := Option.isSome_iff_exists.mp present
          rw [found, Option.bind_some, find?_nil]
          rfl
        · cases followed

/-- The place that a path names, seen from a directory. -/
def placeOf (directory path : Path) : List Text :=
  Path.normalise (rawParts directory path)

theorem lookup_eq_ok_iff {tree node : FileTree} {directory path : Path} :
    tree.lookup directory path = .ok node ↔
      path.check.isOk = true ∧ isLongPath path = false ∧
        ∃ place, follow tree [] (rawParts directory path) = .ok place ∧
          tree.find? place = some node := by
  unfold lookup
  cases path.check.isOk with
  | false => simp [bind, Except.bind, throw, throwThe, MonadExceptOf.throw]
  | true =>
    cases isLongPath path with
    | true => simp [bind, Except.bind, throw, throwThe, MonadExceptOf.throw]
    | false =>
      simp only [if_true, Bool.false_eq_true, if_false, true_and]
      constructor
      · intro looked
        obtain ⟨-, -, looked⟩ := bind_eq_ok_iff.mp looked
        obtain ⟨-, -, looked⟩ := bind_eq_ok_iff.mp looked
        obtain ⟨place, followed, looked⟩ := bind_eq_ok_iff.mp looked
        refine ⟨place, followed, ?_⟩
        cases stands : tree.find? place with
        | none =>
          rw [stands] at looked
          cases looked
        | some other =>
          rw [stands] at looked
          exact congrArg some (Except.ok.inj looked)
      · rintro ⟨place, followed, stands⟩
        rw [followed]
        simp only [ok_bind, stands]
        rfl

/-- A file that can be read by its path stays the same unless its place is touched. -/
theorem Grown.lookup (grown : Grown touched before after) {directory path : Path} {bytes : List UInt8}
    (looked : before.lookup directory path = .ok (.file bytes))
    (spared : ¬ touched (placeOf directory path)) :
    after.lookup directory path = .ok (.file bytes) := by
  obtain ⟨checked, short, place, followed, stands⟩ := lookup_eq_ok_iff.mp looked
  have same : place = placeOf directory path := follow_eq followed
  exact lookup_eq_ok_iff.mpr ⟨checked, short, place, grown.follow followed,
    (grown.untouched (same ▸ spared) bytes).mpr stands⟩

end SuiteDocs.FileTree
