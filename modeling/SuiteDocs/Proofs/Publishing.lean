import SuiteDocs.Proofs.Runs
import SuiteDocs.Proofs.Targets
import SuiteDocs.Proofs.Writing

/-!
What publishing a model writes, and where.

Publishing a suite touches the place of its document and no other file. The documents of a run are
listed by their paths, and a later suite with the same path takes the place of an earlier one, in the
list and on the disk. Documents of sources whose paths do not start with exactly two slashes stay below
the output directory.
-/

set_option autoImplicit false

namespace SuiteDocs

open SuiteDocs.Text

namespace OrderedMap

variable {κ α : Type} [DecidableEq κ]

theorem nodup_keys_foldl_insert {map : OrderedMap κ α} (distinct : map.keys.Nodup)
    (pairs : List (κ × α)) :
    (pairs.foldl (fun map pair => map.insert pair.1 pair.2) map).keys.Nodup := by
  induction pairs generalizing map with
  | nil => exact distinct
  | cons pair rest ih => exact ih (nodup_keys_insert distinct pair.1 pair.2)

theorem mem_keys_foldl_insert {map : OrderedMap κ α} {pairs : List (κ × α)} {key : κ} :
    key ∈ (pairs.foldl (fun map pair => map.insert pair.1 pair.2) map).keys ↔
      key ∈ map.keys ∨ key ∈ pairs.map (·.1) := by
  induction pairs generalizing map with
  | nil => simp
  | cons pair rest ih =>
    have inserted : key ∈ (map.insert pair.1 pair.2).keys ↔ key ∈ map.keys ∨ key = pair.1 := by
      change key ∈ (insertEntry pair.1 pair.2 map.entries).map (·.1) ↔ _
      rw [keys_insertEntry]
      split
      · rename_i known
        constructor
        · exact .inl
        · rintro (old | rfl)
          · exact old
          · exact known
      · rw [List.mem_append, List.mem_singleton]
        rfl
    rw [List.foldl_cons, ih, inserted, List.map_cons, List.mem_cons, or_assoc]

theorem get?_foldl_insert_of_last {map : OrderedMap κ α} {earlier later : List (κ × α)} {key : κ}
    {value : α} (last : ∀ pair ∈ later, pair.1 ≠ key) :
    ((earlier ++ (key, value) :: later).foldl (fun map pair => map.insert pair.1 pair.2) map).get? key =
      some value := by
  rw [List.foldl_append, List.foldl_cons]
  generalize earlier.foldl (fun map pair => map.insert pair.1 pair.2) map = map
  -- What was in the map before the pair does not matter, and the pairs after it have other keys.
  have known : (map.insert key value).get? key = some value := by rw [get?_insert, if_pos rfl]
  generalize map.insert key value = map at known
  induction later generalizing map with
  | nil => exact known
  | cons pair rest ih =>
    obtain ⟨different, others⟩ := List.forall_mem_cons.mp last
    refine ih others _ ?_
    rw [get?_insert, if_neg (Ne.symm different), known]

theorem insertEntry_of_absent {key : κ} (value : α) {entries : List (κ × α)}
    (absent : key ∉ entries.map (·.1)) : insertEntry key value entries = entries ++ [(key, value)] := by
  induction entries with
  | nil => rfl
  | cons entry rest ih =>
    obtain ⟨different, others⟩ := not_or.mp (mt List.mem_cons.mpr absent)
    rw [insertEntry, if_neg (Ne.symm different), ih others]
    rfl

theorem entries_foldl_insert {map : OrderedMap κ α} {pairs : List (κ × α)}
    (distinct : ((map.entries ++ pairs).map (·.1)).Nodup) :
    (pairs.foldl (fun map pair => map.insert pair.1 pair.2) map).entries = map.entries ++ pairs := by
  induction pairs generalizing map with
  | nil => exact (List.append_nil _).symm
  | cons pair rest ih =>
    have absent : pair.1 ∉ map.entries.map (·.1) := by
      rw [List.map_append, List.nodup_append] at distinct
      exact fun known => distinct.2.2 _ known _ List.mem_cons_self rfl
    have appended : (map.insert pair.1 pair.2).entries = map.entries ++ [pair] :=
      insertEntry_of_absent pair.2 absent
    rw [List.foldl_cons, ih, appended, List.append_assoc]
    · rfl
    · rw [appended, List.append_assoc]
      exact distinct

end OrderedMap

namespace Run

open FileTree

variable {ε α β : Type} {touched : List Text → Prop}

theorem Still.grown {run : Run ε α} {result : Except ε α} {records : List LogRecord}
    (still : Still run result records) (tree : FileTree) :
    Grown touched tree (Run.treeAfter run tree) := by
  rw [still.treeAfter]
  exact grown_refl tree

theorem grown_bind {run : Run ε α} {next : α → Run ε β}
    (first : ∀ tree, Grown touched tree (treeAfter run tree))
    (each : ∀ value tree, Grown touched tree (treeAfter (next value) tree)) (tree : FileTree) :
    Grown touched tree (treeAfter (run >>= next) tree) := by
  cases given : outcome run tree with
  | error error =>
    rw [treeAfter_bind_of_error given]
    exact first tree
  | ok value =>
    rw [treeAfter_bind_of_ok given]
    exact (first tree).trans (each value _)

end Run

namespace Publication

open FileTree Run Utf8

/-! ## Writing one document -/

theorem outcome_changeTree (change : FileTree → FileTree × Except FileTree.Error Unit)
    (tree : FileTree) : outcome (changeTree change) tree = .ok (change tree).2 := rfl

theorem treeAfter_changeTree (change : FileTree → FileTree × Except FileTree.Error Unit)
    (tree : FileTree) : treeAfter (changeTree change) tree = (change tree).1 := rfl

theorem grown_writeFile (directory target : Path) (bytes : List UInt8) (tree : FileTree) :
    Grown (· = placeOf directory target) tree (treeAfter (writeFile directory target bytes) tree) := by
  rw [writeFile, treeAfter_changeTree]
  split
  · rename_i written given
    exact grown_of_writeFile given
  · exact grown_refl tree

theorem lookup_of_outcome_writeFile {directory target : Path} {bytes : List UInt8} {tree : FileTree}
    (checked : target.check.isOk = true)
    (given : outcome (writeFile directory target bytes) tree = .ok (.ok ())) :
    (treeAfter (writeFile directory target bytes) tree).lookup directory target = .ok (.file bytes) := by
  rw [writeFile, outcome_changeTree] at given
  rw [writeFile, treeAfter_changeTree]
  split at given
  · rename_i written wrote
    exact lookup_of_writeFile checked wrote
  · cases given

/-- Writing a document touches its own place, also if it fails or gives up half-way. -/
theorem grown_writeDocument (directory target : Path) (content : Text) (tree : FileTree) :
    Grown (· = placeOf directory target) tree
      (treeAfter (writeDocument directory target content) tree) := by
  refine grown_bind (still_ofExcept _).grown (fun _ => ?_) tree
  refine grown_bind (grown_makeDirectories · directory target.parent) fun made => ?_
  cases made with
  | error error => exact (still_pure _).grown
  | ok made =>
    refine grown_bind (still_ofExcept _).grown fun _ => ?_
    cases encode content with
    | ok bytes => exact grown_writeFile directory target bytes
    | error encoding =>
      refine grown_bind (grown_writeFile directory target []) fun wrote => ?_
      cases wrote with
      | error error => exact (still_pure _).grown
      | ok wrote => exact (still_throw _).grown

/-- A document that was written has bytes, and they can be read by its path. -/
theorem lookup_of_writeDocument {directory target : Path} {content : Text} {tree : FileTree}
    (given : outcome (writeDocument directory target content) tree = .ok (.ok ())) :
    ∃ bytes, encode content = .ok bytes ∧
      (treeAfter (writeDocument directory target content) tree).lookup directory target =
        .ok (.file bytes) := by
  unfold writeDocument at given ⊢
  obtain ⟨_, -, later, after, -⟩ := (still_ofExcept _).bind_eq_ok given
  obtain ⟨made, first, later⟩ := outcome_bind_eq_ok_iff.mp later
  rw [after, treeAfter_bind_of_ok first]
  cases made with
  | error error => cases later
  | ok made =>
    obtain ⟨_, checked, later, after, -⟩ := (still_ofExcept _).bind_eq_ok later
    rw [after]
    have isOk : target.check.isOk = true := by
      rw [mapError_eq_ok_iff.mp checked]
      rfl
    cases encoded : encode content with
    | ok bytes =>
      rw [encoded] at later
      exact ⟨bytes, rfl, lookup_of_outcome_writeFile isOk later⟩
    | error encoding =>
      rw [encoded] at later
      obtain ⟨wrote, -, thrown⟩ := outcome_bind_eq_ok_iff.mp later
      cases wrote with
      | error error => cases thrown
      | ok wrote => cases thrown

theorem emits_writeDocument {allowed : LogRecord → Prop} (directory target : Path) (content : Text) :
    Emits allowed (writeDocument directory target content) := by
  have silent (change : FileTree → FileTree × Except FileTree.Error Unit) :
      Emits allowed (changeTree change) := emits_of_silent fun _ => rfl
  refine Emits.bind (emits_of_silent (still_ofExcept _).messages) fun _ => ?_
  refine Emits.bind (silent _) fun made => ?_
  cases made with
  | error error => exact emits_of_silent fun _ => rfl
  | ok made =>
    refine Emits.bind (emits_of_silent (still_ofExcept _).messages) fun _ => ?_
    cases encode content with
    | ok bytes => exact silent _
    | error encoding =>
      refine Emits.bind (silent _) fun wrote => ?_
      cases wrote with
      | error error => exact emits_of_silent fun _ => rfl
      | ok wrote => exact emits_of_silent fun _ => rfl

/-! ## Publishing one suite -/

/-- The path of the document of a suite. -/
def Settings.target (settings : Settings) (suite : Suite) : Path :=
  outputPath settings.outputDirectory suite.filePath

/-- The place of the document of a suite. -/
def Settings.place (settings : Settings) (suite : Suite) : List Text :=
  placeOf settings.directory (settings.target suite)

/-- The document of a suite, listed by its path. -/
def Settings.document (settings : Settings) (timestamp : Text) (suite : Suite) : Text × Text :=
  ((settings.target suite).toText, Document.render settings.generator timestamp suite)

theorem document_fst (settings : Settings) (timestamp : Text) (suite : Suite) :
    (settings.document timestamp suite).1 = (settings.target suite).toText := by
  rw [Settings.document]

/-- The summary with the document of one more suite. -/
def Settings.note (settings : Settings) (timestamp : Text) (summary : Summary) (suite : Suite) :
    Summary :=
  { summary with
    documents := summary.documents.insert (settings.document timestamp suite).1
      (settings.document timestamp suite).2 }

variable {settings : Settings} {timestamp : Text}

theorem grown_publishSuite (settings : Settings) (summary : Summary) (suite : Suite) (tree : FileTree) :
    Grown (· = settings.place suite) tree (treeAfter (publishSuite settings summary suite) tree) := by
  refine grown_bind (still_ofExcept _).grown (fun timestamp => ?_) tree
  dsimp only
  split
  · exact (still_pure _).grown
  · refine grown_bind (grown_writeDocument settings.directory _ _) fun wrote => ?_
    cases wrote with
    | error error => exact grown_bind (still_liftM _).grown fun _ => (still_pure _).grown
    | ok wrote => exact grown_bind (still_liftM _).grown fun _ => (still_pure _).grown

theorem publishSuite_of_dryRun (dated : settings.clock.timestamp = .ok timestamp)
    (dry : settings.dryRun = true) (summary : Summary) (suite : Suite) :
    Still (publishSuite settings summary suite) (.ok (settings.note timestamp summary suite)) [] := by
  have started : publishSuite settings summary suite = pure (settings.note timestamp summary suite) := by
    unfold publishSuite Settings.note Settings.document Settings.target
    rw [dated, dry]
    rfl
  rw [started]
  exact still_pure _

/-- What publishing a suite notes: its document, and whether it could be written. -/
theorem publishSuite_eq_ok (dated : settings.clock.timestamp = .ok timestamp)
    (wet : settings.dryRun = false) {summary next : Summary} {suite : Suite} {tree : FileTree}
    (given : outcome (publishSuite settings summary suite) tree = .ok next) :
    next = { settings.note timestamp summary suite with failed := summary.failed ++ [suite.filePath] } ∨
      next = { settings.note timestamp summary suite with
          written := summary.written ++ [settings.target suite] } ∧
        ∃ bytes, encode (settings.document timestamp suite).2 = .ok bytes ∧
          (treeAfter (publishSuite settings summary suite) tree).lookup settings.directory
            (settings.target suite) = .ok (.file bytes) := by
  unfold publishSuite at given ⊢
  unfold Settings.note Settings.document Settings.target
  obtain ⟨stamp, stamped, later, after, -⟩ := (still_ofExcept _).bind_eq_ok given
  obtain rfl : timestamp = stamp :=
    Except.ok.inj (dated.symm.trans (mapError_eq_ok_iff.mp stamped))
  rw [after]
  clear after
  dsimp only at later ⊢
  rw [wet, if_neg Bool.false_ne_true] at later ⊢
  obtain ⟨wrote, written, later⟩ := outcome_bind_eq_ok_iff.mp later
  rw [treeAfter_bind_of_ok written]
  cases wrote with
  | error error =>
    left
    dsimp only at later
    obtain ⟨-, -, later, -, -⟩ := (still_liftM _).bind_eq_ok later
    rw [(still_pure _).outcome] at later
    exact (Except.ok.inj later).symm
  | ok wrote =>
    right
    dsimp only at later ⊢
    obtain ⟨-, -, later, after, -⟩ := (still_liftM _).bind_eq_ok later
    rw [after, (still_pure _).treeAfter]
    rw [(still_pure _).outcome] at later
    exact ⟨(Except.ok.inj later).symm, lookup_of_writeDocument written⟩

/-- Publishing a suite adds its document to the summary, and changes what is written and what has failed
at most. -/
theorem publishSuite_notes {summary next : Summary} {suite : Suite} {tree : FileTree}
    (given : outcome (publishSuite settings summary suite) tree = .ok next) :
    ∃ timestamp, settings.clock.timestamp = .ok timestamp ∧ ∃ written failed,
      next = { settings.note timestamp summary suite with written, failed } ∧ summary.failed <+: failed := by
  have stamped : ∃ timestamp, settings.clock.timestamp = .ok timestamp := by
    obtain ⟨timestamp, stamped, -⟩ := (still_ofExcept _).bind_eq_ok given
    exact ⟨timestamp, mapError_eq_ok_iff.mp stamped⟩
  obtain ⟨timestamp, dated⟩ := stamped
  refine ⟨timestamp, dated, ?_⟩
  cases dry : settings.dryRun with
  | true =>
    rw [(publishSuite_of_dryRun dated dry summary suite).outcome] at given
    exact ⟨_, _, (Except.ok.inj given).symm, List.prefix_rfl⟩
  | false =>
    rcases publishSuite_eq_ok dated dry given with failing | ⟨writing, -⟩
    · exact ⟨_, _, failing, List.prefix_append _ _⟩
    · exact ⟨_, _, writing, List.prefix_rfl⟩

theorem emits_publishSuite (settings : Settings) (summary : Summary) (suite : Suite) :
    Emits (·.component = component) (publishSuite settings summary suite) := by
  refine Emits.bind (emits_of_silent (still_ofExcept _).messages) fun timestamp => ?_
  dsimp only
  split
  · exact emits_of_silent fun _ => rfl
  · refine Emits.bind (emits_writeDocument _ _ _) fun wrote => ?_
    cases wrote with
    | error error =>
      refine Emits.bind ((still_liftM _).emits ?_) fun _ => emits_of_silent fun _ => rfl
      exact fun record member => List.mem_singleton.mp member ▸ rfl
    | ok wrote =>
      refine Emits.bind ((still_liftM _).emits ?_) fun _ => emits_of_silent fun _ => rfl
      exact fun record member => List.mem_singleton.mp member ▸ rfl

/-! ## Publishing all suites -/

theorem grown_publishAll (settings : Settings) (suites : List Suite) (summary : Summary)
    (tree : FileTree) :
    Grown (fun place => ∃ suite ∈ suites, place = settings.place suite) tree
      (treeAfter (suites.foldlM (publishSuite settings) summary) tree) := by
  induction suites generalizing summary tree with
  | nil => exact (still_pure _).grown tree
  | cons suite rest ih =>
    rw [List.foldlM_cons]
    -- Both parts touch some of the places; neither needs to know which suites the other publishes.
    refine grown_bind (fun tree => ?_) (fun next tree => ?_) tree
    · refine (grown_publishSuite settings summary suite tree).mono ?_
      intro place here
      exact ⟨suite, List.mem_cons_self, here⟩
    · refine (ih next tree).mono ?_
      rintro place ⟨other, member, here⟩
      exact ⟨other, List.mem_cons_of_mem _ member, here⟩

/-- Publishing touches the places of the documents, whether or not it comes to its end. -/
theorem grown_publish (settings : Settings) (model : Model) (tree : FileTree) :
    Grown (fun place => ∃ suite ∈ model.suites, place = settings.place suite) tree
      (treeAfter (publish settings model) tree) :=
  grown_publishAll settings model.suites _ tree

theorem emits_publishAll (settings : Settings) (suites : List Suite) (summary : Summary) :
    Emits (·.component = component) (suites.foldlM (publishSuite settings) summary) := by
  induction suites generalizing summary with
  | nil => exact emits_of_silent fun _ => rfl
  | cons suite rest ih =>
    rw [List.foldlM_cons]
    exact (emits_publishSuite settings summary suite).bind ih

theorem suites_publishAll {suites : List Suite} {summary final : Summary} {tree : FileTree}
    (given : outcome (suites.foldlM (publishSuite settings) summary) tree = .ok final) :
    final.suites = summary.suites := by
  induction suites generalizing summary tree with
  | nil => exact congrArg Summary.suites (Except.ok.inj given).symm
  | cons suite rest ih =>
    rw [List.foldlM_cons] at given
    obtain ⟨next, step, later⟩ := outcome_bind_eq_ok_iff.mp given
    obtain ⟨_, -, written, failed, rfl, -⟩ := publishSuite_notes step
    exact (ih later).trans rfl

theorem documents_publishAll (dated : settings.clock.timestamp = .ok timestamp) {suites : List Suite}
    {summary final : Summary} {tree : FileTree}
    (given : outcome (suites.foldlM (publishSuite settings) summary) tree = .ok final) :
    final.documents = (suites.map (settings.document timestamp)).foldl
        (fun documents entry => documents.insert entry.1 entry.2) summary.documents ∧
      summary.failed <+: final.failed := by
  induction suites generalizing summary tree with
  | nil =>
    obtain rfl := Except.ok.inj given
    exact ⟨rfl, List.prefix_rfl⟩
  | cons suite rest ih =>
    rw [List.foldlM_cons] at given
    obtain ⟨next, step, later⟩ := outcome_bind_eq_ok_iff.mp given
    obtain ⟨stamp, stamped, written, failed, rfl, kept⟩ := publishSuite_notes step
    obtain rfl := Except.ok.inj (dated.symm.trans stamped)
    obtain ⟨documents, failing⟩ := ih later
    exact ⟨documents, kept.trans failing⟩

/-- The documents with those of the suites added in their order. -/
def Settings.list (settings : Settings) (timestamp : Text) (documents : OrderedMap Text Text)
    (suites : List Suite) : OrderedMap Text Text :=
  (suites.map (settings.document timestamp)).foldl
    (fun documents entry => documents.insert entry.1 entry.2) documents

theorem publishAll_dryRun (dated : settings.clock.timestamp = .ok timestamp)
    (dry : settings.dryRun = true) (suites : List Suite) (summary : Summary) (tree : FileTree) :
    outcome (suites.foldlM (publishSuite settings) summary) tree =
        .ok { summary with documents := settings.list timestamp summary.documents suites } ∧
      treeAfter (suites.foldlM (publishSuite settings) summary) tree = tree := by
  induction suites generalizing summary with
  | nil => exact ⟨rfl, rfl⟩
  | cons suite rest ih =>
    have still := publishSuite_of_dryRun dated dry summary suite
    rw [List.foldlM_cons, still.outcome_bind, treeAfter_bind_of_ok (still.outcome tree), still.treeAfter]
    exact ih (settings.note timestamp summary suite)

theorem publishAll_of_dryRun (dated : settings.clock.timestamp = .ok timestamp)
    (dry : settings.dryRun = true) (suites : List Suite) (summary : Summary) (tree : FileTree) :
    ∃ final, outcome (suites.foldlM (publishSuite settings) summary) tree = .ok final :=
  ⟨_, (publishAll_dryRun dated dry suites summary tree).1⟩

/-- If no document fails, each is found by its path unless a later one has taken its place. -/
theorem lookup_publishAll (dated : settings.clock.timestamp = .ok timestamp)
    (wet : settings.dryRun = false) {suites : List Suite} {summary final : Summary} {tree : FileTree}
    (given : outcome (suites.foldlM (publishSuite settings) summary) tree = .ok final)
    (clean : final.failed = []) {earlier later : List Suite} {suite : Suite}
    (parted : suites = earlier ++ suite :: later)
    (last : ∀ other ∈ later, settings.place other ≠ settings.place suite) :
    ∃ bytes, encode (settings.document timestamp suite).2 = .ok bytes ∧
      (treeAfter (suites.foldlM (publishSuite settings) summary) tree).lookup settings.directory
        (settings.target suite) = .ok (.file bytes) := by
  induction earlier generalizing suites summary tree with
  | nil =>
    subst parted
    rw [List.nil_append, List.foldlM_cons] at given ⊢
    obtain ⟨next, step, rest⟩ := outcome_bind_eq_ok_iff.mp given
    rw [treeAfter_bind_of_ok step]
    rcases publishSuite_eq_ok dated wet step with rfl | ⟨-, bytes, encoded, looked⟩
    · -- A failure would still be listed at the end.
      have listed := (documents_publishAll dated rest).2
      rw [clean] at listed
      exact absurd (List.prefix_nil.mp listed) (List.append_ne_nil_of_right_ne_nil _ (List.cons_ne_nil _ _))
    · -- What was written is spared by all later suites, which have other places.
      refine ⟨bytes, encoded, (grown_publishAll settings later next _).lookup looked ?_⟩
      rintro ⟨other, member, same⟩
      exact last other member same.symm
  | cons first earlier ih =>
    subst parted
    rw [List.cons_append, List.foldlM_cons] at given ⊢
    obtain ⟨next, step, rest⟩ := outcome_bind_eq_ok_iff.mp given
    rw [treeAfter_bind_of_ok step]
    exact ih rest rfl

/-! ## Where documents go -/

theorem place_eq (settings : Settings) (suite : Suite) :
    settings.place suite = placeOf settings.directory (baseOf settings.outputDirectory suite.filePath) ++
      documentParts suite.filePath :=
  normalise_outputPath settings.directory settings.outputDirectory suite.filePath

theorem place_eq_iff (settings : Settings) {suite other : Suite}
    (alike : leadingSlashes suite.filePath = 2 ↔ leadingSlashes other.filePath = 2) :
    settings.place suite = settings.place other ↔
      documentParts suite.filePath = documentParts other.filePath := by
  rw [place_eq, place_eq, baseOf_congr settings.outputDirectory alike]
  exact List.append_right_inj _

/-- Documents stay below the output directory, except those of sources whose paths start with exactly
two slashes: these go below the root of two slashes instead. Publishing leaves every other file alone,
whether or not it comes to its end. -/
theorem publish_contained (settings : Settings) (model : Model) (tree : FileTree) :
    (∀ filePath,
      documentParts filePath ≠ [] ∧ (∀ part ∈ documentParts filePath, Path.IsName part) ∧
        (leadingSlashes filePath ≠ 2 →
          outputPath settings.outputDirectory filePath =
            settings.outputDirectory.under (documentParts filePath)) ∧
        (leadingSlashes filePath = 2 →
          outputPath settings.outputDirectory filePath = ⟨.doubleRoot, documentParts filePath⟩)) ∧
    ∀ place,
      (∀ name more, place ≠ placeOf settings.directory settings.outputDirectory ++ name :: more) →
      (∀ suite ∈ model.suites, leadingSlashes suite.filePath = 2 →
        place ≠ documentParts suite.filePath) →
      ∀ bytes, (treeAfter (publish settings model) tree).find? place = some (.file bytes) ↔
        tree.find? place = some (.file bytes) := by
  constructor
  · intro filePath
    refine ⟨documentParts_ne_nil filePath, fun _ => isName_of_mem_documentParts, ?_, ?_⟩
    · intro single
      rw [outputPath_eq, baseOf, if_neg single]
    · intro double
      rw [outputPath_eq, baseOf, if_pos double]
      rfl
  · intro place outside elsewhere
    refine (grown_publish settings model tree).untouched ?_
    rintro ⟨suite, member, here⟩
    by_cases double : leadingSlashes suite.filePath = 2
    · refine elsewhere suite member double ?_
      rw [here, place_eq, baseOf, if_pos double]
      rfl
    · obtain ⟨name, more, parts⟩ := List.exists_cons_of_ne_nil (documentParts_ne_nil suite.filePath)
      refine outside name more ?_
      rw [here, place_eq, baseOf, if_neg double, parts]

/-- Settings for a run in the root directory. -/
def sampleSettings : Settings :=
  ⟨⟨.root, []⟩, ⟨.root, ["out"]⟩, "g", ⟨2024, 1, 2, 3, 4, 5, 0, some 0⟩, false⟩

def sampleSuite (filePath : Text) : Suite :=
  ⟨"s", filePath, "", "", []⟩

def sampleModel (filePaths : List Text) : Model :=
  ⟨filePaths.map fun filePath => (filePath, sampleSuite filePath)⟩

/-- A root, a way back and a drive lead nowhere: a file beside the output directory stays as it is. -/
theorem publish_contained_sampleModel :
    outputPath sampleSettings.outputDirectory "C:\\..\\b/c.spec.ts" =
        ⟨.root, ["out", "b", "c.spec.md"]⟩ ∧
      (∀ suite ∈ (sampleModel ["/../a.ts", "C:\\..\\b/c.spec.ts"]).suites,
        leadingSlashes suite.filePath ≠ 2) ∧
      (treeAfter (publish sampleSettings (sampleModel ["/../a.ts", "C:\\..\\b/c.spec.ts"]))
        (.directory [("a.md", .file [7])])).find? ["a.md"] = some (.file [7]) := by
  have contained := publish_contained sampleSettings (sampleModel ["/../a.ts", "C:\\..\\b/c.spec.ts"])
    (.directory [("a.md", .file [7])])
  have single : ∀ suite ∈ (sampleModel ["/../a.ts", "C:\\..\\b/c.spec.ts"]).suites,
      leadingSlashes suite.filePath ≠ 2 := by
    decide
  refine ⟨(contained.1 _).2.2.1 (by decide), single, (contained.2 ["a.md"] ?_ ?_ [7]).mpr rfl⟩
  · intro name more same
    exact absurd (List.cons.inj same).1 (by decide)
  · exact fun suite member double => absurd double (single suite member)

/-- A source whose path starts with two slashes has its document outside the output directory. -/
theorem publish_escapes_of_two_slashes :
    let after := treeAfter (publish sampleSettings (sampleModel ["//etc/x.ts"])) (.directory [])
    outputPath sampleSettings.outputDirectory "//etc/x.ts" = ⟨.doubleRoot, ["etc", "x.md"]⟩ ∧
      (after.find? ["etc", "x.md"]).isSome = true ∧ (after.find? ["out"]).isSome = false := by
  decide +kernel

/-! ## Which document stands -/

/-- What a summary lists of a model: one document for each path, that of the last suite with this path. -/
structure Lists (settings : Settings) (timestamp : Text) (model : Model) (summary : Summary) : Prop where
  distinct : summary.documents.keys.Nodup
  listed : ∀ key, key ∈ summary.documents.keys ↔
    ∃ suite ∈ model.suites, (settings.target suite).toText = key
  latest : ∀ earlier suite later, model.suites = earlier ++ suite :: later →
    (∀ other ∈ later, (settings.target other).toText ≠ (settings.target suite).toText) →
      summary.documents.get? (settings.target suite).toText =
        some (Document.render settings.generator timestamp suite)
  separate : (model.suites.map fun suite => (settings.target suite).toText).Nodup →
    summary.documents.entries = model.suites.map (settings.document timestamp)

theorem lists_of_publish (dated : settings.clock.timestamp = .ok timestamp) {model : Model}
    {summary : Summary} {tree : FileTree}
    (given : outcome (publish settings model) tree = .ok summary) :
    Lists settings timestamp model summary := by
  obtain ⟨documents, -⟩ := documents_publishAll dated given
  have keys : (model.suites.map (settings.document timestamp)).map (·.1) =
      model.suites.map fun suite => (settings.target suite).toText := by
    rw [List.map_map]
    exact List.map_congr_left fun suite _ => document_fst settings timestamp suite
  constructor
  case distinct =>
    rw [documents]
    refine OrderedMap.nodup_keys_foldl_insert ?_ _
    exact List.nodup_nil
  case listed =>
    intro key
    rw [documents, OrderedMap.mem_keys_foldl_insert, keys, List.mem_map]
    exact or_iff_right List.not_mem_nil
  case latest =>
    intro earlier suite later parted last
    rw [documents, parted, List.map_append, List.map_cons]
    refine OrderedMap.get?_foldl_insert_of_last fun pair member => ?_
    obtain ⟨other, inLater, rfl⟩ := List.mem_map.mp member
    rw [document_fst]
    exact last other inLater
  case separate =>
    intro apart
    rw [documents]
    exact OrderedMap.entries_foldl_insert (keys.symm ▸ apart)

/-- Two suites whose source paths both start with exactly two slashes, or both do not, share a document
exactly if their sources have the same directories, as far as these are kept, and the same name without
its last extension. A summary lists one document for each path, and the file at this path holds it: the
document of the last suite with this path. -/
theorem last_document_stands (settings : Settings) (model : Model) (tree : FileTree) {timestamp : Text}
    (dated : settings.clock.timestamp = .ok timestamp) :
    (∀ suite other : Suite,
      (leadingSlashes suite.filePath = 2 ↔ leadingSlashes other.filePath = 2) →
        ((settings.target suite).toText = (settings.target other).toText ↔
          directoriesOf suite.filePath = directoriesOf other.filePath ∧
            (sourcePath suite.filePath).stem = (sourcePath other.filePath).stem) ∧
        (settings.place suite = settings.place other ↔
          directoriesOf suite.filePath = directoriesOf other.filePath ∧
            (sourcePath suite.filePath).stem = (sourcePath other.filePath).stem)) ∧
    (settings.dryRun = true → ∃ summary, outcome (publish settings model) tree = .ok summary) ∧
    ∀ summary, outcome (publish settings model) tree = .ok summary →
      Lists settings timestamp model summary ∧
      (settings.dryRun = false → summary.failed = [] →
        ∀ earlier suite later, model.suites = earlier ++ suite :: later →
          (∀ other ∈ later, settings.place other ≠ settings.place suite) →
            ∃ bytes, encode (Document.render settings.generator timestamp suite) = .ok bytes ∧
              (treeAfter (publish settings model) tree).lookup settings.directory
                (settings.target suite) = .ok (.file bytes)) := by
  refine ⟨?_, ?_, ?_⟩
  · intro suite other alike
    rw [← documentParts_eq_iff]
    exact ⟨toText_outputPath_eq_iff settings.outputDirectory alike, place_eq_iff settings alike⟩
  · intro dry
    exact publishAll_of_dryRun dated dry model.suites _ tree
  · intro summary given
    refine ⟨lists_of_publish dated given, ?_⟩
    intro wet clean earlier suite later parted last
    exact lookup_publishAll dated wet given clean parted last

/-- Of two sources that differ in their last extensions, the later one has the document. -/
theorem last_document_stands_sampleModel :
    sampleSettings.clock.timestamp = .ok "2024-01-02T03:04:05.000Z" ∧
      ∃ summary,
        outcome (publish sampleSettings (sampleModel ["a.spec.ts", "a.spec.js"])) (.directory []) =
          .ok summary ∧
        summary.failed = [] ∧
        summary.documents.get? "/out/a.spec.md" =
          some (Document.render "g" "2024-01-02T03:04:05.000Z" (sampleSuite "a.spec.js")) ∧
        ∃ bytes,
          encode (Document.render "g" "2024-01-02T03:04:05.000Z" (sampleSuite "a.spec.js")) = .ok bytes ∧
          (treeAfter (publish sampleSettings (sampleModel ["a.spec.ts", "a.spec.js"]))
            (.directory [])).lookup ⟨.root, []⟩ ⟨.root, ["out", "a.spec.md"]⟩ = .ok (.file bytes) := by
  have dated : sampleSettings.clock.timestamp = .ok "2024-01-02T03:04:05.000Z" := by
    decide +kernel
  have returned : (outcome (publish sampleSettings (sampleModel ["a.spec.ts", "a.spec.js"]))
      (.directory [])).toOption.map (·.failed) = some [] := by
    decide +kernel
  obtain ⟨-, -, stands⟩ := last_document_stands sampleSettings (sampleModel ["a.spec.ts", "a.spec.js"])
    (.directory []) dated
  cases given : outcome (publish sampleSettings (sampleModel ["a.spec.ts", "a.spec.js"]))
      (.directory []) with
  | error error =>
    rw [given] at returned
    cases returned
  | ok summary =>
    rw [given] at returned
    have clean : summary.failed = [] := Option.some.inj returned
    obtain ⟨lists, files⟩ := stands summary given
    refine ⟨dated, summary, rfl, clean, ?_, ?_⟩
    · exact lists.latest [sampleSuite "a.spec.ts"] (sampleSuite "a.spec.js") [] rfl (by simp)
    · exact files rfl clean [sampleSuite "a.spec.ts"] (sampleSuite "a.spec.js") [] rfl (by simp)

/-- Two suites are counted and reported as written, and there is one document. -/
theorem document_lost_of_same_stem :
    (outcome (publish sampleSettings (sampleModel ["a.spec.ts", "a.spec.js"])) (.directory [])).toOption.map
        (fun summary => (summary.suites, summary.written.map Path.toText, summary.documents.keys)) =
      some (2, [("/out/a.spec.md" : Text), "/out/a.spec.md"], [("/out/a.spec.md" : Text)]) := by
  decide +kernel

end Publication

end SuiteDocs
