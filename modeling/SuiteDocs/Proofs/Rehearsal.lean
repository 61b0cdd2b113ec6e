import Mathlib.Data.List.Nodup
import SuiteDocs.Proofs.Names
import SuiteDocs.Proofs.Publishing

/-!
A dry run as a rehearsal of the real one.

A dry run changes nothing and lists the documents that the real run lists. The real run comes to its end
as long as every document has bytes and the output directory can be named: a suite whose document cannot
be written is listed as failed, and no file is touched for it. A path that was written once can be written
again, so the files at all written paths hold what the summary lists for them in the end.
-/

set_option autoImplicit false

namespace SuiteDocs

open SuiteDocs.Text

namespace Publication

open FileTree Run Utf8

/-! ## What can be published -/

/-- The suite has a path without NUL characters, and its document has bytes. -/
structure Publishable (settings : Settings) (timestamp : Text) (suite : Suite) : Prop where
  nulFree : .char '\x00' ∉ suite.filePath
  encoded : ∃ bytes, encode (Document.render settings.generator timestamp suite) = .ok bytes

theorem mem_render {generator timestamp : Text} {suite : Suite} {c : Symbol}
    (member : c ∈ suite.filePath) : c ∈ Document.render generator timestamp suite := by
  rw [Document.render]
  refine List.mem_append_left _ ?_
  exact List.mem_append_right _ member

theorem nameable_documentParts {filePath : Text}
    (each : ∀ c ∈ filePath, c.isHalf = false ∧ c ≠ '\x00') :
    Path.Nameable (documentParts filePath) := by
  have named {c : Symbol} (member : c ∈ exchange '\\' '/' filePath) : Path.isNameSymbol c = true := by
    obtain ⟨d, listed, rfl⟩ := List.mem_map.mp member
    split
    · decide
    · exact Path.isNameSymbol_of_not_isHalf (each d listed).1 (each d listed).2
  have source : Path.Nameable (sourcePath filePath).parts := by
    intro part listed c inside
    exact named (mem_of_mem_splitOn (List.mem_of_mem_filter listed) inside)
  apply Path.Nameable.append
  · apply source.subset
    intro part listed
    exact List.dropLast_subset _ (List.mem_of_mem_filter listed)
  · intro part listed c inside
    obtain rfl := List.mem_singleton.mp listed
    cases List.mem_append.mp inside with
    | inl stem =>
      have inName := mem_name_of_mem_stem stem
      rw [Path.name, List.getLastD_eq_getLast?] at inName
      cases last : (sourcePath filePath).parts.getLast? with
      | none =>
        rw [last] at inName
        cases inName
      | some part =>
        rw [last] at inName
        exact source part (List.mem_of_getLast? last) c inName
    | inr extension =>
      have marks : ∀ c ∈ (".md" : Text), Path.isNameSymbol c = true := by decide
      exact marks c extension

namespace Publishable

variable {settings : Settings} {timestamp : Text} {suite : Suite}

theorem nameable (publishable : Publishable settings timestamp suite)
    (named : settings.outputDirectory.check = .ok ()) : Path.Nameable (settings.target suite).parts := by
  rw [Settings.target, outputPath_eq]
  apply Path.Nameable.append
  · rw [baseOf]
    split
    · exact fun part listed => absurd listed List.not_mem_nil
    · exact Path.check_eq_ok_iff.mp named
  · apply nameable_documentParts
    intro c member
    constructor
    · exact exists_encode_iff.mp publishable.encoded c (mem_render member)
    · intro nul
      exact publishable.nulFree (nul ▸ member)

theorem check_target (publishable : Publishable settings timestamp suite)
    (named : settings.outputDirectory.check = .ok ()) : (settings.target suite).check = .ok () :=
  Path.check_eq_ok_iff.mpr (publishable.nameable named)

theorem check_parent (publishable : Publishable settings timestamp suite)
    (named : settings.outputDirectory.check = .ok ()) : (settings.target suite).parent.check = .ok () :=
  Path.check_eq_ok_iff.mpr ((publishable.nameable named).subset (List.dropLast_subset _))

end Publishable

theorem parts_target (settings : Settings) (suite : Suite) :
    ∃ above name, (settings.target suite).parts = above ++ [name] ∧ name ≠ Path.back := by
  refine ⟨(baseOf settings.outputDirectory suite.filePath).parts ++ directoriesOf suite.filePath,
    (sourcePath suite.filePath).stem ++ ".md", ?_, (isName_document suite.filePath).2⟩
  rw [Settings.target, outputPath_eq, Path.under, documentParts, List.append_assoc]

/-! ## Writing one document -/

/-- What writing bytes with the directories above them does to a tree. -/
def attempt (directory target : Path) (bytes : List UInt8) (tree : FileTree) :
    FileTree × Except FileTree.Error Unit :=
  match tree.makeDirectories directory target.parent with
  | (made, .error error) => (made, .error error)
  | (made, .ok ()) =>
    match made.writeFile directory target bytes with
    | .ok written => (written, .ok ())
    | .error error => (made, .error error)

theorem writeDocument_attempts {directory target : Path} {content : Text} {bytes : List UInt8}
    (checked : target.check = .ok ()) (above : target.parent.check = .ok ())
    (encoded : encode content = .ok bytes) (tree : FileTree) :
    outcome (writeDocument directory target content) tree = .ok (attempt directory target bytes tree).2 ∧
      treeAfter (writeDocument directory target content) tree =
        (attempt directory target bytes tree).1 := by
  have passes {path : Path} (checked : path.check = .ok ()) (tree : FileTree) :
      outcome (MonadExcept.ofExcept (path.check.mapError Error.path) : Run Error Unit) tree = .ok () := by
    rw [checked]
    rfl
  rw [writeDocument, outcome_bind_of_ok (passes above tree), treeAfter_bind_of_ok (passes above tree),
    (still_ofExcept _).treeAfter, outcome_bind_of_ok (outcome_changeTree _ _),
    treeAfter_bind_of_ok (outcome_changeTree _ _), treeAfter_changeTree, attempt]
  rcases tree.makeDirectories directory target.parent with ⟨made, result⟩
  cases result with
  | error error => exact ⟨rfl, rfl⟩
  | ok done =>
    dsimp only
    rw [outcome_bind_of_ok (passes checked made), treeAfter_bind_of_ok (passes checked made),
      (still_ofExcept _).treeAfter, encoded]
    dsimp only
    rw [writeFile, outcome_changeTree, treeAfter_changeTree]
    cases made.writeFile directory target bytes <;> exact ⟨rfl, rfl⟩

/-- A document that cannot be written leaves all files as they are. -/
theorem grown_of_attempt_error {directory target : Path} {bytes : List UInt8} {tree : FileTree}
    {error : FileTree.Error} (refused : (attempt directory target bytes tree).2 = .error error) :
    Grown (fun _ => False) tree (attempt directory target bytes tree).1 := by
  have made := @grown_makeDirectories (fun _ => False) tree directory target.parent
  rw [attempt] at refused ⊢
  generalize tree.makeDirectories directory target.parent = step at made refused ⊢
  obtain ⟨middle, result⟩ := step
  cases result with
  | error error => exact made
  | ok done =>
    dsimp only at refused ⊢
    cases wrote : middle.writeFile directory target bytes with
    | ok written =>
      rw [wrote] at refused
      cases refused
    | error error => exact made

/-- Where a file stands, another document can be written. -/
theorem attempt_of_lookup {directory target : Path} {old : List UInt8} {tree : FileTree}
    (looked : tree.lookup directory target = .ok (.file old)) (above : target.parent.check = .ok ())
    (parts : ∃ above name, target.parts = above ++ [name] ∧ name ≠ Path.back) (bytes : List UInt8) :
    (attempt directory target bytes tree).2 = .ok () := by
  obtain ⟨upper, name, parts, forward⟩ := parts
  have isOk : target.parent.check.isOk = true := by
    rw [above]
    rfl
  obtain ⟨entries, parent⟩ := lookup_parent looked parts isOk
  obtain ⟨written, wrote⟩ := writeFile_of_lookup looked (rawParts_parent directory parts) forward bytes
  rw [attempt, makeDirectories_of_lookup parent]
  dsimp only
  rw [wrote]

/-! ## Publishing one suite -/

/-- What comes of one suite in a real run: its document is refused and no file is touched, which never
happens where a file stands already, or it is written at its place. -/
inductive Attempt (settings : Settings) (timestamp : Text) (suite : Suite) (before after : FileTree) :
    Bool → Prop where
  | refused
      (vacant : ∀ old, before.lookup settings.directory (settings.target suite) ≠ .ok (.file old))
      (grown : Grown (fun _ => False) before after) : Attempt settings timestamp suite before after false
  | written {bytes : List UInt8}
      (encoded : encode (Document.render settings.generator timestamp suite) = .ok bytes)
      (grown : Grown (· = settings.place suite) before after)
      (stands : after.lookup settings.directory (settings.target suite) = .ok (.file bytes)) :
      Attempt settings timestamp suite before after true

/-- The summary after a suite, which is written or fails. -/
def Settings.enter (settings : Settings) (timestamp : Text) (summary : Summary) (entry : Suite × Bool) :
    Summary :=
  if entry.2 then
    { settings.note timestamp summary entry.1 with
      written := summary.written ++ [settings.target entry.1] }
  else
    { settings.note timestamp summary entry.1 with failed := summary.failed ++ [entry.1.filePath] }

variable {settings : Settings} {timestamp : Text}

theorem publishSuite_of_write (dated : settings.clock.timestamp = .ok timestamp)
    (wet : settings.dryRun = false) {suite : Suite} {tree : FileTree} {result : Except FileTree.Error Unit}
    (wrote : outcome (writeDocument settings.directory (settings.target suite)
      (Document.render settings.generator timestamp suite)) tree = .ok result) (summary : Summary) :
    outcome (publishSuite settings summary suite) tree =
        .ok (settings.enter timestamp summary (suite, result.isOk)) ∧
      treeAfter (publishSuite settings summary suite) tree =
        treeAfter (writeDocument settings.directory (settings.target suite)
          (Document.render settings.generator timestamp suite)) tree := by
  have stamped : outcome (MonadExcept.ofExcept (settings.clock.timestamp.mapError Error.clock) :
      Run Error Text) tree = .ok timestamp := by
    rw [dated]
    rfl
  rw [publishSuite, outcome_bind_of_ok stamped, treeAfter_bind_of_ok stamped,
    (still_ofExcept _).treeAfter]
  dsimp only
  rw [wet, if_neg Bool.false_ne_true]
  unfold Settings.target at wrote ⊢
  rw [outcome_bind_of_ok wrote, treeAfter_bind_of_ok wrote]
  generalize treeAfter (writeDocument _ _ _) tree = after
  cases result with
  | error error =>
    dsimp only
    rw [(still_liftM _).outcome_bind, treeAfter_bind_of_ok ((still_liftM _).outcome after),
      (still_liftM _).treeAfter]
    exact ⟨rfl, rfl⟩
  | ok done =>
    dsimp only
    rw [(still_liftM _).outcome_bind, treeAfter_bind_of_ok ((still_liftM _).outcome after),
      (still_liftM _).treeAfter]
    exact ⟨rfl, rfl⟩

theorem publishSuite_attempts (dated : settings.clock.timestamp = .ok timestamp)
    (wet : settings.dryRun = false) (named : settings.outputDirectory.check = .ok ()) {suite : Suite}
    (publishable : Publishable settings timestamp suite) (summary : Summary) (tree : FileTree) :
    ∃ verdict,
      outcome (publishSuite settings summary suite) tree =
        .ok (settings.enter timestamp summary (suite, verdict)) ∧
      Attempt settings timestamp suite tree (treeAfter (publishSuite settings summary suite) tree)
        verdict := by
  obtain ⟨bytes, encoded⟩ := publishable.encoded
  have above := publishable.check_parent named
  obtain ⟨wrote, changed⟩ :=
    writeDocument_attempts (publishable.check_target named) above encoded tree
  obtain ⟨noted, after⟩ := publishSuite_of_write dated wet wrote summary
  have grown := grown_publishSuite settings summary suite tree
  refine ⟨_, noted, ?_⟩
  rw [after] at grown ⊢
  cases result : (attempt settings.directory (settings.target suite) bytes tree).2 with
  | error error =>
    rw [changed]
    refine .refused ?_ (grown_of_attempt_error result)
    intro old looked
    rw [attempt_of_lookup looked above (parts_target settings suite) bytes] at result
    cases result
  | ok done =>
    rw [result] at wrote
    obtain ⟨others, same, stands⟩ := lookup_of_writeDocument wrote
    exact .written same grown stands

/-! ## Publishing all suites -/

/-- What comes of suites one after the other. -/
inductive Attempts (settings : Settings) (timestamp : Text) :
    List (Suite × Bool) → FileTree → FileTree → Prop where
  | done (tree : FileTree) : Attempts settings timestamp [] tree tree
  | next {suite : Suite} {verdict : Bool} {rest : List (Suite × Bool)} {before middle after : FileTree}
      (first : Attempt settings timestamp suite before middle verdict)
      (others : Attempts settings timestamp rest middle after) :
      Attempts settings timestamp ((suite, verdict) :: rest) before after

theorem publishAll_attempts (dated : settings.clock.timestamp = .ok timestamp)
    (wet : settings.dryRun = false) (named : settings.outputDirectory.check = .ok ())
    {suites : List Suite} (each : ∀ suite ∈ suites, Publishable settings timestamp suite)
    (summary : Summary) (tree : FileTree) :
    ∃ verdicts : List (Suite × Bool), verdicts.map (·.1) = suites ∧
      outcome (suites.foldlM (publishSuite settings) summary) tree =
        .ok (verdicts.foldl (settings.enter timestamp) summary) ∧
      Attempts settings timestamp verdicts tree
        (treeAfter (suites.foldlM (publishSuite settings) summary) tree) := by
  induction suites generalizing summary tree with
  | nil => exact ⟨[], rfl, rfl, .done tree⟩
  | cons suite rest ih =>
    obtain ⟨publishable, others⟩ := List.forall_mem_cons.mp each
    obtain ⟨verdict, noted, first⟩ := publishSuite_attempts dated wet named publishable summary tree
    obtain ⟨verdicts, listed, later, attempts⟩ := ih others
      (settings.enter timestamp summary (suite, verdict))
      (treeAfter (publishSuite settings summary suite) tree)
    refine ⟨(suite, verdict) :: verdicts, ?_, ?_, ?_⟩
    · rw [List.map_cons, listed]
    · rw [List.foldlM_cons, outcome_bind_of_ok noted, later]
      rfl
    · rw [List.foldlM_cons, treeAfter_bind_of_ok noted]
      exact .next first attempts

/-- Exactly the places of written documents are touched. -/
theorem Attempts.grown {verdicts : List (Suite × Bool)} {before after : FileTree}
    (attempts : Attempts settings timestamp verdicts before after) :
    Grown (fun place => ∃ entry ∈ verdicts, entry.2 = true ∧ place = settings.place entry.1)
      before after := by
  induction attempts with
  | done tree => exact grown_refl tree
  | @next suite verdict rest before middle after first others ih =>
    apply Grown.trans
    · cases first with
      | refused vacant grown => exact grown.mono fun place never => never.elim
      | written encoded grown stands =>
        exact grown.mono fun place here => ⟨(suite, true), List.mem_cons_self, rfl, here⟩
    · apply ih.mono
      intro place touched
      obtain ⟨entry, listed, touched⟩ := touched
      exact ⟨entry, List.mem_cons_of_mem _ listed, touched⟩

/-- The file at a path holds the document that is listed for the path. -/
def Holds (settings : Settings) (documents : OrderedMap Text Text) (tree : FileTree) (target : Path) :
    Prop :=
  ∃ text bytes, documents.get? target.toText = some text ∧ encode text = .ok bytes ∧
    tree.lookup settings.directory target = .ok (.file bytes)

theorem Attempt.holds_written {suite : Suite} {before after : FileTree}
    (attempt : Attempt settings timestamp suite before after true) (documents : OrderedMap Text Text) :
    Holds settings (settings.list timestamp documents [suite]) after (settings.target suite) := by
  cases attempt with
  | written encoded grown stands =>
    refine ⟨_, _, ?_, encoded, stands⟩
    exact (OrderedMap.get?_insert documents _ _ _).trans (if_pos rfl)

/-- A file that holds its document does so after one more suite: a suite with the same path is written in
its place, and any other spares it. -/
theorem Attempt.holds {suite other : Suite} {before after : FileTree} {verdict : Bool}
    (attempt : Attempt settings timestamp suite before after verdict)
    (single : leadingSlashes suite.filePath ≠ 2) (single' : leadingSlashes other.filePath ≠ 2)
    {documents : OrderedMap Text Text} (holds : Holds settings documents before (settings.target other)) :
    Holds settings (settings.list timestamp documents [suite]) after (settings.target other) := by
  have alike : leadingSlashes other.filePath = 2 ↔ leadingSlashes suite.filePath = 2 :=
    iff_of_false single' single
  obtain ⟨text, bytes, listed, encoded, looked⟩ := holds
  by_cases same : documentParts other.filePath = documentParts suite.filePath
  · have target : settings.target other = settings.target suite := by
      rw [Settings.target, Settings.target, outputPath_eq, outputPath_eq, same,
        baseOf_congr settings.outputDirectory alike]
    rw [target] at looked ⊢
    cases attempt with
    | refused vacant grown => exact absurd looked (vacant bytes)
    | written encoded grown stands => exact (Attempt.written encoded grown stands).holds_written documents
  · have key : (settings.target other).toText ≠ (settings.document timestamp suite).1 := by
      rw [document_fst]
      exact mt (toText_outputPath_eq_iff settings.outputDirectory alike).mp same
    have place : settings.place other ≠ settings.place suite := mt (place_eq_iff settings alike).mp same
    refine ⟨text, bytes, ?_, encoded, ?_⟩
    · exact (OrderedMap.get?_insert documents _ _ _).trans ((if_neg key).trans listed)
    · cases attempt with
      | refused vacant grown => exact grown.lookup looked fun never => never
      | written encoded grown stands => exact grown.lookup looked place

theorem Attempts.holds_of_holds {verdicts : List (Suite × Bool)} {before after : FileTree}
    (attempts : Attempts settings timestamp verdicts before after)
    (each : ∀ entry ∈ verdicts, leadingSlashes entry.1.filePath ≠ 2) {other : Suite}
    (single : leadingSlashes other.filePath ≠ 2) {documents : OrderedMap Text Text}
    (holds : Holds settings documents before (settings.target other)) :
    Holds settings (settings.list timestamp documents (verdicts.map (·.1))) after
      (settings.target other) := by
  induction attempts generalizing documents with
  | done tree => exact holds
  | next first others ih =>
    obtain ⟨here, later⟩ := List.forall_mem_cons.mp each
    exact ih later (first.holds here single holds)

/-- After a run every written path holds the document that is listed for it. -/
theorem Attempts.holds {verdicts : List (Suite × Bool)} {before after : FileTree}
    (attempts : Attempts settings timestamp verdicts before after)
    (each : ∀ entry ∈ verdicts, leadingSlashes entry.1.filePath ≠ 2)
    (documents : OrderedMap Text Text) {entry : Suite × Bool} (listed : entry ∈ verdicts)
    (written : entry.2 = true) :
    Holds settings (settings.list timestamp documents (verdicts.map (·.1))) after
      (settings.target entry.1) := by
  induction attempts generalizing documents with
  | done tree => cases listed
  | @next suite verdict rest before middle after first others ih =>
    obtain ⟨here, later⟩ := List.forall_mem_cons.mp each
    cases List.mem_cons.mp listed with
    | inl same =>
      subst same
      change verdict = true at written
      subst written
      exact others.holds_of_holds later here (first.holds_written documents)
    | inr listed => exact ih later _ listed

/-! ## Summaries -/

/-- A summary lists what was written and what failed in the order of the suites. -/
theorem foldl_enter (verdicts : List (Suite × Bool)) (summary : Summary) :
    verdicts.foldl (settings.enter timestamp) summary =
      { summary with
        written := summary.written ++ (verdicts.filter (·.2)).map (settings.target ·.1)
        failed := summary.failed ++ (verdicts.filter (!·.2)).map (·.1.filePath)
        documents := settings.list timestamp summary.documents (verdicts.map (·.1)) } := by
  induction verdicts generalizing summary with
  | nil => simp [Settings.list]
  | cons entry rest ih =>
    obtain ⟨suite, verdict⟩ := entry
    rw [List.foldl_cons, ih]
    cases verdict <;> simp [Settings.enter, Settings.note, Settings.list]

/-- Whether a suite failed can be read off the summary if no two suites have the same path. -/
theorem mem_failed_iff {verdicts : List (Suite × Bool)}
    (distinct : ((verdicts.map (·.1)).map (·.filePath)).Nodup) {entry : Suite × Bool}
    (listed : entry ∈ verdicts) :
    entry.1.filePath ∈ (verdicts.filter (!·.2)).map (·.1.filePath) ↔ entry.2 = false := by
  rw [List.map_map] at distinct
  constructor
  · intro failed
    obtain ⟨other, kept, same⟩ := List.mem_map.mp failed
    obtain ⟨listed', refused⟩ := List.mem_filter.mp kept
    have unique : other = entry := List.inj_on_of_nodup_map distinct listed' listed same
    subst unique
    simpa using refused
  · intro refused
    exact List.mem_map.mpr ⟨entry, List.mem_filter.mpr ⟨listed, by simp [refused]⟩, rfl⟩

/-- How a real run ends: the suites are split in their order into those that failed and those that were
written, every written path holds the document listed for it, and no other file has changed. -/
structure Settled (settings : Settings) (model : Model) (summary : Summary) (before after : FileTree) :
    Prop where
  failed : summary.failed = (model.suites.filter (·.filePath ∈ summary.failed)).map (·.filePath)
  written : summary.written = (model.suites.filter (·.filePath ∉ summary.failed)).map settings.target
  counted : summary.written.length + summary.failed.length = model.suites.length
  holds : ∀ target ∈ summary.written, Holds settings summary.documents after target
  spared : ∀ place, (∀ target ∈ summary.written, place ≠ placeOf settings.directory target) →
    ∀ bytes, after.find? place = some (.file bytes) ↔ before.find? place = some (.file bytes)

theorem Attempts.settled {model : Model} {verdicts : List (Suite × Bool)} {before after : FileTree}
    (attempts : Attempts settings timestamp verdicts before after) (listed : verdicts.map (·.1) = model.suites)
    (each : ∀ entry ∈ verdicts, leadingSlashes entry.1.filePath ≠ 2)
    (distinct : (model.suites.map (·.filePath)).Nodup) {summary : Summary}
    (written : summary.written = (verdicts.filter (·.2)).map (settings.target ·.1))
    (failed : summary.failed = (verdicts.filter (!·.2)).map (·.1.filePath))
    (documents : summary.documents = settings.list timestamp OrderedMap.empty model.suites) :
    Settled settings model summary before after := by
  have verdict {entry : Suite × Bool} (member : entry ∈ verdicts) :
      entry.1.filePath ∈ summary.failed ↔ entry.2 = false := by
    rw [failed]
    exact mem_failed_iff (listed.symm ▸ distinct) member
  constructor
  case failed =>
    have kept : verdicts.filter (fun entry => decide (entry.1.filePath ∈ summary.failed)) =
        verdicts.filter (!·.2) := by
      apply List.filter_congr
      intro entry member
      simp [verdict member]
    rw [← listed, List.filter_map, List.map_map]
    exact failed.trans (congrArg _ kept.symm)
  case written =>
    have kept : verdicts.filter (fun entry => decide (entry.1.filePath ∉ summary.failed)) =
        verdicts.filter (·.2) := by
      apply List.filter_congr
      intro entry member
      simp [verdict member]
    rw [← listed, List.filter_map, List.map_map]
    exact written.trans (congrArg _ kept.symm)
  case counted =>
    rw [written, failed, ← listed, List.length_map, List.length_map, List.length_map]
    exact (List.length_eq_length_filter_add _).symm
  case holds =>
    intro target member
    rw [written] at member
    obtain ⟨entry, kept, rfl⟩ := List.mem_map.mp member
    obtain ⟨member, isWritten⟩ := List.mem_filter.mp kept
    rw [documents, ← listed]
    exact attempts.holds each OrderedMap.empty member isWritten
  case spared =>
    intro place apart
    apply attempts.grown.untouched
    intro touched
    obtain ⟨entry, member, isWritten, here⟩ := touched
    refine apart (settings.target entry.1) ?_ here
    rw [written]
    exact List.mem_map.mpr ⟨entry, List.mem_filter.mpr ⟨member, isWritten⟩, rfl⟩

/-- A dry run changes nothing, and its summary is that of the real run but for what is written and what
fails there. The real run comes to its end as well, and settles every suite. The suites have different
paths, none of which starts with exactly two slashes, and all of them can be published. -/
theorem dryRun_rehearses {settings : Settings} {model : Model} {timestamp : Text}
    (dated : settings.clock.timestamp = .ok timestamp) (wet : settings.dryRun = false)
    (named : settings.outputDirectory.check = .ok ())
    (each : ∀ suite ∈ model.suites, Publishable settings timestamp suite)
    (single : ∀ suite ∈ model.suites, leadingSlashes suite.filePath ≠ 2)
    (distinct : (model.suites.map (·.filePath)).Nodup) (tree : FileTree) :
    let dry := publish { settings with dryRun := true } model
    let real := publish settings model
    ∃ summary, outcome real tree = .ok summary ∧
      outcome dry tree = .ok { summary with written := [], failed := [], dryRun := true } ∧
      treeAfter dry tree = tree ∧
      summary.documents = OrderedMap.ofList (model.suites.map (settings.document timestamp)) ∧
      summary.suites = model.suites.length ∧ summary.tests = model.testCount ∧
      Settled settings model summary tree (treeAfter real tree) := by
  intro dry real
  obtain ⟨verdicts, listed, returned, attempts⟩ := publishAll_attempts dated wet named each
    ⟨settings.outputDirectory, [], [], [], OrderedMap.empty, model.suites.length, model.testCount,
      settings.dryRun⟩ tree
  rw [foldl_enter] at returned
  have rehearsed := @publishAll_dryRun { settings with dryRun := true } timestamp dated rfl model.suites
    ⟨settings.outputDirectory, [], [], [], OrderedMap.empty, model.suites.length, model.testCount, true⟩ tree
  have singles : ∀ entry ∈ verdicts, leadingSlashes entry.1.filePath ≠ 2 := by
    intro entry member
    exact single entry.1 (listed ▸ List.mem_map_of_mem member)
  refine ⟨_, returned, ?_, rehearsed.2, ?_, rfl, rfl, ?_⟩
  · rw [listed]
    exact rehearsed.1
  · rw [listed]
    rfl
  · apply attempts.settled listed singles distinct
    · exact List.nil_append _
    · exact List.nil_append _
    · rw [listed]

/-- A directory stands where the first document would go, and the second one where a later document
needs a directory: both of these fail, and the path that two suites share holds the later document. -/
theorem dryRun_rehearses_blocked :
    let model := sampleModel ["a.ts", "b.ts", "b.js", "b.md/c.ts"]
    let tree : FileTree := .directory [("out", .directory [("a.md", .directory [])])]
    sampleSettings.clock.timestamp = .ok "2024-01-02T03:04:05.000Z" ∧
      sampleSettings.outputDirectory.check = .ok () ∧
      (∀ suite ∈ model.suites, Publishable sampleSettings "2024-01-02T03:04:05.000Z" suite) ∧
      (∀ suite ∈ model.suites, leadingSlashes suite.filePath ≠ 2) ∧
      (model.suites.map (·.filePath)).Nodup ∧
      ∃ summary, outcome (publish sampleSettings model) tree = .ok summary ∧
        summary.failed = ["a.ts", "b.md/c.ts"] ∧
        summary.written.map Path.toText = ["/out/b.md", "/out/b.md"] ∧
        Settled sampleSettings model summary tree (treeAfter (publish sampleSettings model) tree) := by
  intro model tree
  have dated : sampleSettings.clock.timestamp = .ok "2024-01-02T03:04:05.000Z" := by
    decide +kernel
  have named : sampleSettings.outputDirectory.check = .ok () := by
    decide
  have each : ∀ suite ∈ model.suites, Publishable sampleSettings "2024-01-02T03:04:05.000Z" suite := by
    have nulFree : ∀ suite ∈ model.suites, .char '\x00' ∉ suite.filePath := by decide
    have whole : ∀ suite ∈ model.suites,
        ∀ c ∈ Document.render sampleSettings.generator "2024-01-02T03:04:05.000Z" suite,
          c.isHalf = false := by
      decide +kernel
    intro suite member
    exact ⟨nulFree suite member, exists_encode_iff.mpr (whole suite member)⟩
  have single : ∀ suite ∈ model.suites, leadingSlashes suite.filePath ≠ 2 := by decide
  have distinct : (model.suites.map (·.filePath)).Nodup := by decide
  obtain ⟨summary, returned, -, -, -, -, -, settled⟩ :=
    dryRun_rehearses dated rfl named each single distinct tree
  have listed : (outcome (publish sampleSettings model) tree).toOption.map (fun summary =>
      (summary.failed, summary.written.map Path.toText)) =
        some ([("a.ts" : Text), "b.md/c.ts"], [("/out/b.md" : Text), "/out/b.md"]) := by
    decide +kernel
  rw [returned] at listed
  obtain ⟨failed, written⟩ := Prod.mk.inj (Option.some.inj listed)
  exact ⟨dated, named, each, single, distinct, summary, returned, failed, written, settled⟩

/-- The name of the first suite has no bytes: a dry run lists both documents, and the real run stops, with
an empty file for the first and none for the second. -/
theorem dryRun_misses_unencodable_document :
    let model : Model := ⟨[("a.ts", ⟨[.half 0], "a.ts", "", "", []⟩), ("b.ts", sampleSuite "b.ts")]⟩
    let dry := publish { sampleSettings with dryRun := true } model
    let real := publish sampleSettings model
    (outcome dry (.directory [])).toOption.map (·.documents.keys) =
        some [("/out/a.md" : Text), "/out/b.md"] ∧
      (outcome real (.directory [])).map (fun _ => ()) = .error (.content ⟨0xD800, 2, 1⟩) ∧
      (treeAfter real (.directory [])).readText ⟨.root, []⟩ ⟨.root, ["out", "a.md"]⟩ = .ok [] ∧
      ((treeAfter real (.directory [])).find? ["out", "b.md"]).isSome = false := by
  decide +kernel

end Publication

end SuiteDocs
