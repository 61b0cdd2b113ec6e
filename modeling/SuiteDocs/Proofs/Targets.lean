import SuiteDocs.Proofs.Paths
import SuiteDocs.Publication

/-!
The paths of documents.

A document stands below the output directory, in the directories of its source less those that lead
back, name a drive or are a root, and has the name of its source with another extension. Only a source
whose path starts with exactly two slashes leaves the output directory: two slashes are a root of their
own, which is not dropped.
-/

set_option autoImplicit false

namespace SuiteDocs.Publication

open SuiteDocs.Text SuiteDocs.Path

/-- The path of a source file. -/
def sourcePath (filePath : Text) : Path :=
  ofText (exchange '\\' '/' filePath)

/-- The number of slashes that a path starts with, backslashes counted. -/
def leadingSlashes (filePath : Text) : Nat :=
  ((exchange '\\' '/' filePath).takeWhile (· == .char '/')).length

/-- The directories that a source and its document share. -/
def directoriesOf (filePath : Text) : List Text :=
  (sourcePath filePath).parent.parts.filter isOutputPart

/-- What leads from the output directory to the document of a source. -/
def documentParts (filePath : Text) : List Text :=
  directoriesOf filePath ++ [(sourcePath filePath).stem ++ ".md"]

theorem anchor_eq_doubleRoot_iff (filePath : Text) :
    (sourcePath filePath).anchor = .doubleRoot ↔ leadingSlashes filePath = 2 := by
  unfold sourcePath leadingSlashes ofText
  dsimp only
  generalize (exchange '\\' '/' filePath).takeWhile (· == .char '/') = slashes
  match slashes with
  | [] => decide
  | [_] => simp
  | [_, _] => simp
  | _ :: _ :: _ :: _ => simp

/-! ## Components of documents -/

theorem isName_of_mem_directoriesOf {filePath part : Text} (member : part ∈ directoriesOf filePath) :
    IsName part := by
  obtain ⟨listed, kept⟩ := List.mem_filter.mp member
  refine ⟨isComponent_of_mem_ofText (List.dropLast_subset _ listed), ?_⟩
  rintro rfl
  exact absurd kept (by decide)

theorem mem_name_of_mem_stem {path : Path} {c : Symbol} (member : c ∈ path.stem) : c ∈ path.name := by
  unfold stem at member
  dsimp only at member
  split at member
  · exact List.mem_of_mem_take member
  · exact member

theorem slash_not_mem_stem (filePath : Text) : .char '/' ∉ (sourcePath filePath).stem := by
  intro member
  have inName := mem_name_of_mem_stem member
  rw [name, List.getLastD_eq_getLast?] at inName
  cases last : (sourcePath filePath).parts.getLast? with
  | none =>
    rw [last] at inName
    cases inName
  | some part =>
    rw [last] at inName
    exact (isComponent_of_mem_ofText (List.mem_of_getLast? last)).2.2 inName

theorem isName_document (filePath : Text) : IsName ((sourcePath filePath).stem ++ ".md") := by
  have long : 3 ≤ ((sourcePath filePath).stem ++ (".md" : Text)).length := by
    rw [List.length_append]
    exact Nat.le_add_left _ _
  have other {text : Text} (short : text.length < 3) :
      (sourcePath filePath).stem ++ (".md" : Text) ≠ text := by
    rintro rfl
    omega
  refine ⟨⟨other (by decide), other (by decide), ?_⟩, other (by decide)⟩
  intro member
  rcases List.mem_append.mp member with inStem | inExtension
  · exact slash_not_mem_stem filePath inStem
  · exact absurd inExtension (by decide)

theorem isName_of_mem_documentParts {filePath part : Text} (member : part ∈ documentParts filePath) :
    IsName part := by
  rcases List.mem_append.mp member with directory | document
  · exact isName_of_mem_directoriesOf directory
  · exact List.mem_singleton.mp document ▸ isName_document filePath

theorem documentParts_ne_nil (filePath : Text) : documentParts filePath ≠ [] :=
  List.append_ne_nil_of_right_ne_nil _ (List.cons_ne_nil _ _)

/-- The names of documents are told apart by those of the sources without their extensions. -/
theorem documentParts_eq_iff (filePath other : Text) :
    documentParts filePath = documentParts other ↔
      directoriesOf filePath = directoriesOf other ∧
        (sourcePath filePath).stem = (sourcePath other).stem := by
  constructor
  · intro same
    obtain ⟨directories, document⟩ := List.append_inj' same rfl
    exact ⟨directories, List.append_cancel_right (List.singleton_inj.mp document)⟩
  · rintro ⟨directories, stem⟩
    rw [documentParts, documentParts, directories, stem]

/-! ## Paths -/

/-- What the directories of a source are put below: two slashes are a root of their own, which is not
dropped. -/
def baseOf (outputDirectory : Path) (filePath : Text) : Path :=
  if leadingSlashes filePath = 2 then ⟨.doubleRoot, []⟩ else outputDirectory

theorem outputPath_eq (outputDirectory : Path) (filePath : Text) :
    outputPath outputDirectory filePath =
      (baseOf outputDirectory filePath).under (documentParts filePath) := by
  have components : ∀ part ∈ directoriesOf filePath, IsComponent part :=
    fun part member => (isName_of_mem_directoriesOf member).1
  have document := (isName_document filePath).1
  -- A root is the first component: one slash is dropped, two slashes are where the path starts anew.
  have started : ((if (sourcePath filePath).isAbsolute then [(sourcePath filePath).anchor.text] else
      []).filter isOutputPart).foldl child outputDirectory = baseOf outputDirectory filePath := by
    have isDouble := anchor_eq_doubleRoot_iff filePath
    rw [isAbsolute, baseOf]
    cases anchor : (sourcePath filePath).anchor with
    | relative => exact (if_neg (mt isDouble.mpr (by rw [anchor]; decide))).symm
    | root => exact (if_neg (mt isDouble.mpr (by rw [anchor]; decide))).symm
    | doubleRoot => exact (if_pos (isDouble.mp anchor)).symm
  have unfolded : outputPath outputDirectory filePath =
      ((((if (sourcePath filePath).isAbsolute then [(sourcePath filePath).anchor.text] else []) ++
        (sourcePath filePath).parent.parts).filter isOutputPart).foldl child outputDirectory).child
          ((sourcePath filePath).stem ++ ".md") := rfl
  rw [unfolded, List.filter_append, List.foldl_append, started]
  change ((directoriesOf filePath).foldl child _).child _ = _
  rw [foldl_child _ components, child_of_component _ document, under_under]
  rfl

theorem baseOf_congr (outputDirectory : Path) {filePath other : Text}
    (alike : leadingSlashes filePath = 2 ↔ leadingSlashes other = 2) :
    baseOf outputDirectory filePath = baseOf outputDirectory other := by
  rw [baseOf, baseOf]
  simp only [alike]

theorem toText_outputPath_eq_iff (outputDirectory : Path) {filePath other : Text}
    (alike : leadingSlashes filePath = 2 ↔ leadingSlashes other = 2) :
    (outputPath outputDirectory filePath).toText = (outputPath outputDirectory other).toText ↔
      documentParts filePath = documentParts other := by
  rw [outputPath_eq, outputPath_eq, baseOf_congr outputDirectory alike]
  constructor
  · exact toText_under_inj (documentParts_ne_nil filePath) (documentParts_ne_nil other)
      (fun _ member => (isName_of_mem_documentParts member).1)
      (fun _ member => (isName_of_mem_documentParts member).1)
  · intro same
    rw [same]

/-- The place of a document below that of the directory it is put in. -/
theorem normalise_outputPath (directory outputDirectory : Path) (filePath : Text) :
    normalise (directory.join (outputPath outputDirectory filePath)).parts =
      normalise (directory.join (baseOf outputDirectory filePath)).parts ++ documentParts filePath := by
  rw [outputPath_eq, join_under,
    ← normalise_append _ fun part member => (isName_of_mem_documentParts member).2]
  rfl

end SuiteDocs.Publication
