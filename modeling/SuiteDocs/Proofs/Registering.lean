import SuiteDocs.Proofs.Baselines
import SuiteDocs.Proofs.Recognition

/-!
Annotations as they are written, and the bodies that register them.

A body registers its annotations in one call, and each argument of the call is read as one
annotation, whatever its strings hold.
-/

set_option autoImplicit false

namespace SuiteDocs

open SuiteDocs.Text SuiteDocs.Source

/-! ## Annotations as they are written -/

/-- The kind of an annotation: a string that is not empty, or a member of the annotation types. -/
inductive WrittenKind where
  | string (literal : StringLiteral) (nonempty : literal.contents ≠ [])
  | member (name : Text) (identifier : isIdentifier name = true)

namespace WrittenKind

/-- The kind as it is written. -/
def text : WrittenKind → Text
  | .string literal _ => literal.text
  | .member name _ => "AnnotationType." ++ name

/-- The kind that is meant. -/
def meaning : WrittenKind → Text
  | .string literal _ => literal.contents
  | .member name _ => name

/-- The pieces of the written kind. -/
def pieces : WrittenKind → List Piece
  | .string literal _ => [literal.piece]
  | .member name _ => codes ("AnnotationType." ++ name)

theorem textOf_pieces (kind : WrittenKind) : textOf kind.pieces = kind.text := by
  cases kind with
  | string literal _ => exact literal.textOf_singleton
  | member name _ => exact textOf_codes _

theorem meaning_ne_nil (kind : WrittenKind) : kind.meaning ≠ [] := by
  cases kind with
  | string literal nonempty => exact nonempty
  | member name identifier =>
    rintro rfl
    cases identifier

theorem isElement_pieces (kind : WrittenKind) : IsElement kind.pieces := by
  cases kind with
  | string literal _ => exact isElement_string literal
  | member name identifier =>
    have parts := isNamePart_of_isIdentifier identifier
    have lead : ∀ c ∈ ("AnnotationType." : Text), (isNamePart c || c == '.') = true := by decide
    have symbols : ∀ c ∈ ("AnnotationType." : Text) ++ name, (isNamePart c || c == '.') = true := by
      intro c member
      rcases List.mem_append.mp member with member | member
      · exact lead c member
      · rw [parts c member, Bool.true_or]
    obtain ⟨-, before, last, ends, solid⟩ := solid_of_isIdentifier identifier
    have solidText : Solid (("AnnotationType." : Text) ++ name) :=
      ⟨⟨_, _, rfl, by decide⟩, ("AnnotationType." : Text) ++ before, last,
        by rw [ends, List.append_assoc], solid⟩
    refine isElement_codes ?_ (wellNested_of_class _ (by decide) symbols) ?_ solidText
    · intro c member
      exact CallSite.isPlain_of_callSymbol (by simpa using symbols c member)
    · intro member
      exact absurd (symbols _ member) (by decide)

theorem quiet_pieces (kind : WrittenKind) (more : Text) :
    Extraction.Quiet kind.pieces (.char ',' :: more) := by
  cases kind with
  | string literal _ => exact Extraction.quiet_of_not_mem (by simp [pieces]) _
  | member name identifier =>
    have lead : Extraction.Quiet (codes "AnnotationType")
        (textOf (.code '.' :: codes name) ++ .char ',' :: more) :=
      Extraction.quiet_of_not_mem (by decide) _
    have noDot : .char '.' ∉ codeOf (codes name) := by
      rw [codeOf_codes]
      exact not_mem_of_isIdentifier identifier (by decide)
    refine lead.append (Extraction.Quiet.dot (fun previous => ?_)
      (Extraction.quiet_of_not_mem noDot _))
    rw [textOf_codes]
    exact Extraction.recogniseCall_member identifier previous more

/-- A written kind is resolved to the one that is meant. -/
theorem resolveKind?_text (kind : WrittenKind) :
    Extraction.resolveKind? kind.text = some kind.meaning := by
  cases kind with
  | string literal _ => rw [text, Extraction.resolveKind?, literal.literalValue?_text]; rfl
  | member name identifier =>
    have solid : Solid (("AnnotationType." : Text) ++ name) := by
      have element := (WrittenKind.member name identifier).isElement_pieces.solid
      rwa [textOf_pieces] at element
    have noLiteral : literalValue? (("AnnotationType." : Text) ++ name) = none := by
      rw [literalValue?]
      simp only [strip_eq_self solid]
      rfl
    have noDot := not_mem_of_isIdentifier identifier (by decide : isNamePart '.' = false)
    have solidName := solid_of_isIdentifier identifier
    have parts : splitOn '.' (("AnnotationType." : Text) ++ name) =
        [("AnnotationType" : Text), name] := by
      have split := splitOn_append (by decide : .char '.' ∉ ("AnnotationType" : Text)) name
      rw [splitOn_of_not_mem noDot] at split
      exact split
    have last : afterLast '.' (("AnnotationType." : Text) ++ name) = name :=
      afterLast_append noDot "AnnotationType"
    have isReference : Extraction.isReference (("AnnotationType." : Text) ++ name) = true := by
      have known : isIdentifier (strip ("AnnotationType" : Text)) = true := by decide
      simp [Extraction.isReference, strip_eq_self solid, parts, strip_eq_self solidName, identifier,
        known]
    simp [Extraction.resolveKind?, text, meaning, noLiteral, isReference, last,
      strip_eq_self solidName]

end WrittenKind

/-- White space. -/
structure Blanks where
  text : Text
  blank : ∀ c ∈ text, isBlank c = true

/-- An annotation as it is written. -/
structure WrittenNote where
  kind : WrittenKind
  description : StringLiteral

namespace WrittenNote

/-- The object that describes the annotation. -/
def text (note : WrittenNote) : Text :=
  "\x7b type: " ++ note.kind.text ++ ", description: " ++ note.description.text ++ " \x7d"

/-- The annotation that is meant. -/
def meaning (note : WrittenNote) : Annotation :=
  ⟨note.kind.meaning, note.description.contents⟩

def typeField (note : WrittenNote) : ObjectField where
  key := "type"
  value := note.kind.pieces
  identifier := by decide
  element := note.kind.isElement_pieces

def descriptionField (note : WrittenNote) : ObjectField where
  key := "description"
  value := [note.description.piece]
  identifier := by decide
  element := isElement_string note.description

/-- The pieces of the object. -/
def pieces (note : WrittenNote) : List Piece :=
  object note.typeField [note.descriptionField]

theorem pieces_eq (note : WrittenNote) :
    note.pieces = codes "\x7b type: " ++ (note.kind.pieces ++
      (codes ", description: " ++ (note.description.piece :: codes " \x7d"))) := by
  have shape : note.pieces = codes "\x7b type: " ++ ((note.kind.pieces ++
      (codes ", description: " ++ (note.description.piece :: codes " "))) ++
        [.code '\x7d']) := rfl
  rw [shape, List.append_assoc]
  rfl

theorem textOf_pieces (note : WrittenNote) : textOf note.pieces = note.text := by
  simp [pieces_eq, text, WrittenKind.textOf_pieces]

theorem isElement_pieces (note : WrittenNote) : IsElement note.pieces :=
  isElement_object _ _

theorem quiet_pieces (note : WrittenNote) (after : Text) :
    Extraction.Quiet note.pieces after := by
  have behind : Extraction.Quiet
      (codes ", description: " ++ (note.description.piece :: codes " \x7d")) after := by
    refine Extraction.quiet_of_not_mem ?_ _
    rw [codeOf_append, StringLiteral.codeOf_piece, codeOf_codes, codeOf_codes]
    decide
  rw [pieces_eq]
  exact (Extraction.quiet_of_not_mem (by decide) _).append
    ((note.kind.quiet_pieces _).append behind)

/-- What the fields of the object say. -/
def fields (note : WrittenNote) : Fields :=
  OrderedMap.ofList ([note.typeField, note.descriptionField].map ObjectField.entry)

theorem get?_type (note : WrittenNote) :
    note.fields.get? ("type" : Text) = some note.kind.text := by
  rw [← note.kind.textOf_pieces]
  rfl

theorem get?_description (note : WrittenNote) :
    note.fields.get? ("description" : Text) = some note.description.text := by
  rw [← note.description.textOf_singleton]
  rfl

theorem objectFields_pieces (note : WrittenNote) {text : Text} {start : Nat}
    (stands : Stands text start note.pieces) :
    objectFields text start = .ok note.fields :=
  objectFields_object stands

open LoggedExcept in
/-- An argument that is a written annotation is read as the one that is meant. -/
theorem outcome_ofArgument (note : WrittenNote) {body : Text} {span : Span}
    (constants : Constants) (source : Option Text) (covers : Covers body span note.pieces) :
    (Extraction.ofArgument body constants source span).outcome = .ok (some note.meaning) := by
  obtain ⟨stands, -⟩ := covers
  have opens : body[span.start]? = some (.char '\x7b') := stands.isCode.getElem?
  have named : note.kind.meaning.isEmpty = false := by
    rw [List.isEmpty_eq_false_iff]
    exact note.kind.meaning_ne_nil
  have described : Extraction.resolveDescription note.description.text constants source =
      pure note.description.contents := by
    rw [Extraction.resolveDescription, note.description.literalValue?_text]
  simp only [Extraction.ofArgument, opens, beq_self_eq_true, if_true,
    note.objectFields_pieces stands, outcome_lift]
  simp [Extraction.ofFields, get?_type, get?_description, note.kind.resolveKind?_text, named,
    described, meaning]

/-! ## Bodies that register annotations -/

/-- The statement that registers annotations. For no annotations there is none. -/
def registration : List WrittenNote → Text
  | [] => []
  | first :: rest =>
    "test.info().annotations.push(" ++ List.intercalate ", " ((first :: rest).map text) ++ ");"

/-- The pieces of the arguments of that statement, in their parentheses. -/
def argumentPieces (first : WrittenNote) (rest : List WrittenNote) : List Piece :=
  enclosed '(' ')' (separated [] [] first.pieces (rest.map pieces))

/-- The pieces of that statement. -/
def registrationPieces : List WrittenNote → List Piece
  | [] => []
  | first :: rest => codes "test.info()" ++ (.code '.' ::
      (codes "annotations.push" ++ (argumentPieces first rest ++ codes ";")))

theorem textOf_registrationPieces (annotations : List WrittenNote) :
    textOf (registrationPieces annotations) = registration annotations := by
  cases annotations with
  | nil => rfl
  | cons first rest =>
    have texts : (first.pieces :: rest.map pieces).map textOf = (first :: rest).map text := by
      simp [textOf_pieces]
    have shape : textOf (registrationPieces (first :: rest)) =
        ("test.info().annotations.push(" : Text) ++
          (textOf (separated [] [] first.pieces (rest.map pieces)) ++ ");") := by
      rw [registrationPieces, argumentPieces, textOf_append, textOf_code, textOf_append,
        textOf_append, textOf_enclosed, textOf_codes, textOf_codes, textOf_codes, List.cons_append,
        List.append_assoc]
      rfl
    rw [shape, textOf_separated, texts, registration]
    simp

/-- The pieces of a body that registers annotations, with white space around the statement. -/
def bodyPieces (opening : Blanks) (annotations : List WrittenNote) (closing : Blanks) :
    List Piece :=
  codes opening.text ++ (registrationPieces annotations ++ codes closing.text)

theorem textOf_bodyPieces (opening : Blanks) (annotations : List WrittenNote)
    (closing : Blanks) :
    textOf (bodyPieces opening annotations closing) =
      opening.text ++ (registration annotations ++ closing.text) := by
  rw [bodyPieces, textOf_append, textOf_append, textOf_codes, textOf_codes,
    textOf_registrationPieces]

theorem isElement_of_mem {first : WrittenNote} {rest : List WrittenNote} :
    ∀ part ∈ first.pieces :: rest.map pieces, IsElement part := by
  rw [← List.map_cons, List.forall_mem_map]
  intro note _
  exact note.isElement_pieces

theorem isElement_argumentPieces (first : WrittenNote) (rest : List WrittenNote) :
    IsElement (argumentPieces first rest) :=
  isElement_list rfl isBlank_nil isBlank_nil isElement_of_mem

theorem stable_bodyPieces (opening : Blanks) (annotations : List WrittenNote)
    (closing : Blanks) : ∀ piece ∈ bodyPieces opening annotations closing, piece.Stable := by
  have blanks (blanks : Blanks) : ∀ piece ∈ codes blanks.text, piece.Stable :=
    stable_codes fun c member => isPlain_of_isBlank (blanks.blank c member)
  refine List.forall_mem_append.mpr ⟨blanks opening, ?_⟩
  refine List.forall_mem_append.mpr ⟨?_, blanks closing⟩
  cases annotations with
  | nil => simp [registrationPieces]
  | cons first rest =>
    simp only [registrationPieces, List.forall_mem_append, List.forall_mem_cons]
    exact ⟨stable_codes (by decide), .code (by decide), stable_codes (by decide),
      (isElement_argumentPieces first rest).stable, stable_codes (by decide)⟩

theorem nested_bodyPieces (opening : Blanks) (annotations : List WrittenNote)
    (closing : Blanks) : WellNested (codeOf (bodyPieces opening annotations closing)) := by
  simp only [bodyPieces, codeOf_append, codeOf_codes]
  refine wellNested_append (wellNested_of_blank opening.blank)
    (wellNested_append ?_ (wellNested_of_blank closing.blank))
  cases annotations with
  | nil => decide
  | cons first rest =>
    have arguments := (isElement_argumentPieces first rest).nested
    have lead : WellNested (codeOf (codes "test.info().annotations.push")) := by decide
    have semicolon : WellNested (codeOf (codes ";")) := by decide
    have shape : codeOf (registrationPieces (first :: rest)) =
        codeOf (codes "test.info().annotations.push") ++
          (codeOf (argumentPieces first rest) ++ codeOf (codes ";")) := by
      rw [← codeOf_append, ← codeOf_append]
      rfl
    rw [shape]
    exact wellNested_append lead (wellNested_append arguments semicolon)

open LoggedExcept in
/-- The arguments of a call are read as the annotations that are meant. -/
theorem outcome_ofCall {first : WrittenNote} {rest : List WrittenNote} {body : Text}
    {paren : Nat} (constants : Constants) (source : Option Text)
    (stands : Stands body paren (argumentPieces first rest)) :
    (Extraction.ofCall body constants source paren).outcome =
      .ok ((first :: rest).map meaning) := by
  have closed := stands.matchingClose rfl
    (wellNested_separated isBlank_nil isBlank_nil isElement_of_mem)
  obtain ⟨spans, split, covered⟩ :=
    splitTopLevel_separated isBlank_nil isBlank_nil isElement_of_mem stands.next.left
  have read : spans.mapM (fun span => (Extraction.ofArgument body constants source span).outcome) =
      .ok ((first :: rest).map fun note => some note.meaning) := by
    rw [← List.map_cons, List.forall₂_map_right_iff] at covered
    rw [mapM_eq_ok_iff, List.forall₂_map_right_iff]
    exact covered.imp fun span note => note.outcome_ofArgument constants source
  have kept : ((first :: rest).map fun note => some note.meaning).filterMap id =
      (first :: rest).map meaning := by
    simp [List.filterMap_map]
  rw [Extraction.ofCall, closed]
  simp only [outcome_bind, outcome_ofExcept, outcome_mapM]
  refine bind_eq_ok_iff.mpr ⟨spans, split, bind_eq_ok_iff.mpr ⟨_, read, ?_⟩⟩
  rw [kept]
  rfl

theorem quiet_argumentPieces (first : WrittenNote) (rest : List WrittenNote)
    (after : Text) : Extraction.Quiet (argumentPieces first rest) after := by
  have each : ∀ part ∈ first.pieces :: rest.map pieces, ∀ after, Extraction.Quiet part after := by
    rw [← List.map_cons, List.forall_mem_map]
    exact fun note _ => note.quiet_pieces
  have opening : Extraction.Quiet [.code '(']
      (textOf (separated [] [] first.pieces (rest.map pieces) ++ [.code ')']) ++ after) :=
    Extraction.quiet_of_not_mem (by decide) _
  have closing : Extraction.Quiet [.code ')'] after := Extraction.quiet_of_not_mem (by decide) _
  exact opening.append ((Extraction.Quiet.separated isBlank_nil isBlank_nil each _).append closing)

/-- What stands before the dot of the call. -/
def leadPieces (opening : Blanks) : List Piece :=
  codes opening.text ++ codes "test.info()"

/-- What stands behind the dot of the call. -/
def callPieces (first : WrittenNote) (rest : List WrittenNote) (closing : Blanks) :
    List Piece :=
  codes "annotations.push" ++ (argumentPieces first rest ++ (codes ";" ++ codes closing.text))

theorem bodyPieces_eq (opening : Blanks) (first : WrittenNote)
    (rest : List WrittenNote) (closing : Blanks) :
    bodyPieces opening (first :: rest) closing =
      leadPieces opening ++ .code '.' :: callPieces first rest closing := by
  simp [bodyPieces, registrationPieces, leadPieces, callPieces]

theorem recogniseCall_callPieces (first : WrittenNote) (rest : List WrittenNote)
    (closing : Blanks) (previous : Option Symbol) :
    Extraction.recogniseCall previous (.char '.') (textOf (callPieces first rest closing)) =
      some ((), ("annotations.push(" : Text).length) := by
  have text : textOf (callPieces first rest closing) = ("annotations.push(" : Text) ++
      (textOf (separated [] [] first.pieces (rest.map pieces)) ++ [.char ')'] ++
        textOf (codes ";" ++ codes closing.text)) := by
    rw [callPieces, textOf_append, textOf_append, argumentPieces, textOf_enclosed, textOf_codes]
    rfl
  rw [text]
  exact Extraction.recogniseCall_eq previous _

theorem quiet_leadPieces (opening : Blanks) (after : Text) :
    Extraction.Quiet (leadPieces opening) after := by
  have noDot : .char '.' ∉ codeOf (codes opening.text ++ codes "test") := by
    rw [codeOf_append, codeOf_codes, codeOf_codes, List.mem_append, not_or]
    exact ⟨Extraction.dot_not_mem_of_blank opening.blank, by decide⟩
  have parts : leadPieces opening =
      (codes opening.text ++ codes "test") ++ .code '.' :: codes "info()" := by
    rw [List.append_assoc]
    rfl
  rw [parts]
  exact (Extraction.quiet_of_not_mem noDot _).append (Extraction.Quiet.dot
    (fun previous => Extraction.recogniseCall_other (by decide) (by decide))
    (Extraction.quiet_of_not_mem (by decide) _))

theorem quiet_callPieces (first : WrittenNote) (rest : List WrittenNote)
    (closing : Blanks) : Extraction.Quiet (callPieces first rest closing) [] := by
  have noDot : .char '.' ∉ codeOf (codes ";" ++ codes closing.text) := by
    rw [codeOf_append, codeOf_codes, codeOf_codes, List.mem_append, not_or]
    exact ⟨by decide, Extraction.dot_not_mem_of_blank closing.blank⟩
  have name (after : Text) : Extraction.Quiet (codes "annotations.push") after := by
    have lead : Extraction.Quiet (codes "annotations")
        (textOf (.code '.' :: codes "push") ++ after) :=
      Extraction.quiet_of_not_mem (by decide) _
    exact lead.append (Extraction.Quiet.dot
      (fun previous => Extraction.recogniseCall_other (by decide) (by decide))
      (Extraction.quiet_of_not_mem (by decide) _))
  exact (name _).append ((quiet_argumentPieces first rest _).append
    (Extraction.quiet_of_not_mem noDot _))

open LoggedExcept in
/-- The annotations of a body are those that are meant, in order. -/
theorem outcome_annotations (opening : Blanks) (annotations : List WrittenNote)
    (closing : Blanks) (constants : Constants) (source : Option Text) :
    (Extraction.annotations (textOf (bodyPieces opening annotations closing)) constants
      source).outcome = .ok (annotations.map meaning) := by
  have stable := stable_bodyPieces opening annotations closing
  cases annotations with
  | nil =>
    have noDot : .char '.' ∉ textOf (bodyPieces opening [] closing) := by
      simp only [bodyPieces, registrationPieces, List.nil_append, textOf_append, textOf_codes,
        List.mem_append, not_or]
      exact ⟨Extraction.dot_not_mem_of_blank opening.blank,
        Extraction.dot_not_mem_of_blank closing.blank⟩
    rw [Extraction.annotations, Extraction.codeMatches_eq_nil noDot]
    rfl
  | cons first rest =>
    rw [bodyPieces_eq] at stable ⊢
    have found := Extraction.codeMatches_eq_singleton stable
      (recogniseCall_callPieces first rest closing) (quiet_leadPieces opening _)
      (quiet_callPieces first rest closing)
    have stands := (stands_textOf stable).right.next.right.left
    have place : 0 + (textOf (leadPieces opening)).length + 1 +
        (textOf (codes "annotations.push")).length =
          (textOf (leadPieces opening)).length + ("annotations.push(" : Text).length := by
      rw [Nat.zero_add, textOf_codes]
      rfl
    rw [place] at stands
    have read := outcome_ofCall constants source stands
    rw [Extraction.annotations, found]
    simp only [outcome_bind, outcome_mapM]
    refine bind_eq_ok_iff.mpr ⟨[(first :: rest).map meaning],
      mapM_eq_ok_iff.mpr (.cons read .nil), ?_⟩
    simp

end WrittenNote

end SuiteDocs
