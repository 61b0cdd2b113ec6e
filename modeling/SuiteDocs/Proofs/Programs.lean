import SuiteDocs.Proofs.Declarators
import SuiteDocs.Proofs.Joining
import SuiteDocs.Proofs.Maps
import SuiteDocs.Proofs.Objects

/-!
Programs of declarations and blocks.

Each declaration on a line of its own gives its constant, and nothing else in it is taken for one: not
the name, even if it is one of the words that declare, and nothing in the string. A block gives none,
whatever it declares, since all its code but the two braces is inside brackets.
-/

set_option autoImplicit false

namespace SuiteDocs.Constants

open SuiteDocs.Text SuiteDocs.Source

/-- A declaration on a line of its own. -/
structure WrittenConstant where
  exported : Bool
  word : Text
  name : Text
  value : StringLiteral
  isWord : word ∈ declaringWords
  identifier : isIdentifier name = true
  plain : value.quote = .backtick → holds "$\x7b" value.contents = false

def inBraces (body : Text) : Text :=
  .char '\x7b' :: (body ++ [.char '\x7d'])

/-- A block that closes what it opens. -/
structure WrittenBlock where
  body : Text
  closed : HasClosedLiterals (inBraces body)
  nested : HasNestedCode (inBraces body)
  matched : matchingClose (inBraces body) 0 = .ok (body.length + 1)

inductive WrittenItem where
  | constant (declared : WrittenConstant)
  | block (written : WrittenBlock)

/-! ## Declarations -/

/-- What the places give that may declare a constant. -/
def declaredAt (text : Text) (places : List CodeChar) : List (Text × Text) :=
  (places.filter (mayDeclare text)).filterMap fun code => constantAt? text code.offset

theorem ofText_eq (text : Text) :
    ofText text = OrderedMap.ofList (declaredAt text (outer 0 (pieces [] text))) := by
  have outside : (outer 0 (pieces [] text)).filter (mayDeclare text) =
      (codeBetween text 0 none).filter (mayDeclare text) := by
    rw [outer, List.filter_filter, codeBetween_zero]
    apply List.filter_congr
    intro code member
    unfold mayDeclare
    cases code.depth == 0 with
    | false => rfl
    | true => rw [Bool.and_true]
  rw [ofText, declaredAt, outside]

theorem declaredAt_append (text : Text) (first second : List CodeChar) :
    declaredAt text (first ++ second) = declaredAt text first ++ declaredAt text second := by
  rw [declaredAt, List.filter_append, List.filterMap_append]
  rfl

theorem declaredAt_eq_nil {text : Text} {places : List CodeChar}
    (none : ∀ code ∈ places, mayDeclare text code = true → constantAt? text code.offset = none) :
    declaredAt text places = [] := by
  rw [declaredAt, List.filterMap_eq_nil_iff]
  intro code member
  obtain ⟨listed, may⟩ := List.mem_filter.mp member
  exact none code listed may

/-- Whether a declaration may start at a place is seen from the symbol before it. -/
theorem mayDeclare_append (front rest : Text) (c : Symbol) (depth : Nat) :
    mayDeclare (front ++ rest) ⟨front.length, c, depth⟩ =
      (depth == 0 && (c == 'c' || c == 'l' || c == 'v') &&
        !(front.getLast?.any fun d => isNamePart d || d == '.')) := by
  induction front using List.reverseRecOn with
  | nil => rfl
  | append_singleton front d ih =>
    have place : (front ++ [d]).length = front.length + 1 := by simp
    have before : (front ++ [d] ++ rest)[front.length]? = some d := by simp
    simp only [mayDeclare, place, before, List.getLast?_append, List.getLast?_singleton, Option.any_some,
      Option.some_or]

theorem declaredAt_cons (text : Text) (code : CodeChar) (places : List CodeChar) :
    declaredAt text (code :: places) = declaredAt text [code] ++ declaredAt text places :=
  declaredAt_append text [code] places

/-- What a passage gives between two texts. -/
def declaredIn (front : Text) (part : List Piece) (rest : Text) : List (Text × Text) :=
  declaredAt (front ++ (textOf part ++ rest)) (outer front.length part)

theorem declaredIn_append {first : List Piece} (nested : WellNested (codeOf first)) (front : Text)
    (second : List Piece) (rest : Text) :
    declaredIn front (first ++ second) rest =
      declaredIn front first (textOf second ++ rest) ++ declaredIn (front ++ textOf first) second rest := by
  unfold declaredIn
  rw [outer_append nested, declaredAt_append, textOf_append, List.length_append, List.append_assoc,
    List.append_assoc]

theorem declaredIn_of_avoids {part : List Piece} (avoids : ∀ c ∈ ("clv" : Text), Avoids c part)
    (front rest : Text) : declaredIn front part rest = [] := by
  apply declaredAt_eq_nil
  intro code member may
  exact absurd rfl (avoids code.char (mem_of_mayDeclare may) _ code member)

theorem declaredIn_of_not_mem {part : List Piece} (absent : ∀ c ∈ ("clv" : Text), c ∉ codeOf part)
    (front rest : Text) : declaredIn front part rest = [] :=
  declaredIn_of_avoids (fun c listed => avoids_of_not_mem (absent c listed)) front rest

theorem declaredIn_code {c : Symbol} (notOpener : isOpener c = false) (notCloser : isCloser c = false)
    (front rest : Text) (part : List Piece) :
    declaredIn front (.code c :: part) rest =
      declaredAt (front ++ c :: (textOf part ++ rest)) [⟨front.length, c, 0⟩] ++
        declaredIn (front ++ [c]) part rest := by
  unfold declaredIn
  rw [outer_code notOpener notCloser, declaredAt_cons, textOf_code, List.length_append,
    List.append_assoc]
  rfl

/-- Inside a word nothing declares: before each symbol stands a part of the word. -/
theorem declaredIn_inside {front word : Text} (inside : front.getLast?.any isNamePart = true)
    (parts : ∀ c ∈ word, isNamePart c = true) (rest : Text) :
    declaredIn front (codes word) rest = [] := by
  induction word generalizing front with
  | nil => rfl
  | cons c word ih =>
    obtain ⟨part, parts⟩ := List.forall_mem_cons.mp parts
    obtain ⟨notOpener, notCloser⟩ := not_bracket_of_class isNamePart (by decide) part
    rw [codes_cons, declaredIn_code notOpener notCloser, ih (by simp [part]) parts, List.append_nil]
    apply declaredAt_eq_nil
    intro code member may
    obtain rfl := List.mem_singleton.mp member
    obtain ⟨d, last, named⟩ := (Option.any_eq_true _ _).mp inside
    rw [mayDeclare_append, last, Option.any_some, named] at may
    simp at may

/-- Of a word only the first symbol may declare. -/
theorem declaredIn_word {word : Text} {c : Symbol} (parts : ∀ d ∈ c :: word, isNamePart d = true)
    (front rest : Text) :
    declaredIn front (codes (c :: word)) rest =
      declaredAt (front ++ c :: (word ++ rest)) [⟨front.length, c, 0⟩] := by
  obtain ⟨part, parts⟩ := List.forall_mem_cons.mp parts
  obtain ⟨notOpener, notCloser⟩ := not_bracket_of_class isNamePart (by decide) part
  rw [codes_cons, declaredIn_code notOpener notCloser, declaredIn_inside (by simp [part]) parts,
    List.append_nil, textOf_codes]

/-- A name that is assigned to is no word that declares. -/
theorem declaration?_assigned {name : Text} (parts : ∀ c ∈ name, isNamePart c = true) (value : Text) :
    declaration? (name ++ (" = " ++ value)) = none := by
  cases found : declaration? (name ++ (" = " ++ value)) with
  | none => rfl
  | some declared =>
    obtain ⟨declarator, quote, rest, shape, -⟩ := exists_declarator found
    have sameWord : name = declarator.word := by
      rw [← declarator.takeWhile_word (quote :: rest), ← shape, takeWhile_isNamePart parts]
      intro c head
      obtain rfl := Option.some.inj head
      decide
    rw [declarator.text_append, ← sameWord] at shape
    -- Behind the word and its white space stands the equals sign, where a name would have to start.
    have blanks := congrArg (List.dropWhile isBlank) (List.append_cancel_left shape)
    rw [dropWhile_blanks declarator.blank (isBlank_of_isIdentifier declarator.identifier)] at blanks
    have named := isNamePart_of_isIdentifier declarator.identifier
    cases name : declarator.name with
    | nil =>
      have identifier := declarator.identifier
      rw [name] at identifier
      cases identifier
    | cons first name' =>
      rw [name] at blanks named
      obtain ⟨equals, -⟩ := List.cons.inj blanks
      have isPart := named first List.mem_cons_self
      rw [← equals] at isPart
      cases isPart

/-! ## Statements -/

/-- A passage on lines of its own: it is scanned alike wherever it stands, closes what it opens, and
gives the same constants on every line. -/
structure IsStatement (part : List Piece) (constants : List (Text × Text)) : Prop where
  scan : ∀ before rest, pieces before (textOf part ++ rest) =
    part ++ pieces ((textOf part).reverse ++ before) rest
  nested : WellNested (codeOf part)
  line : ∀ c ∈ (textOf part).getLast?, c = .char '\n'
  declares : ∀ front rest, (∀ c ∈ front.getLast?, c = .char '\n') →
    declaredIn front part rest = constants

theorem line_append {first second : Text} (line : ∀ c ∈ first.getLast?, c = .char '\n')
    (line' : ∀ c ∈ second.getLast?, c = .char '\n') :
    ∀ c ∈ (first ++ second).getLast?, c = .char '\n' := by
  intro c last
  rw [List.getLast?_append] at last
  cases later : second.getLast? with
  | none =>
    rw [later] at last
    exact line c last
  | some d =>
    rw [later] at last
    exact line' c (later.trans last)

theorem isStatement_nil : IsStatement [] [] where
  scan := fun before rest => rfl
  nested := rfl
  line := fun c last => by cases last
  declares := fun front rest line => rfl

theorem IsStatement.append {first second : List Piece} {constants constants' : List (Text × Text)}
    (statement : IsStatement first constants) (statement' : IsStatement second constants') :
    IsStatement (first ++ second) (constants ++ constants') where
  scan := by
    intro before rest
    rw [textOf_append, List.append_assoc, statement.scan, statement'.scan, List.reverse_append,
      List.append_assoc, List.append_assoc]
  nested := by
    rw [codeOf_append]
    exact wellNested_append statement.nested statement'.nested
  line := by
    rw [textOf_append]
    exact line_append statement.line statement'.line
  declares := by
    intro front rest line
    rw [declaredIn_append statement.nested, statement.declares front _ line,
      statement'.declares _ _ (line_append line statement.line)]

namespace WrittenConstant

/-- What may stand before the word. -/
def lead (declared : WrittenConstant) : Text :=
  if declared.exported then "export " else []

def text (declared : WrittenConstant) : Text :=
  declared.lead ++ (declared.word ++ (" " ++ (declared.name ++ (" = " ++ (declared.value.text ++ ";\n")))))

def pieces (declared : WrittenConstant) : List Piece :=
  codes declared.lead ++ (codes declared.word ++ (codes " " ++ (codes declared.name ++
    (codes " = " ++ (declared.value.piece :: codes ";\n")))))

def entry (declared : WrittenConstant) : Text × Text :=
  (declared.name, declared.value.contents)

theorem isBlank_space : ∀ c ∈ (" " : Text), isBlank c = true := by decide

def declarator (declared : WrittenConstant) : Declarator where
  word := declared.word
  blanks := " "
  name := declared.name
  spaces := " "
  typing := []
  gap := " "
  isWord := declared.isWord
  parted := by decide
  blank := isBlank_space
  identifier := declared.identifier
  blankSpaces := isBlank_space
  isType := .inl rfl
  blankGap := isBlank_space

variable (declared : WrittenConstant)

theorem textOf_pieces : textOf declared.pieces = declared.text := by
  simp only [pieces, text, textOf_append, textOf_codes, StringLiteral.textOf_piece]

theorem mem_lead : ∀ c ∈ declared.lead, c ∈ ("export " : Text) := by
  intro c member
  unfold lead at member
  split at member
  · exact member
  · cases member

theorem stable_pieces : ∀ piece ∈ declared.pieces, piece.Stable := by
  obtain ⟨first, more, isWord, -, wordParts⟩ := exists_declaringWord declared.isWord
  have nameParts := isNamePart_of_isIdentifier declared.identifier
  have lead : ∀ c ∈ declared.lead, isPlain c = true := by
    intro c member
    have plain : ∀ c ∈ ("export " : Text), isPlain c = true := by decide
    exact plain c (declared.mem_lead c member)
  have word : ∀ c ∈ declared.word, isPlain c = true := by
    rw [isWord]
    exact fun c member => isPlain_of_isNamePart (wordParts c member)
  have name : ∀ c ∈ declared.name, isPlain c = true :=
    fun c member => isPlain_of_isNamePart (nameParts c member)
  simp only [pieces, List.forall_mem_append, List.forall_mem_cons]
  exact ⟨stable_codes lead, stable_codes word, stable_codes (by decide), stable_codes name,
    stable_codes (by decide), .string _, stable_codes (by decide)⟩

theorem nested_lead : WellNested declared.lead := by
  apply wellNested_of_no_brackets
  intro c member
  have none : ∀ c ∈ ("export " : Text), isOpener c = false ∧ isCloser c = false := by decide
  exact none c (declared.mem_lead c member)

theorem nested_word : WellNested declared.word := by
  obtain ⟨first, more, isWord, -, parts⟩ := exists_declaringWord declared.isWord
  rw [isWord]
  exact wellNested_of_class isNamePart (by decide) parts

theorem nested_name : WellNested declared.name :=
  wellNested_of_class isNamePart (by decide) (isNamePart_of_isIdentifier declared.identifier)

theorem nested_pieces : WellNested (codeOf declared.pieces) := by
  simp only [pieces, codeOf_append, codeOf_codes, StringLiteral.codeOf_piece]
  have assigned : WellNested (" = " ++ ";\n" : Text) := by decide
  have blank : WellNested (" " : Text) := by decide
  exact wellNested_append declared.nested_lead (wellNested_append declared.nested_word
    (wellNested_append blank (wellNested_append declared.nested_name assigned)))

/-- A declaration gives its constant at its word. -/
theorem constantAt?_word {text rest : Text} {offset : Nat}
    (shape : text.drop offset = declared.declarator.text ++ (declared.value.text ++ (";\n" ++ rest))) :
    constantAt? text offset = some declared.entry := by
  rw [entry, constantAt?_eq_some_iff]
  have string : text.drop (offset + declared.declarator.text.length) =
      declared.value.text ++ (";\n" ++ rest) := by
    rw [← List.drop_drop, shape, List.drop_left]
  refine ⟨declared.declarator.text.length, _, ?_, declared.value.readString_of_drop string, ?_, ?_⟩
  · rw [shape]
    exact declaration?_text declared.declarator declared.value.quote.isQuote_symbol _
  · intro backtick
    apply declared.plain
    have quote : text[offset + declared.declarator.text.length]? =
        some declared.value.quote.symbol := by
      rw [← List.head?_drop, string]
      rfl
    rw [quote] at backtick
    cases kind : declared.value.quote with
    | single => rw [kind] at backtick; cases backtick
    | double => rw [kind] at backtick; cases backtick
    | backtick => rfl
  · rw [← List.drop_drop, string, List.drop_left]
    rfl

theorem declaredIn_lead (front rest : Text) : declaredIn front (codes declared.lead) rest = [] := by
  apply declaredIn_of_not_mem
  intro c listed member
  rw [codeOf_codes] at member
  have absent : ∀ c ∈ ("clv" : Text), c ∉ ("export " : Text) := by decide
  exact absent c listed (declared.mem_lead c member)

theorem free_lead {front : Text} (line : ∀ c ∈ front.getLast?, c = .char '\n') :
    ∀ c ∈ (front ++ declared.lead).getLast?, (isNamePart c || c == '.') = false := by
  intro c last
  unfold lead at last
  split at last
  · rw [List.getLast?_append] at last
    obtain rfl := Option.some.inj last
    decide
  · have newline : c = .char '\n' := line c (by simpa using last)
    rw [newline]
    decide

/-- The word gives the constant. -/
theorem declaredIn_keyword {front : Text} (free : ∀ c ∈ front.getLast?, (isNamePart c || c == '.') = false)
    (rest : Text) : declaredIn front (codes declared.word)
      (" " ++ (declared.name ++ (" = " ++ (declared.value.text ++ (";\n" ++ rest))))) =
        [declared.entry] := by
  have shape : declared.word ++
      (" " ++ (declared.name ++ (" = " ++ (declared.value.text ++ (";\n" ++ rest))))) =
        declared.declarator.text ++ (declared.value.text ++ (";\n" ++ rest)) := by
    rw [declared.declarator.text_append]
    rfl
  obtain ⟨first, more, isWord, starts, parts⟩ := exists_declaringWord declared.isWord
  rw [isWord, List.cons_append] at shape
  rw [isWord, declaredIn_word parts, shape]
  have may : mayDeclare (front ++ (declared.declarator.text ++ (declared.value.text ++ (";\n" ++ rest))))
      ⟨front.length, first, 0⟩ = true := by
    have one : ∀ c ∈ ("clv" : Text), (c == 'c' || c == 'l' || c == 'v') = true := by decide
    have alone : (front.getLast?.any fun d => isNamePart d || d == '.') = false := by
      cases last : front.getLast? with
      | none => rfl
      | some d => exact free d last
    rw [mayDeclare_append, one first starts, alone]
    rfl
  have gives : constantAt? (front ++ (declared.declarator.text ++ (declared.value.text ++ (";\n" ++ rest))))
      front.length = some declared.entry :=
    declared.constantAt?_word List.drop_left
  simp only [declaredAt, List.filter_cons, may, if_true, List.filter_nil, List.filterMap_cons, gives,
    List.filterMap_nil]

/-- The name gives none, not even if it is a word that declares. -/
theorem declaredIn_name (front value : Text) :
    declaredIn front (codes declared.name) (" = " ++ value) = [] := by
  have parts := isNamePart_of_isIdentifier declared.identifier
  have assigned := declaration?_assigned parts value
  cases shape : declared.name with
  | nil => rfl
  | cons first name =>
    rw [shape] at parts assigned
    rw [declaredIn_word parts]
    apply declaredAt_eq_nil
    intro code member may
    obtain rfl := List.mem_singleton.mp member
    rw [constantAt?, List.drop_left]
    simp only [← List.cons_append, assigned]

theorem isStatement_pieces : IsStatement declared.pieces [declared.entry] where
  scan := pieces_textOf declared.stable_pieces
  nested := declared.nested_pieces
  line := by
    intro c last
    rw [textOf_pieces, text] at last
    simp only [List.getLast?_append] at last
    exact (Option.some.inj last).symm
  declares := by
    intro front rest line
    have value : ∀ front, declaredIn front (codes " = " ++ declared.value.piece :: codes ";\n") rest = [] :=
      fun front => declaredIn_of_not_mem (by
        rw [codeOf_append, codeOf_codes, StringLiteral.codeOf_piece, codeOf_codes]; decide) front rest
    have blank : ∀ front rest, declaredIn front (codes " ") rest = [] :=
      declaredIn_of_not_mem (by rw [codeOf_codes]; decide)
    rw [pieces, declaredIn_append (by simpa using declared.nested_lead), declaredIn_lead,
      declaredIn_append (by simpa using declared.nested_word), declaredIn_append (by decide), blank,
      declaredIn_append (by simpa using declared.nested_name), value]
    simp only [textOf_append, textOf_codes, StringLiteral.textOf_piece, List.append_assoc]
    rw [declared.declaredIn_keyword (declared.free_lead line), declaredIn_name]
    rfl

end WrittenConstant

namespace WrittenBlock

def text (block : WrittenBlock) : Text :=
  inBraces block.body ++ [.char '\n']

def pieces (block : WrittenBlock) : List Piece :=
  Source.pieces [] (inBraces block.body) ++ [.code '\n']

variable (block : WrittenBlock)

theorem textOf_pieces : textOf block.pieces = block.text := by
  rw [pieces, textOf_append, Source.textOf_pieces]
  rfl

theorem pieces_inBraces (before : Text) :
    Source.pieces before (inBraces block.body) = Source.pieces [] (inBraces block.body) := by
  have opener (before : Text) : SeenAlike (.char '\x7b' :: before) [] :=
    seenAlike_opener rfl before
  rw [inBraces, pieces_of_isPlain (by decide), pieces_of_isPlain (by decide), ← (opener before).pieces_eq,
    ← (opener []).pieces_eq]

/-- All of the block is between its two braces. -/
theorem exists_inner : ∃ inner, Source.pieces [] (inBraces block.body) =
    enclosed '\x7b' '\x7d' inner ∧ WellNested (codeOf inner) := by
  have code : IsCode (inBraces block.body) 0 '\x7b' :=
    ⟨isBoundary_zero _, _, pieces_of_isPlain (by decide) [] _⟩
  obtain ⟨inner, scan, place, nested⟩ := nested_of_matchingClose block.nested code rfl block.matched
  have last : piecesFrom (inBraces block.body) (block.body.length + 1) = [.code '\x7d'] := by
    have rest : (inBraces block.body).drop (block.body.length + 1) = [.char '\x7d'] := by
      rw [inBraces, List.drop_succ_cons, List.drop_left]
    rw [piecesFrom, rest, pieces_of_isPlain (by decide), Source.pieces]
  refine ⟨inner, ?_, nested⟩
  rw [last] at scan
  rw [enclosed, ← scan]
  exact code.next.2

theorem isStatement_pieces : IsStatement block.pieces [] where
  scan := by
    intro before rest
    have ends : EndsLine (inBraces block.body) rest := by
      intro last
      rw [inBraces, ← List.cons_append, List.getLast?_append] at last
      cases Option.some.inj last
    have closed : ∀ piece ∈ Source.pieces before (inBraces block.body), piece.isClosed = true := by
      rw [block.pieces_inBraces]
      exact block.closed
    have line := pieces_line closed ends
    rw [block.pieces_inBraces] at line
    rw [textOf_pieces, text, pieces]
    simp only [List.append_assoc, List.reverse_append]
    exact line
  nested := by
    obtain ⟨inner, shape, nested⟩ := block.exists_inner
    rw [pieces, codeOf_append, shape]
    exact wellNested_append (wellNested_enclosed rfl nested) rfl
  line := by
    intro c last
    rw [textOf_pieces, text, List.getLast?_append] at last
    exact (Option.some.inj last).symm
  declares := by
    intro front rest line
    obtain ⟨inner, shape, nested⟩ := block.exists_inner
    rw [pieces, shape]
    apply declaredIn_of_avoids
    intro c listed
    have other : c ≠ '\x7b' ∧ c ≠ '\x7d' ∧ c ∉ codeOf [.code '\n'] := by
      revert c
      decide
    exact (avoids_enclosed rfl other.1.symm other.2.1.symm nested).append
      (wellNested_enclosed rfl nested) (avoids_of_not_mem other.2.2)

end WrittenBlock

/-! ## Programs -/

namespace WrittenItem

def text : WrittenItem → Text
  | .constant declared => declared.text
  | .block written => written.text

def pieces : WrittenItem → List Piece
  | .constant declared => declared.pieces
  | .block written => written.pieces

/-- The constants that an item is written to give. -/
def constants : WrittenItem → List (Text × Text)
  | .constant declared => [declared.entry]
  | .block _ => []

theorem textOf_pieces (item : WrittenItem) : textOf item.pieces = item.text := by
  cases item with
  | constant declared => exact declared.textOf_pieces
  | block written => exact written.textOf_pieces

theorem isStatement_pieces (item : WrittenItem) : IsStatement item.pieces item.constants := by
  cases item with
  | constant declared => exact declared.isStatement_pieces
  | block written => exact written.isStatement_pieces

end WrittenItem

theorem isStatement_program (items : List WrittenItem) :
    IsStatement (items.flatMap (·.pieces)) (items.flatMap (·.constants)) := by
  induction items with
  | nil => exact isStatement_nil
  | cons item items ih => exact item.isStatement_pieces.append ih

theorem textOf_program (items : List WrittenItem) :
    textOf (items.flatMap (·.pieces)) = items.flatMap (·.text) := by
  induction items with
  | nil => rfl
  | cons item items ih =>
    rw [List.flatMap_cons, textOf_append, item.textOf_pieces, ih, List.flatMap_cons]

/-- The constants of a program are those that its declarations name, in the order in which they first
do, each with the value of the last declaration of its name. -/
theorem ofText_program (items : List WrittenItem) :
    (ofText (items.flatMap (·.text))).keys =
        ((items.flatMap (·.constants)).map (·.1)).eraseDups ∧
      ∀ name, (ofText (items.flatMap (·.text))).get? name =
        ((items.flatMap (·.constants)).reverse.find? (·.1 = name)).map (·.2) := by
  have statement := isStatement_program items
  have scan := statement.scan [] []
  have given := statement.declares [] [] (fun c last => by cases last)
  rw [declaredIn, textOf_program] at given
  rw [textOf_program] at scan
  simp only [List.append_nil, List.nil_append, List.length_nil, Source.pieces] at scan given
  rw [ofText_eq, scan, given]
  exact ⟨OrderedMap.keys_ofList _, fun name => OrderedMap.get?_ofList_eq _ name⟩

-- A name that is itself a word that declares, and a block that declares it once more.
example :
    let first : WrittenConstant := ⟨true, "let", "const", ⟨.single, "var a = 1;", .inr (by decide)⟩,
      by decide, by decide, by decide⟩
    let block : WrittenBlock := ⟨"const const = 'inner'; /* \x7d */", by decide +kernel, by decide +kernel,
      by decide +kernel⟩
    let second : WrittenConstant := ⟨false, "const", "const", ⟨.backtick, "last\n", .inl rfl⟩,
      by decide, by decide, by decide⟩
    let items : List WrittenItem := [.constant first, .block block, .constant second]
    (ofText (items.flatMap (·.text))).entries = [(("const" : Text), ("last\n" : Text))] := by
  decide +kernel

end SuiteDocs.Constants
