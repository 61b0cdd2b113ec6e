import Mathlib.Data.List.TakeWhile
import SuiteDocs.Source.Piece

/-!
The scan of a text as a whole and from the offsets in it.

A scan that starts between two pieces of the scan of the whole text finds the pieces that follow
there. Whatever is scanned from such a boundary is therefore told apart into code and literals in
one way only, however the scan came to start there. Nothing is said of offsets inside a literal.
-/

set_option autoImplicit false

namespace SuiteDocs.Source

/-- The text that pieces make up. -/
def textOf (scanned : List Piece) : Text :=
  scanned.flatMap Piece.chars

@[simp] theorem textOf_nil : textOf [] = [] := rfl

@[simp] theorem textOf_code (c : Symbol) (rest : List Piece) :
    textOf (.code c :: rest) = c :: textOf rest := rfl

@[simp] theorem textOf_literal (first : Symbol) (inner : Text) (rest : List Piece) :
    textOf (.literal first inner :: rest) = first :: inner ++ textOf rest := rfl

@[simp] theorem textOf_append (leading following : List Piece) :
    textOf (leading ++ following) = textOf leading ++ textOf following :=
  List.flatMap_append

theorem length_textOf_cons (piece : Piece) (rest : List Piece) :
    (textOf (piece :: rest)).length = piece.length + (textOf rest).length :=
  List.length_append

@[simp] theorem Piece.length_code (c : Symbol) : (Piece.code c).length = 1 := rfl

@[simp] theorem Piece.length_literal (first : Symbol) (inner : Text) :
    (Piece.literal first inner).length = inner.length + 1 := rfl

theorem Piece.length_pos (piece : Piece) : 0 < piece.length := by
  cases piece <;> simp

/-- Scanning loses nothing. -/
@[simp] theorem textOf_pieces (before text : Text) : textOf (pieces before text) = text := by
  fun_induction pieces before text with
  | case1 => rfl
  | case2 before c rest plain ih => simp [ih]
  | case3 before c rest count literal ih => simp [ih]

/-- What follows some of the pieces is the scan of what follows their text. -/
theorem pieces_resume {before text : Text} {leading following : List Piece}
    (scan : pieces before text = leading ++ following) :
    following = pieces ((textOf leading).reverse ++ before) (textOf following) := by
  induction leading generalizing before text with
  | nil =>
    have whole : textOf following = text := by rw [← textOf_pieces before text, scan]; rfl
    rw [whole]
    exact scan.symm
  | cons piece leading ih =>
    cases text with
    | nil => simp [pieces] at scan
    | cons c rest =>
      rw [pieces] at scan
      split at scan
      · obtain ⟨head, tail⟩ := List.cons.inj scan
        subst head
        simpa using ih tail
      · obtain ⟨head, tail⟩ := List.cons.inj scan
        subst head
        simpa using ih tail

theorem textOf_piecesFrom (text : Text) (offset : Nat) :
    textOf (piecesFrom text offset) = text.drop offset :=
  textOf_pieces _ _

/-- Going on by whole pieces leads to the ones that follow, wherever the scan started. -/
theorem piecesFrom_advance {text : Text} {start : Nat} {leading following : List Piece}
    (scan : piecesFrom text start = leading ++ following) :
    piecesFrom text (start + (textOf leading).length) = following := by
  have whole : text.drop start = textOf leading ++ textOf following := by
    rw [← textOf_piecesFrom, scan, textOf_append]
  have resumed := pieces_resume scan
  rw [piecesFrom, ← List.drop_drop, whole, List.drop_left, List.take_add, whole, List.take_left,
    List.reverse_append]
  exact resumed.symm

/-- The pieces from an offset between two pieces on are the ones that follow there. -/
theorem piecesFrom_of_scan {text : Text} {leading following : List Piece}
    (scan : pieces [] text = leading ++ following) :
    piecesFrom text (textOf leading).length = following := by
  have start : piecesFrom text 0 = leading ++ following := scan
  have rest := piecesFrom_advance start
  rwa [Nat.zero_add] at rest

/-- The offsets at which the scan of the whole text stands between two pieces, or at an end. -/
def IsBoundary (text : Text) (offset : Nat) : Prop :=
  ∃ leading following, pieces [] text = leading ++ following ∧ (textOf leading).length = offset

theorem isBoundary_zero (text : Text) : IsBoundary text 0 :=
  ⟨[], pieces [] text, rfl, rfl⟩

/-- A scan from a boundary is the rest of the scan of the whole text. -/
theorem IsBoundary.scan {text : Text} {offset : Nat} (boundary : IsBoundary text offset) :
    ∃ leading, pieces [] text = leading ++ piecesFrom text offset ∧
      (textOf leading).length = offset := by
  obtain ⟨leading, following, scan, rfl⟩ := boundary
  exact ⟨leading, by rw [piecesFrom_of_scan scan, scan], rfl⟩

/-- Going on by whole pieces leads from boundary to boundary. -/
theorem IsBoundary.advance {text : Text} {offset : Nat} {leading following : List Piece}
    (boundary : IsBoundary text offset) (scan : piecesFrom text offset = leading ++ following) :
    IsBoundary text (offset + (textOf leading).length) ∧
      piecesFrom text (offset + (textOf leading).length) = following := by
  obtain ⟨earlier, whole, rfl⟩ := boundary.scan
  have longer : pieces [] text = (earlier ++ leading) ++ following := by
    rw [whole, scan, List.append_assoc]
  have count : (textOf (earlier ++ leading)).length =
      (textOf earlier).length + (textOf leading).length := by simp
  exact ⟨⟨_, _, longer, count⟩, piecesFrom_advance scan⟩

theorem textOf_eq_nil_iff {scanned : List Piece} : textOf scanned = [] ↔ scanned = [] := by
  cases scanned with
  | nil => simp
  | cons piece rest => cases piece <;> simp

/-- Between two boundaries there are whole pieces. -/
theorem IsBoundary.between {text : Text} {start stop : Nat} (first : IsBoundary text start)
    (last : IsBoundary text stop) (order : start ≤ stop) :
    ∃ between, piecesFrom text start = between ++ piecesFrom text stop ∧
      stop = start + (textOf between).length := by
  obtain ⟨leading, scan, rfl⟩ := first.scan
  obtain ⟨leading', scan', rfl⟩ := last.scan
  rcases List.append_eq_append_iff.mp (scan.symm.trans scan') with
    ⟨between, rfl, rest⟩ | ⟨between, rfl, rest⟩
  · exact ⟨between, rest, by simp⟩
  · have empty : between = [] := by
      rw [← textOf_eq_nil_iff, ← List.length_eq_zero_iff]
      simp only [textOf_append, List.length_append] at order
      omega
    subst empty
    exact ⟨[], by simp, by simp⟩

/-- A character of code in the scan of the whole text. -/
def IsCode (text : Text) (offset : Nat) (c : Symbol) : Prop :=
  IsBoundary text offset ∧ ∃ rest, piecesFrom text offset = .code c :: rest

theorem IsCode.boundary {text : Text} {offset : Nat} {c : Symbol} (code : IsCode text offset c) :
    IsBoundary text offset := code.1

/-- After a character of code there is a boundary. -/
theorem IsCode.next {text : Text} {offset : Nat} {c : Symbol} (code : IsCode text offset c) :
    IsBoundary text (offset + 1) ∧
      piecesFrom text offset = .code c :: piecesFrom text (offset + 1) := by
  obtain ⟨boundary, rest, scan⟩ := code
  have cut : piecesFrom text offset = [.code c] ++ rest := scan
  obtain ⟨next, following⟩ := boundary.advance cut
  have same : piecesFrom text (offset + 1) = rest := following
  exact ⟨next, by rw [scan, same]⟩

theorem IsCode.drop {text : Text} {offset : Nat} {c : Symbol} (code : IsCode text offset c) :
    text.drop offset = c :: text.drop (offset + 1) := by
  rw [← textOf_piecesFrom, code.next.2, textOf_code, textOf_piecesFrom]

theorem IsCode.getElem? {text : Text} {offset : Nat} {c : Symbol} (code : IsCode text offset c) :
    text[offset]? = some c := by
  rw [← List.head?_drop, code.drop]
  rfl

theorem IsCode.lt {text : Text} {offset : Nat} {c : Symbol} (code : IsCode text offset c) :
    offset < text.length :=
  (List.getElem?_eq_some_iff.mp code.getElem?).1

/-! ## Where literals end -/

theorem stringEnd_length_le (quote : Symbol) (text : Text) :
    (stringEnd quote text).length ≤ text.length := by
  fun_induction stringEnd quote text with
  | case1 => exact Nat.le_refl _
  | case2 => exact Nat.le_refl _
  | case3 next rest ih => exact Nat.add_le_add_right ih 2
  | case4 c rest notEscape notEscaped closes => simp
  | case5 c rest notEscape notEscaped unclosed breaks => exact Nat.zero_le _
  | case6 c rest notEscape notEscaped unclosed goesOn ih => exact Nat.add_le_add_right ih 1

theorem blockCommentLength_le (text : Text) : blockCommentLength text ≤ text.length := by
  fun_induction blockCommentLength text with
  | case1 => exact Nat.le_refl _
  | case2 => simp
  | case3 c rest notClosed ih => exact Nat.add_le_add_right ih 1

theorem regexLength?_le {inSet : Bool} {text : Text} {count : Nat}
    (found : regexLength? inSet text = some count) : count ≤ text.length := by
  fun_induction regexLength? inSet text generalizing count with
  | case1 => cases found
  | case2 => cases found
  | case3 inSet next rest ih =>
    obtain ⟨inner, counted, rfl⟩ := Option.map_eq_some_iff.mp found
    exact Nat.add_le_add_right (ih counted) 2
  | case4 => cases found
  | case5 c rest notEscape notEscaped notBreak ih =>
    obtain ⟨inner, counted, rfl⟩ := Option.map_eq_some_iff.mp found
    exact Nat.add_le_add_right (ih counted) 1
  | case6 inSet c rest notEscape notEscaped notBreak outside closes =>
    obtain rfl := Option.some.inj found
    exact Nat.add_le_add_right (List.takeWhile_prefix _).length_le 1
  | case7 inSet c rest notEscape notEscaped notBreak outside goesOn ih =>
    obtain ⟨inner, counted, rfl⟩ := Option.map_eq_some_iff.mp found
    exact Nat.add_le_add_right (ih counted) 1

/-- A literal lies in the text. -/
theorem literalTail?_le {before rest : Text} {c : Symbol} {count : Nat}
    (literal : literalTail? before c rest = some count) : count ≤ rest.length := by
  unfold literalTail? at literal
  split at literal
  · obtain rfl := Option.some.inj literal
    exact stringEnd_length_le c rest
  · split at literal
    · split at literal
      · cases literal
      · obtain rfl := Option.some.inj literal
        exact (List.takeWhile_prefix _).length_le
      · obtain rfl := Option.some.inj literal
        exact Nat.add_le_add_right (blockCommentLength_le _) 1
      · split at literal
        · exact regexLength?_le literal
        · cases literal
    · cases literal

/-- A symbol that opens no literal, wherever it stands. -/
def isPlain (c : Symbol) : Bool :=
  !isQuote c && c != '/'

theorem literalTail?_of_isPlain {c : Symbol} (plain : isPlain c = true) (before rest : Text) :
    literalTail? before c rest = none := by
  simp only [isPlain, Bool.and_eq_true, Bool.not_eq_true', bne_iff_ne] at plain
  simp [literalTail?, plain.1, plain.2]

/-- At a boundary, a symbol that opens no literal is code. -/
theorem IsBoundary.code_of_isPlain {text : Text} {offset : Nat} {c : Symbol} {rest : Text}
    (boundary : IsBoundary text offset) (shape : text.drop offset = c :: rest)
    (plain : isPlain c = true) : IsCode text offset c := by
  refine ⟨boundary, pieces (c :: (text.take offset).reverse) rest, ?_⟩
  rw [piecesFrom, shape, pieces, literalTail?_of_isPlain plain]

/-! ## Spans of literals -/

theorem mem_spansAt {offset : Nat} {scanned : List Piece} {span : Span} :
    span ∈ spansAt offset scanned ↔ ∃ leading first inner following,
      scanned = leading ++ .literal first inner :: following ∧
        span = ⟨offset + (textOf leading).length,
          offset + (textOf leading).length + inner.length + 1⟩ := by
  induction scanned generalizing offset with
  | nil => simp [spansAt]
  | cons piece rest ih =>
    cases piece with
    | code c =>
      rw [spansAt, ih]
      constructor
      · rintro ⟨leading, first, inner, following, rfl, rfl⟩
        refine ⟨.code c :: leading, first, inner, following, rfl, ?_⟩
        simp only [textOf_code, List.length_cons, Span.mk.injEq]
        omega
      · rintro ⟨leading, first, inner, following, shape, rfl⟩
        cases leading with
        | nil => simp at shape
        | cons piece leading =>
          obtain ⟨head, tail⟩ := List.cons.inj shape
          subst head
          refine ⟨leading, first, inner, following, tail, ?_⟩
          simp only [textOf_code, List.length_cons, Span.mk.injEq]
          omega
    | literal mark contents =>
      rw [spansAt, List.mem_cons, ih]
      constructor
      · rintro (rfl | ⟨leading, first, inner, following, rfl, rfl⟩)
        · exact ⟨[], mark, contents, rest, rfl, by simp⟩
        · refine ⟨.literal mark contents :: leading, first, inner, following, rfl, ?_⟩
          simp only [textOf_literal, List.length_append, List.length_cons, Span.mk.injEq]
          omega
      · rintro ⟨leading, first, inner, following, shape, rfl⟩
        cases leading with
        | nil =>
          obtain ⟨head, tail⟩ := List.cons.inj shape
          obtain ⟨rfl, rfl⟩ := Piece.literal.inj head
          exact .inl (by simp)
        | cons piece leading =>
          obtain ⟨head, tail⟩ := List.cons.inj shape
          subst head
          refine .inr ⟨leading, first, inner, following, tail, ?_⟩
          simp only [textOf_literal, List.length_append, List.length_cons, Span.mk.injEq]
          omega

/-- Every offset of a scanned text lies in one of the pieces. -/
theorem exists_piece_at {scanned : List Piece} {offset : Nat}
    (inside : offset < (textOf scanned).length) :
    ∃ leading piece following, scanned = leading ++ piece :: following ∧
      (textOf leading).length ≤ offset ∧ offset < (textOf leading).length + piece.length := by
  induction scanned generalizing offset with
  | nil => simp at inside
  | cons piece rest ih =>
    rw [length_textOf_cons] at inside
    by_cases here : offset < piece.length
    · exact ⟨[], piece, rest, rfl, Nat.zero_le _, by simpa using here⟩
    · have later : offset - piece.length < (textOf rest).length := by omega
      obtain ⟨leading, other, following, rfl, lower, upper⟩ := ih later
      refine ⟨piece :: leading, other, following, rfl, ?_, ?_⟩ <;>
        · rw [length_textOf_cons]
          omega

/-- Two cuts of one scan at the same offset, before a piece each, are the same cut. -/
theorem cut_unique {leading leading' following following' : List Piece} {piece piece' : Piece}
    (same : leading ++ piece :: following = leading' ++ piece' :: following')
    (lower : (textOf leading').length ≤ (textOf leading).length)
    (upper : (textOf leading).length < (textOf leading').length + piece'.length) :
    leading = leading' ∧ piece = piece' ∧ following = following' := by
  rcases List.append_eq_append_iff.mp same with ⟨between, rfl, rest⟩ | ⟨between, rfl, rest⟩
  · cases between with
    | nil =>
      obtain ⟨rfl, rfl⟩ := List.cons.inj rest
      exact ⟨by simp, rfl, rfl⟩
    | cons other between =>
      have positive := piece.length_pos
      obtain ⟨rfl, -⟩ := List.cons.inj rest
      rw [textOf_append, List.length_append, length_textOf_cons] at lower
      omega
  · cases between with
    | nil =>
      obtain ⟨rfl, rfl⟩ := List.cons.inj rest
      exact ⟨by simp, rfl, rfl⟩
    | cons other between =>
      obtain ⟨rfl, -⟩ := List.cons.inj rest
      rw [textOf_append, List.length_append, length_textOf_cons] at upper
      omega

/-- Exactly the characters of code lie outside all literals and comments. -/
theorem insideLiteral_eq_false_iff {text : Text} {offset : Nat} (inside : offset < text.length) :
    insideLiteral text offset = false ↔ ∃ c, IsCode text offset c := by
  constructor
  · intro outside
    rw [← textOf_pieces [] text] at inside
    obtain ⟨leading, piece, following, scan, lower, upper⟩ := exists_piece_at inside
    cases piece with
    | code c =>
      have here : (textOf leading).length = offset := by
        rw [Piece.length_code] at upper
        omega
      refine ⟨c, ⟨leading, .code c :: following, scan, here⟩, following, ?_⟩
      rw [← here, piecesFrom_of_scan scan]
    | literal first inner =>
      have member : (⟨0 + _, 0 + _ + _ + 1⟩ : Span) ∈ literalSpans text :=
        mem_spansAt.mpr ⟨leading, first, inner, following, scan, rfl⟩
      have excluded := List.any_eq_false.mp outside _ member
      rw [Piece.length_literal] at upper
      simp only [Span.contains, Bool.and_eq_true, decide_eq_true_eq] at excluded
      omega
  · rintro ⟨c, boundary, rest, code⟩
    obtain ⟨leading, scan, here⟩ := boundary.scan
    rw [insideLiteral, List.any_eq_false]
    intro span member
    obtain ⟨earlier, first, inner, following, shape, rfl⟩ := mem_spansAt.mp member
    simp only [Span.contains, Bool.and_eq_true, decide_eq_true_eq, Nat.zero_add]
    rintro ⟨lower, upper⟩
    rw [code] at scan
    have same := cut_unique (scan.symm.trans shape) (by omega)
      (by rw [Piece.length_literal]; omega)
    cases same.2.1

/-! ## Characters of code -/

/-- A character of code of the scanned pieces is one of the pieces, at its own offset. -/
theorem exists_cut_of_mem_codeAt {offset depth : Nat} {scanned : List Piece} {code : CodeChar}
    (member : code ∈ codeAt offset depth scanned) :
    ∃ leading following, scanned = leading ++ .code code.char :: following ∧
      code.offset = offset + (textOf leading).length := by
  induction scanned generalizing offset depth with
  | nil => simp [codeAt] at member
  | cons piece rest ih =>
    have later {depth : Nat} (member : code ∈ codeAt (offset + piece.length) depth rest) :
        ∃ leading following, piece :: rest = leading ++ .code code.char :: following ∧
          code.offset = offset + (textOf leading).length := by
      obtain ⟨leading, following, rfl, place⟩ := ih member
      exact ⟨piece :: leading, following, rfl, by rw [place, length_textOf_cons]; omega⟩
    cases piece with
    | literal first inner =>
      rw [codeAt] at member
      exact later (by simpa [Nat.add_assoc] using member)
    | code c =>
      rw [codeAt] at member
      have here {depth next : Nat} (member : code ∈ ⟨offset, c, depth⟩ ::
          codeAt (offset + 1) next rest) :
          ∃ leading following, .code c :: rest = leading ++ .code code.char :: following ∧
            code.offset = offset + (textOf leading).length := by
        rcases List.mem_cons.mp member with rfl | member
        · exact ⟨[], rest, rfl, rfl⟩
        · exact later member
      split at member
      · exact here member
      · split at member
        · exact here member
        · exact here member

theorem mem_codeBetween {text : Text} {start : Nat} {stop : Option Nat} {code : CodeChar}
    (boundary : IsBoundary text start) (member : code ∈ codeBetween text start stop) :
    IsCode text code.offset code.char ∧ start ≤ code.offset ∧
      ∀ bound ∈ stop, code.offset < bound := by
  obtain ⟨leading, following, scan, place⟩ :=
    exists_cut_of_mem_codeAt (List.takeWhile_subset _ member)
  obtain ⟨next, rest⟩ := boundary.advance scan
  have below := List.mem_takeWhile_imp member
  refine ⟨⟨place ▸ next, following, place ▸ rest⟩, by omega, ?_⟩
  rintro bound rfl
  simpa using below

/-- A token found outside all brackets starts with a character of code. -/
theorem findTopLevel?_isCode {text token : Text} {c : Symbol} {start : Nat} {stop : Option Nat}
    {found : Nat} (boundary : IsBoundary text start)
    (finds : findTopLevel? text (c :: token) start stop = some found) :
    IsCode text found c ∧ start ≤ found ∧ (∀ bound ∈ stop, found < bound) ∧
      token <+: text.drop (found + 1) := by
  obtain ⟨code, chosen, rfl⟩ := Option.map_eq_some_iff.mp finds
  have member := (List.mem_filter.mp (List.mem_of_find?_eq_some chosen)).1
  obtain ⟨isCode, lower, upper⟩ := mem_codeBetween boundary member
  have stands := List.find?_some chosen
  simp only [List.isPrefixOf_iff_prefix, isCode.drop, List.cons_prefix_cons] at stands
  exact ⟨stands.1 ▸ isCode, lower, upper, stands.2⟩

end SuiteDocs.Source
