import SuiteDocs.Proofs.Declarators
import SuiteDocs.Proofs.Depths
import SuiteDocs.Proofs.Maps
import SuiteDocs.Proofs.Objects
import SuiteDocs.Proofs.Spans

/-!
Where constants come from.

The word of a declaration is code outside all brackets. From there on a declaration is recognised by its
symbols alone, and a type may have any symbol but three: it may open a comment, a string or a bracket that
is still open at the equals sign. The string of the constant is then one of the text only if the bracket
is closed and the literal ends before the string.
-/

set_option autoImplicit false

namespace SuiteDocs.Source

open SuiteDocs.Text

/-- The number of brackets that the code before an offset leaves open. -/
def depthAt (text : Text) (offset : Nat) : Nat :=
  ((codeBetween text 0 (some offset)).map (·.char)).foldl depthBehind 0

/-- A literal starts here, outside all brackets. -/
def OpensTopLevel (text : Text) (offset : Nat) : Prop :=
  StartsLiteral text offset ∧ depthAt text offset = 0

/-- A symbol that is no bracket and opens no literal. -/
def isQuiet (c : Symbol) : Bool :=
  isPlain c && !isOpener c && !isCloser c

theorem isQuiet_of_class (kind : Symbol → Bool) (plain : ∀ c, kind c = true → isPlain c = true)
    (excluded : ∀ d ∈ ("\x7b\x7d()[]" : Text), kind d = false) {c : Symbol} (listed : kind c = true) :
    isQuiet c = true := by
  obtain ⟨notOpener, notCloser⟩ := not_bracket_of_class kind excluded listed
  rw [isQuiet, plain c listed, notOpener, notCloser]
  rfl

theorem isQuiet_of_isBlank {c : Symbol} (blank : isBlank c = true) : isQuiet c = true :=
  isQuiet_of_class isBlank (fun _ => isPlain_of_isBlank) (by decide) blank

theorem isQuiet_of_isNamePart {c : Symbol} (part : isNamePart c = true) : isQuiet c = true :=
  isQuiet_of_class isNamePart (fun _ => isPlain_of_isNamePart) (by decide) part

theorem isPlain_of_isQuiet {c : Symbol} (quiet : isQuiet c = true) : isPlain c = true := by
  simp only [isQuiet, Bool.and_eq_true] at quiet
  exact quiet.1.1

theorem depthBehind_of_isQuiet {c : Symbol} (quiet : isQuiet c = true) (depth : Nat) :
    depthBehind depth c = depth := by
  simp only [isQuiet, Bool.and_eq_true, Bool.not_eq_true'] at quiet
  obtain ⟨⟨-, notOpener⟩, notCloser⟩ := quiet
  simp [depthBehind, notOpener, notCloser]

/-! ## Depths -/

theorem depthAt_of_free {text : Text} {offset : Nat} {leading following : List Piece}
    (scan : pieces [] text = leading ++ following) (reached : (textOf leading).length ≤ offset)
    (free : ∀ code ∈ codeAt (textOf leading).length (depthAfter 0 leading) following,
      offset ≤ code.offset) :
    depthAt text offset = depthAfter 0 leading := by
  have scanned : piecesFrom text 0 = leading ++ following := scan
  have before : codeBetween text 0 (some offset) = codeAt 0 0 leading := by
    apply codeBetween_of_free scanned
    · simpa using reached
    · simpa using free
  rw [depthAt, before, map_char_codeAt, depthAfter]

theorem depthAt_of_scan {text : Text} {leading following : List Piece}
    (scan : pieces [] text = leading ++ following) :
    depthAt text (textOf leading).length = depthAfter 0 leading :=
  depthAt_of_free scan (Nat.le_refl _) fun _ member => (offset_of_mem_codeAt member).1

/-- Inside a literal the depth is that of its start. -/
theorem depthAt_in_literal {text inner : Text} {first : Symbol} {offset : Nat}
    {leading following : List Piece} (scan : pieces [] text = leading ++ .literal first inner :: following)
    (lower : (textOf leading).length ≤ offset)
    (upper : offset ≤ (textOf leading).length + inner.length + 1) :
    depthAt text offset = depthAfter 0 leading := by
  apply depthAt_of_free scan lower
  intro code member
  rw [codeAt] at member
  exact Nat.le_trans upper (offset_of_mem_codeAt member).1

/-- Quiet symbols behind a boundary are code and keep the depth. -/
theorem IsBoundary.pass {text run rest : Text} {start : Nat} (boundary : IsBoundary text start)
    (quiet : ∀ c ∈ run, isQuiet c = true) (shape : text.drop start = run ++ rest) :
    IsBoundary text (start + run.length) ∧ depthAt text (start + run.length) = depthAt text start := by
  induction run generalizing start with
  | nil => exact ⟨boundary, rfl⟩
  | cons c run ih =>
    obtain ⟨here, later⟩ := List.forall_mem_cons.mp quiet
    have code : IsCode text start c := boundary.code_of_isPlain shape (isPlain_of_isQuiet here)
    obtain ⟨next, scanned⟩ := code.next
    have rest : text.drop (start + 1) = run ++ rest := by
      rw [← List.drop_drop, shape]
      rfl
    obtain ⟨reached, same⟩ := ih next later rest
    obtain ⟨leading, scan, place⟩ := boundary.scan
    have step : depthAt text (start + 1) = depthAt text start := by
      have before := depthAt_of_scan scan
      rw [scanned, ← List.singleton_append, ← List.append_assoc] at scan
      have behind := depthAt_of_scan scan
      rw [textOf_append, List.length_append, place, depthAfter_append, ← before, place] at behind
      exact behind.trans (depthBehind_of_isQuiet here _)
    rw [List.length_cons, Nat.add_comm run.length, ← Nat.add_assoc]
    exact ⟨reached, same.trans step⟩

theorem startsLiteral_of_isQuote {text rest : Text} {quote : Symbol} {offset : Nat}
    (boundary : IsBoundary text offset) (opens : isQuote quote = true)
    (shape : text.drop offset = quote :: rest) : StartsLiteral text offset := by
  obtain ⟨leading, scan, place⟩ := boundary.scan
  rw [piecesFrom, shape, pieces, literalTail?_quote opens] at scan
  exact ⟨_, mem_spansAt.mpr ⟨leading, _, _, _, scan, rfl⟩, by simpa using place⟩

theorem opensTopLevel_of_quiet {text run rest : Text} {quote : Symbol} {start : Nat}
    (boundary : IsBoundary text start) (quiet : ∀ c ∈ run, isQuiet c = true)
    (opens : isQuote quote = true) (shape : text.drop start = run ++ quote :: rest) :
    OpensTopLevel text (start + run.length) ↔ depthAt text start = 0 := by
  obtain ⟨reached, same⟩ := boundary.pass quiet shape
  have behind : text.drop (start + run.length) = quote :: rest := by
    rw [← List.drop_drop, shape, List.drop_left]
  rw [OpensTopLevel, same]
  exact and_iff_right (startsLiteral_of_isQuote reached opens behind)

/-- Two pieces of a scan that hold the same offset are one. -/
theorem piece_unique {leading leading' following following' : List Piece} {piece piece' : Piece}
    {offset : Nat} (same : leading ++ piece :: following = leading' ++ piece' :: following')
    (lower : (textOf leading).length ≤ offset) (upper : offset < (textOf leading).length + piece.length)
    (lower' : (textOf leading').length ≤ offset)
    (upper' : offset < (textOf leading').length + piece'.length) : leading = leading' ∧ piece = piece' := by
  cases Nat.le_total (textOf leading').length (textOf leading).length with
  | inl order =>
    obtain ⟨sameLeading, samePiece, -⟩ := cut_unique same order (by omega)
    exact ⟨sameLeading, samePiece⟩
  | inr order =>
    obtain ⟨sameLeading, samePiece, -⟩ := cut_unique same.symm order (by omega)
    exact ⟨sameLeading.symm, samePiece.symm⟩

/-- A span that holds an offset is that of the piece that does. -/
theorem span_of_contains {text : Text} {leading following : List Piece} {piece : Piece} {offset : Nat}
    (scan : pieces [] text = leading ++ piece :: following) (lower : (textOf leading).length ≤ offset)
    (upper : offset < (textOf leading).length + piece.length) {span : Span}
    (member : span ∈ literalSpans text) (holds : span.contains offset = true) :
    (∃ first inner, piece = .literal first inner) ∧ span.start = (textOf leading).length ∧
      span.stop = (textOf leading).length + piece.length := by
  obtain ⟨leading', first, inner, following', scan', rfl⟩ := mem_spansAt.mp member
  simp only [Span.contains, Bool.and_eq_true, decide_eq_true_eq, Nat.zero_add] at holds
  obtain ⟨rfl, rfl⟩ := piece_unique (scan.symm.trans scan') lower upper holds.1
    (by rw [Piece.length_literal]; omega)
  refine ⟨⟨first, inner, rfl⟩, ?_, ?_⟩
  · simp
  · simp [Nat.add_assoc]

/-- No literal starts inside another. -/
theorem not_startsLiteral_inside {text inner : Text} {first : Symbol} {leading following : List Piece}
    {offset : Nat} (scan : pieces [] text = leading ++ .literal first inner :: following)
    (lower : (textOf leading).length < offset)
    (upper : offset < (textOf leading).length + (Piece.literal first inner).length) :
    ¬ StartsLiteral text offset := by
  intro starts
  obtain ⟨span, member, rfl⟩ := starts
  have nonempty := (literalSpans_ordered text).nonempty span member
  have holds : span.contains span.start = true := by
    simp only [Span.contains, Bool.and_eq_true, decide_eq_true_eq]
    omega
  have own := (span_of_contains scan (Nat.le_of_lt lower) upper member holds).2.1
  omega

/-- Where a literal ends among quiet symbols, what follows them is as deep as the literal. -/
theorem opensTopLevel_behind_literal {text inner run rest : Text} {first quote : Symbol}
    {leading following : List Piece} {start : Nat}
    (scan : pieces [] text = leading ++ .literal first inner :: following)
    (lower : (textOf leading).length ≤ start)
    (upper : start < (textOf leading).length + (Piece.literal first inner).length)
    (ends : (textOf leading).length + (Piece.literal first inner).length ≤ start + run.length)
    (quiet : ∀ c ∈ run, isQuiet c = true) (opens : isQuote quote = true)
    (shape : text.drop start = run ++ quote :: rest) :
    OpensTopLevel text (start + run.length) ↔ depthAt text start = 0 := by
  have same : depthAt text ((textOf leading).length + (Piece.literal first inner).length) =
      depthAt text start := by
    rw [Piece.length_literal] at upper ⊢
    rw [depthAt_in_literal scan lower (by omega), depthAt_in_literal scan (by omega) (by omega)]
  have boundary : IsBoundary text
      ((textOf leading).length + (Piece.literal first inner).length) := by
    refine ⟨leading ++ [.literal first inner], following, by simp [scan], ?_⟩
    rw [textOf_append, List.length_append, length_textOf_cons]
    rfl
  generalize (textOf leading).length + (Piece.literal first inner).length = stop at *
  have behind : text.drop stop = run.drop (stop - start) ++ quote :: rest := by
    rw [← List.drop_append_of_le_length (by omega), ← shape, List.drop_drop]
    congr 1
    omega
  have place : stop + (run.drop (stop - start)).length = start + run.length := by
    rw [List.length_drop]
    omega
  have opened := opensTopLevel_of_quiet boundary
    (fun d member => quiet d (List.mem_of_mem_drop member)) opens behind
  rwa [place, same] at opened

/-- A quote behind quiet symbols opens a literal outside all brackets if no bracket is open before these
symbols, and no literal goes on from the first of them over the quote. -/
theorem opensTopLevel_iff {text run rest : Text} {quote : Symbol} {start : Nat}
    (nonempty : 0 < run.length) (quiet : ∀ c ∈ run, isQuiet c = true) (opens : isQuote quote = true)
    (shape : text.drop start = run ++ quote :: rest) :
    OpensTopLevel text (start + run.length) ↔
      depthAt text start = 0 ∧ ∀ span ∈ literalSpans text,
        span.contains start = true → span.contains (start + run.length) = false := by
  have inside : start < (textOf (pieces [] text)).length := by
    have positive := congrArg List.length shape
    rw [List.length_drop, List.length_append, List.length_cons] at positive
    rw [textOf_pieces]
    omega
  obtain ⟨leading, piece, following, scan, lower, upper⟩ := exists_piece_at inside
  cases piece with
  | code d =>
    have place : (textOf leading).length = start := by
      rw [Piece.length_code] at upper
      omega
    have boundary : IsBoundary text start := ⟨leading, _, scan, place⟩
    rw [opensTopLevel_of_quiet boundary quiet opens shape]
    refine (and_iff_left ?_).symm
    intro span member holds
    obtain ⟨⟨first, inner, literal⟩, -⟩ := span_of_contains scan lower upper member holds
    cases literal
  | literal first inner =>
    by_cases crosses : start + run.length < (textOf leading).length + (Piece.literal first inner).length
    · apply iff_of_false
      · intro opened
        exact not_startsLiteral_inside scan (by omega) crosses opened.1
      · intro given
        have own : (⟨0 + _, 0 + _ + _ + 1⟩ : Span) ∈ literalSpans text :=
          mem_spansAt.mpr ⟨leading, first, inner, following, scan, rfl⟩
        have excluded := given.2 _ own
        rw [Piece.length_literal] at upper crosses
        simp only [Span.contains, Bool.and_eq_true, decide_eq_true_eq, Bool.and_eq_false_iff,
          decide_eq_false_iff_not] at excluded
        omega
    · rw [opensTopLevel_behind_literal scan lower upper (Nat.le_of_not_lt crosses) quiet opens shape]
      refine (and_iff_left ?_).symm
      intro span member holds
      obtain ⟨-, -, ends⟩ := span_of_contains scan lower upper member holds
      simp only [Span.contains, Bool.and_eq_false_iff, decide_eq_false_iff_not]
      omega

end SuiteDocs.Source

namespace SuiteDocs.Constants

open SuiteDocs.Text SuiteDocs.Source

/-- A declaration whose word is code outside all brackets, and which is read as far as its string. -/
structure Declares (text : Text) (declarator : Declarator) (offset : Nat) (value : Text) : Prop where
  word : ∃ c, IsCode text offset c
  outside : depthAt text offset = 0
  string : ∃ quote rest, text.drop offset = declarator.text ++ quote :: rest ∧ isQuote quote = true
  reads : ∃ stop, readString text (offset + declarator.text.length) = .ok (value, stop)

theorem depthAt_of_mayDeclare {text : Text} {code : CodeChar} (member : code ∈ codeBetween text 0 none)
    (may : mayDeclare text code = true) : depthAt text code.offset = 0 := by
  rw [codeBetween_zero] at member
  obtain ⟨leading, following, scan, place⟩ := exists_cut_of_mem_codeAt member
  have starts : ∀ c ∈ ("clv" : Text), isQuiet c = true := by decide
  have quiet := starts code.char (mem_of_mayDeclare may)
  rw [scan] at member
  have depth : code.depth = min (depthAfter 0 leading) (depthBehind (depthAfter 0 leading) code.char) :=
    congrArg CodeChar.depth (eq_of_mem_codeAt member place)
  rw [depthBehind_of_isQuiet quiet, Nat.min_self] at depth
  rw [place, Nat.zero_add, depthAt_of_scan scan, ← depth]
  simp only [mayDeclare, Bool.and_eq_true, beq_iff_eq] at may
  exact may.1.1

theorem exists_declares {text name value : Text} (stored : (ofText text).get? name = some value) :
    ∃ declarator offset, declarator.name = name ∧ Declares text declarator offset value := by
  have listed := OrderedMap.mem_of_get?_ofList stored
  obtain ⟨code, member, gives⟩ := List.mem_filterMap.mp listed
  obtain ⟨member, may⟩ := List.mem_filter.mp member
  obtain ⟨distance, stop, declares, reads, -⟩ := constantAt?_eq_some_iff.mp gives
  obtain ⟨declarator, quote, rest, shape, opens, rfl, rfl⟩ := exists_declarator declares
  exact ⟨declarator, code.offset, rfl, {
    word := ⟨code.char, (mem_codeBetween (isBoundary_zero text) member).1⟩
    outside := depthAt_of_mayDeclare member may
    string := ⟨quote, rest, shape, opens⟩
    reads := ⟨stop, reads⟩ }⟩

theorem Declarator.isQuiet_left (declarator : Declarator)
    (quiet : ∀ c ∈ declarator.typing, isQuiet c = true) : ∀ c ∈ declarator.left, isQuiet c = true := by
  obtain ⟨first, more, isWord, -, parts⟩ := exists_declaringWord declarator.isWord
  rw [← isWord] at parts
  have named := isNamePart_of_isIdentifier declarator.identifier
  simp only [left, List.forall_mem_append]
  exact ⟨fun c member => isQuiet_of_isNamePart (parts c member),
    fun c member => isQuiet_of_isBlank (declarator.blank c member),
    fun c member => isQuiet_of_isNamePart (named c member),
    fun c member => isQuiet_of_isBlank (declarator.blankSpaces c member), quiet⟩

theorem Declarator.isQuiet_assignment (declarator : Declarator) :
    ∀ c ∈ .char '=' :: declarator.gap, isQuiet c = true :=
  List.forall_mem_cons.mpr ⟨by decide, fun c member => isQuiet_of_isBlank (declarator.blankGap c member)⟩

/-- Every stored constant is declared by a word in code outside all brackets and read from a quote behind
its declarator. If the type is quiet, this quote opens a literal outside all brackets. If it is not, the
quote does so if no bracket is open at the equals sign and no literal goes on from there over the quote. -/
theorem origin_of_stored {text name value : Text} (stored : (ofText text).get? name = some value) :
    ∃ (declarator : Declarator) (offset : Nat),
      declarator.name = name ∧ Declares text declarator offset value ∧
      ((∀ c ∈ declarator.typing, isQuiet c = true) →
        OpensTopLevel text (offset + declarator.text.length)) ∧
      (OpensTopLevel text (offset + declarator.text.length) ↔
        depthAt text (offset + declarator.left.length) = 0 ∧ ∀ span ∈ literalSpans text,
          span.contains (offset + declarator.left.length) = true →
            span.contains (offset + declarator.text.length) = false) := by
  obtain ⟨declarator, offset, named, declares⟩ := exists_declares stored
  obtain ⟨first, code⟩ := declares.word
  obtain ⟨quote, rest, shape, opens⟩ := declares.string
  refine ⟨declarator, offset, named, declares, ?_, ?_⟩
  · intro quiet
    have all : ∀ c ∈ declarator.text, isQuiet c = true :=
      List.forall_mem_append.mpr ⟨declarator.isQuiet_left quiet, declarator.isQuiet_assignment⟩
    exact (opensTopLevel_of_quiet code.boundary all opens shape).mpr declares.outside
  · have assigned : text.drop (offset + declarator.left.length) =
        .char '=' :: declarator.gap ++ quote :: rest := by
      rw [← List.drop_drop, shape, Declarator.text, List.append_assoc, List.drop_left]
    have place : offset + declarator.text.length =
        offset + declarator.left.length + (.char '=' :: declarator.gap).length := by
      rw [Declarator.text, List.length_append, Nat.add_assoc]
    rw [place]
    exact opensTopLevel_iff (Nat.succ_pos _) declarator.isQuiet_assignment opens assigned

/-- A type with a comment in it that holds the equals sign but ends before the string. -/
theorem origin_of_stored_comment :
    let text : Text := "let x: a // =\n'b'"
    (ofText text).get? ("x" : Text) = some ("b" : Text) ∧
      ∃ (declarator : Declarator) (offset : Nat),
        declarator.name = "x" ∧ Declares text declarator offset "b" ∧
        ((∀ c ∈ declarator.typing, isQuiet c = true) →
          OpensTopLevel text (offset + declarator.text.length)) ∧
        (OpensTopLevel text (offset + declarator.text.length) ↔
          depthAt text (offset + declarator.left.length) = 0 ∧ ∀ span ∈ literalSpans text,
            span.contains (offset + declarator.left.length) = true →
              span.contains (offset + declarator.text.length) = false) := by
  intro text
  have stored : (ofText text).get? ("x" : Text) = some ("b" : Text) := by decide +kernel
  exact ⟨stored, origin_of_stored stored⟩

/-- A constant whose string is in a comment: no literal that starts outside all brackets has its value. -/
theorem stored_in_comment :
    let text : Text := "let x: string // = 'a'\n"
    (ofText text).get? ("x" : Text) = some ("a" : Text) ∧
      ¬ ∃ offset stop, OpensTopLevel text offset ∧ readString text offset = .ok ("a", stop) := by
  intro text
  refine ⟨by decide +kernel, ?_⟩
  intro given
  obtain ⟨offset, stop, ⟨⟨span, member, rfl⟩, -⟩, reads⟩ := given
  have spans : literalSpans text = [⟨14, 22⟩] := by decide +kernel
  have unread : readString text 14 = .error (.noString 14) := rfl
  rw [spans] at member
  obtain rfl := List.mem_singleton.mp member
  rw [unread] at reads
  cases reads

end SuiteDocs.Constants
