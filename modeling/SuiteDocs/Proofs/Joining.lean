import SuiteDocs.Proofs.Extracts

/-!
Texts joined at a line break.

A string or a block comment that is closed ends where it did, whatever follows, and a line break ends
all else that a text may leave open. Only a backslash takes a line break with it: an attempt at a regular
expression that stops at a backslash goes on in the next line.
-/

set_option autoImplicit false

namespace SuiteDocs.Source

open SuiteDocs.Text

/-! ## Closed literals -/

/-- Whether a string or a block comment is closed. All other pieces are. -/
def Piece.isClosed : Piece → Bool
  | .code _ => true
  | .literal first inner =>
    if isQuote first then (stringEnd first inner).closed
    else match inner with
      | .char '*' :: comment => ("*/" : Text).isSuffixOf comment
      | _ => true

/-- Every string and every block comment of a text is closed. -/
def HasClosedLiterals (text : Text) : Prop :=
  ∀ piece ∈ pieces [] text, piece.isClosed = true

instance (text : Text) : Decidable (HasClosedLiterals text) :=
  inferInstanceAs (Decidable (∀ piece ∈ pieces [] text, piece.isClosed = true))

theorem Piece.isClosed_string {first : Symbol} (quote : isQuote first = true) (inner : Text) :
    (Piece.literal first inner).isClosed = (stringEnd first inner).closed := by
  simp [isClosed, quote]

theorem stringEnd_append {quote : Symbol} {part : Text} (closed : (stringEnd quote part).closed = true)
    (rest : Text) : stringEnd quote (part ++ rest) = stringEnd quote part := by
  fun_induction stringEnd quote part with
  | case1 => cases closed
  | case2 => cases closed
  | case3 c part ih => rw [List.cons_append, List.cons_append, stringEnd_escaped, ih closed]
  | case4 c part alone followed closes =>
    obtain rfl := beq_iff_eq.mp closes
    rw [List.cons_append, stringEnd_quote (ne_backslash_of_unescaped alone followed)]
  | case5 => cases closed
  | case6 c part alone followed inner goesOn ih =>
    have plain := ne_backslash_of_unescaped alone followed
    have inner : c ≠ quote := by simpa using inner
    have fits : quote = .char '`' ∨ c ≠ .char '\n' := by
      simp at goesOn
      tauto
    rw [List.cons_append, stringEnd_other plain inner fits, ih closed]

/-- A string that is closed by itself is closed in its place, and ends there where it does by itself. -/
theorem stringEnd_of_closed {quote : Symbol} {text : Text}
    (closed : (stringEnd quote (text.take (stringEnd quote text).length)).closed = true) (rest : Text) :
    stringEnd quote (text ++ rest) = stringEnd quote text := by
  have whole := stringEnd_append closed (text.drop (stringEnd quote text).length)
  rw [List.take_append_drop] at whole
  rw [← whole] at closed
  exact stringEnd_append closed rest

theorem blockCommentLength_closed (contents rest : Text) :
    blockCommentLength (contents ++ .char '*' :: .char '/' :: rest) =
      blockCommentLength (contents ++ [.char '*', .char '/']) := by
  induction contents with
  | nil => rfl
  | cons c contents ih =>
    cases contents with
    | nil =>
      simp only [List.cons_append, List.nil_append, blockCommentLength_cons_cons c] at ih ⊢
      rw [ih]
    | cons d contents =>
      simp only [List.cons_append, blockCommentLength_cons_cons c d] at ih ⊢
      rw [ih]

theorem blockCommentLength_of_closed {text : Text}
    (closed : ("*/" : Text).isSuffixOf (text.take (blockCommentLength text)) = true) (rest : Text) :
    blockCommentLength (text ++ rest) = blockCommentLength text := by
  obtain ⟨contents, shape⟩ := List.isSuffixOf_iff_suffix.mp closed
  have whole : text = contents ++ .char '*' :: .char '/' :: text.drop (blockCommentLength text) := by
    have parts := List.take_append_drop (blockCommentLength text) text
    rw [← shape, List.append_assoc] at parts
    exact parts.symm
  rw [whole, List.append_assoc, List.cons_append, List.cons_append, blockCommentLength_closed,
    ← blockCommentLength_closed contents]

/-! ## A line break behind a text -/

section Line

variable {more : Text}

/-- What follows a line break matters to the text before it only if that text ends in a backslash, and
then only as the rest of a regular expression. -/
def EndsLine (part more : Text) : Prop :=
  part.getLast? = some (.char '\\') → ∀ inSet, regexLength? inSet more = none

theorem EndsLine.tail {c : Symbol} {part : Text} (ends : EndsLine (c :: part) more) :
    EndsLine part more := by
  intro last
  apply ends
  rw [List.getLast?_cons, last]
  rfl

theorem EndsLine.drop {part : Text} (ends : EndsLine part more) (count : Nat) :
    EndsLine (part.drop count) more := by
  induction count generalizing part with
  | zero => exact ends
  | succ count ih =>
    cases part with
    | nil => exact ends
    | cons c part => exact ih ends.tail

theorem regexLength?_line {part : Text} (ends : EndsLine part more) (inSet : Bool) :
    regexLength? inSet (part ++ .char '\n' :: more) = regexLength? inSet part := by
  fun_induction regexLength? inSet part with
  | case1 => rw [List.nil_append, regexLength?_unescaped (by decide), if_pos (by decide)]
  | case2 inSet =>
    rw [List.cons_append, List.nil_append, regexLength?_escaped, ends rfl]
    rfl
  | case3 inSet c part ih =>
    rw [List.cons_append, List.cons_append, regexLength?_escaped, ih ends.tail.tail]
  | case4 inSet c part alone followed breaks =>
    have plain := ne_backslash_of_unescaped alone followed
    rw [List.cons_append, regexLength?_unescaped plain, if_pos breaks]
  | case5 c part alone followed goesOn ih =>
    have plain := ne_backslash_of_unescaped alone followed
    rw [List.cons_append, regexLength?_unescaped plain, if_neg goesOn, if_pos rfl, ih ends.tail]
  | case6 inSet c part alone followed goesOn outside closes =>
    have plain := ne_backslash_of_unescaped alone followed
    rw [List.cons_append, regexLength?_unescaped plain, if_neg goesOn, if_neg outside, if_pos closes,
      takeWhile_before (by decide)]
  | case7 inSet c part alone followed goesOn outside inner ih =>
    have plain := ne_backslash_of_unescaped alone followed
    rw [List.cons_append, regexLength?_unescaped plain, if_neg goesOn, if_neg outside, if_neg inner,
      ih ends.tail]

theorem literalTail?_line {before part : Text} {c : Symbol} (ends : EndsLine part more)
    (closed : ∀ count, literalTail? before c part = some count →
      (Piece.literal c (part.take count)).isClosed = true) :
    literalTail? before c (part ++ .char '\n' :: more) = literalTail? before c part := by
  cases quote : isQuote c with
  | true =>
    rw [literalTail?_quote quote] at closed ⊢
    have closed := closed _ rfl
    rw [Piece.isClosed_string quote] at closed
    rw [literalTail?_quote quote, stringEnd_of_closed closed]
  | false =>
    by_cases slash : c = '/'
    · subst slash
      cases part with
      | nil =>
        have nothing := @regexLength?_line more [] ends false
        rw [List.nil_append] at nothing ⊢
        rw [literalTail?_slash, if_neg (by decide), if_neg (by decide), nothing]
        exact ite_self _
      | cons d part =>
        rw [literalTail?_slash] at closed ⊢
        rw [List.cons_append, literalTail?_slash, ← List.cons_append, regexLength?_line ends]
        by_cases line : d = .char '/'
        · rw [if_pos line, if_pos line, lineCommentLength, takeWhile_before (by decide)]
          rfl
        · rw [if_neg line, if_neg line]
          by_cases block : d = .char '*'
          · rw [if_neg line, if_pos block] at closed
            have closed := closed _ rfl
            rw [block, List.take_succ_cons] at closed
            rw [if_pos block, if_pos block, blockCommentLength_of_closed closed]
          · rw [if_neg block, if_neg block]
    · rw [literalTail?_of_ne quote slash, literalTail?_of_ne quote slash]

theorem pieces_of_isPlain {c : Symbol} (plain : isPlain c = true) (before rest : Text) :
    pieces before (c :: rest) = .code c :: pieces (c :: before) rest := by
  rw [pieces, literalTail?_of_isPlain plain]

/-- A text whose strings and block comments are closed is scanned before a line break as by itself. -/
theorem pieces_line {before part : Text}
    (closed : ∀ piece ∈ pieces before part, piece.isClosed = true) (ends : EndsLine part more) :
    pieces before (part ++ .char '\n' :: more) =
      pieces before part ++ .code '\n' :: pieces (.char '\n' :: (part.reverse ++ before)) more := by
  induction before, part using pieces.induct with
  | case1 before =>
    rw [List.nil_append, pieces_of_isPlain (by decide), pieces]
    rfl
  | case2 before c part code ih =>
    rw [pieces, code] at closed
    have same : literalTail? before c (part ++ .char '\n' :: more) = none := by
      rw [literalTail?_line ends.tail, code]
      intro count literal
      rw [code] at literal
      cases literal
    rw [List.cons_append, pieces, same, pieces, code]
    simp only [List.cons_append, List.reverse_cons, List.append_assoc]
    rw [ih (fun piece member => closed piece (List.mem_cons_of_mem _ member)) ends.tail]
    rfl
  | case3 before c part count literal ih =>
    rw [pieces, literal] at closed
    have within := literalTail?_le literal
    have same : literalTail? before c (part ++ .char '\n' :: more) = some count := by
      rw [literalTail?_line ends.tail, literal]
      intro other literal'
      obtain rfl := Option.some.inj (literal.symm.trans literal')
      exact closed _ List.mem_cons_self
    have whole : (part.drop count).reverse ++ ((part.take count).reverse ++ c :: before) =
        (c :: part).reverse ++ before := by
      rw [← List.append_assoc, ← List.reverse_append, List.take_append_drop, List.reverse_cons,
        List.append_assoc]
      rfl
    rw [List.cons_append, pieces, same, pieces, literal]
    simp only
    rw [List.take_append_of_le_length within, List.drop_append_of_le_length within,
      ih (fun piece member => closed piece (List.mem_cons_of_mem _ member)) (ends.tail.drop count),
      whole, List.cons_append]

end Line

/-! ## A line that only separates -/

/-- What joins two texts: a line of its own with nothing but a semicolon. -/
def seam : Text := "\n;\n"

theorem endsLine_seam (part rest : Text) : EndsLine part (.char ';' :: .char '\n' :: rest) := by
  intro _ inSet
  rw [regexLength?_unescaped (by decide)]
  cases inSet with
  | false => rw [regexLength?_unescaped (by decide)]; rfl
  | true => rw [regexLength?_unescaped (by decide)]; rfl

/-- Texts joined by the seam are scanned like each by itself. -/
theorem pieces_joined {first : Text} (closed : HasClosedLiterals first) (second : Text) :
    pieces [] (first ++ (seam ++ second)) = pieces [] first ++ (codes seam ++ pieces [] second) := by
  have shape : first ++ (seam ++ second) =
      first ++ .char '\n' :: .char ';' :: .char '\n' :: second := rfl
  have alike : SeenAlike (.char '\n' :: .char ';' :: .char '\n' :: (first.reverse ++ [])) [] :=
    seenAlike_start (by decide) (by decide) rfl
  rw [shape, pieces_line closed (endsLine_seam first second), pieces_of_isPlain (by decide),
    pieces_of_isPlain (by decide), ← alike.pieces_eq second]
  rfl

end SuiteDocs.Source
