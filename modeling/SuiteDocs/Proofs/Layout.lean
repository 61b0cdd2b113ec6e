import SuiteDocs.Proofs.Nesting
import SuiteDocs.Proofs.Segments
import SuiteDocs.Proofs.Strings

/-!
Passages of a text.

Code without quotes and slashes, and closed strings, are scanned in the same way wherever they
stand. A text made of such pieces is therefore scanned as them, and whatever is sought in the text
is found among them: the bracket that closes a passage, a token outside all brackets, the next
character that is no white space.
-/

set_option autoImplicit false

namespace SuiteDocs.Source

open SuiteDocs.Text

/-- A text as characters of code. -/
def codes (text : Text) : List Piece :=
  text.map .code

@[simp] theorem codes_nil : codes [] = [] := rfl

@[simp] theorem codes_cons (c : Symbol) (text : Text) :
    codes (c :: text) = .code c :: codes text := rfl

@[simp] theorem codes_append (first second : Text) :
    codes (first ++ second) = codes first ++ codes second :=
  List.map_append

@[simp] theorem textOf_codes (text : Text) : textOf (codes text) = text := by
  induction text with
  | nil => rfl
  | cons c text ih => rw [codes_cons, textOf_code, ih]

@[simp] theorem codeOf_codes (text : Text) : codeOf (codes text) = text := by
  induction text with
  | nil => rfl
  | cons c text ih => rw [codes_cons, codeOf_code, ih]

/-- Pieces between two brackets. -/
def enclosed (opener closer : Symbol) (inner : List Piece) : List Piece :=
  .code opener :: (inner ++ [.code closer])

@[simp] theorem textOf_enclosed (opener closer : Symbol) (inner : List Piece) :
    textOf (enclosed opener closer inner) = opener :: (textOf inner ++ [closer]) := by
  simp [enclosed]

/-- A string as a piece. -/
def StringLiteral.piece (string : StringLiteral) : Piece :=
  .literal string.quote.symbol string.tail

@[simp] theorem StringLiteral.textOf_piece (string : StringLiteral) (rest : List Piece) :
    textOf (string.piece :: rest) = string.text ++ textOf rest := rfl

theorem StringLiteral.textOf_singleton (string : StringLiteral) :
    textOf [string.piece] = string.text :=
  List.append_nil _

@[simp] theorem StringLiteral.codeOf_piece (string : StringLiteral) (rest : List Piece) :
    codeOf (string.piece :: rest) = codeOf rest := rfl

/-! ## Pieces that are scanned alike everywhere -/

/-- Pieces that do not depend on what stands around them. -/
inductive Piece.Stable : Piece → Prop where
  | code {c : Symbol} (plain : isPlain c = true) : Stable (.code c)
  | string (string : StringLiteral) : Stable string.piece

theorem stable_codes {text : Text} (plain : ∀ c ∈ text, isPlain c = true) :
    ∀ piece ∈ codes text, piece.Stable := by
  intro piece member
  obtain ⟨c, listed, rfl⟩ := List.mem_map.mp member
  exact .code (plain c listed)

/-- The scan of a text that begins with stable pieces begins with them. -/
theorem pieces_textOf {scanned : List Piece} (stable : ∀ piece ∈ scanned, piece.Stable)
    (before rest : Text) :
    pieces before (textOf scanned ++ rest) =
      scanned ++ pieces ((textOf scanned).reverse ++ before) rest := by
  induction scanned generalizing before with
  | nil => rfl
  | cons piece scanned ih =>
    have inner := ih fun piece member => stable piece (List.mem_cons_of_mem _ member)
    cases stable piece List.mem_cons_self with
    | @code c plain =>
      rw [textOf_code, List.cons_append, pieces, literalTail?_of_isPlain plain]
      simp [inner]
    | string string =>
      have ends : literalTail? before string.quote.symbol
          (string.tail ++ (textOf scanned ++ rest)) = some string.tail.length := by
        unfold literalTail?
        rw [if_pos string.quote.isQuote_symbol, string.stringEnd_tail]
      rw [StringLiteral.textOf_piece, StringLiteral.text, List.cons_append, List.cons_append,
        List.append_assoc, pieces, ends]
      simp [inner, StringLiteral.piece]

/-- A text made of stable pieces is scanned as them. -/
theorem pieces_of_stable {scanned : List Piece} (stable : ∀ piece ∈ scanned, piece.Stable) :
    pieces [] (textOf scanned) = scanned := by
  have scan := pieces_textOf stable [] []
  simpa [pieces] using scan

/-! ## Where pieces stand -/

theorem slice_of_scan {text : Text} {start : Nat} {leading following : List Piece}
    (scan : piecesFrom text start = leading ++ following) :
    slice text start (start + (textOf leading).length) = textOf leading := by
  rw [slice, ← textOf_piecesFrom, scan, textOf_append, Nat.add_sub_cancel_left, List.take_left]

/-- The scan of the text goes on with the given pieces at an offset. -/
def Stands (text : Text) (start : Nat) (part : List Piece) : Prop :=
  IsBoundary text start ∧ ∃ following, piecesFrom text start = part ++ following

theorem stands_textOf {scanned : List Piece} (stable : ∀ piece ∈ scanned, piece.Stable) :
    Stands (textOf scanned) 0 scanned :=
  ⟨isBoundary_zero _, [], (pieces_of_stable stable).trans (List.append_nil _).symm⟩

namespace Stands

variable {text : Text} {start : Nat} {part first second : List Piece}

theorem left (stands : Stands text start (first ++ second)) : Stands text start first := by
  obtain ⟨boundary, following, scan⟩ := stands
  exact ⟨boundary, second ++ following, by rw [scan, List.append_assoc]⟩

theorem right (stands : Stands text start (first ++ second)) :
    Stands text (start + (textOf first).length) second := by
  obtain ⟨boundary, following, scan⟩ := stands
  rw [List.append_assoc] at scan
  obtain ⟨next, rest⟩ := boundary.advance scan
  exact ⟨next, following, rest⟩

theorem next {c : Symbol} (stands : Stands text start (.code c :: part)) :
    Stands text (start + 1) part := by
  have cut : Stands text start ([.code c] ++ part) := stands
  exact cut.right

theorem isCode {c : Symbol} (stands : Stands text start (.code c :: part)) :
    IsCode text start c := by
  obtain ⟨boundary, following, scan⟩ := stands
  exact ⟨boundary, part ++ following, scan⟩

theorem drop (stands : Stands text start part) : ∃ rest, text.drop start = textOf part ++ rest := by
  obtain ⟨-, following, scan⟩ := stands
  exact ⟨textOf following, by rw [← textOf_piecesFrom, scan, textOf_append]⟩

theorem slice (stands : Stands text start part) :
    slice text start (start + (textOf part).length) = textOf part := by
  obtain ⟨-, following, scan⟩ := stands
  exact slice_of_scan scan

/-- A bracket is closed behind the well nested pieces after it. -/
theorem matchingClose {opener closer : Symbol} (pair : closerOf? opener = some closer)
    (nested : WellNested (codeOf part))
    (stands : Stands text start (enclosed opener closer part)) :
    matchingClose text start = .ok (start + 1 + (textOf part).length) := by
  unfold enclosed at stands
  obtain ⟨boundary, following, scan⟩ := stands.next
  rw [matchingClose_eq stands.isCode pair, scan, List.append_assoc, List.singleton_append,
    closeOffset?_of_enclosed pair nested]

/-- The search for the next character passes over white space. -/
theorem nextCode? {blanks : Text} {c : Symbol} {stop : Nat}
    (blank : ∀ d ∈ blanks, isBlank d = true) (solid : isBlank c = false)
    (stands : Stands text start (codes blanks ++ .code c :: part))
    (inside : start + blanks.length < stop) :
    nextCode? text start (some stop) = some (start + blanks.length) := by
  obtain ⟨-, following, scan⟩ := stands
  rw [Source.nextCode?, nextCodeAt?_eq_nextSolid?]
  change nextSolid? stop start (piecesFrom text start) = _
  rw [scan]
  clear scan
  induction blanks generalizing start with
  | nil =>
    have here : ¬ stop ≤ start := Nat.not_le.mpr inside
    simp [nextSolid?, Piece.isGap, solid, here]
  | cons d blanks ih =>
    rw [List.length_cons] at inside
    have gap : isBlank d = true := blank d List.mem_cons_self
    have here : ¬ stop ≤ start := by omega
    simp only [codes_cons, List.cons_append, nextSolid?, here, if_false, Piece.isGap, gap, if_true,
      Piece.length_code]
    rw [ih (fun e member => blank e (List.mem_cons_of_mem _ member)) (by omega), List.length_cons]
    congr 1
    omega

end Stands

/-! ## Outside all brackets -/

theorem isOpener_iff {c : Symbol} : isOpener c = true ↔ ∃ closer, closerOf? c = some closer := by
  constructor
  · intro opens
    simp only [isOpener, Bool.or_eq_true, beq_iff_eq] at opens
    rcases opens with (rfl | rfl) | rfl
    · exact ⟨_, rfl⟩
    · exact ⟨_, rfl⟩
    · exact ⟨_, rfl⟩
  · rintro ⟨closer, pair⟩
    rcases closerOf?_cases pair with ⟨rfl, -⟩ | ⟨rfl, -⟩ | ⟨rfl, -⟩ <;> rfl

theorem not_isOpener {c : Symbol} (opensNot : closerOf? c = none) : ¬ isOpener c = true := by
  rw [isOpener_iff, opensNot]
  rintro ⟨_, shape⟩
  cases shape

/-- One character of code: where the nesting goes on, the depth goes on by as much. -/
theorem codeAt_code {expected next : List Symbol} {c : Symbol}
    (expects : expectAfter expected c = some next) (offset extra : Nat) :
    ∃ depth, extra ≤ depth ∧ ∀ rest, codeAt offset (expected.length + extra) (.code c :: rest) =
      ⟨offset, c, depth⟩ :: codeAt (offset + 1) (next.length + extra) rest := by
  simp only [codeAt]
  rcases expectAfter_eq_some_iff.mp expects with
    ⟨closer, opens, rfl⟩ | ⟨opensNot, closes, rfl⟩ | ⟨opensNot, closesNot, rfl⟩
  · refine ⟨expected.length + extra, Nat.le_add_left _ _, fun rest => ?_⟩
    rw [if_pos (isOpener_iff.mpr ⟨closer, opens⟩), List.length_cons, Nat.add_right_comm]
  · have depth : (c :: next).length + extra - 1 = next.length + extra := by
      rw [List.length_cons]
      omega
    refine ⟨next.length + extra, Nat.le_add_left _ _, fun rest => ?_⟩
    rw [if_neg (not_isOpener opensNot), if_pos closes, depth]
  · refine ⟨expected.length + extra, Nat.le_add_left _ _, fun rest => ?_⟩
    rw [if_neg (not_isOpener opensNot), if_neg (by simp [closesNot])]

/-- Behind pieces that close some of the brackets that are open, and open others, the depth is that
of the nesting; in them it does not fall below what they leave alone. -/
theorem codeAt_of_nest {expected final : List Symbol} {part : List Piece}
    (nested : nestAfter expected (codeOf part) = some final) (offset extra : Nat)
    (following : List Piece) :
    (∀ code ∈ codeAt offset (expected.length + extra) part, extra ≤ code.depth) ∧
      codeAt offset (expected.length + extra) (part ++ following) =
        codeAt offset (expected.length + extra) part ++
          codeAt (offset + (textOf part).length) (final.length + extra) following := by
  induction part generalizing expected offset with
  | nil =>
    obtain rfl := Option.some.inj nested
    exact ⟨by simp [codeAt], rfl⟩
  | cons piece part ih =>
    cases piece with
    | literal mark contents =>
      obtain ⟨deep, longer⟩ := ih nested (offset + contents.length + 1)
      refine ⟨deep, ?_⟩
      rw [List.cons_append, codeAt, longer, length_textOf_cons, Piece.length_literal, codeAt]
      simp only [Nat.add_assoc, Nat.add_comm]
    | code c =>
      rw [codeOf_code, nestAfter_cons] at nested
      obtain ⟨next, expects, nested⟩ := Option.bind_eq_some_iff.mp nested
      obtain ⟨deep, longer⟩ := ih nested (offset + 1)
      obtain ⟨depth, above, step⟩ := codeAt_code expects offset extra
      constructor
      · intro code member
        rw [step] at member
        rcases List.mem_cons.mp member with rfl | member
        · exact above
        · exact deep code member
      · rw [List.cons_append, step, step, longer, length_textOf_cons, Piece.length_code,
          List.cons_append, Nat.add_assoc]

/-- The characters of code outside all brackets of the pieces. -/
def outer (offset : Nat) (part : List Piece) : List CodeChar :=
  (codeAt offset 0 part).filter (·.depth == 0)

/-- Behind well nested pieces one is outside all brackets again. -/
theorem outer_append {part : List Piece} (nested : WellNested (codeOf part)) (offset : Nat)
    (following : List Piece) :
    outer offset (part ++ following) =
      outer offset part ++ outer (offset + (textOf part).length) following := by
  have split := (codeAt_of_nest nested offset 0 following).2
  simp only [List.length_nil, Nat.add_zero] at split
  rw [outer, split, List.filter_append]
  rfl

theorem outer_code {c : Symbol} (notOpener : isOpener c = false) (notCloser : isCloser c = false)
    (offset : Nat) (following : List Piece) :
    outer offset (.code c :: following) = ⟨offset, c, 0⟩ :: outer (offset + 1) following := by
  simp [outer, codeAt, notOpener, notCloser]

theorem mem_outer_char {offset : Nat} {part : List Piece} {code : CodeChar}
    (member : code ∈ outer offset part) : code.char ∈ codeOf part := by
  rw [← map_char_codeAt offset 0 part]
  exact List.mem_map_of_mem (List.mem_filter.mp member).1

/-- Outside the brackets around well nested pieces there are only the brackets themselves. -/
theorem outer_enclosed {opener closer : Symbol} (pair : closerOf? opener = some closer)
    {inner : List Piece} (nested : WellNested (codeOf inner)) (offset : Nat) :
    (outer offset (enclosed opener closer inner)).map (·.char) = [opener, closer] := by
  obtain ⟨deep, split⟩ := codeAt_of_nest nested (offset + 1) 1 [.code closer]
  simp only [List.length_nil, Nat.zero_add] at deep split
  have inside : (codeAt (offset + 1) 1 inner).filter (·.depth == 0) = [] := by
    rw [List.filter_eq_nil_iff]
    intro code member
    have := deep code member
    simp only [beq_iff_eq]
    omega
  have notOpener : isOpener closer = false := by
    rcases closerOf?_cases pair with ⟨-, rfl⟩ | ⟨-, rfl⟩ | ⟨-, rfl⟩ <;> rfl
  rw [outer, enclosed, codeAt, if_pos (isOpener_iff.mpr ⟨closer, pair⟩), split]
  simp [codeAt, notOpener, isCloser_of_pair pair, inside]

/-- A character does not stand outside the brackets of the pieces. -/
def Avoids (c : Symbol) (part : List Piece) : Prop :=
  ∀ offset, ∀ code ∈ outer offset part, code.char ≠ c

theorem avoids_of_not_mem {c : Symbol} {part : List Piece} (absent : c ∉ codeOf part) :
    Avoids c part := by
  rintro offset code member rfl
  exact absent (mem_outer_char member)

theorem Avoids.append {c : Symbol} {first second : List Piece} (nested : WellNested (codeOf first))
    (avoids : Avoids c first) (avoids' : Avoids c second) : Avoids c (first ++ second) := by
  intro offset code member
  rw [outer_append nested] at member
  rcases List.mem_append.mp member with member | member
  · exact avoids offset code member
  · exact avoids' _ code member

theorem avoids_enclosed {c opener closer : Symbol} (pair : closerOf? opener = some closer)
    (notOpener : opener ≠ c) (notCloser : closer ≠ c) {inner : List Piece}
    (nested : WellNested (codeOf inner)) : Avoids c (enclosed opener closer inner) := by
  intro offset code member
  have listed : code.char ∈ [opener, closer] := by
    rw [← outer_enclosed pair nested offset]
    exact List.mem_map_of_mem member
  simp only [List.mem_cons, List.not_mem_nil, or_false] at listed
  rcases listed with same | same
  · rw [same]
    exact notOpener
  · rw [same]
    exact notCloser

theorem wellNested_append {first second : List Symbol} (nested : WellNested first)
    (nested' : WellNested second) : WellNested (first ++ second) := by
  rw [WellNested, nestAfter_append, nested]
  exact nested'

theorem wellNested_enclosed {opener closer : Symbol} (pair : closerOf? opener = some closer)
    {inner : List Piece} (nested : WellNested (codeOf inner)) :
    WellNested (codeOf (enclosed opener closer inner)) := by
  have framed : nestAfter [closer] (codeOf inner) = some [closer] := nestAfter_frame nested [closer]
  rw [WellNested, enclosed, codeOf_code, codeOf_append, nestAfter_cons, expectAfter_opener pair,
    Option.bind_some, nestAfter_append, framed, Option.bind_some, codeOf_code, nestAfter_cons,
    expectAfter_closer pair]
  rfl

namespace Stands

variable {text : Text} {start : Nat} {part : List Piece}

/-- The characters of code between the ends of a passage are those of its pieces. -/
theorem topLevelBetween (nested : WellNested (codeOf part)) (stands : Stands text start part) :
    topLevelBetween text start (some (start + (textOf part).length)) = outer start part := by
  obtain ⟨-, following, scan⟩ := stands
  have split := (codeAt_of_nest nested start 0 following).2
  simp only [List.length_nil, Nat.add_zero] at split
  rw [Source.topLevelBetween, codeBetween, scan, split, outer]
  congr 1
  rw [List.takeWhile_append_of_pos]
  · cases rest : codeAt (start + (textOf part).length) 0 following with
    | nil => simp
    | cons code codes =>
      obtain ⟨leading, -, -, place⟩ : ∃ leading following', following = leading ++ .code code.char ::
          following' ∧ code.offset = start + (textOf part).length + (textOf leading).length :=
        exists_cut_of_mem_codeAt (rest ▸ List.mem_cons_self)
      have beyond : ¬ code.offset < start + (textOf part).length := by omega
      simp [beyond]
  · intro code member
    obtain ⟨leading, following', cut, place⟩ := exists_cut_of_mem_codeAt member
    have count : (textOf part).length =
        (textOf leading).length + ((textOf following').length + 1) := by
      rw [cut, textOf_append, textOf_code, List.length_append, List.length_cons]
    simp only [decide_eq_true_eq]
    omega

/-- A token is found behind well nested pieces outside whose brackets its first character does not
stand. -/
theorem findTopLevel? {c : Symbol} {token : Text} {before after : List Piece}
    (notOpener : isOpener c = false) (notCloser : isCloser c = false)
    (nested : WellNested (codeOf before)) (nested' : WellNested (codeOf (before ++ .code c :: after)))
    (avoids : Avoids c before) (continues : token <+: textOf after)
    (stands : Stands text start (before ++ .code c :: after)) :
    findTopLevel? text (c :: token) start
        (some (start + (textOf (before ++ .code c :: after)).length)) =
      some (start + (textOf before).length) := by
  have listed := stands.topLevelBetween nested'
  rw [Source.findTopLevel?, listed, outer_append nested, outer_code notOpener notCloser,
    List.find?_append]
  have earlier : (outer start before).find?
      (fun code => (c :: token).isPrefixOf (text.drop code.offset)) = none := by
    rw [List.find?_eq_none]
    intro code member
    have inside : code ∈ Source.topLevelBetween text start
        (some (start + (textOf (before ++ .code c :: after)).length)) := by
      rw [listed, outer_append nested]
      exact List.mem_append_left _ member
    obtain ⟨isCode, -⟩ := mem_codeBetween stands.1 (List.mem_filter.mp inside).1
    rw [isCode.drop, List.isPrefixOf_iff_prefix, List.cons_prefix_cons]
    rintro ⟨same, -⟩
    exact avoids start code member same.symm
  have here : (c :: token).isPrefixOf (text.drop (start + (textOf before).length)) = true := by
    obtain ⟨rest, shape⟩ := stands.right.drop
    obtain ⟨more, same⟩ := continues
    rw [shape, List.isPrefixOf_iff_prefix, textOf_code, ← same]
    exact ⟨more ++ rest, by simp⟩
  rw [earlier, Option.none_or, List.find?_cons, here]
  rfl

end Stands

end SuiteDocs.Source
