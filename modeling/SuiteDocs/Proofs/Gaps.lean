import SuiteDocs.Proofs.Comments
import SuiteDocs.Proofs.Objects

/-!
White space, comments and strings, however they are written.

Gaps and strings are scanned in the same way wherever they stand, so a text made of them and of code
without quotes and slashes is scanned as its parts. A gap that is all white space is stripped from a
text; a comment is not.
-/

set_option autoImplicit false

namespace SuiteDocs.Source

open SuiteDocs.Text

/-! ## Passages -/

/-- A passage that is scanned as the same pieces wherever it stands. -/
def Settled (part : List Piece) : Prop :=
  ∀ before rest, pieces before (textOf part ++ rest) =
    part ++ pieces ((textOf part).reverse ++ before) rest

theorem settled_nil : Settled [] := fun _ _ => rfl

theorem settled_of_stable {part : List Piece} (stable : ∀ piece ∈ part, piece.Stable) :
    Settled part :=
  pieces_textOf stable

theorem settled_code {c : Symbol} (plain : isPlain c = true) : Settled [.code c] :=
  settled_of_stable fun _ member => List.mem_singleton.mp member ▸ .code plain

theorem settled_codes {text : Text} (plain : ∀ c ∈ text, isPlain c = true) : Settled (codes text) :=
  settled_of_stable (stable_codes plain)

theorem Settled.append {first second : List Piece} (settled : Settled first)
    (settled' : Settled second) : Settled (first ++ second) := by
  intro before rest
  rw [textOf_append, List.append_assoc, settled, settled', List.reverse_append, List.append_assoc,
    List.append_assoc]

theorem settled_literal {first : Symbol} {inner : Text}
    (ends : ∀ before rest, literalTail? before first (inner ++ rest) = some inner.length) :
    Settled [.literal first inner] := by
  intro before rest
  rw [textOf_literal, textOf_nil, List.append_nil, List.cons_append, pieces, ends]
  simp

theorem Settled.stands {part : List Piece} (settled : Settled part) : Stands (textOf part) 0 part := by
  have scan := settled [] []
  rw [List.append_nil, pieces, List.append_nil] at scan
  exact ⟨isBoundary_zero _, [], scan.trans (List.append_nil _).symm⟩

/-! ## Gaps -/

/-- A character of white space, or a comment with what ends it. -/
inductive Gap where
  | blank (c : Symbol) (blank : isBlank c = true)
  | line (contents : Text) (within : .char '\n' ∉ contents)
  | block (contents : Text) (within : ¬ [.char '*', .char '/'] <:+: contents)

namespace Gap

/-- The gap as it is written. -/
def text : Gap → Text
  | blank c _ => [c]
  | line contents _ => .char '/' :: .char '/' :: (contents ++ [.char '\n'])
  | block contents _ => .char '/' :: .char '*' :: (contents ++ [.char '*', .char '/'])

/-- Whether a gap is a comment. -/
def isComment : Gap → Bool
  | blank _ _ => false
  | line _ _ => true
  | block _ _ => true

/-- The pieces as which a gap is scanned. The line break behind a line comment is code. -/
def pieces : Gap → List Piece
  | blank c _ => [.code c]
  | line contents _ => [.literal '/' (CommentForm.line.tail contents), .code '\n']
  | block contents _ => [.literal '/' (CommentForm.block.tail contents)]

theorem textOf_pieces (gap : Gap) : textOf gap.pieces = gap.text := by
  cases gap <;> simp [pieces, text, CommentForm.tail, CommentForm.mark, CommentForm.closing]

theorem settled_pieces (gap : Gap) : Settled gap.pieces := by
  cases gap with
  | blank c blank => exact settled_code (isPlain_of_isBlank blank)
  | line contents within =>
    intro before rest
    have fits : CommentForm.line.Fits contents (.char '\n' :: rest) := ⟨within, .inr ⟨rest, rfl⟩⟩
    have ends := CommentForm.literalTail?_tail fits before
    have line : isPlain '\n' = true := by decide
    simp [pieces, Source.pieces, ends, literalTail?_of_isPlain line]
  | block contents within =>
    refine settled_literal fun before rest => ?_
    have fits : CommentForm.block.Fits contents rest := within
    exact CommentForm.literalTail?_tail fits before

theorem isGap_of_mem_pieces {gap : Gap} {piece : Piece} (member : piece ∈ gap.pieces) :
    piece.isGap = true := by
  cases gap with
  | blank c blank => exact List.mem_singleton.mp member ▸ blank
  | line contents within =>
    simp only [pieces, List.mem_cons, List.not_mem_nil, or_false] at member
    rcases member with rfl | rfl
    · rfl
    · decide
  | block contents within => exact List.mem_singleton.mp member ▸ rfl

theorem isBlank_of_mem_text {gap : Gap} (bare : gap.isComment = false) :
    ∀ c ∈ gap.text, isBlank c = true := by
  cases gap with
  | blank d blank => exact fun c member => List.mem_singleton.mp member ▸ blank
  | line => cases bare
  | block => cases bare

theorem text_of_isComment {gap : Gap} (comment : gap.isComment = true) :
    ∃ rest, gap.text = .char '/' :: rest := by
  cases gap with
  | blank => cases comment
  | line => exact ⟨_, rfl⟩
  | block => exact ⟨_, rfl⟩

end Gap

/-- What stands between two parts of a text. -/
abbrev Gaps := List Gap

namespace Gaps

/-- The gaps as they are written. -/
def text (gaps : Gaps) : Text :=
  gaps.flatMap Gap.text

/-- The pieces as which gaps are scanned. -/
def pieces (gaps : Gaps) : List Piece :=
  gaps.flatMap Gap.pieces

/-- Whether there is nothing but white space. -/
def isBare (gaps : Gaps) : Bool :=
  gaps.all (!·.isComment)

theorem textOf_pieces (gaps : Gaps) : textOf gaps.pieces = gaps.text := by
  induction gaps with
  | nil => rfl
  | cons gap rest ih =>
    change textOf (gap.pieces ++ pieces rest) = gap.text ++ text rest
    rw [textOf_append, gap.textOf_pieces, ih]

theorem settled_pieces (gaps : Gaps) : Settled gaps.pieces := by
  induction gaps with
  | nil => exact settled_nil
  | cons gap rest ih => exact gap.settled_pieces.append ih

theorem isGap_of_mem_pieces {gaps : Gaps} {piece : Piece} (member : piece ∈ gaps.pieces) :
    piece.isGap = true := by
  obtain ⟨gap, -, inGap⟩ := List.mem_flatMap.mp member
  exact Gap.isGap_of_mem_pieces inGap

theorem isBlank_of_isBare {gaps : Gaps} (bare : gaps.isBare = true) :
    ∀ c ∈ gaps.text, isBlank c = true := by
  intro c member
  obtain ⟨gap, listed, inText⟩ := List.mem_flatMap.mp member
  have white := List.all_eq_true.mp bare gap listed
  exact Gap.isBlank_of_mem_text (by simpa using white) c inText

/-- Of gaps with a comment, the first character that is no white space is a slash. -/
theorem exists_slash {gaps : Gaps} (commented : gaps.isBare = false) :
    ∃ blanks rest, gaps.text = blanks ++ .char '/' :: rest ∧ ∀ c ∈ blanks, isBlank c = true := by
  induction gaps with
  | nil => cases commented
  | cons gap others ih =>
    change ∃ blanks rest, gap.text ++ text others = _ ∧ _
    cases comment : gap.isComment with
    | true =>
      obtain ⟨rest, starts⟩ := Gap.text_of_isComment comment
      exact ⟨[], rest ++ text others, by rw [starts]; rfl, isBlank_nil⟩
    | false =>
      have later : isBare others = false := by
        simpa [isBare, comment] using commented
      obtain ⟨blanks, rest, starts, blank⟩ := ih later
      refine ⟨gap.text ++ blanks, rest, by rw [starts, List.append_assoc], ?_⟩
      exact List.forall_mem_append.mpr ⟨Gap.isBlank_of_mem_text comment, blank⟩

end Gaps

/-! ## Stripping -/

theorem dropWhile_keeps {p : Symbol → Bool} {c : Symbol} (kept : p c = false) {text : Text}
    (member : c ∈ text) : c ∈ text.dropWhile p := by
  have split := List.takeWhile_append_dropWhile (p := p) (l := text)
  rw [← split] at member
  rcases List.mem_append.mp member with dropped | stays
  · have passed := List.mem_takeWhile_imp dropped
    rw [kept] at passed
    cases passed
  · exact stays

/-- Stripping takes away nothing but white space. -/
theorem mem_strip {c : Symbol} (solid : isBlank c = false) {text : Text} (member : c ∈ text) :
    c ∈ strip text := by
  rw [strip, dropWhileEnd, List.mem_reverse]
  refine dropWhile_keeps solid (List.mem_reverse.mpr ?_)
  exact dropWhile_keeps solid member

/-- A stripped text starts with the first character that is no white space. -/
theorem strip_starts {blanks : Text} (blank : ∀ c ∈ blanks, isBlank c = true) {c : Symbol}
    (solid : isBlank c = false) (rest : Text) : ∃ more, strip (blanks ++ c :: rest) = c :: more := by
  have dropped : (blanks ++ c :: rest).dropWhile isBlank = c :: rest :=
    dropWhile_blanks blank (by simpa using solid)
  rw [strip, dropped, dropWhileEnd, List.reverse_cons]
  refine ⟨(rest.reverse.dropWhile isBlank).reverse, ?_⟩
  rw [List.dropWhile_append]
  split
  · rename_i none
    rw [List.isEmpty_iff.mp none, List.dropWhile_cons_of_neg (by simp [solid])]
    rfl
  · rw [List.reverse_append]
    rfl

/-- A text that starts with anything but a quote is no string. -/
theorem literalValue?_of_starts {c : Symbol} (solid : isBlank c = false) (unquoted : isQuote c = false)
    (rest : Text) : literalValue? (c :: rest) = none := by
  obtain ⟨more, stripped⟩ := strip_starts isBlank_nil solid rest
  rw [List.nil_append] at stripped
  simp [literalValue?, stripped, unquoted]

theorem strip_blanks_behind {text blanks : Text} (solid : Solid text)
    (blank : ∀ c ∈ blanks, isBlank c = true) : strip (text ++ blanks) = text := by
  obtain ⟨⟨first, rest, starts, notBlank⟩, before, last, ends, notBlankLast⟩ := solid
  have starting : (text ++ blanks).dropWhile isBlank = text ++ blanks := by
    rw [starts, List.cons_append, List.dropWhile_cons_of_neg (by simp [notBlank])]
  have ending : (blanks.reverse ++ last :: before.reverse).dropWhile isBlank =
      last :: before.reverse :=
    dropWhile_blanks (fun c member => blank c (List.mem_reverse.mp member)) (by simpa using notBlankLast)
  rw [strip, starting, dropWhileEnd, List.reverse_append, ends, List.reverse_concat, ending,
    ← List.reverse_concat, List.reverse_reverse]

/-! ## Strings -/

/-- What stands between the quotes of a string: a character for itself, or one behind a backslash. -/
inductive StringItem where
  | plain (c : Symbol)
  | escaped (c : Symbol)

namespace StringItem

/-- The item as it is written. -/
def text : StringItem → Text
  | plain c => [c]
  | escaped c => [.char '\\', c]

/-- What the item means. A backslash is dropped before a backslash and before the quote only. -/
def meaning (quote : Symbol) : StringItem → Text
  | plain c => [c]
  | escaped c => if c = .char '\\' ∨ c = quote then [c] else [.char '\\', c]

/-- Whether the item may stand between the quotes. -/
def FitsIn (quote : Quote) : StringItem → Prop
  | plain c => c ≠ .char '\\' ∧ c ≠ quote.symbol ∧ (quote = .backtick ∨ c ≠ .char '\n')
  | escaped _ => True

end StringItem

/-- A closed string in any spelling. -/
structure SpelledString where
  quote : Quote
  items : List StringItem
  fits : ∀ item ∈ items, item.FitsIn quote

theorem stringEnd_items {quote : Quote} {items : List StringItem}
    (fits : ∀ item ∈ items, item.FitsIn quote) (rest : Text) :
    stringEnd quote.symbol (items.flatMap StringItem.text ++ quote.symbol :: rest) =
      ⟨(items.flatMap StringItem.text).length + 1, true⟩ := by
  induction items with
  | nil => exact stringEnd_quote quote.symbol_ne_backslash rest
  | cons item items ih =>
    have later := ih fun other member => fits other (List.mem_cons_of_mem _ member)
    cases item with
    | plain c =>
      obtain ⟨notBackslash, inner, line⟩ := fits _ List.mem_cons_self
      have stays : quote.symbol = .char '`' ∨ c ≠ .char '\n' :=
        line.imp_left fun backtick => by rw [backtick]; rfl
      change stringEnd quote.symbol (c :: (items.flatMap StringItem.text ++ quote.symbol :: rest)) =
        ⟨(items.flatMap StringItem.text).length + 1 + 1, true⟩
      rw [stringEnd_other notBackslash inner stays, later]
      rfl
    | escaped c =>
      change stringEnd quote.symbol
        (.char '\\' :: c :: (items.flatMap StringItem.text ++ quote.symbol :: rest)) =
          ⟨(items.flatMap StringItem.text).length + 1 + 1 + 1, true⟩
      rw [stringEnd_escaped, later]
      rfl

theorem unescape_items {quote : Quote} {items : List StringItem}
    (fits : ∀ item ∈ items, item.FitsIn quote) :
    unescape quote.symbol (items.flatMap StringItem.text) =
      items.flatMap (StringItem.meaning quote.symbol) := by
  induction items with
  | nil => simp [unescape]
  | cons item items ih =>
    have later := ih fun other member => fits other (List.mem_cons_of_mem _ member)
    rw [List.flatMap_cons, List.flatMap_cons, ← later]
    cases item with
    | plain c =>
      obtain ⟨notBackslash, -⟩ := fits _ List.mem_cons_self
      exact unescape_other notBackslash _
    | escaped c =>
      change unescape quote.symbol (.char '\\' :: c :: items.flatMap StringItem.text) = _
      by_cases special : c = .char '\\' ∨ c = quote.symbol
      · rw [unescape_escaped special, StringItem.meaning, if_pos special]
        rfl
      · rw [unescape, StringItem.meaning, if_neg special,
          if_neg (by simpa [or_comm] using special)]
        rfl

namespace SpelledString

/-- The string behind its opening quote. -/
def tail (string : SpelledString) : Text :=
  string.items.flatMap StringItem.text ++ [string.quote.symbol]

/-- The string as it is written. -/
def text (string : SpelledString) : Text :=
  string.quote.symbol :: string.tail

/-- What the string says. -/
def contents (string : SpelledString) : Text :=
  string.items.flatMap (StringItem.meaning string.quote.symbol)

/-- The string as a piece. -/
def piece (string : SpelledString) : Piece :=
  .literal string.quote.symbol string.tail

@[simp] theorem textOf_piece (string : SpelledString) (rest : List Piece) :
    textOf (string.piece :: rest) = string.text ++ textOf rest := rfl

theorem stringEnd_tail (string : SpelledString) (rest : Text) :
    stringEnd string.quote.symbol (string.tail ++ rest) = ⟨string.tail.length, true⟩ := by
  rw [tail, List.append_assoc, List.singleton_append, stringEnd_items string.fits,
    List.length_append]
  rfl

theorem settled_piece (string : SpelledString) : Settled [string.piece] := by
  refine settled_literal fun before rest => ?_
  unfold literalTail?
  rw [if_pos string.quote.isQuote_symbol, string.stringEnd_tail]

theorem isGap_piece (string : SpelledString) : string.piece.isGap = false := by
  change startsComment (string.quote.symbol :: string.tail) = false
  cases string.quote <;> rfl

theorem solid_text (string : SpelledString) : Solid string.text := by
  refine ⟨⟨_, string.tail, rfl, string.quote.isBlank_symbol⟩, ?_⟩
  exact ⟨string.quote.symbol :: string.items.flatMap StringItem.text, _, rfl,
    string.quote.isBlank_symbol⟩

/-- A string is read as what it says, in whatever spelling. -/
theorem literalValue?_text (string : SpelledString) :
    literalValue? string.text = some string.contents := by
  have ends := string.stringEnd_tail []
  rw [List.append_nil] at ends
  have inner : string.tail.take (string.tail.length - 1) = string.items.flatMap StringItem.text := by
    simp [tail]
  have read : readString string.text 0 = .ok (string.contents, string.text.length) := by
    simp [readString, text, string.quote.isQuote_symbol, ends, inner, unescape_items string.fits,
      contents]
  simp only [literalValue?, strip_eq_self string.solid_text]
  rw [read]
  simp [text, string.quote.isQuote_symbol]

end SpelledString

end SuiteDocs.Source
