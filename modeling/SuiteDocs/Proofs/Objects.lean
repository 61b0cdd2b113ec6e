import SuiteDocs.Proofs.Characters
import SuiteDocs.Proofs.Layout

/-!
Lists and objects as they are written.

Elements of a list are separated by commas. Where each of them is well nested and has no comma
outside its brackets, splitting the list gives back exactly its elements, and reading an object
gives back exactly its fields.
-/

set_option autoImplicit false

namespace SuiteDocs.Source

open SuiteDocs.Text

/-! ## Trimming -/

/-- Pieces that neither begin nor end with white space or a comment. -/
def Firm (part : List Piece) : Prop :=
  (∃ first rest, part = first :: rest ∧ first.isGap = false) ∧
    ∃ rest last, part = rest ++ [last] ∧ last.isGap = false

theorem trimPieces_of_le {stop offset : Nat} (reached : stop ≤ offset) (found : Option Span)
    (rest : List Piece) : trimPieces stop found offset rest = .ok found := by
  cases rest <;> simp [trimPieces, reached]

theorem trimPieces_gap {piece : Piece} (gap : piece.isGap = true) {stop offset : Nat}
    (fits : offset + piece.length ≤ stop) (found : Option Span) (rest : List Piece) :
    trimPieces stop found offset (piece :: rest) =
      trimPieces stop found (offset + piece.length) rest := by
  have inside : ¬ stop ≤ offset := by have := piece.length_pos; omega
  simp [trimPieces, inside, gap]

theorem trimPieces_solid {piece : Piece} (solid : piece.isGap = false) {stop offset : Nat}
    (fits : offset + piece.length ≤ stop) (found : Option Span) (rest : List Piece) :
    trimPieces stop found offset (piece :: rest) =
      trimPieces stop (some (Span.extend found offset (offset + piece.length)))
        (offset + piece.length) rest := by
  have inside : ¬ stop ≤ offset := by have := piece.length_pos; omega
  simp [trimPieces, inside, solid, Nat.min_eq_left fits]

/-- Once a span has begun, its start stays. -/
theorem trimPieces_within {part : List Piece} {stop offset : Nat}
    (fits : offset + (textOf part).length ≤ stop) (span : Span) (rest : List Piece) :
    ∃ last, trimPieces stop (some span) offset (part ++ rest) =
      trimPieces stop (some ⟨span.start, last⟩) (offset + (textOf part).length) rest := by
  induction part generalizing offset span with
  | nil => exact ⟨span.stop, rfl⟩
  | cons piece part ih =>
    rw [length_textOf_cons, ← Nat.add_assoc] at fits ⊢
    have here : offset + piece.length ≤ stop := by omega
    cases gap : piece.isGap with
    | true =>
      rw [List.cons_append, trimPieces_gap gap here]
      exact ih fits span
    | false =>
      rw [List.cons_append, trimPieces_solid gap here]
      exact ih fits _

/-- Trimming keeps all of a firm passage. -/
theorem trimPieces_firm {part : List Piece} (firm : Firm part) {stop offset : Nat}
    (fits : offset + (textOf part).length ≤ stop) (rest : List Piece) :
    trimPieces stop none offset (part ++ rest) =
      trimPieces stop (some ⟨offset, offset + (textOf part).length⟩)
        (offset + (textOf part).length) rest := by
  obtain ⟨⟨first, following, starts, solidFirst⟩, before, last, ends, solidLast⟩ := firm
  subst starts
  cases before with
  | nil =>
    obtain ⟨rfl, rfl⟩ := List.cons.inj ends
    rw [length_textOf_cons] at fits ⊢
    exact trimPieces_solid solidFirst fits none rest
  | cons piece middle =>
    rw [List.cons_append] at ends
    obtain ⟨rfl, rfl⟩ := List.cons.inj ends
    rw [length_textOf_cons, textOf_append, List.length_append, length_textOf_cons, textOf_nil,
      List.length_nil, Nat.add_zero] at fits ⊢
    have first' : offset + first.length ≤ stop := by omega
    have middle' : offset + first.length + (textOf middle).length ≤ stop := by omega
    have last' : offset + first.length + (textOf middle).length + last.length ≤ stop := by omega
    rw [List.cons_append, trimPieces_solid solidFirst first', List.append_assoc]
    obtain ⟨reached, within⟩ := trimPieces_within middle'
      (Span.extend none offset (offset + first.length)) ([last] ++ rest)
    rw [within, List.singleton_append, trimPieces_solid solidLast last']
    simp only [Span.extend, Nat.add_assoc]

/-! ## Nesting and commas -/

theorem wellNested_of_no_brackets {word : Text}
    (plain : ∀ c ∈ word, isOpener c = false ∧ isCloser c = false) : WellNested word := by
  induction word with
  | nil => rfl
  | cons c word ih =>
    obtain ⟨notOpener, notCloser⟩ := plain c List.mem_cons_self
    have none : closerOf? c = none := by
      cases opens : closerOf? c with
      | none => rfl
      | some closer => rw [isOpener_iff.mpr ⟨closer, opens⟩] at notOpener; cases notOpener
    rw [WellNested, nestAfter_cons]
    simp only [expectAfter, none, notCloser]
    exact ih fun d member => plain d (List.mem_cons_of_mem _ member)

/-- Symbols of a class without brackets. -/
theorem not_bracket_of_class (kind : Symbol → Bool)
    (excluded : ∀ d ∈ ("\x7b\x7d()[]" : Text), kind d = false) {c : Symbol} (listed : kind c = true) :
    isOpener c = false ∧ isCloser c = false := by
  have other (d : Symbol) (bracket : d ∈ ("\x7b\x7d()[]" : Text)) : c ≠ d := by
    intro same
    have outside := excluded d bracket
    rw [← same, listed] at outside
    cases outside
  constructor
  · simp [isOpener, other '\x7b' (by decide), other '(' (by decide), other '[' (by decide)]
  · simp [isCloser, other '\x7d' (by decide), other ')' (by decide), other ']' (by decide)]

theorem wellNested_of_class (kind : Symbol → Bool)
    (excluded : ∀ d ∈ ("\x7b\x7d()[]" : Text), kind d = false) {word : Text}
    (each : ∀ c ∈ word, kind c = true) : WellNested word :=
  wellNested_of_no_brackets fun c member => not_bracket_of_class kind excluded (each c member)

theorem wellNested_of_blank {blanks : Text} (blank : ∀ c ∈ blanks, isBlank c = true) :
    WellNested blanks :=
  wellNested_of_class isBlank (by decide) blank

/-- The offsets of the commas outside all brackets. -/
def commas (offset : Nat) (part : List Piece) : List Nat :=
  ((outer offset part).filter (·.char == .char ',')).map (·.offset)

theorem commas_of_avoids {part : List Piece} (whole : Avoids (.char ',') part) (offset : Nat) :
    commas offset part = [] := by
  rw [commas, List.map_eq_nil_iff, List.filter_eq_nil_iff]
  intro code member
  simpa using whole offset code member

theorem commas_append {part : List Piece} (nested : WellNested (codeOf part)) (offset : Nat)
    (following : List Piece) :
    commas offset (part ++ following) =
      commas offset part ++ commas (offset + (textOf part).length) following := by
  rw [commas, outer_append nested, List.filter_append, List.map_append]
  rfl

theorem commas_cons (offset : Nat) (following : List Piece) :
    commas offset (.code ',' :: following) = offset :: commas (offset + 1) following := by
  rw [commas, outer_code (by decide) (by decide), List.filter_cons_of_pos (by rfl), List.map_cons]
  rfl

section AllGaps

variable {part : List Piece} (gap : ∀ piece ∈ part, piece.isGap = true)

include gap

theorem isBlank_of_mem_codeOf : ∀ c ∈ codeOf part, isBlank c = true := by
  induction part with
  | nil => exact isBlank_nil
  | cons piece part ih =>
    have others := ih fun other member => gap other (List.mem_cons_of_mem _ member)
    cases piece with
    | literal first inner => exact others
    | code c => exact List.forall_mem_cons.mpr ⟨gap _ List.mem_cons_self, others⟩

theorem wellNested_of_gaps : WellNested (codeOf part) :=
  wellNested_of_blank (isBlank_of_mem_codeOf gap)

theorem avoids_of_gaps {c : Symbol} (solid : isBlank c = false) : Avoids c part := by
  refine avoids_of_not_mem fun member => ?_
  rw [isBlank_of_mem_codeOf gap c member] at solid
  cases solid

/-- Gaps are trimmed. -/
theorem trimPieces_gaps {stop offset : Nat} (fits : offset + (textOf part).length ≤ stop) (found : Option Span)
    (rest : List Piece) :
    trimPieces stop found offset (part ++ rest) =
      trimPieces stop found (offset + (textOf part).length) rest := by
  induction part generalizing offset with
  | nil => rfl
  | cons piece part ih =>
    rw [length_textOf_cons, ← Nat.add_assoc] at fits ⊢
    have here : offset + piece.length ≤ stop := by omega
    rw [List.cons_append, trimPieces_gap (gap piece List.mem_cons_self) here]
    exact ih (fun other member => gap other (List.mem_cons_of_mem _ member)) fits

end AllGaps

/-! ## Passages between commas -/

/-- A span covers a passage. -/
def Covers (text : Text) (span : Span) (part : List Piece) : Prop :=
  Stands text span.start part ∧ span.stop = span.start + (textOf part).length

theorem Covers.slice {text : Text} {span : Span} {part : List Piece}
    (covers : Covers text span part) : slice text span.start span.stop = textOf part := by
  obtain ⟨stands, stops⟩ := covers
  rw [stops, stands.slice]

/-- What stands between two commas: something firm with gaps around it. -/
structure Segment where
  lead : List Piece
  core : List Piece
  trail : List Piece
  gapsLead : ∀ piece ∈ lead, piece.isGap = true
  gapsTrail : ∀ piece ∈ trail, piece.isGap = true
  firm : Firm core
  nested : WellNested (codeOf core)
  whole : Avoids (.char ',') core

namespace Segment

/-- The whole segment. -/
def pieces (segment : Segment) : List Piece :=
  segment.lead ++ (segment.core ++ segment.trail)

theorem wellNested_pieces (segment : Segment) : WellNested (codeOf segment.pieces) := by
  rw [pieces, codeOf_append, codeOf_append]
  exact wellNested_append (wellNested_of_gaps segment.gapsLead)
    (wellNested_append segment.nested (wellNested_of_gaps segment.gapsTrail))

theorem avoids_comma (segment : Segment) : Avoids (.char ',') segment.pieces := by
  have solid : isBlank ',' = false := by decide
  exact (avoids_of_gaps segment.gapsLead solid).append (wellNested_of_gaps segment.gapsLead)
    (segment.whole.append segment.nested (avoids_of_gaps segment.gapsTrail solid))

theorem trimSpan_pieces (segment : Segment) {text : Text} {start : Nat}
    (stands : Stands text start segment.pieces) :
    ∃ span, trimSpan text ⟨start, start + (textOf segment.pieces).length⟩ = .ok (some span) ∧
      Covers text span segment.core := by
  have within := stands.right.left
  obtain ⟨-, following, scan⟩ := stands
  refine ⟨⟨start + (textOf segment.lead).length,
    start + (textOf segment.lead).length + (textOf segment.core).length⟩, ?_, within, rfl⟩
  rw [trimSpan_eq, scan]
  simp only [pieces, textOf_append, List.length_append, List.append_assoc]
  rw [trimPieces_gaps segment.gapsLead (by omega), trimPieces_firm segment.firm (by omega),
    trimPieces_gaps segment.gapsTrail (by omega), trimPieces_of_le (by omega)]

end Segment

/-- Passages with commas between them. -/
def commaJoined : List (List Piece) → List Piece
  | [] => []
  | [part] => part
  | part :: next :: rest => part ++ .code ',' :: commaJoined (next :: rest)

theorem wellNested_commaJoined (segments : List Segment) :
    WellNested (codeOf (commaJoined (segments.map Segment.pieces))) := by
  induction segments with
  | nil => rfl
  | cons segment rest ih =>
    cases rest with
    | nil => exact segment.wellNested_pieces
    | cons next rest =>
      have comma : WellNested [.char ','] := by decide
      rw [List.map_cons, List.map_cons, commaJoined, codeOf_append, codeOf_code, ← List.map_cons]
      exact wellNested_append segment.wellNested_pieces (wellNested_append comma ih)

/-- What stands between the commas, without the gaps around it. -/
theorem trimSpan_commaJoined {text : Text} {start : Nat} {segment : Segment} {rest : List Segment}
    (stands : Stands text start (commaJoined ((segment :: rest).map Segment.pieces))) :
    ∃ spans : List Span,
      List.Forall₂ (fun raw span => trimSpan text raw = .ok (some span))
        (separatedSpans start
          (start + (textOf (commaJoined ((segment :: rest).map Segment.pieces))).length)
          (commas start (commaJoined ((segment :: rest).map Segment.pieces)))) spans ∧
      List.Forall₂ (fun span segment => Covers text span segment.core) spans (segment :: rest) := by
  induction rest generalizing start segment with
  | nil =>
    obtain ⟨span, trimmed, covers⟩ := segment.trimSpan_pieces stands
    rw [List.map_singleton, commaJoined, commas_of_avoids segment.avoids_comma]
    exact ⟨[span], .cons trimmed .nil, .cons covers .nil⟩
  | cons next rest ih =>
    have listed : commas start (commaJoined ((segment :: next :: rest).map Segment.pieces)) =
        (start + (textOf segment.pieces).length) ::
          commas (start + (textOf segment.pieces).length + 1)
            (commaJoined ((next :: rest).map Segment.pieces)) := by
      rw [List.map_cons, List.map_cons, commaJoined, commas_append segment.wellNested_pieces,
        commas_cons, commas_of_avoids segment.avoids_comma]
      rfl
    have stops : start + (textOf (commaJoined ((segment :: next :: rest).map Segment.pieces))).length =
        start + (textOf segment.pieces).length + 1 +
          (textOf (commaJoined ((next :: rest).map Segment.pieces))).length := by
      rw [List.map_cons, List.map_cons, commaJoined, textOf_append, textOf_code, List.length_append,
        List.length_cons, ← List.map_cons]
      omega
    obtain ⟨span, trimmed, covers⟩ := segment.trimSpan_pieces stands.left
    obtain ⟨spans, others, covered⟩ := ih stands.right.next
    refine ⟨span :: spans, ?_, .cons covers covered⟩
    rw [listed, stops, separatedSpans]
    exact .cons trimmed others

/-- Splitting at the commas gives the segments without the gaps around them. -/
theorem splitTopLevel_commaJoined {text : Text} {start : Nat} {segments : List Segment}
    (stands : Stands text start (commaJoined (segments.map Segment.pieces))) :
    ∃ spans, splitTopLevel text start
        (start + (textOf (commaJoined (segments.map Segment.pieces))).length) (· == .char ',') =
          .ok spans ∧
      List.Forall₂ (fun span segment => Covers text span segment.core) spans segments := by
  have separators : separatorsBetween text start
      (start + (textOf (commaJoined (segments.map Segment.pieces))).length) (· == .char ',') =
        commas start (commaJoined (segments.map Segment.pieces)) := by
    rw [separatorsBetween, stands.topLevelBetween (wellNested_commaJoined segments)]
    rfl
  cases segments with
  | nil =>
    refine ⟨[], splitTopLevel_eq_ok_iff.mpr ⟨[none], ?_, rfl⟩, .nil⟩
    rw [separators]
    refine .cons ?_ .nil
    rw [trimSpan_eq]
    exact trimPieces_of_le (Nat.le_refl _) none _
  | cons segment rest =>
    obtain ⟨spans, trimmed, covered⟩ := trimSpan_commaJoined stands
    refine ⟨spans, splitTopLevel_eq_ok_iff.mpr ⟨spans.map some, ?_, ?_⟩, covered⟩
    · rw [separators, List.forall₂_map_right_iff]
      exact trimmed
    · rw [List.filterMap_map]
      exact List.filterMap_some.symm

/-! ## Elements of lists -/

/-- A passage that can be an element of a list, in whatever text it stands. -/
structure IsElement (part : List Piece) : Prop where
  stable : ∀ piece ∈ part, piece.Stable
  nested : WellNested (codeOf part)
  whole : Avoids (.char ',') part
  firm : Firm part

/-- Elements with white space before the first and behind the last of them, and a comma and a space
between them. -/
def separated (trail : Text) : Text → List Piece → List (List Piece) → List Piece
  | lead, first, [] => codes lead ++ (first ++ codes trail)
  | lead, first, second :: rest =>
    codes lead ++ (first ++ (.code ',' :: separated trail [.char ' '] second rest))

theorem textOf_separated (trail lead : Text) (first : List Piece) (rest : List (List Piece)) :
    textOf (separated trail lead first rest) =
      lead ++ List.intercalate ", " ((first :: rest).map textOf) ++ trail := by
  induction rest generalizing lead first with
  | nil =>
    rw [separated, textOf_append, textOf_append, textOf_codes, textOf_codes, List.map_singleton,
      List.intercalate_singleton, List.append_assoc]
  | cons second rest ih =>
    have joined : List.intercalate ", " ((first :: second :: rest).map textOf) =
        textOf first ++ .char ',' :: .char ' ' ::
          List.intercalate ", " ((second :: rest).map textOf) := by
      rw [List.map_cons, List.map_cons, List.intercalate_cons_cons, ← List.map_cons,
        List.append_assoc]
      rfl
    rw [separated, textOf_append, textOf_append, textOf_code, ih, textOf_codes, joined]
    simp

theorem isGap_codes {blanks : Text} (blank : ∀ c ∈ blanks, isBlank c = true) :
    ∀ piece ∈ codes blanks, piece.isGap = true := by
  intro piece member
  obtain ⟨c, listed, rfl⟩ := List.mem_map.mp member
  exact blank c listed

/-- An element with white space around it. -/
def IsElement.segment {part : List Piece} (element : IsElement part) {lead trail : Text}
    (blankLead : ∀ c ∈ lead, isBlank c = true) (blankTrail : ∀ c ∈ trail, isBlank c = true) : Segment :=
  ⟨codes lead, part, codes trail, isGap_codes blankLead, isGap_codes blankTrail, element.firm,
    element.nested, element.whole⟩

section Separated

variable {trail : Text} (blankTrail : ∀ c ∈ trail, isBlank c = true)
include blankTrail

theorem exists_segments {lead : Text} {first : List Piece} {rest : List (List Piece)}
    (blankLead : ∀ c ∈ lead, isBlank c = true) (elements : ∀ part ∈ first :: rest, IsElement part) :
    ∃ segments : List Segment,
      separated trail lead first rest = commaJoined (segments.map Segment.pieces) ∧
        segments.map Segment.core = first :: rest := by
  have element := elements first List.mem_cons_self
  induction rest generalizing lead first with
  | nil => exact ⟨[element.segment blankLead blankTrail], rfl, rfl⟩
  | cons second rest ih =>
    have others : ∀ part ∈ second :: rest, IsElement part :=
      fun part member => elements part (List.mem_cons_of_mem _ member)
    obtain ⟨segments, joined, cores⟩ := ih (by decide : ∀ c ∈ [Symbol.char ' '], isBlank c = true)
      others (others second List.mem_cons_self)
    refine ⟨element.segment blankLead isBlank_nil :: segments, ?_, congrArg (first :: ·) cores⟩
    cases segments with
    | nil => cases cores
    | cons segment segments =>
      rw [separated, joined]
      simp [commaJoined, Segment.pieces, IsElement.segment]

theorem wellNested_separated {lead : Text} {first : List Piece} {rest : List (List Piece)}
    (blankLead : ∀ c ∈ lead, isBlank c = true) (elements : ∀ part ∈ first :: rest, IsElement part) :
    WellNested (codeOf (separated trail lead first rest)) := by
  obtain ⟨segments, joined, -⟩ := exists_segments blankTrail blankLead elements
  rw [joined]
  exact wellNested_commaJoined segments

theorem stable_separated {lead : Text} {first : List Piece} {rest : List (List Piece)}
    (blankLead : ∀ c ∈ lead, isBlank c = true) (elements : ∀ part ∈ first :: rest, IsElement part) :
    ∀ piece ∈ separated trail lead first rest, piece.Stable := by
  have blanks {text : Text} (blank : ∀ c ∈ text, isBlank c = true) :
      ∀ piece ∈ codes text, piece.Stable :=
    stable_codes fun c member => isPlain_of_isBlank (blank c member)
  induction rest generalizing lead first with
  | nil =>
    have stable := (elements first List.mem_cons_self).stable
    simp only [separated, List.forall_mem_append]
    exact ⟨blanks blankLead, stable, blanks blankTrail⟩
  | cons second rest ih =>
    have stable := (elements first List.mem_cons_self).stable
    have later := ih (by decide : ∀ c ∈ [Symbol.char ' '], isBlank c = true)
      fun part member => elements part (List.mem_cons_of_mem _ member)
    simp only [separated, List.forall_mem_append, List.forall_mem_cons]
    exact ⟨blanks blankLead, stable, .code (by decide), later⟩

/-- Splitting a list at its commas gives back its elements. -/
theorem splitTopLevel_separated {text : Text} {start : Nat} {lead : Text} {first : List Piece}
    {rest : List (List Piece)} (blankLead : ∀ c ∈ lead, isBlank c = true)
    (elements : ∀ part ∈ first :: rest, IsElement part)
    (stands : Stands text start (separated trail lead first rest)) :
    ∃ spans, splitTopLevel text start
        (start + (textOf (separated trail lead first rest)).length) (· == .char ',') = .ok spans ∧
      List.Forall₂ (Covers text) spans (first :: rest) := by
  obtain ⟨segments, joined, cores⟩ := exists_segments blankTrail blankLead elements
  rw [joined] at stands ⊢
  obtain ⟨spans, split, covered⟩ := splitTopLevel_commaJoined stands
  exact ⟨spans, split, cores ▸ List.forall₂_map_right_iff.mpr covered⟩

end Separated

/-! ## What can be an element -/

theorem StringLiteral.isGap_piece (string : StringLiteral) : string.piece.isGap = false := by
  have notSlash : (string.quote.symbol == .char '/') = false := by
    cases string.quote <;> decide
  simp only [piece, Piece.isGap]
  cases string.tail with
  | nil => exact startsComment_singleton _
  | cons c rest => rw [startsComment_cons_cons, notSlash, Bool.false_and]

/-- An element has no white space at its ends. -/
theorem IsElement.solid {part : List Piece} (element : IsElement part) : Solid (textOf part) := by
  obtain ⟨⟨first, rest, starts, solidFirst⟩, before, last, ends, solidLast⟩ := element.firm
  constructor
  · have stable := element.stable first (starts ▸ List.mem_cons_self)
    rw [starts]
    cases stable with
    | code plain => exact ⟨_, _, rfl, solidFirst⟩
    | string string => exact ⟨_, _, rfl, string.quote.isBlank_symbol⟩
  · have stable := element.stable last (ends ▸ List.mem_append_right _ List.mem_cons_self)
    rw [ends, textOf_append]
    cases stable with
    | code plain => exact ⟨_, _, rfl, solidLast⟩
    | string string =>
      obtain ⟨-, inner, mark, shape, notBlank⟩ := string.solid_text
      exact ⟨textOf before ++ inner, mark, by simp [shape], notBlank⟩

theorem isElement_string (string : StringLiteral) : IsElement [string.piece] where
  stable piece member := by
    obtain rfl := List.mem_singleton.mp member
    exact .string string
  nested := rfl
  whole := avoids_of_not_mem (by simp)
  firm := ⟨⟨_, _, rfl, string.isGap_piece⟩, [], _, rfl, string.isGap_piece⟩

theorem stable_enclosed {opener closer : Symbol} (pair : closerOf? opener = some closer)
    {inner : List Piece} (stable : ∀ piece ∈ inner, piece.Stable) :
    ∀ piece ∈ enclosed opener closer inner, piece.Stable := by
  have plain : isPlain opener = true ∧ isPlain closer = true := by
    rcases closerOf?_cases pair with ⟨rfl, rfl⟩ | ⟨rfl, rfl⟩ | ⟨rfl, rfl⟩ <;> decide
  intro piece member
  rcases List.mem_cons.mp member with rfl | member
  · exact .code plain.1
  · rcases List.mem_append.mp member with member | member
    · exact stable piece member
    · obtain rfl := List.mem_singleton.mp member
      exact .code plain.2

theorem isElement_enclosed {opener closer : Symbol} (pair : closerOf? opener = some closer)
    {inner : List Piece} (stable : ∀ piece ∈ inner, piece.Stable)
    (nested : WellNested (codeOf inner)) : IsElement (enclosed opener closer inner) := by
  have solid : isBlank opener = false ∧ isBlank closer = false ∧ opener ≠ .char ',' ∧
      closer ≠ .char ',' := by
    rcases closerOf?_cases pair with ⟨rfl, rfl⟩ | ⟨rfl, rfl⟩ | ⟨rfl, rfl⟩ <;> decide
  obtain ⟨solidOpener, solidCloser, notOpener, notCloser⟩ := solid
  exact {
    stable := stable_enclosed pair stable
    nested := wellNested_enclosed pair nested
    whole := avoids_enclosed pair notOpener notCloser nested
    firm := ⟨⟨_, _, rfl, solidOpener⟩, .code opener :: inner, _, rfl, solidCloser⟩ }

/-- A list in brackets can itself be an element. -/
theorem isElement_list {opener closer : Symbol} (pair : closerOf? opener = some closer)
    {trail lead : Text} {first : List Piece} {rest : List (List Piece)}
    (blankTrail : ∀ c ∈ trail, isBlank c = true) (blankLead : ∀ c ∈ lead, isBlank c = true)
    (elements : ∀ part ∈ first :: rest, IsElement part) :
    IsElement (enclosed opener closer (separated trail lead first rest)) :=
  isElement_enclosed pair (stable_separated blankTrail blankLead elements)
    (wellNested_separated blankTrail blankLead elements)

/-- Code without commas before an element. -/
theorem IsElement.preceded {c : Symbol} {lead : Text} {part : List Piece}
    (element : IsElement part) (plain : ∀ d ∈ c :: lead, isPlain d = true)
    (nested : WellNested (c :: lead)) (noComma : .char ',' ∉ c :: lead)
    (solid : isBlank c = false) : IsElement (codes (c :: lead) ++ part) := by
  have nestedLead : WellNested (codeOf (codes (c :: lead))) := by rwa [codeOf_codes]
  obtain ⟨-, before, last, ends, solidLast⟩ := element.firm
  exact {
    stable := fun piece member => (List.mem_append.mp member).elim
      (stable_codes plain piece) (element.stable piece)
    nested := by
      rw [codeOf_append]
      exact wellNested_append nestedLead element.nested
    whole := Avoids.append nestedLead (avoids_of_not_mem (by rwa [codeOf_codes])) element.whole
    firm := ⟨⟨_, _, rfl, solid⟩, codes (c :: lead) ++ before, last, by simp [ends], solidLast⟩ }

theorem isElement_codes {text : Text} (plain : ∀ c ∈ text, isPlain c = true)
    (nested : WellNested text) (noComma : .char ',' ∉ text) (solid : Solid text) :
    IsElement (codes text) where
  stable := stable_codes plain
  nested := by rwa [codeOf_codes]
  whole := avoids_of_not_mem (by rwa [codeOf_codes])
  firm := by
    obtain ⟨⟨first, rest, starts, solidFirst⟩, before, last, ends, solidLast⟩ := solid
    exact ⟨⟨.code first, codes rest, by rw [starts]; rfl, solidFirst⟩, codes before, .code last,
      by rw [ends]; simp, solidLast⟩

/-! ## Objects -/

theorem solid_of_isIdentifier {name : Text} (identifier : isIdentifier name = true) :
    Solid name := by
  have parts := isNamePart_of_isIdentifier identifier
  cases name with
  | nil => cases identifier
  | cons first rest =>
    refine ⟨⟨first, rest, rfl, isBlank_of_isNamePart (parts first List.mem_cons_self)⟩, ?_⟩
    rcases List.eq_nil_or_concat (first :: rest) with empty | ⟨before, last, ends⟩
    · cases empty
    · rw [List.concat_eq_append] at ends
      exact ⟨before, last, ends, isBlank_of_isNamePart (parts last (by simp [ends]))⟩

/-- A field of an object: an identifier and what is written for its value. -/
structure ObjectField where
  key : Text
  value : List Piece
  identifier : isIdentifier key = true
  element : IsElement value

namespace ObjectField

/-- The field as it is written. -/
def pieces (field : ObjectField) : List Piece :=
  codes field.key ++ (.code ':' :: .code ' ' :: field.value)

/-- The text of the field. -/
def text (field : ObjectField) : Text :=
  field.key ++ (.char ':' :: .char ' ' :: textOf field.value)

theorem textOf_pieces (field : ObjectField) : textOf field.pieces = field.text := by
  rw [pieces, textOf_append, textOf_codes, textOf_code, textOf_code, text]

/-- What the field says: its key and the text of its value. -/
def entry (field : ObjectField) : Text × Text :=
  (field.key, textOf field.value)

theorem isElement_pieces (field : ObjectField) : IsElement field.pieces := by
  have parts := isNamePart_of_isIdentifier field.identifier
  have noComma := not_mem_of_isIdentifier field.identifier (by decide : isNamePart ',' = false)
  obtain ⟨⟨first, rest, starts, solid⟩, -⟩ := solid_of_isIdentifier field.identifier
  have lead : field.key ++ [.char ':', .char ' '] = first :: (rest ++ [.char ':', .char ' ']) := by
    rw [starts, List.cons_append]
  have shape : field.pieces = codes (first :: (rest ++ [.char ':', .char ' '])) ++ field.value := by
    rw [← lead, pieces, codes_append, List.append_assoc]
    rfl
  rw [shape]
  refine field.element.preceded ?_ ?_ ?_ solid
  · rw [← lead]
    intro c member
    rcases List.mem_append.mp member with member | member
    · exact isPlain_of_isNamePart (parts c member)
    · have marks : ∀ d ∈ [Symbol.char ':', .char ' '], isPlain d = true := by decide
      exact marks c member
  · rw [← lead]
    exact wellNested_append (wellNested_of_class isNamePart (by decide) parts) (by decide)
  · rw [← lead]
    simp [noComma]

/-- The key starts with a letter, so the field is no spread. -/
theorem isPrefixOf_spread (field : ObjectField) :
    ("..." : Text).isPrefixOf (textOf field.pieces) = false := by
  obtain ⟨⟨first, rest, starts, -⟩, -⟩ := solid_of_isIdentifier field.identifier
  have parts := isNamePart_of_isIdentifier field.identifier
  have notDot : ((.char '.' : Symbol) == first) = false :=
    beq_false_of_ne (ne_of_isNamePart (parts first (by simp [starts])) (by decide)).symm
  have shape : ∃ more, textOf field.pieces = first :: more := by
    rw [pieces, textOf_append, textOf_codes, starts]
    exact ⟨_, rfl⟩
  obtain ⟨more, shape⟩ := shape
  rw [shape]
  change ((.char '.' : Symbol) == first && _) = false
  rw [notDot, Bool.false_and]

section Covered

variable (field : ObjectField) {text : Text} {span : Span} (covers : Covers text span field.pieces)
include covers

theorem findTopLevel?_colon :
    findTopLevel? text ":" span.start (some span.stop) = some (span.start + field.key.length) := by
  obtain ⟨stands, stops⟩ := covers
  have parts := isNamePart_of_isIdentifier field.identifier
  have nestedKey : WellNested (codeOf (codes field.key)) := by
    rw [codeOf_codes]
    exact wellNested_of_class isNamePart (by decide) parts
  have noColon : Avoids (.char ':') (codes field.key) := by
    refine avoids_of_not_mem ?_
    rw [codeOf_codes]
    exact not_mem_of_isIdentifier field.identifier (by decide)
  have found := stands.findTopLevel? (by decide) (by decide) nestedKey
    field.isElement_pieces.nested noColon List.nil_prefix
  rw [textOf_codes] at found
  rw [stops]
  exact found

theorem slice_key : slice text span.start (span.start + field.key.length) = field.key := by
  have left := covers.1.left.slice
  rwa [textOf_codes] at left

theorem slice_value :
    slice text (span.start + field.key.length + 1) span.stop = .char ' ' :: textOf field.value := by
  obtain ⟨stands, stops⟩ := covers
  have right := stands.right.next.slice
  rw [textOf_codes] at right
  have count : span.stop = span.start + field.key.length + 1 +
      (textOf (.code ' ' :: field.value)).length := by
    rw [stops, pieces, textOf_append, textOf_codes, List.length_append, length_textOf_cons,
      Piece.length_code]
    omega
  rw [count, right]
  rfl

/-- A field is read as what it says. -/
theorem fieldOf?_pieces : fieldOf? text span = some field.entry := by
  have solid := solid_of_isIdentifier field.identifier
  have named : field.key.isEmpty = false := by
    obtain ⟨⟨first, rest, starts, -⟩, -⟩ := solid
    rw [starts]
    rfl
  have blank : ∀ c ∈ [Symbol.char ' '], isBlank c = true := by decide
  have stripped : strip (.char ' ' :: textOf field.value) = textOf field.value :=
    strip_of_solid blank field.element.solid
  have spelled : fieldKey? field.key = some field.key := if_pos field.identifier
  simp [fieldOf?, covers.slice, field.isPrefixOf_spread, field.findTopLevel?_colon covers,
    field.slice_key covers, strip_eq_self solid, spelled, named, field.slice_value covers,
    stripped, entry]

end Covered

end ObjectField

/-- An object with at least one field. -/
def object (first : ObjectField) (rest : List ObjectField) : List Piece :=
  enclosed '\x7b' '\x7d'
    (separated [.char ' '] [.char ' '] first.pieces (rest.map ObjectField.pieces))

theorem textOf_object (first : ObjectField) (rest : List ObjectField) :
    textOf (object first rest) =
      "\x7b " ++ (List.intercalate ", " ((first :: rest).map ObjectField.text) ++ " \x7d") := by
  have texts : (first.pieces :: rest.map ObjectField.pieces).map textOf =
      (first :: rest).map ObjectField.text := by
    rw [← List.map_cons, List.map_map]
    exact List.map_congr_left fun field _ => field.textOf_pieces
  rw [object, textOf_enclosed, textOf_separated, texts, List.append_assoc, List.append_assoc]
  rfl

theorem isElement_of_mem_fields {first : ObjectField} {rest : List ObjectField} :
    ∀ part ∈ first.pieces :: rest.map ObjectField.pieces, IsElement part := by
  rw [← List.map_cons, List.forall_mem_map]
  intro field _
  exact field.isElement_pieces

theorem isElement_object (first : ObjectField) (rest : List ObjectField) :
    IsElement (object first rest) :=
  isElement_list rfl (by decide) (by decide) isElement_of_mem_fields

/-- An object is read as what its fields say. -/
theorem objectFields_object {first : ObjectField} {rest : List ObjectField} {text : Text}
    {start : Nat} (stands : Stands text start (object first rest)) :
    objectFields text start = .ok (OrderedMap.ofList ((first :: rest).map ObjectField.entry)) := by
  have blank : ∀ c ∈ [Symbol.char ' '], isBlank c = true := by decide
  have close := stands.matchingClose rfl
    (wellNested_separated blank blank isElement_of_mem_fields)
  obtain ⟨spans, split, covered⟩ := splitTopLevel_separated blank blank isElement_of_mem_fields
    stands.next.left
  have read : spans.filterMap (fieldOf? text) = (first :: rest).map ObjectField.entry := by
    rw [← List.map_cons, List.forall₂_map_right_iff] at covered
    clear split
    generalize first :: rest = fields at covered
    induction covered with
    | nil => rfl
    | cons covers _ ih => rw [List.filterMap_cons, ObjectField.fieldOf?_pieces _ covers, ih]; rfl
  rw [objectFields, close]
  simp only [bind, Except.bind]
  rw [split, ← read]
  rfl

end SuiteDocs.Source
