import SuiteDocs.Proofs.Scan
import SuiteDocs.Source.Match

/-!
Spans of literals and offsets of code, as two views of one text.

The spans are in order and apart from each other, so that halving finds the only one in which an offset
can lie. A scan may start at any offset that is not inside a span: it finds the code at exactly those
offsets behind its start that no span holds.
-/

set_option autoImplicit false

namespace SuiteDocs.Source

open SuiteDocs.Text

/-! ## Spans in order -/

/-- Spans that are not empty and lie between two offsets, each behind the ones before it. -/
structure Ordered (start stop : Nat) (spans : List Span) : Prop where
  nonempty : ∀ span ∈ spans, span.start < span.stop
  inside : ∀ span ∈ spans, start ≤ span.start ∧ span.stop ≤ stop
  apart : spans.Pairwise fun earlier later => earlier.stop ≤ later.start

theorem spansAt_ordered (offset : Nat) (scanned : List Piece) :
    Ordered offset (offset + (textOf scanned).length) (spansAt offset scanned) := by
  induction scanned generalizing offset with
  | nil => exact ⟨by simp [spansAt], by simp [spansAt], .nil⟩
  | cons piece rest ih =>
    have place : offset + (textOf (piece :: rest)).length =
        offset + piece.length + (textOf rest).length := by
      rw [length_textOf_cons, Nat.add_assoc]
    rw [place]
    have later := ih (offset + piece.length)
    have positive := piece.length_pos
    have widened : ∀ span ∈ spansAt (offset + piece.length) rest,
        offset ≤ span.start ∧ span.stop ≤ offset + piece.length + (textOf rest).length := by
      intro span member
      have bounds := later.inside span member
      omega
    cases piece with
    | code c => exact ⟨later.nonempty, widened, later.apart⟩
    | literal first inner =>
      rw [Piece.length_literal, ← Nat.add_assoc] at later widened ⊢
      refine ⟨List.forall_mem_cons.mpr ⟨?_, later.nonempty⟩,
        List.forall_mem_cons.mpr ⟨?_, widened⟩, .cons ?_ later.apart⟩
      · dsimp only
        omega
      · dsimp only
        omega
      · intro span member
        exact (later.inside span member).1

theorem literalSpans_ordered (text : Text) : Ordered 0 text.length (literalSpans text) := by
  have ordered := spansAt_ordered 0 (pieces [] text)
  rwa [textOf_pieces, Nat.zero_add] at ordered

theorem Ordered.start_lt {start stop : Nat} {spans : List Span} (ordered : Ordered start stop spans) :
    spans.Pairwise fun earlier later => earlier.start < later.start := by
  refine ordered.apart.imp_of_mem fun member _ behind => ?_
  exact Nat.lt_of_lt_of_le (ordered.nonempty _ member) behind

theorem spansAt_append (offset : Nat) (leading following : List Piece) :
    spansAt offset (leading ++ following) =
      spansAt offset leading ++ spansAt (offset + (textOf leading).length) following := by
  induction leading generalizing offset with
  | nil => rfl
  | cons piece leading ih =>
    have place : offset + (textOf (piece :: leading)).length =
        offset + piece.length + (textOf leading).length := by
      rw [length_textOf_cons, Nat.add_assoc]
    rw [place]
    cases piece with
    | code c => exact ih (offset + 1)
    | literal first inner => exact congrArg (_ :: ·) (ih (offset + inner.length + 1))

theorem spansAt_add (offset count : Nat) (scanned : List Piece) :
    spansAt (offset + count) scanned =
      (spansAt offset scanned).map fun span => ⟨span.start + count, span.stop + count⟩ := by
  induction scanned generalizing offset with
  | nil => rfl
  | cons piece rest ih =>
    cases piece with
    | code c =>
      rw [spansAt, spansAt, ← ih]
      congr 1
      omega
    | literal first inner =>
      have next : offset + count + inner.length + 1 = offset + inner.length + 1 + count := by omega
      simp only [spansAt, next, ih, List.map_cons]

/-- The spans of the literals and comments that a scan from `start` meets before `stop`. -/
def spansBetween (text : Text) (start stop : Nat) : List Span :=
  (spansAt start (piecesFrom text start)).takeWhile (·.start < stop)

theorem spansBetween_of_scan {text : Text} {start : Nat} {leading following : List Piece}
    (scan : piecesFrom text start = leading ++ following) :
    spansBetween text start (start + (textOf leading).length) = spansAt start leading := by
  rw [spansBetween, scan, spansAt_append, List.takeWhile_append_of_pos]
  · have nothing : (spansAt (start + (textOf leading).length) following).takeWhile
        (fun span => decide (span.start < start + (textOf leading).length)) = [] := by
      rw [List.takeWhile_eq_nil_iff]
      intro nonempty
      have beyond := ((spansAt_ordered _ _).inside _ (List.get_mem _ ⟨0, nonempty⟩)).1
      simpa using beyond
    rw [nothing, List.append_nil]
  · intro span member
    have ordered := spansAt_ordered start leading
    exact decide_eq_true (Nat.lt_of_lt_of_le (ordered.nonempty span member)
      (ordered.inside span member).2)

theorem mem_takeWhile_append {α : Type} {p : α → Bool} {early late : List α} {item : α}
    (all : ∀ other ∈ early, p other = true) (holds : p item = true) :
    item ∈ (early ++ item :: late).takeWhile p := by
  rw [List.takeWhile_append_of_pos all, List.takeWhile_cons_of_pos holds]
  exact List.mem_append_right _ List.mem_cons_self

theorem mem_spansBetween {text : Text} {start stop : Nat} {leading following : List Piece}
    {first : Symbol} {inner : Text}
    (scan : piecesFrom text start = leading ++ .literal first inner :: following)
    (before : start + (textOf leading).length < stop) :
    ⟨start + (textOf leading).length, start + (textOf leading).length + inner.length + 1⟩ ∈
      spansBetween text start stop := by
  rw [spansBetween, scan, spansAt_append, spansAt]
  refine mem_takeWhile_append ?_ (decide_eq_true before)
  intro other member
  have ordered := spansAt_ordered start leading
  have near := (ordered.inside other member).2
  have nonempty := ordered.nonempty other member
  exact decide_eq_true (by omega)

/-! ## Halving -/

/-- The spans before `low` start at or before an offset, and those from `high` on start behind it. -/
structure Narrowed (spans : Array Span) (offset low high : Nat) : Prop where
  order : low ≤ high
  within : high ≤ spans.size
  started : ∀ position span, position < low → spans[position]? = some span → span.start ≤ offset
  ahead : ∀ position span, high ≤ position → spans[position]? = some span → offset < span.start

theorem startedBy_narrowed {spans : Array Span} {offset low high : Nat}
    (increasing : spans.toList.Pairwise fun earlier later => earlier.start < later.start)
    (narrowed : Narrowed spans offset low high) :
    Narrowed spans offset (startedBy spans offset low high) (startedBy spans offset low high) := by
  have sorted {position position' : Nat} {span span' : Span} (order : position < position')
      (here : spans[position]? = some span) (there : spans[position']? = some span') :
      span.start < span'.start := by
    rw [← Array.getElem?_toList] at here there
    obtain ⟨bound, rfl⟩ := List.getElem?_eq_some_iff.mp here
    obtain ⟨bound', rfl⟩ := List.getElem?_eq_some_iff.mp there
    exact List.pairwise_iff_getElem.mp increasing position position' bound bound' order
  fun_induction startedBy spans offset low high with
  | case1 low high unsettled middle behind ih =>
    obtain ⟨span, here, before⟩ := (Option.any_eq_true _ _).mp behind
    refine ih ⟨by omega, by have := narrowed.within; omega, narrowed.started, ?_⟩
    intro position other from' there
    rcases Nat.lt_or_eq_of_le from' with further | rfl
    · exact Nat.lt_trans (of_decide_eq_true before) (sorted further here there)
    · obtain rfl := Option.some.inj (here.symm.trans there)
      exact of_decide_eq_true before
  | case2 low high unsettled middle notBehind ih =>
    have bound : middle < spans.size := by have := narrowed.within; omega
    have here : spans[middle]? = some spans[middle] := Array.getElem?_eq_getElem bound
    rw [here] at notBehind
    have startedHere : spans[middle].start ≤ offset := by simpa using notBehind
    refine ih ⟨by omega, narrowed.within, ?_, narrowed.ahead⟩
    intro position other before there
    rcases Nat.lt_or_eq_of_le (Nat.le_of_lt_succ before) with earlier | rfl
    · exact Nat.le_trans (Nat.le_of_lt (sorted earlier there here)) startedHere
    · obtain rfl := Option.some.inj (here.symm.trans there)
      exact startedHere
  | case3 low high settled =>
    obtain rfl : low = high := Nat.le_antisymm narrowed.order (Nat.le_of_not_lt settled)
    exact narrowed

/-- The one span that is looked at decides for all of them. -/
theorem isCovered_eq_any {start stop : Nat} {spans : List Span} (ordered : Ordered start stop spans)
    (offset : Nat) : isCovered spans.toArray offset = spans.any (·.contains offset) := by
  have narrowed : Narrowed spans.toArray offset 0 spans.toArray.size :=
    ⟨Nat.zero_le _, Nat.le_refl _, fun _ _ before => absurd before (Nat.not_lt_zero _),
      fun position span beyond there => by simp [Array.getElem?_eq_none beyond] at there⟩
  have found := startedBy_narrowed ordered.start_lt narrowed
  rw [Bool.eq_iff_iff, List.any_eq_true, isCovered]
  generalize startedBy spans.toArray offset 0 spans.toArray.size = count at found
  have holds {span : Span} : span.contains offset = true ↔ span.start ≤ offset ∧ offset < span.stop := by
    simp [Span.contains]
  cases count with
  | zero =>
    refine iff_of_false Bool.false_ne_true ?_
    rintro ⟨span, member, inside⟩
    obtain ⟨position, bound, rfl⟩ := List.getElem_of_mem member
    have ahead := found.ahead position spans[position] (Nat.zero_le _) (by simp [bound])
    have reached := (holds.mp inside).1
    omega
  | succ position =>
    have bound : position < spans.length := found.within
    have here : spans.toArray[position]? = some spans[position] := by simp [bound]
    dsimp only
    rw [here, Option.any_some]
    constructor
    · intro inside
      exact ⟨_, List.getElem_mem bound, inside⟩
    · rintro ⟨span, member, inside⟩
      obtain ⟨other, bound', rfl⟩ := List.getElem_of_mem member
      obtain ⟨reached, left⟩ := holds.mp inside
      rcases Nat.lt_trichotomy other position with earlier | rfl | later
      · -- An earlier span ends before the last one that has started.
        have behind := List.pairwise_iff_getElem.mp ordered.apart other position bound' bound earlier
        have started := found.started position _ (Nat.lt_succ_self _) here
        omega
      · exact inside
      · have ahead := found.ahead other spans[other] later (by simp [bound'])
        omega

theorem isCovered_literalSpans (text : Text) (offset : Nat) :
    isCovered (literalSpans text).toArray offset = insideLiteral text offset :=
  isCovered_eq_any (literalSpans_ordered text) offset

/-- The matches in code are those that start in no literal and no comment. -/
theorem codeMatches_eq_filter {α : Type} (recognise : Recogniser α) (text : Text) (start : Nat)
    (stop : Option Nat) : codeMatches recognise text start stop =
      (matchesAt recognise start (charBefore? text start)
        (slice text start (stop.getD text.length))).filter fun place =>
          !insideLiteral text place.offset := by
  simp only [codeMatches, isCovered_literalSpans]

theorem codeMatches_whole {α : Type} (recognise : Recogniser α) (text : Text) :
    codeMatches recognise text 0 none =
      (matchesAt recognise 0 none text).filter fun place => !insideLiteral text place.offset := by
  have whole : slice text 0 ((none : Option Nat).getD text.length) = text := by simp [slice]
  rw [codeMatches_eq_filter, whole]
  rfl

/-! ## Offsets of code -/

theorem any_contains_eq_false_iff {spans : List Span} {offset : Nat} :
    spans.any (·.contains offset) = false ↔
      ∀ span ∈ spans, ¬ (span.start ≤ offset ∧ offset < span.stop) := by
  simp only [List.any_eq_false, Span.contains, Bool.and_eq_true, decide_eq_true_eq]

/-- The offsets of the code among pieces are those that no span of a literal among them holds. -/
theorem map_offset_codeAt (offset depth : Nat) (scanned : List Piece) :
    (codeAt offset depth scanned).map (·.offset) =
      (List.range' offset (textOf scanned).length).filter fun place =>
        !(spansAt offset scanned).any (·.contains place) := by
  induction scanned generalizing offset depth with
  | nil => rfl
  | cons piece rest ih =>
    cases piece with
    | code c =>
      have outside : (spansAt (offset + 1) rest).any (·.contains offset) = false := by
        rw [any_contains_eq_false_iff]
        intro span member
        have bounds := (spansAt_ordered (offset + 1) rest).inside span member
        omega
      have step (here next : Nat) :
          (⟨offset, c, here⟩ :: codeAt (offset + 1) next rest).map (·.offset) =
            (List.range' offset (textOf (.code c :: rest)).length).filter fun place =>
              !(spansAt (offset + 1) rest).any (·.contains place) := by
        rw [textOf_code, List.length_cons, List.range'_succ, List.filter_cons, outside, List.map_cons, ih]
        rfl
      rw [codeAt, spansAt]
      split
      · exact step depth (depth + 1)
      · split
        · exact step (depth - 1) (depth - 1)
        · exact step depth depth
    | literal first inner =>
      have length : (textOf (.literal first inner :: rest)).length =
          (inner.length + 1) + (textOf rest).length := by
        rw [length_textOf_cons, Piece.length_literal]
      -- The literal holds every offset of the first part, and none of the second.
      have own : (List.range' offset (inner.length + 1)).filter (fun place =>
          !(spansAt offset (.literal first inner :: rest)).any (·.contains place)) = [] := by
        rw [List.filter_eq_nil_iff]
        intro place member
        rw [List.mem_range'_1] at member
        simp only [spansAt, List.any_cons, Span.contains, Bool.not_eq_true', Bool.or_eq_false_iff,
          Bool.and_eq_false_iff, decide_eq_false_iff_not]
        omega
      have others : ∀ place ∈ List.range' (offset + inner.length + 1) (textOf rest).length,
          (!(spansAt offset (.literal first inner :: rest)).any (·.contains place)) =
            !(spansAt (offset + inner.length + 1) rest).any (·.contains place) := by
        intro place member
        rw [List.mem_range'_1] at member
        have beyond : (Span.mk offset (offset + inner.length + 1)).contains place = false := by
          simp only [Span.contains, Bool.and_eq_false_iff, decide_eq_false_iff_not]
          omega
        rw [spansAt, List.any_cons, beyond, Bool.false_or]
      rw [codeAt, ih, length, ← List.range'_append_1, List.filter_append, own, List.nil_append,
        ← Nat.add_assoc, List.filter_congr others]

/-! ## Places to start from -/

/-- An offset is strictly inside a span if the span holds it and does not start there. -/
def Span.Encloses (span : Span) (offset : Nat) : Prop :=
  span.start < offset ∧ offset < span.stop

instance (span : Span) (offset : Nat) : Decidable (span.Encloses offset) :=
  inferInstanceAs (Decidable (_ ∧ _))

/-- A scan may start wherever no literal is under way. -/
theorem isBoundary_of_not_enclosed {text : Text} {start : Nat} (within : start ≤ text.length)
    (free : ∀ span ∈ literalSpans text, ¬ span.Encloses start) : IsBoundary text start := by
  rcases Nat.lt_or_eq_of_le within with inside | rfl
  · rw [← textOf_pieces [] text] at inside
    obtain ⟨leading, piece, following, scan, lower, upper⟩ := exists_piece_at inside
    rcases Nat.lt_or_eq_of_le lower with later | here
    · cases piece with
      | code c =>
        rw [Piece.length_code] at upper
        omega
      | literal first inner =>
        rw [Piece.length_literal] at upper
        have member : (⟨0 + _, 0 + _ + _ + 1⟩ : Span) ∈ literalSpans text :=
          mem_spansAt.mpr ⟨leading, first, inner, following, scan, rfl⟩
        refine absurd ⟨?_, ?_⟩ (free _ member)
        · dsimp only
          omega
        · dsimp only
          omega
    · exact ⟨leading, _, scan, here⟩
  · exact ⟨pieces [] text, [], (List.append_nil _).symm, by rw [textOf_pieces]⟩

/-- Behind a boundary, only the literals of the scan from there count. -/
theorem IsBoundary.insideLiteral_eq {text : Text} {start offset : Nat} (boundary : IsBoundary text start)
    (behind : start ≤ offset) : insideLiteral text offset =
      (spansAt start (piecesFrom text start)).any (·.contains offset) := by
  obtain ⟨leading, scan, reaches⟩ := boundary.scan
  have early : (spansAt 0 leading).any (·.contains offset) = false := by
    rw [any_contains_eq_false_iff]
    intro span member
    have bounds := (spansAt_ordered 0 leading).inside span member
    omega
  rw [insideLiteral, literalSpans, scan, spansAt_append, List.any_append, early, Bool.false_or,
    Nat.zero_add, reaches]

theorem takeWhile_filter_range' (keep : Nat → Bool) (start count bound : Nat) :
    ((List.range' start count).filter keep).takeWhile (· < bound) =
      (List.range' start (min bound (start + count) - start)).filter keep := by
  generalize split : min bound (start + count) - start = early
  have parts : List.range' start count =
      List.range' start early ++ List.range' (start + early) (count - early) := by
    rw [List.range'_append_1]
    congr 1
    omega
  have taken : ((List.range' start early).filter keep).takeWhile (· < bound) =
      (List.range' start early).filter keep := by
    rw [List.takeWhile_eq_self_iff]
    intro place member
    have bounds := List.mem_range'_1.mp (List.mem_filter.mp member).1
    exact decide_eq_true (by omega)
  have left : ((List.range' (start + early) (count - early)).filter keep).takeWhile (· < bound) = [] := by
    rw [List.takeWhile_eq_nil_iff]
    intro nonempty
    have bounds := List.mem_range'_1.mp (List.mem_filter.mp (List.get_mem _ ⟨0, nonempty⟩)).1
    simp only [decide_eq_true_eq]
    omega
  rw [parts, List.filter_append, List.takeWhile_append_of_pos, left, List.append_nil]
  exact List.takeWhile_eq_self_iff.mp taken

/-- The offsets of the code from a boundary on. -/
theorem IsBoundary.map_offset_codeBetween {text : Text} {start : Nat} (boundary : IsBoundary text start)
    (stop : Option Nat) :
    (codeBetween text start stop).map (·.offset) =
      (List.range' start (min (stop.getD text.length) text.length - start)).filter fun offset =>
        !insideLiteral text offset := by
  have whole : (codeAt start 0 (piecesFrom text start)).map (·.offset) =
      (List.range' start (text.length - start)).filter fun offset => !insideLiteral text offset := by
    rw [map_offset_codeAt, textOf_piecesFrom, List.length_drop]
    refine List.filter_congr fun offset member => ?_
    rw [boundary.insideLiteral_eq (List.mem_range'_1.mp member).1]
  cases stop with
  | none =>
    have all : codeBetween text start none = codeAt start 0 (piecesFrom text start) :=
      List.takeWhile_eq_self_iff.mpr fun _ _ => rfl
    rw [all, whole, Option.getD_none, Nat.min_self]
  | some bound =>
    have taken : (codeBetween text start (some bound)).map (·.offset) =
        ((codeAt start 0 (piecesFrom text start)).map (·.offset)).takeWhile (· < bound) := by
      rw [List.takeWhile_map]
      rfl
    rw [taken, whole, takeWhile_filter_range', Option.getD_some]
    congr 2
    obtain ⟨leading, scan, reaches⟩ := boundary.scan
    have within : start ≤ text.length := by
      rw [← textOf_pieces [] text, scan, textOf_append, List.length_append]
      omega
    omega

/-! ## Steps of the scan -/

theorem literalStop?_of_mem_literalSpans {text : Text} {span : Span} (member : span ∈ literalSpans text) :
    literalStop? text span.start = .ok (some span.stop) := by
  obtain ⟨leading, first, inner, following, scan, rfl⟩ := mem_spansAt.mp member
  have resumed := piecesFrom_of_scan scan
  have shape : text.drop (textOf leading).length = first :: (inner ++ textOf following) := by
    rw [← textOf_piecesFrom, resumed]
    rfl
  rw [piecesFrom, shape, pieces] at resumed
  rw [Nat.zero_add, literalStop?, shape]
  dsimp only
  split at resumed
  · cases (List.cons.inj resumed).1
  · rename_i count literal
    obtain ⟨-, taken⟩ := Piece.literal.inj (List.cons.inj resumed).1
    have counted : inner.length = count := by
      rw [← taken, List.length_take_of_le (literalTail?_le literal)]
    rw [literal, counted]
    rfl

theorem IsCode.literalStop?_eq {text : Text} {offset : Nat} {c : Symbol} (code : IsCode text offset c) :
    literalStop? text offset = .ok none := by
  have scanned := code.next.2
  rw [piecesFrom, code.drop, pieces] at scanned
  rw [literalStop?, code.drop]
  dsimp only
  split at scanned
  · rename_i plain
    rw [plain]
    rfl
  · cases (List.cons.inj scanned).1

/-- The spans of the literals and the offsets of the code tell the same of a text. The spans are not
empty, in order and apart, each from where a literal starts to where it stops. A scan from any offset that
no span encloses gives the code at exactly those offsets before its end that no span holds, in order. And a
match is left out by halving exactly if a span holds its start. -/
theorem spans_and_code_agree (text : Text) :
    Ordered 0 text.length (literalSpans text) ∧
    ((literalSpans text).Pairwise fun earlier later => earlier.start < later.start) ∧
    (∀ span ∈ literalSpans text, literalStop? text span.start = .ok (some span.stop)) ∧
    (∀ start stop, (∀ span ∈ literalSpans text, ¬ span.Encloses start) →
      ((codeBetween text start stop).map (·.offset) =
        (List.range' start (min (stop.getD text.length) text.length - start)).filter fun offset =>
          ∀ span ∈ literalSpans text, ¬ (span.start ≤ offset ∧ offset < span.stop)) ∧
      ∀ code ∈ codeBetween text start stop,
        text[code.offset]? = some code.char ∧ literalStop? text code.offset = .ok none) ∧
    (∀ offset, isCovered (literalSpans text).toArray offset = true ↔
      ∃ span ∈ literalSpans text, span.start ≤ offset ∧ offset < span.stop) ∧
    ∀ (α : Type) (recognise : Recogniser α) start stop,
      codeMatches recognise text start stop =
        (matchesAt recognise start (charBefore? text start)
          (slice text start (stop.getD text.length))).filter fun place =>
            ∀ span ∈ literalSpans text, ¬ (span.start ≤ place.offset ∧ place.offset < span.stop) := by
  have outside (offset : Nat) : (!insideLiteral text offset) =
      decide (∀ span ∈ literalSpans text, ¬ (span.start ≤ offset ∧ offset < span.stop)) := by
    rw [Bool.eq_iff_iff, Bool.not_eq_true', decide_eq_true_eq]
    exact any_contains_eq_false_iff
  have ordered := literalSpans_ordered text
  refine ⟨ordered, ordered.start_lt, fun _ => literalStop?_of_mem_literalSpans, ?_, ?_, ?_⟩
  · intro start stop free
    rcases Nat.lt_or_ge text.length start with beyond | within
    · -- Nothing is left to scan.
      have nothing : codeBetween text start stop = [] := by
        rw [codeBetween, piecesFrom, List.drop_eq_nil_of_le (Nat.le_of_lt beyond), pieces]
        rfl
      have none : min (stop.getD text.length) text.length - start = 0 := by omega
      rw [nothing, none]
      exact ⟨rfl, fun _ member => absurd member List.not_mem_nil⟩
    · have boundary := isBoundary_of_not_enclosed within free
      refine ⟨?_, fun code member => ?_⟩
      · rw [boundary.map_offset_codeBetween]
        exact List.filter_congr fun offset _ => outside offset
      · have isCode := (mem_codeBetween boundary member).1
        exact ⟨isCode.getElem?, isCode.literalStop?_eq⟩
  · intro offset
    rw [isCovered_literalSpans, insideLiteral, List.any_eq_true]
    simp only [Span.contains, Bool.and_eq_true, decide_eq_true_eq]
  · intro α recognise start stop
    rw [codeMatches_eq_filter]
    exact List.filter_congr fun place _ => outside place.offset

/-- A division, a regular expression with a quote in it, a string that the end of its line closes, and a
comment: from the middle of the text, at an offset that only starts a span. -/
theorem spans_and_code_agree_sample :
    let text : Text := "a / b; /'/g 'x\n // c"
    (∀ span ∈ literalSpans text, ¬ span.Encloses 7) ∧
      literalSpans text = [⟨7, 11⟩, ⟨12, 14⟩, ⟨16, 20⟩] ∧
      (codeBetween text 7 (some 30)).map (·.offset) = [11, 14, 15] := by
  intro text
  have free : ∀ span ∈ literalSpans text, ¬ span.Encloses 7 := by decide +kernel
  have spans : literalSpans text = [⟨7, 11⟩, ⟨12, 14⟩, ⟨16, 20⟩] := by decide +kernel
  obtain ⟨-, -, -, scans, -⟩ := spans_and_code_agree text
  refine ⟨free, spans, ?_⟩
  rw [(scans 7 (some 30) free).1, spans]
  decide +kernel

end SuiteDocs.Source
