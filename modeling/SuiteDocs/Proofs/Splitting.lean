import SuiteDocs.Proofs.Exchange
import SuiteDocs.Proofs.Spans
import SuiteDocs.Proofs.Recovery

/-!
Splitting a text loses nothing.

The spans between the separators leave out the separators and nothing else, and trimming leaves out white
space and comments and nothing else. Each span is scanned anew to be trimmed, but it starts behind a
character of code, so the two scans agree on what is a comment. This holds whatever the text leaves open,
also if its end is inside a literal.
-/

set_option autoImplicit false

namespace SuiteDocs.Source

open SuiteDocs.Text

/-! ## Between separators -/

/-- Spans that lie between separators and leave out nothing else. -/
structure Parted (start stop : Nat) (separators : List Nat) (spans : List Span) : Prop where
  inside : ∀ span ∈ spans, start ≤ span.start ∧ span.stop ≤ stop
  apart : spans.Pairwise fun earlier later => earlier.stop < later.start
  free : ∀ span ∈ spans, ∀ separator ∈ separators,
    ¬ (span.start ≤ separator ∧ separator < span.stop)
  covers : ∀ offset, start ≤ offset → offset < stop →
    offset ∈ separators ∨ ∃ span ∈ spans, span.start ≤ offset ∧ offset < span.stop

theorem separatedSpans_parted {start stop : Nat} {separators : List Nat} (order : start ≤ stop)
    (increasing : separators.Pairwise (· < ·))
    (within : ∀ separator ∈ separators, start ≤ separator ∧ separator < stop) :
    Parted start stop separators (separatedSpans start stop separators) := by
  induction separators generalizing start with
  | nil =>
    rw [separatedSpans]
    refine ⟨?_, List.pairwise_singleton _ _, fun _ _ _ listed => absurd listed List.not_mem_nil, ?_⟩
    · intro span member
      obtain rfl := List.mem_singleton.mp member
      exact ⟨Nat.le_refl _, Nat.le_refl _⟩
    · intro offset after before
      exact .inr ⟨_, List.mem_singleton_self _, after, before⟩
  | cons separator rest ih =>
    obtain ⟨least, increasing⟩ := List.pairwise_cons.mp increasing
    obtain ⟨from', below⟩ := within separator List.mem_cons_self
    have later : Parted (separator + 1) stop rest (separatedSpans (separator + 1) stop rest) :=
      ih below increasing fun other listed =>
        ⟨least other listed, (within other (List.mem_cons_of_mem _ listed)).2⟩
    rw [separatedSpans]
    refine ⟨?_, .cons ?_ later.apart, ?_, ?_⟩
    · intro span member
      cases List.mem_cons.mp member with
      | inl same =>
        subst same
        exact ⟨Nat.le_refl _, Nat.le_of_lt below⟩
      | inr member =>
        have bounds := later.inside span member
        omega
    · intro span member
      exact (later.inside span member).1
    · intro span member other listed
      cases List.mem_cons.mp member with
      | inl same =>
        subst same
        cases List.mem_cons.mp listed with
        | inl same =>
          subst same
          dsimp only
          omega
        | inr listed =>
          have behind := least other listed
          dsimp only
          omega
      | inr member =>
        cases List.mem_cons.mp listed with
        | inl same =>
          subst same
          have bounds := later.inside span member
          omega
        | inr listed => exact later.free span member other listed
    · intro offset after before
      rcases Nat.lt_trichotomy offset separator with near | rfl | far
      · exact .inr ⟨_, List.mem_cons_self, after, near⟩
      · exact .inl List.mem_cons_self
      · cases later.covers offset far before with
        | inl listed => exact .inl (List.mem_cons_of_mem _ listed)
        | inr covered =>
          obtain ⟨span, member, inside⟩ := covered
          exact .inr ⟨span, List.mem_cons_of_mem _ member, inside⟩

/-! ## Trimming -/

@[simp] theorem Span.stop_extend (found : Option Span) (start stop : Nat) :
    (Span.extend found start stop).stop = stop := by
  cases found <;> rfl

theorem Span.start_extend_le {found : Option Span} {start : Nat}
    (reached : ∀ span ∈ found, span.start ≤ start) (stop : Nat) :
    (Span.extend found start stop).start ≤ start := by
  cases found with
  | none => exact Nat.le_refl _
  | some span => exact reached span rfl

/-- A span that has been found is only made longer. -/
theorem trimPieces_extends {stop offset : Nat} {span : Span} {scanned : List Piece}
    {result : Option Span} (reached : span.stop ≤ offset)
    (trimmed : trimPieces stop (some span) offset scanned = .ok result) :
    ∃ wider ∈ result, wider.start = span.start ∧ min span.stop stop ≤ wider.stop := by
  induction scanned generalizing span offset with
  | nil =>
    simp only [trimPieces] at trimmed
    split at trimmed
    · exact ⟨span, (Except.ok.inj trimmed).symm, rfl, Nat.min_le_left _ _⟩
    · cases trimmed
  | cons piece rest ih =>
    simp only [trimPieces] at trimmed
    split at trimmed
    · exact ⟨span, (Except.ok.inj trimmed).symm, rfl, Nat.min_le_left _ _⟩
    · cases gap : piece.isGap with
      | true =>
        rw [if_pos gap] at trimmed
        exact ih (by omega) trimmed
      | false =>
        rw [if_neg (by simp [gap])] at trimmed
        obtain ⟨wider, member, start, longer⟩ :=
          ih (by rw [Span.stop_extend]; exact Nat.min_le_left _ _) trimmed
        refine ⟨wider, member, start, ?_⟩
        rw [Span.stop_extend] at longer
        omega

/-- Whatever lies before `stop` and is left out by trimming is in a gap. -/
theorem trimPieces_covers {stop offset place : Nat} {found result : Option Span}
    {scanned : List Piece} (reached : ∀ span ∈ found, span.start ≤ offset)
    (trimmed : trimPieces stop found offset scanned = .ok result) (from' : offset ≤ place)
    (before : place < stop) :
    (∃ span ∈ result, span.start ≤ place ∧ place < span.stop) ∨
      ∃ leading piece following, scanned = leading ++ piece :: following ∧ piece.isGap = true ∧
        offset + (textOf leading).length ≤ place ∧
        place < offset + (textOf leading).length + piece.length := by
  induction scanned generalizing found offset with
  | nil =>
    simp only [trimPieces, if_neg (show ¬ stop ≤ offset by omega)] at trimmed
    cases trimmed
  | cons piece rest ih =>
    simp only [trimPieces, if_neg (show ¬ stop ≤ offset by omega)] at trimmed
    by_cases here : place < offset + piece.length
    · cases gap : piece.isGap with
      | true => exact .inr ⟨[], piece, rest, rfl, gap, from', here⟩
      | false =>
        rw [if_neg (by simp [gap])] at trimmed
        have starts := Span.start_extend_le reached (min (offset + piece.length) stop)
        obtain ⟨wider, member, start, longer⟩ :=
          trimPieces_extends (by rw [Span.stop_extend]; exact Nat.min_le_left _ _) trimmed
        rw [Span.stop_extend] at longer
        exact .inl ⟨wider, member, by omega, by omega⟩
    · have next : ∀ span ∈ (if piece.isGap = true then found else
          some (Span.extend found offset (min (offset + piece.length) stop))),
          span.start ≤ offset + piece.length := by
        intro span member
        split at member
        · exact Nat.le_trans (reached span member) (Nat.le_add_right _ _)
        · obtain rfl := Option.mem_some_iff.mp member
          exact Nat.le_trans (Span.start_extend_le reached _) (Nat.le_add_right _ _)
      cases ih next trimmed (by omega) with
      | inl covered => exact .inl covered
      | inr left =>
        obtain ⟨leading, other, following, rfl, gap, lower, upper⟩ := left
        refine .inr ⟨piece :: leading, other, following, rfl, gap, ?_, ?_⟩ <;>
          · rw [length_textOf_cons]
            omega

/-! ## Gaps of a scan -/

section Gaps

variable {text : Text} {start stop : Nat} {leading following : List Piece}

theorem exists_mem_codeBetween {c : Symbol}
    (scan : piecesFrom text start = leading ++ .code c :: following)
    (before : start + (textOf leading).length < stop) :
    ∃ code ∈ codeBetween text start (some stop),
      code.offset = start + (textOf leading).length ∧ code.char = c := by
  rw [codeBetween, scan, codeAt_append, codeAt_cons]
  refine ⟨_, mem_takeWhile_append ?_ (decide_eq_true before), rfl, rfl⟩
  intro other member
  have near := (offset_of_mem_codeAt member).2
  exact decide_eq_true (by omega)

theorem startsComment_append {first : Symbol} {inner : Text}
    (comment : startsComment (first :: inner) = true) (more : Text) :
    startsComment (first :: inner ++ more) = true := by
  cases inner with
  | nil =>
    rw [startsComment_singleton] at comment
    cases comment
  | cons d inner =>
    rw [startsComment_cons_cons] at comment
    rw [List.cons_append, List.cons_append, startsComment_cons_cons, comment]

/-- A gap of a scan is white space of the code or part of a comment. -/
theorem blank_or_comment_of_gap {piece : Piece} {offset : Nat}
    (scan : piecesFrom text start = leading ++ piece :: following) (gap : piece.isGap = true)
    (lower : start + (textOf leading).length ≤ offset)
    (upper : offset < start + (textOf leading).length + piece.length) (before : offset < stop) :
    (∃ code ∈ codeBetween text start (some stop), code.offset = offset ∧ isBlank code.char = true) ∨
      ∃ span ∈ spansBetween text start stop, span.start ≤ offset ∧ offset < span.stop ∧
        startsComment (text.drop span.start) = true := by
  cases piece with
  | code c =>
    rw [Piece.length_code] at upper
    obtain ⟨code, member, place, rfl⟩ := exists_mem_codeBetween scan (Nat.lt_of_le_of_lt lower before)
    exact .inl ⟨code, member, by omega, gap⟩
  | literal first inner =>
    rw [Piece.length_literal] at upper
    refine .inr ⟨_, mem_spansBetween scan (Nat.lt_of_le_of_lt lower before), lower, upper, ?_⟩
    rw [← textOf_piecesFrom, piecesFrom_advance scan, textOf_literal]
    exact startsComment_append gap _

end Gaps

/-! ## Segments -/

theorem codeAt_increasing (offset depth : Nat) (scanned : List Piece) :
    (codeAt offset depth scanned).Pairwise fun earlier later => earlier.offset < later.offset := by
  rw [← List.pairwise_map, map_offset_codeAt]
  exact List.Pairwise.filter _ List.pairwise_lt_range'

theorem parted_separatorsBetween {text : Text} {start stop : Nat} (order : start ≤ stop)
    (isSeparator : Symbol → Bool) :
    Parted start stop (separatorsBetween text start stop isSeparator)
      (separatedSpans start stop (separatorsBetween text start stop isSeparator)) := by
  have increasing : (separatorsBetween text start stop isSeparator).Pairwise (· < ·) := by
    rw [separatorsBetween, List.pairwise_map]
    exact (((codeAt_increasing _ _ _).sublist (List.takeWhile_sublist _)).filter _).filter _
  refine separatedSpans_parted order increasing fun separator listed => ?_
  obtain ⟨leading, c, -, place, below⟩ := exists_scan_of_separator listed
  exact ⟨by omega, below⟩

theorem apart_of_trimmed {raw : List Span} {trimmed : List (Option Span)}
    (each : List.Forall₂ (fun raw result => ∀ span ∈ result, raw.start ≤ span.start ∧
      span.stop ≤ raw.stop) raw trimmed)
    (apart : raw.Pairwise fun earlier later => earlier.stop < later.start) :
    (trimmed.filterMap id).Pairwise fun earlier later => earlier.stop ≤ later.start := by
  induction each with
  | nil => exact .nil
  | @cons first result raw trimmed inside each ih =>
    obtain ⟨behind, apart⟩ := List.pairwise_cons.mp apart
    cases result with
    | none => exact ih apart
    | some span =>
      refine .cons ?_ (ih apart)
      intro later member
      obtain ⟨found, listed, rfl⟩ := List.mem_filterMap.mp member
      obtain ⟨other, inRaw, bounds⟩ := exists_of_forall₂ each listed
      have order := behind other inRaw
      have lower := (bounds later rfl).1
      have upper := (inside span rfl).2
      omega

theorem splitTopLevel_ordered {text : Text} {start stop : Nat} {isSeparator : Symbol → Bool}
    {spans : List Span} (order : start ≤ stop) (within : stop ≤ text.length)
    (split : splitTopLevel text start stop isSeparator = .ok spans) : Ordered start stop spans := by
  have parted := @parted_separatorsBetween text start stop order isSeparator
  refine ⟨?_, ?_, ?_⟩
  · obtain ⟨spans', split', bounds⟩ := splitTopLevel_total start isSeparator within
    obtain rfl := Except.ok.inj (split.symm.trans split')
    intro span member
    exact (bounds span member).1
  · intro span member
    obtain ⟨raw, listed, trimmed⟩ := (mem_splitTopLevel split).mp member
    have bounds := parted.inside raw listed
    have inside := trimSpan_inside trimmed
    omega
  · obtain ⟨trimmed, each, rfl⟩ := splitTopLevel_eq_ok_iff.mp split
    refine apart_of_trimmed (each.imp fun raw result same span member => ?_) parted.apart
    obtain rfl := Option.mem_def.mp member
    have inside := trimSpan_inside same
    exact ⟨inside.1, inside.2.1⟩

/-- What a split may leave out: a separator outside all brackets, white space that is code, and what lies
in a comment. -/
def MayBeLeftOut (text : Text) (start stop : Nat) (separator : Symbol) (offset : Nat) : Prop :=
  (∃ code ∈ topLevelBetween text start (some stop), code.offset = offset ∧ code.char = separator) ∨
  (∃ code ∈ codeBetween text start (some stop), code.offset = offset ∧ isBlank code.char = true) ∨
  ∃ span ∈ spansBetween text start stop, span.start ≤ offset ∧ offset < span.stop ∧
    startsComment (text.drop span.start) = true

/-- Any part of a text can be split at any separator. The segments are not empty, in order and apart from
each other, hold no separator that stands outside all brackets, and leave out nothing but such separators,
white space and comments. -/
theorem splitTopLevel_loses_nothing {text : Text} {start stop : Nat} (order : start ≤ stop)
    (within : stop ≤ text.length) (separator : Symbol) :
    ∃ spans, splitTopLevel text start stop (· == separator) = .ok spans ∧
      Ordered start stop spans ∧
      (∀ code ∈ topLevelBetween text start (some stop), code.char = separator →
        ∀ span ∈ spans, ¬ (span.start ≤ code.offset ∧ code.offset < span.stop)) ∧
      ∀ offset, start ≤ offset → offset < stop →
        (∀ span ∈ spans, ¬ (span.start ≤ offset ∧ offset < span.stop)) →
        MayBeLeftOut text start stop separator offset := by
  have parted := @parted_separatorsBetween text start stop order (· == separator)
  obtain ⟨spans, split, -⟩ := splitTopLevel_total start (· == separator) within
  have mem_iff (span : Span) := @mem_splitTopLevel _ _ _ _ _ span split
  refine ⟨spans, split, splitTopLevel_ordered order within split, ?_, ?_⟩
  · intro code member separates span inSpans held
    obtain ⟨raw, listed, same⟩ := (mem_iff span).mp inSpans
    have inside := trimSpan_inside same
    have among : code.offset ∈ separatorsBetween text start stop (· == separator) :=
      mem_separatorsBetween.mpr ⟨code, member, rfl, beq_iff_eq.mpr separates⟩
    exact parted.free raw listed code.offset among ⟨by omega, by omega⟩
  · intro offset after before outside
    cases parted.covers offset after before with
    | inl listed =>
      obtain ⟨code, member, place, separates⟩ := mem_separatorsBetween.mp listed
      exact .inl ⟨code, member, place, beq_iff_eq.mp separates⟩
    | inr covered =>
      obtain ⟨raw, listed, lower, upper⟩ := covered
      obtain ⟨result, same, -⟩ := trimSpan_total (Nat.le_trans (parted.inside raw listed).2 within)
      rw [trimSpan_eq] at same
      cases trimPieces_covers (by simp) same lower upper with
      | inl kept =>
        obtain ⟨span, rfl, held⟩ := kept
        exact absurd held (outside span ((mem_iff span).mpr ⟨raw, listed, by rw [trimSpan_eq, same]⟩))
      | inr left =>
        -- The scan that trims the span goes on with the pieces of the one from the start.
        obtain ⟨leading, piece, following, rest, gap, from', upTo⟩ := left
        obtain ⟨earlier, scan, place⟩ := exists_scan_of_separated listed
        rw [rest, ← List.append_assoc] at scan
        have count : start + (textOf (earlier ++ leading)).length =
            raw.start + (textOf leading).length := by
          rw [textOf_append, List.length_append, place, Nat.add_assoc]
        exact .inr (blank_or_comment_of_gap scan gap (by omega) (by omega) before)

theorem splitTopLevel_loses_nothing_unclosed :
    let text : Text := "f(a , 'b,c' /* d, */, (e, ], `g, h` // i"
    let spans : List Span := [⟨2, 3⟩, ⟨6, 11⟩, ⟨22, 27⟩, ⟨29, 32⟩]
    2 ≤ 32 ∧ 32 ≤ text.length ∧ splitTopLevel text 2 32 (· == ',') = .ok spans ∧
      Ordered 2 32 spans ∧ MayBeLeftOut text 2 32 ',' 16 := by
  intro text spans
  have within : 32 ≤ text.length := by decide +kernel
  have split : splitTopLevel text 2 32 (· == ',') = .ok spans := eq_ok_of_toOption (by decide +kernel)
  obtain ⟨found, same, ordered, -, left⟩ := splitTopLevel_loses_nothing (by decide : 2 ≤ 32) within ','
  obtain rfl := Except.ok.inj (split.symm.trans same)
  exact ⟨by decide, within, split, ordered, left 16 (by decide) (by decide) (by decide)⟩

end SuiteDocs.Source
