import SuiteDocs.Proofs.Logged
import SuiteDocs.Proofs.Scan
import SuiteDocs.Source.Segment

/-!
Segments and gaps of a scanned text.

Trimming and the search for the next character pass over white space and comments, which are whole
pieces of the scan. Both are therefore read off the pieces, as the characters of code are.
-/

set_option autoImplicit false

namespace SuiteDocs.Source

open SuiteDocs.Text

/-- White space and comments. -/
def Piece.isGap : Piece → Bool
  | .code c => isBlank c
  | .literal first inner => startsComment (first :: inner)

theorem isPlain_of_isBlank {c : Symbol} (blank : isBlank c = true) : isPlain c = true := by
  simp only [isPlain, Bool.and_eq_true, Bool.not_eq_true', bne_iff_ne]
  constructor
  · cases quote : isQuote c with
    | false => rfl
    | true =>
      simp only [isQuote, Bool.or_eq_true, beq_iff_eq] at quote
      rcases quote with (rfl | rfl) | rfl <;> exact absurd blank (by decide)
  · rintro rfl
    exact absurd blank (by decide)

theorem isBlank_of_isQuote {c : Symbol} (quote : isQuote c = true) : isBlank c = false := by
  cases blank : isBlank c with
  | false => rfl
  | true =>
    have plain := isPlain_of_isBlank blank
    simp [isPlain, quote] at plain

theorem isBlank_of_literal {before rest : Text} {c : Symbol} {count : Nat}
    (literal : literalTail? before c rest = some count) : isBlank c = false := by
  cases blank : isBlank c with
  | false => rfl
  | true =>
    rw [literalTail?_of_isPlain (isPlain_of_isBlank blank)] at literal
    cases literal

theorem startsComment_singleton (c : Symbol) : startsComment [c] = false := by
  simp [startsComment]

theorem startsComment_cons_cons (c d : Symbol) (rest : Text) :
    startsComment (c :: d :: rest) = (c == '/' && (d == '/' || d == '*')) := by
  unfold startsComment
  split
  · rename_i shape
    obtain ⟨rfl, tail⟩ := List.cons.inj shape
    obtain ⟨rfl, -⟩ := List.cons.inj tail
    rfl
  · rename_i shape
    obtain ⟨rfl, tail⟩ := List.cons.inj shape
    obtain ⟨rfl, -⟩ := List.cons.inj tail
    rfl
  · rename_i notLine notBlock
    symm
    simp only [Bool.and_eq_false_iff, Bool.or_eq_false_iff, beq_eq_false_iff_ne]
    by_cases slash : c = '/'
    · subst slash
      exact .inr ⟨fun same => notLine rest (same ▸ rfl), fun same => notBlock rest (same ▸ rfl)⟩
    · exact .inl slash

theorem startsComment_of_code {before rest : Text} {c : Symbol}
    (code : literalTail? before c rest = none) : startsComment (c :: rest) = false := by
  cases rest with
  | nil => exact startsComment_singleton c
  | cons d rest =>
    rw [startsComment_cons_cons, Bool.eq_false_iff]
    intro comment
    simp only [Bool.and_eq_true, Bool.or_eq_true, beq_iff_eq] at comment
    obtain ⟨rfl, rfl | rfl⟩ := comment <;> simp [literalTail?, isQuote] at code

/-- Whether a literal is a comment shows in its own characters. -/
theorem startsComment_literal {before rest : Text} {c : Symbol} {count : Nat}
    (literal : literalTail? before c rest = some count) :
    startsComment (c :: rest.take count) = startsComment (c :: rest) := by
  cases rest with
  | nil => simp
  | cons d rest =>
    cases count with
    | succ count => rw [List.take_succ_cons, startsComment_cons_cons, startsComment_cons_cons]
    | zero =>
      rw [List.take_zero, startsComment_singleton, startsComment_cons_cons]
      symm
      rw [Bool.eq_false_iff]
      intro comment
      simp only [Bool.and_eq_true, Bool.or_eq_true, beq_iff_eq] at comment
      obtain ⟨rfl, rfl | rfl⟩ := comment <;>
        simp [literalTail?, isQuote, lineCommentLength] at literal

/-- The span that is left of the pieces up to `stop` without the gaps at its ends. -/
def trimPieces (stop : Nat) (found : Option Span) (offset : Nat) :
    List Piece → Except Fault (Option Span)
  | [] => if stop ≤ offset then .ok found else .error .outOfRange
  | piece :: rest =>
    if stop ≤ offset then .ok found
    else
      let found := if piece.isGap then found
        else some (Span.extend found offset (min (offset + piece.length) stop))
      trimPieces stop found (offset + piece.length) rest

theorem trimAt_eq_trimPieces (stop : Nat) (found : Option Span) (offset : Nat)
    (before text : Text) :
    trimAt stop found offset before text = trimPieces stop found offset (pieces before text) := by
  induction before, text using pieces.induct generalizing found offset with
  | case1 before => rw [trimAt, pieces, trimPieces]
  | case2 before c rest code ih =>
    rw [trimAt, pieces, code]
    simp only [trimPieces, Piece.isGap, Piece.length_code, startsComment_of_code code]
    by_cases blank : isBlank c = true <;> simp [blank, ih]
  | case3 before c rest count literal ih =>
    rw [trimAt, pieces, literal]
    simp only [trimPieces, Piece.isGap, Piece.length_literal, isBlank_of_literal literal,
      startsComment_literal literal, List.length_take_of_le (literalTail?_le literal), ← ih]
    simp [Nat.add_assoc]

theorem trimSpan_eq (text : Text) (span : Span) :
    trimSpan text span = trimPieces span.stop none span.start (piecesFrom text span.start) :=
  trimAt_eq_trimPieces ..

/-- A trimmed span starts where the one found before did, or at a piece that is no gap. -/
theorem trimPieces_start {stop offset : Nat} {found : Option Span} {scanned : List Piece}
    {span : Span} (trimmed : trimPieces stop found offset scanned = .ok (some span)) :
    (∃ earlier ∈ found, span.start = earlier.start) ∨
      ∃ leading piece following, scanned = leading ++ piece :: following ∧
        span.start = offset + (textOf leading).length := by
  induction scanned generalizing found offset with
  | nil =>
    simp only [trimPieces] at trimmed
    split at trimmed
    · exact .inl ⟨span, Except.ok.inj trimmed, rfl⟩
    · cases trimmed
  | cons piece rest ih =>
    simp only [trimPieces] at trimmed
    split at trimmed
    · exact .inl ⟨span, Except.ok.inj trimmed, rfl⟩
    · rcases ih trimmed with ⟨earlier, member, same⟩ | ⟨leading, other, following, rfl, place⟩
      · cases gap : piece.isGap with
        | true => exact .inl ⟨earlier, by simpa [gap] using member, same⟩
        | false =>
          simp only [gap, Bool.false_eq_true, if_false, Option.mem_some_iff] at member
          subst member
          cases found with
          | none => exact .inr ⟨[], piece, rest, rfl, same⟩
          | some earlier => exact .inl ⟨earlier, rfl, same⟩
      · refine .inr ⟨piece :: leading, other, following, rfl, ?_⟩
        rw [place, length_textOf_cons]
        omega

theorem trimPieces_stop_le {stop offset : Nat} {found : Option Span} {scanned : List Piece}
    {span : Span} (below : ∀ earlier ∈ found, earlier.stop ≤ stop)
    (trimmed : trimPieces stop found offset scanned = .ok (some span)) : span.stop ≤ stop := by
  induction scanned generalizing found offset with
  | nil =>
    simp only [trimPieces] at trimmed
    split at trimmed
    · exact below span (Except.ok.inj trimmed)
    · cases trimmed
  | cons piece rest ih =>
    simp only [trimPieces] at trimmed
    split at trimmed
    · exact below span (Except.ok.inj trimmed)
    · refine ih ?_ trimmed
      intro earlier member
      cases gap : piece.isGap with
      | true => exact below earlier (by simpa [gap] using member)
      | false =>
        simp only [gap, Bool.false_eq_true, if_false, Option.mem_some_iff] at member
        subst member
        cases found <;> exact Nat.min_le_right _ _

/-- A trimmed span stays inside, and starts at a piece of the scan. -/
theorem trimSpan_inside {text : Text} {raw span : Span} (trimmed : trimSpan text raw = .ok (some span)) :
    raw.start ≤ span.start ∧ span.stop ≤ raw.stop ∧
      ∃ leading following, piecesFrom text raw.start = leading ++ following ∧
        span.start = raw.start + (textOf leading).length := by
  rw [trimSpan_eq] at trimmed
  have upper := trimPieces_stop_le (by simp) trimmed
  cases trimPieces_start trimmed with
  | inl earlier =>
    obtain ⟨earlier, member, -⟩ := earlier
    cases member
  | inr here =>
    obtain ⟨leading, piece, following, scan, place⟩ := here
    exact ⟨by omega, upper, leading, piece :: following, scan, place⟩

theorem trimSpan_bounds {text : Text} {raw span : Span} (boundary : IsBoundary text raw.start)
    (trimmed : trimSpan text raw = .ok (some span)) :
    IsBoundary text span.start ∧ raw.start ≤ span.start ∧ span.stop ≤ raw.stop := by
  obtain ⟨lower, upper, leading, following, scan, place⟩ := trimSpan_inside trimmed
  exact ⟨place ▸ (boundary.advance scan).1, lower, upper⟩

theorem mem_separatedSpans {start stop : Nat} {separators : List Nat} {span : Span}
    (member : span ∈ separatedSpans start stop separators) :
    (span.start = start ∨ ∃ separator ∈ separators, span.start = separator + 1) ∧
      (span.stop = stop ∨ span.stop ∈ separators) := by
  induction separators generalizing start with
  | nil =>
    rw [separatedSpans, List.mem_singleton] at member
    subst member
    exact ⟨.inl rfl, .inl rfl⟩
  | cons separator rest ih =>
    rw [separatedSpans] at member
    rcases List.mem_cons.mp member with rfl | member
    · exact ⟨.inl rfl, .inr List.mem_cons_self⟩
    · obtain ⟨first, last⟩ := ih member
      refine ⟨.inr ?_, last.imp_right (List.mem_cons_of_mem _)⟩
      rcases first with same | ⟨other, listed, same⟩
      · exact ⟨separator, List.mem_cons_self, same⟩
      · exact ⟨other, List.mem_cons_of_mem _ listed, same⟩

/-- The offsets of the separators outside all brackets. -/
def separatorsBetween (text : Text) (start stop : Nat) (isSeparator : Symbol → Bool) : List Nat :=
  ((topLevelBetween text start (some stop)).filter (isSeparator ·.char)).map (·.offset)

section Separators

variable {text : Text} {start stop offset : Nat} {isSeparator : Symbol → Bool}

theorem mem_separatorsBetween : offset ∈ separatorsBetween text start stop isSeparator ↔
    ∃ code ∈ topLevelBetween text start (some stop), code.offset = offset ∧
      isSeparator code.char = true := by
  simp only [separatorsBetween, List.mem_map, List.mem_filter]
  constructor
  · intro listed
    obtain ⟨code, ⟨member, separates⟩, place⟩ := listed
    exact ⟨code, member, place, separates⟩
  · intro listed
    obtain ⟨code, member, place, separates⟩ := listed
    exact ⟨code, ⟨member, separates⟩, place⟩

/-- A separator is code of the scan, which goes on behind it as it did from the start. -/
theorem exists_scan_of_separator (listed : offset ∈ separatorsBetween text start stop isSeparator) :
    ∃ leading c, piecesFrom text start = leading ++ .code c :: piecesFrom text (offset + 1) ∧
      offset = start + (textOf leading).length ∧ offset < stop := by
  obtain ⟨code, member, rfl, -⟩ := mem_separatorsBetween.mp listed
  have inside := (List.mem_filter.mp member).1
  obtain ⟨leading, following, scan, place⟩ :=
    exists_cut_of_mem_codeAt (List.takeWhile_subset _ inside)
  have below : code.offset < stop := by simpa using List.mem_takeWhile_imp inside
  have behind : piecesFrom text (code.offset + 1) = following := by
    have here := piecesFrom_advance scan
    rw [← place] at here
    exact @piecesFrom_advance _ _ [.code code.char] _ here
  exact ⟨leading, code.char, by rw [scan, behind], place, below⟩

/-- Between two separators the scan is the one from the start. -/
theorem exists_scan_of_separated {raw : Span}
    (member : raw ∈ separatedSpans start stop (separatorsBetween text start stop isSeparator)) :
    ∃ leading, piecesFrom text start = leading ++ piecesFrom text raw.start ∧
      raw.start = start + (textOf leading).length := by
  cases (mem_separatedSpans member).1 with
  | inl same =>
    rw [same]
    exact ⟨[], rfl, rfl⟩
  | inr behind =>
    obtain ⟨separator, listed, same⟩ := behind
    obtain ⟨leading, c, scan, place, -⟩ := exists_scan_of_separator listed
    refine ⟨leading ++ [.code c], ?_, ?_⟩
    · rw [same, scan, List.append_assoc, List.singleton_append]
    · rw [same, place, textOf_append, List.length_append]
      rfl

theorem stop_le_of_separated {raw : Span}
    (member : raw ∈ separatedSpans start stop (separatorsBetween text start stop isSeparator)) :
    raw.stop ≤ stop := by
  cases (mem_separatedSpans member).2 with
  | inl same => exact Nat.le_of_eq same
  | inr listed =>
    obtain ⟨leading, c, -, -, below⟩ := exists_scan_of_separator listed
    exact Nat.le_of_lt below

/-- A text is split by trimming each of the spans between its separators. -/
theorem splitTopLevel_eq_ok_iff {spans : List Span} :
    splitTopLevel text start stop isSeparator = .ok spans ↔
      ∃ trimmed, List.Forall₂ (fun raw result => trimSpan text raw = .ok result)
        (separatedSpans start stop (separatorsBetween text start stop isSeparator)) trimmed ∧
        spans = trimmed.filterMap id := by
  unfold splitTopLevel
  rw [bind_eq_ok_iff]
  refine exists_congr fun trimmed => and_congr mapM_eq_ok_iff ?_
  simp only [pure, Except.pure, Except.ok.injEq, eq_comm]

theorem mem_splitTopLevel {spans : List Span} {span : Span}
    (split : splitTopLevel text start stop isSeparator = .ok spans) :
    span ∈ spans ↔
      ∃ raw ∈ separatedSpans start stop (separatorsBetween text start stop isSeparator),
        trimSpan text raw = .ok (some span) := by
  obtain ⟨trimmed, each, rfl⟩ := splitTopLevel_eq_ok_iff.mp split
  constructor
  · intro member
    obtain ⟨found, listed, rfl⟩ := List.mem_filterMap.mp member
    exact exists_of_forall₂ each listed
  · intro left
    obtain ⟨raw, member, same⟩ := left
    obtain ⟨result, listed, same'⟩ := exists_of_forall₂ each.flip member
    obtain rfl := Except.ok.inj (same.symm.trans same')
    exact List.mem_filterMap.mpr ⟨_, listed, rfl⟩

/-- Segments start at boundaries and stay between the ends. -/
theorem splitTopLevel_bounds {spans : List Span} {span : Span} (boundary : IsBoundary text start)
    (split : splitTopLevel text start stop isSeparator = .ok spans) (member : span ∈ spans) :
    IsBoundary text span.start ∧ start ≤ span.start ∧ span.stop ≤ stop := by
  obtain ⟨raw, inRaw, trimmed⟩ := (mem_splitTopLevel split).mp member
  obtain ⟨leading, scan, place⟩ := exists_scan_of_separated inRaw
  have ends := stop_le_of_separated inRaw
  have next : IsBoundary text raw.start := place ▸ (boundary.advance scan).1
  obtain ⟨inner, lower, upper⟩ := trimSpan_bounds next trimmed
  exact ⟨inner, by omega, by omega⟩

end Separators

/-! ## The next character -/

/-- The offset of the first piece before `stop` that is no gap. -/
def nextSolid? (stop offset : Nat) : List Piece → Option Nat
  | [] => none
  | piece :: rest =>
    if stop ≤ offset then none
    else if piece.isGap then nextSolid? stop (offset + piece.length) rest
    else some offset

theorem nextCodeAt?_eq_nextSolid? (stop offset : Nat) (before text : Text) :
    nextCodeAt? stop offset before text = nextSolid? stop offset (pieces before text) := by
  induction before, text using pieces.induct generalizing offset with
  | case1 before => rw [nextCodeAt?, pieces, nextSolid?]
  | case2 before c rest code ih =>
    rw [nextCodeAt?, pieces, code]
    simp only [nextSolid?, Piece.isGap, Piece.length_code, startsComment_of_code code]
    by_cases blank : isBlank c = true <;> simp [blank, ih]
  | case3 before c rest count literal ih =>
    rw [nextCodeAt?, pieces, literal]
    simp only [nextSolid?, Piece.isGap, Piece.length_literal, isBlank_of_literal literal,
      startsComment_literal literal, List.length_take_of_le (literalTail?_le literal), ← ih]
    simp [Nat.add_assoc]

theorem nextSolid?_some {stop offset found : Nat} {scanned : List Piece}
    (finds : nextSolid? stop offset scanned = some found) :
    found < stop ∧ ∃ leading following, scanned = leading ++ following ∧
      found = offset + (textOf leading).length := by
  induction scanned generalizing offset with
  | nil => cases finds
  | cons piece rest ih =>
    rw [nextSolid?] at finds
    split at finds
    · cases finds
    · split at finds
      · obtain ⟨upper, leading, following, rfl, place⟩ := ih finds
        refine ⟨upper, piece :: leading, following, rfl, ?_⟩
        rw [place, length_textOf_cons]
        omega
      · obtain rfl := Option.some.inj finds
        exact ⟨by omega, [], piece :: rest, rfl, rfl⟩

theorem nextCode?_bounds {text : Text} {start stop found : Nat} (boundary : IsBoundary text start)
    (finds : nextCode? text start (some stop) = some found) :
    IsBoundary text found ∧ start ≤ found ∧ found < stop := by
  rw [nextCode?, nextCodeAt?_eq_nextSolid?] at finds
  obtain ⟨upper, leading, following, scan, place⟩ := nextSolid?_some finds
  exact ⟨place ▸ (boundary.advance scan).1, by omega, upper⟩

end SuiteDocs.Source
