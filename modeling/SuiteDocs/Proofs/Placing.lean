import Mathlib.Data.List.Find
import SuiteDocs.Proofs.Depths
import SuiteDocs.Proofs.Extracts
import SuiteDocs.Proofs.Recovery

/-!
A text that stands in a longer one.

Where the scan of a text is part of the scan of a longer one, all that is read in it is read there as
well, further on by the offset at which it stands: the same code at the same depths, the same segments
and the same fields. Only a bracket that the text leaves open may be closed in the longer one. That is
ruled out if nothing follows the text, or if it leaves no bracket open.
-/

set_option autoImplicit false

namespace SuiteDocs.Source

open SuiteDocs.Text

/-- The same span further on. -/
def Span.shift (count : Nat) (span : Span) : Span :=
  ⟨span.start + count, span.stop + count⟩

/-- The body stands in the text from an offset on. -/
structure Placed (body text : Text) (start : Nat) : Prop where
  /-- The scan of the body is part of the scan of the text. -/
  scan : ∃ leading following, pieces [] text = leading ++ (pieces [] body ++ following) ∧
    (textOf leading).length = start
  /-- A bracket of the body is closed in the text where the body closes it. -/
  closes : ∀ offset opener, IsCode body offset opener → isOpener opener = true →
    (matchingClose text (offset + start)).toOption =
      (matchingClose body offset).toOption.map (· + start)

theorem placed_of_scan {body text : Text} {leading following : List Piece}
    (scan : pieces [] text = leading ++ (pieces [] body ++ following))
    (whole : following = [] ∨ HasNestedCode body) : Placed body text (textOf leading).length := by
  refine ⟨⟨leading, following, scan, rfl⟩, ?_⟩
  intro offset opener code opens
  obtain ⟨closer, pair⟩ := isOpener_iff.mp opens
  obtain ⟨before, alone, place⟩ := code.boundary.scan
  rw [code.next.2] at alone
  have inText : piecesFrom text (textOf leading).length =
      (before ++ .code opener :: piecesFrom body (offset + 1)) ++ following := by
    rw [piecesFrom_of_scan scan, alone]
  have closed (stop : Nat) := @matchingClose_extract _ _ _ stop _ _ _ _ _ alone inText pair
  rw [place, ← alone, textOf_pieces] at closed
  cases found : matchingClose body offset with
  | ok stop =>
    rw [((closed stop).mp found).1]
    rfl
  | error fault =>
    cases found' : matchingClose text (offset + (textOf leading).length) with
    | error fault' => rfl
    | ok stop =>
      -- A bracket that only the text closes is closed behind the body.
      cases whole with
      | inl ends =>
        subst ends
        have length : text.length = (textOf leading).length + body.length := by
          rw [← textOf_pieces [] text, scan, textOf_append, List.append_nil, textOf_pieces,
            List.length_append]
        have shape : text.drop (offset + (textOf leading).length) =
            opener :: textOf (piecesFrom body (offset + 1)) := by
          rw [Nat.add_comm, ← List.drop_drop, ← textOf_piecesFrom text, inText, List.append_nil,
            textOf_append, ← place, List.drop_left, textOf_code]
        have inside := (matchingClose_recoverable shape pair).2 stop found'
        have order := matchingClose_gt found'
        obtain ⟨inner, rfl⟩ := Nat.exists_eq_add_of_le' (show (textOf leading).length ≤ stop by omega)
        rw [(closed inner).mpr ⟨found', by omega⟩] at found
        cases found
      | inr nested =>
        obtain ⟨member, listed, rfl, rfl⟩ := code.exists_mem
        obtain ⟨-, close, -, -, -, -, always, -⟩ := exists_code_around nested listed opens
        rw [always] at found
        cases found

theorem takeWhile_append_of_forall_not {α : Type} {p : α → Bool} (early : List α) {late : List α}
    (stops : ∀ item ∈ late, p item = false) : (early ++ late).takeWhile p = early.takeWhile p := by
  induction early with
  | nil =>
    cases late with
    | nil => rfl
    | cons item late => simp [stops item List.mem_cons_self]
  | cons item early ih => simp only [List.cons_append, List.takeWhile_cons, ih]

/-- Trimming looks no farther than to the end of the span. -/
theorem trimPieces_append {stop offset : Nat} {leading : List Piece}
    (room : stop ≤ offset + (textOf leading).length) (found : Option Span) (following : List Piece) :
    trimPieces stop found offset (leading ++ following) = trimPieces stop found offset leading := by
  induction leading generalizing found offset with
  | nil =>
    have ends : stop ≤ offset := room
    cases following with
    | nil => rfl
    | cons piece following => simp [trimPieces, ends]
  | cons piece leading ih =>
    rw [length_textOf_cons, ← Nat.add_assoc] at room
    simp only [List.cons_append, trimPieces, ih room]

theorem trimPieces_add (stop offset count : Nat) (found : Option Span) (scanned : List Piece) :
    trimPieces (stop + count) (found.map (Span.shift count)) (offset + count) scanned =
      (trimPieces stop found offset scanned).map (Option.map (Span.shift count)) := by
  induction scanned generalizing found offset with
  | nil =>
    simp only [trimPieces, Nat.add_le_add_iff_right]
    split
    · rfl
    · rfl
  | cons piece rest ih =>
    have next : offset + count + piece.length = offset + piece.length + count := by omega
    have extended : some (Span.extend (found.map (Span.shift count)) (offset + count)
        (min (offset + piece.length + count) (stop + count))) =
        (some (Span.extend found offset (min (offset + piece.length) stop))).map (Span.shift count) := by
      rw [Nat.add_min_add_right]
      cases found with
      | none => rfl
      | some earlier => rfl
    simp only [trimPieces, Nat.add_le_add_iff_right, next, extended]
    split
    · rfl
    · split
      · exact ih (offset + piece.length) found
      · exact ih (offset + piece.length) _

theorem separatedSpans_add (start stop count : Nat) (offsets : List Nat) :
    separatedSpans (start + count) (stop + count) (offsets.map (· + count)) =
      (separatedSpans start stop offsets).map (Span.shift count) := by
  induction offsets generalizing start with
  | nil => rfl
  | cons offset rest ih =>
    have next : offset + count + 1 = offset + 1 + count := by omega
    simp only [List.map_cons, separatedSpans, next, ih]
    rfl

namespace Placed

variable {body text : Text} {start : Nat} (placed : Placed body text start)

include placed

theorem exists_scan {offset : Nat} (boundary : IsBoundary body offset) :
    IsBoundary text (offset + start) ∧
      ∃ following, piecesFrom text (offset + start) = piecesFrom body offset ++ following := by
  obtain ⟨leading, following, scan, rfl⟩ := placed.scan
  obtain ⟨before, alone, rfl⟩ := boundary.scan
  have whole : pieces [] text =
      (leading ++ before) ++ (piecesFrom body (textOf before).length ++ following) := by
    rw [scan, alone]
    simp only [List.append_assoc]
  have place : (textOf (leading ++ before)).length =
      (textOf before).length + (textOf leading).length := by
    rw [textOf_append, List.length_append, Nat.add_comm]
  refine ⟨⟨_, _, whole, place⟩, following, ?_⟩
  rw [← place, piecesFrom_of_scan whole]

theorem exists_drop : ∃ following, text.drop start = body ++ following := by
  obtain ⟨-, following, scan⟩ := placed.exists_scan (isBoundary_zero body)
  refine ⟨textOf following, ?_⟩
  rw [← textOf_piecesFrom, ← Nat.zero_add start, scan, textOf_append, textOf_piecesFrom,
    List.drop_zero]

theorem getElem?_eq {offset : Nat} (inside : offset < body.length) :
    text[offset + start]? = body[offset]? := by
  obtain ⟨following, shape⟩ := placed.exists_drop
  rw [Nat.add_comm, ← List.getElem?_drop, shape, List.getElem?_append_left inside]

theorem slice_eq (first : Nat) {last : Nat} (fits : last ≤ body.length) :
    slice text (first + start) (last + start) = slice body first last := by
  obtain ⟨following, shape⟩ := placed.exists_drop
  have count : last + start - (first + start) = last - first := Nat.add_sub_add_right ..
  have room : last - first ≤ (body.drop first).length := by
    rw [List.length_drop]
    omega
  rw [slice, slice, count, Nat.add_comm first, ← List.drop_drop, shape, List.drop_append,
    List.take_append_of_le_length room]

theorem codeBetween_eq {first last : Nat} (boundary : IsBoundary body first)
    (fits : last ≤ body.length) :
    codeBetween text (first + start) (some (last + start)) =
      (codeBetween body first (some last)).map fun code =>
        { code with offset := code.offset + start } := by
  obtain ⟨-, following, scan⟩ := placed.exists_scan boundary
  have ends : body.length ≤ first + (textOf (piecesFrom body first)).length := by
    rw [textOf_piecesFrom, List.length_drop]
    omega
  rw [codeBetween, codeBetween, scan, codeAt_append, takeWhile_append_of_forall_not, codeAt_add,
    List.takeWhile_map]
  · simp only [Function.comp_def, Nat.add_lt_add_iff_right]
  · intro code member
    have beyond := (offset_of_mem_codeAt member).1
    simp only [decide_eq_false_iff_not]
    omega

theorem topLevelBetween_eq {first last : Nat} (boundary : IsBoundary body first)
    (fits : last ≤ body.length) :
    topLevelBetween text (first + start) (some (last + start)) =
      (topLevelBetween body first (some last)).map fun code =>
        { code with offset := code.offset + start } := by
  rw [topLevelBetween, placed.codeBetween_eq boundary fits, List.filter_map]
  rfl

theorem separatorsBetween_eq {first last : Nat} (boundary : IsBoundary body first)
    (fits : last ≤ body.length) (isSeparator : Symbol → Bool) :
    separatorsBetween text (first + start) (last + start) isSeparator =
      (separatorsBetween body first last isSeparator).map (· + start) := by
  simp only [separatorsBetween, placed.topLevelBetween_eq boundary fits, List.filter_map,
    List.map_map]
  rfl

theorem findTopLevel?_eq {first last : Nat} (boundary : IsBoundary body first)
    (fits : last ≤ body.length) (c : Symbol) :
    findTopLevel? text [c] (first + start) (some (last + start)) =
      (findTopLevel? body [c] first (some last)).map (· + start) := by
  have starts (rest : Text) : List.isPrefixOf [c] rest = (some c == rest.head?) := by
    cases rest with
    | nil => rfl
    | cons d rest => simp [List.isPrefixOf]
  have same : ∀ code ∈ topLevelBetween body first (some last),
      List.isPrefixOf [c] (text.drop (code.offset + start)) =
        List.isPrefixOf [c] (body.drop code.offset) := by
    intro code member
    obtain ⟨code, -, -⟩ := mem_codeBetween boundary (List.mem_filter.mp member).1
    rw [starts, starts, List.head?_drop, List.head?_drop, placed.getElem?_eq code.lt]
  simp only [findTopLevel?, placed.topLevelBetween_eq boundary fits, List.find?_map, Option.map_map,
    Function.comp_def]
  rw [List.find?_congr same]

theorem trimSpan_eq {raw : Span} (boundary : IsBoundary body raw.start) (fits : raw.stop ≤ body.length) :
    trimSpan text (raw.shift start) =
      (trimSpan body raw).map (Option.map (Span.shift start)) := by
  obtain ⟨-, following, scan⟩ := placed.exists_scan boundary
  have room : raw.stop + start ≤
      raw.start + start + (textOf (piecesFrom body raw.start)).length := by
    rw [textOf_piecesFrom, List.length_drop]
    omega
  rw [Source.trimSpan_eq, Source.trimSpan_eq, Span.shift, scan, trimPieces_append room]
  exact trimPieces_add raw.stop raw.start start none (piecesFrom body raw.start)

theorem splitTopLevel_eq {first last : Nat} {isSeparator : Symbol → Bool} {spans : List Span}
    (boundary : IsBoundary body first) (fits : last ≤ body.length)
    (split : splitTopLevel body first last isSeparator = .ok spans) :
    splitTopLevel text (first + start) (last + start) isSeparator =
      .ok (spans.map (Span.shift start)) := by
  obtain ⟨trimmed, each, rfl⟩ := splitTopLevel_eq_ok_iff.mp split
  apply splitTopLevel_eq_ok_iff.mpr
  refine ⟨trimmed.map (Option.map (Span.shift start)), ?_, ?_⟩
  · rw [placed.separatorsBetween_eq boundary fits, separatedSpans_add, List.forall₂_map_left_iff,
      List.forall₂_map_right_iff]
    rw [List.forall₂_iff_zip] at each ⊢
    refine ⟨each.1, fun {raw result} pair => ?_⟩
    have member := (List.of_mem_zip pair).1
    obtain ⟨leading, scan, place⟩ := exists_scan_of_separated member
    have inside : raw.stop ≤ body.length := Nat.le_trans (stop_le_of_separated member) fits
    rw [placed.trimSpan_eq (place ▸ (boundary.advance scan).1) inside, each.2 pair]
    rfl
  · simp only [List.map_filterMap, List.filterMap_map]
    rfl

theorem fieldOf?_eq {span : Span} (boundary : IsBoundary body span.start)
    (fits : span.stop ≤ body.length) : fieldOf? text (span.shift start) = fieldOf? body span := by
  have found := placed.findTopLevel?_eq boundary fits ':'
  unfold fieldOf?
  simp only [Span.shift, placed.slice_eq span.start fits]
  split
  · rfl
  · change findTopLevel? text ":" _ _ = (findTopLevel? body ":" _ _).map _ at found
    rw [found]
    cases finds : findTopLevel? body ":" span.start (some span.stop) with
    | none => rfl
    | some colon =>
      obtain ⟨-, -, below, -⟩ := findTopLevel?_isCode boundary finds
      have inside : colon ≤ body.length := Nat.le_trans (Nat.le_of_lt (below _ rfl)) fits
      have next : colon + start + 1 = colon + 1 + start := Nat.add_right_comm colon start 1
      simp only [Option.map_some, placed.slice_eq span.start inside, next,
        placed.slice_eq (colon + 1) fits]

/-- An object of the body has the same fields in the text, or is left open in both. -/
theorem objectFields_eq {offset : Nat} (code : IsCode body offset '\x7b') :
    (objectFields text (offset + start)).toOption = (objectFields body offset).toOption := by
  have closed := placed.closes offset _ code rfl
  unfold objectFields
  cases found : matchingClose body offset with
  | error fault =>
    rw [found] at closed
    cases found' : matchingClose text (offset + start) with
    | error fault' => rfl
    | ok stop =>
      rw [found'] at closed
      cases closed
  | ok stop =>
    rw [found] at closed
    have fits := Nat.le_of_lt ((matchingClose_recoverable code.drop rfl).2 stop found)
    have boundary := code.next.1
    obtain ⟨spans, split, -⟩ := splitTopLevel_total (offset + 1) (· == .char ',') fits
    have split' := placed.splitTopLevel_eq boundary fits split
    rw [Nat.add_right_comm] at split'
    rw [eq_ok_of_toOption closed, ok_bind, ok_bind, split, split', ok_bind, ok_bind,
      List.filterMap_map]
    have same : ∀ span ∈ spans, (fieldOf? text ∘ Span.shift start) span = fieldOf? body span := by
      intro span member
      obtain ⟨inner, -, upper⟩ := splitTopLevel_bounds boundary split member
      exact placed.fieldOf?_eq inner (Nat.le_trans upper fits)
    rw [List.filterMap_congr same]

end Placed

end SuiteDocs.Source

namespace SuiteDocs.Extraction

open SuiteDocs.Text SuiteDocs.Source

variable {body text : Text} {start : Nat} (placed : Placed body text start) (constants : Constants)
  (source : Option Text)

include placed

theorem ofArgument_placed {span : Span} (boundary : IsBoundary body span.start)
    (inside : span.start < body.length) :
    ofArgument text constants source (span.shift start) = ofArgument body constants source span := by
  unfold ofArgument
  simp only [Span.shift, placed.getElem?_eq inside]
  split
  · rename_i opens
    obtain ⟨rest, shape⟩ := exists_drop_of_getElem? (beq_iff_eq.mp opens)
    have code := boundary.code_of_isPlain shape rfl
    have same := placed.objectFields_eq code
    cases given : objectFields body span.start with
    | ok fields =>
      rw [given] at same
      rw [eq_ok_of_toOption same]
    | error fault =>
      rw [given] at same
      cases given' : objectFields text (span.start + start) with
      | ok fields =>
        rw [given'] at same
        cases same
      | error fault' =>
        obtain ⟨rest', shape'⟩ := exists_drop_of_getElem?
          ((placed.getElem?_eq inside).trans (beq_iff_eq.mp opens))
        simp only [objectFields_recoverable shape fault given,
          objectFields_recoverable shape' fault' given', if_true]
  · rfl

/-- A call of the body registers the same annotations in the text, and leaves the same messages. -/
theorem ofCall_placed {paren : Nat} (code : IsCode body paren '(') :
    ofCall text constants source (paren + start) = ofCall body constants source paren := by
  have closed := placed.closes paren _ code rfl
  unfold ofCall
  cases found : matchingClose body paren with
  | error fault =>
    rw [found] at closed
    cases found' : matchingClose text (paren + start) with
    | error fault' =>
      obtain ⟨rest', shape'⟩ := exists_drop_of_getElem?
        ((placed.getElem?_eq code.lt).trans code.getElem?)
      simp only [(matchingClose_recoverable code.drop rfl).1 fault found,
        (matchingClose_recoverable shape' rfl).1 fault' found', if_true]
    | ok stop =>
      rw [found'] at closed
      cases closed
  | ok stop =>
    rw [found] at closed
    have fits := Nat.le_of_lt ((matchingClose_recoverable code.drop rfl).2 stop found)
    have boundary := code.next.1
    obtain ⟨spans, split, nonempty⟩ := splitTopLevel_total (paren + 1) (· == ',') fits
    have split' := placed.splitTopLevel_eq boundary fits split
    rw [Nat.add_right_comm] at split'
    have same : ∀ span ∈ spans, (ofArgument text constants source ∘ Span.shift start) span =
        ofArgument body constants source span := by
      intro span member
      obtain ⟨inner, -, upper⟩ := splitTopLevel_bounds boundary split member
      have order := (nonempty span member).1
      exact ofArgument_placed placed constants source inner (by omega)
    have passed : (spans.map (Span.shift start)).mapM (ofArgument text constants source) =
        spans.mapM (ofArgument body constants source) := by
      rw [List.mapM_map, mapM_congr same]
    simp only [eq_ok_of_toOption closed, split, split', LoggedExcept.ofExcept_ok, pure_bind, passed]

end SuiteDocs.Extraction
