import SuiteDocs.Proofs.Exchange
import SuiteDocs.Proofs.Spans

/-!
Texts cut out of a text.

What a bracket encloses is scanned by itself as it is in its place. The text is cut at both ends: a look
back meets the start of the text where there was the bracket, and a look ahead meets the end of it where
there was the closing bracket. Neither makes a difference, since an opening bracket is seen like the start
of a text, and since the closing one is code, so that nothing that starts before it reaches it.
-/

set_option autoImplicit false

namespace SuiteDocs.Source

open SuiteDocs.Text

/-! ## Cutting a text between two pieces -/

theorem literalTail?_of_cut {before part rest : Text} {c : Symbol} {count : Nat}
    (literal : literalTail? before c (part ++ rest) = some count) (within : count ≤ part.length) :
    literalTail? before c part = some count := by
  have cut := literalTail?_of_le (.cut rest) literal within
  rwa [List.append_nil] at cut

/-- A regular expression that a cut leaves whole is one of the longer text too. -/
theorem exists_regexLength?_append {inSet : Bool} {part : Text} {count : Nat}
    (found : regexLength? inSet part = some count) (rest : Text) :
    ∃ longer, regexLength? inSet (part ++ rest) = some longer := by
  fun_induction regexLength? inSet part generalizing count with
  | case1 => cases found
  | case2 => cases found
  | case3 inSet c part ih =>
    obtain ⟨inner, counted, rfl⟩ := Option.map_eq_some_iff.mp found
    obtain ⟨longer, counted⟩ := ih counted
    exact ⟨longer + 2, by rw [List.cons_append, List.cons_append, regexLength?_escaped, counted]; rfl⟩
  | case4 => cases found
  | case5 c part alone followed goesOn ih =>
    have plain := ne_backslash_of_unescaped alone followed
    obtain ⟨inner, counted, rfl⟩ := Option.map_eq_some_iff.mp found
    obtain ⟨longer, counted⟩ := ih counted
    exact ⟨longer + 1, by
      simp only [List.cons_append, regexLength?_unescaped plain, if_neg goesOn, if_true, counted]; rfl⟩
  | case6 inSet c part alone followed goesOn outside closes =>
    have plain := ne_backslash_of_unescaped alone followed
    exact ⟨_, by
      rw [List.cons_append, regexLength?_unescaped plain, if_neg goesOn, if_neg outside, if_pos closes]⟩
  | case7 inSet c part alone followed goesOn outside inner ih =>
    have plain := ne_backslash_of_unescaped alone followed
    obtain ⟨inner', counted, rfl⟩ := Option.map_eq_some_iff.mp found
    obtain ⟨longer, counted⟩ := ih counted
    exact ⟨longer + 1, by
      rw [List.cons_append, regexLength?_unescaped plain, if_neg goesOn, if_neg outside,
        if_neg inner, counted]; rfl⟩

theorem literalTail?_cut_none {before part rest : Text} {c : Symbol}
    (code : literalTail? before c (part ++ rest) = none) : literalTail? before c part = none := by
  cases quote : isQuote c with
  | true =>
    rw [literalTail?_quote quote] at code
    cases code
  | false =>
    by_cases slash : c = '/'
    · subst slash
      cases part with
      | nil => rfl
      | cons d part =>
        rw [List.cons_append, literalTail?_slash] at code
        rw [literalTail?_slash]
        split at code
        · cases code
        · rename_i notLine
          split at code
          · cases code
          · rename_i notBlock
            rw [if_neg notLine, if_neg notBlock]
            split
            · rename_i starts
              -- An attempt at a regular expression fails at the cut if it fails with more text ahead.
              rw [if_pos starts] at code
              cases found : regexLength? false (d :: part) with
              | none => rfl
              | some count =>
                obtain ⟨longer, counted⟩ := exists_regexLength?_append found rest
                rw [← List.cons_append, counted] at code
                cases code
            · rfl
    · exact literalTail?_of_ne quote slash

/-- A text cut between two pieces of its scan is scanned as it was up to there. -/
theorem pieces_cut {before common rest : Text} {leading following : List Piece}
    (scan : pieces before (common ++ rest) = leading ++ following)
    (covers : textOf leading = common) : pieces before common = leading := by
  induction leading generalizing before common with
  | nil =>
    subst covers
    rw [textOf_nil, pieces]
  | cons piece leading ih =>
    cases common with
    | nil => cases textOf_eq_nil_iff.mp covers
    | cons c common =>
      rw [List.cons_append, pieces] at scan
      cases literal : literalTail? before c (common ++ rest) with
      | none =>
        rw [literal] at scan
        obtain ⟨rfl, tail⟩ := List.cons.inj scan
        rw [pieces, literalTail?_cut_none literal]
        exact congrArg _ (ih tail (List.cons.inj covers).2)
      | some count =>
        rw [literal] at scan
        obtain ⟨rfl, tail⟩ := List.cons.inj scan
        -- The literal is one of the leading pieces, so it ends before the cut.
        have within := count_le_of_covers literal covers
        rw [List.take_append_of_le_length within] at covers tail ⊢
        rw [List.drop_append_of_le_length within] at tail
        rw [pieces, literalTail?_of_cut literal within]
        exact congrArg _ (ih tail (textOf_of_covers covers))

/-! ## Behind an opening bracket -/

/-- Behind something solid, a symbol that is neither part of a name nor a dot is as good as the start of
the text. -/
theorem regexMayStart_start {stop : Symbol} (outside : isNamePart stop = false) (notDot : stop ≠ '.')
    {nearer : Text} (solid : nearer.dropWhile isBlank ≠ []) (farther : Text) :
    regexMayStart (nearer ++ stop :: farther) = regexMayStart nearer := by
  have kept : (nearer ++ stop :: farther).dropWhile isBlank =
      nearer.dropWhile isBlank ++ stop :: farther := by
    rw [List.dropWhile_append, List.isEmpty_eq_false_iff.mpr solid]
    rfl
  simp only [regexMayStart, kept]
  cases shape : nearer.dropWhile isBlank with
  | nil => exact absurd shape solid
  | cons previous earlier =>
    simp only [List.cons_append, takeWhile_before outside, dropWhile_before outside]
    cases earlier.dropWhile isNamePart with
    | nil => simp [notDot]
    | cons d more => by_cases dot : d = .char '.' <;> simp [dot]

/-- A symbol after which an expression may begin is seen like the start of a text, unless a name or a
member may go on behind it. -/
theorem seenAlike_start {stop : Symbol} {farther : Text} (outside : isNamePart stop = false)
    (notDot : stop ≠ '.') (invites : regexMayStart (stop :: farther) = true) :
    SeenAlike (stop :: farther) [] := by
  intro nearer
  rw [List.append_nil]
  by_cases blank : nearer.dropWhile isBlank = []
  · have all : ∀ c ∈ nearer, isBlank c = true := List.dropWhile_eq_nil_iff.mp blank
    rw [regexMayStart, blank]
    rw [regexMayStart] at invites
    rw [regexMayStart, List.dropWhile_append_of_pos all, invites]
  · exact (regexMayStart_start outside notDot blank farther).symm

/-- An opening bracket is seen like the start of a text. -/
theorem seenAlike_opener {opener closer : Symbol} (pair : closerOf? opener = some closer)
    (farther : Text) : SeenAlike (opener :: farther) [] := by
  rcases closerOf?_cases pair with ⟨rfl, -⟩ | ⟨rfl, -⟩ | ⟨rfl, -⟩ <;>
    exact seenAlike_start (by decide) (by decide) rfl

/-! ## What a bracket encloses -/

/-- The bracket that closes a character of code met by a scan, sought among the pieces behind it. -/
theorem matchingClose_eq_ok_iff_of_scan {text : Text} {start stop : Nat} {opener closer : Symbol}
    {leading following : List Piece}
    (scan : piecesFrom text start = leading ++ .code opener :: following)
    (pair : closerOf? opener = some closer) :
    matchingClose text (start + (textOf leading).length) = .ok stop ↔
      closeOffset? opener closer 0 (start + (textOf leading).length + 1) following = some stop := by
  have shape : text.drop (start + (textOf leading).length) = opener :: textOf following := by
    rw [← textOf_piecesFrom, piecesFrom_advance scan, textOf_code]
  have behind : piecesFrom text (start + (textOf leading).length + 1) = following :=
    @piecesFrom_advance _ _ [.code opener] _ (piecesFrom_advance scan)
  simp only [matchingClose, shape, pair, behind]
  cases closeOffset? opener closer 0 (start + (textOf leading).length + 1) following <;> simp

theorem closeOffset?_cut {opener closer : Symbol} {nested offset stop : Nat}
    {leading : List Piece} (following : List Piece) :
    closeOffset? opener closer nested offset leading = some stop ↔
      closeOffset? opener closer nested offset (leading ++ following) = some stop ∧
        stop < offset + (textOf leading).length := by
  constructor
  · intro found
    obtain ⟨inner, rest, rfl, place⟩ := exists_cut_of_closeOffset? found
    refine ⟨closeOffset?_append found following, ?_⟩
    rw [textOf_append, List.length_append, textOf_code, List.length_cons]
    omega
  · intro found
    obtain ⟨found, before⟩ := found
    cases countsThrough opener closer nested offset leading with
    | inl stops =>
      obtain ⟨stop', -, always⟩ := stops
      have same := (always following).symm.trans found
      have alone := always []
      rwa [List.append_nil, same] at alone
    | inr goesOn =>
      obtain ⟨inner, always⟩ := goesOn
      rw [always following] at found
      have beyond := closeOffset?_ge found
      omega

/-- What stands behind an opening bracket, cut between two pieces of its scan, is scanned by itself as it
was in its place. -/
theorem pieces_extract {text : Text} {start : Nat} {opener closer : Symbol}
    {leading following : List Piece} (stands : text[start]? = some opener)
    (pair : closerOf? opener = some closer)
    (scan : piecesFrom text (start + 1) = leading ++ following) :
    pieces [] (textOf leading) = leading := by
  have before : (text.take (start + 1)).reverse = opener :: (text.take start).reverse := by
    rw [List.take_add_one, stands, Option.toList_some, List.reverse_append]
    rfl
  have whole : text.drop (start + 1) = textOf leading ++ textOf following := by
    rw [← textOf_piecesFrom, scan, textOf_append]
  rw [piecesFrom, before, whole] at scan
  rw [(seenAlike_opener pair _).pieces_eq]
  exact pieces_cut scan rfl

theorem matchingClose_extract {text body : Text} {start stop : Nat} {opener closer : Symbol}
    {before behind following : List Piece} (alone : pieces [] body = before ++ .code opener :: behind)
    (scan : piecesFrom text start = (before ++ .code opener :: behind) ++ following)
    (pair : closerOf? opener = some closer) :
    matchingClose body (textOf before).length = .ok stop ↔
      matchingClose text ((textOf before).length + start) = .ok (stop + start) ∧
        stop + start < start + (textOf (before ++ .code opener :: behind)).length := by
  have inPlace : piecesFrom text start = before ++ .code opener :: (behind ++ following) := by
    rw [scan, List.append_assoc, List.cons_append]
  have byItself : piecesFrom body 0 = before ++ .code opener :: behind := alone
  have next : 0 + (textOf before).length + 1 + start = start + (textOf before).length + 1 := by omega
  have moved : closeOffset? opener closer 0 (start + (textOf before).length + 1) behind =
      some (stop + start) ↔
        closeOffset? opener closer 0 (0 + (textOf before).length + 1) behind = some stop := by
    rw [← next, closeOffset?_add, Option.map_eq_some_iff]
    constructor
    · intro found
      obtain ⟨inner, counted, same⟩ := found
      rw [counted, Nat.add_right_cancel same]
    · intro counted
      exact ⟨stop, counted, rfl⟩
  have ends : start + (textOf before).length + 1 + (textOf behind).length =
      start + (textOf (before ++ .code opener :: behind)).length := by
    rw [textOf_append, List.length_append, textOf_code, List.length_cons]
    omega
  calc matchingClose body (textOf before).length = .ok stop
      ↔ matchingClose body (0 + (textOf before).length) = .ok stop := by rw [Nat.zero_add]
    _ ↔ closeOffset? opener closer 0 (0 + (textOf before).length + 1) behind = some stop :=
        matchingClose_eq_ok_iff_of_scan byItself pair
    _ ↔ closeOffset? opener closer 0 (start + (textOf before).length + 1) (behind ++ following) =
          some (stop + start) ∧ stop + start < start + (textOf before).length + 1 +
            (textOf behind).length := by rw [← moved, closeOffset?_cut following]
    _ ↔ _ := by rw [← matchingClose_eq_ok_iff_of_scan inPlace pair, ends, Nat.add_comm start]

/-- What a bracket and its closing one enclose has the same literals and comments by itself as in its
place, and the same code at the same depths. A bracket in it is closed by itself where it is closed in its
place, unless that is further out. -/
theorem extract_scans_alike {text : Text} {start close : Nat}
    (found : matchingClose text start = .ok close) :
    let body := slice text (start + 1) close
    (literalSpans body).map (fun span => ⟨span.start + (start + 1), span.stop + (start + 1)⟩) =
        spansBetween text (start + 1) close ∧
      (codeBetween body 0 none).map (fun code => { code with offset := code.offset + (start + 1) }) =
        codeBetween text (start + 1) (some close) ∧
      ∀ code ∈ codeBetween body 0 none, isOpener code.char = true →
        ((∃ stop, matchingClose body code.offset = .ok stop) ↔
          ∃ stop < close, matchingClose text (code.offset + (start + 1)) = .ok stop) ∧
        ∀ stop, matchingClose body code.offset = .ok stop →
          matchingClose text (code.offset + (start + 1)) = .ok (stop + (start + 1)) := by
  intro body
  obtain ⟨opener, closer, leading, following, stands, pair, scan, rfl⟩ :=
    exists_scan_of_matchingClose found
  have cut : body = textOf leading := slice_of_scan scan
  have scanned : pieces [] body = leading := by rw [cut, pieces_extract stands pair scan]
  rw [literalSpans, codeBetween_zero, scanned, spansBetween_of_scan scan, codeBetween_of_scan scan,
    ← spansAt_add, ← codeAt_add, Nat.zero_add]
  refine ⟨rfl, rfl, fun code member opens => ?_⟩
  obtain ⟨before, behind, rfl, place⟩ := exists_cut_of_mem_codeAt member
  obtain ⟨wanted, pair'⟩ := isOpener_iff.mp opens
  rw [Nat.zero_add] at place
  have closes (stop : Nat) := @matchingClose_extract _ _ _ stop _ _ _ _ _ scanned scan pair'
  rw [place]
  refine ⟨⟨?_, ?_⟩, fun stop closed => ((closes stop).mp closed).1⟩
  · intro closed
    obtain ⟨stop, closed⟩ := closed
    obtain ⟨found, within⟩ := (closes stop).mp closed
    exact ⟨stop + (start + 1), within, found⟩
  · intro closed
    obtain ⟨stop, within, closed⟩ := closed
    have order := matchingClose_gt closed
    obtain ⟨inner, rfl⟩ := Nat.exists_eq_add_of_le' (show start + 1 ≤ stop by omega)
    exact ⟨inner, (closes inner).mpr ⟨closed, within⟩⟩

theorem extract_scans_alike_arguments :
    let text : Text := "f(/[)]/g, \x7b a: '\x7d' /* \x7d */ \x7d, /) + [;"
    let body := slice text 2 31
    matchingClose text 1 = .ok 31 ∧
      (literalSpans body).map (fun span => ⟨span.start + 2, span.stop + 2⟩) =
        spansBetween text 2 31 ∧
      matchingClose body 8 = .ok 25 ∧ matchingClose text 10 = .ok 27 := by
  intro text body
  have found : matchingClose text 1 = .ok 31 := eq_ok_of_toOption (by decide +kernel)
  have inner : matchingClose body 8 = .ok 25 := eq_ok_of_toOption (by decide +kernel)
  have member : (⟨8, .char '\x7b', 0⟩ : CodeChar) ∈ codeBetween body 0 none := by decide +kernel
  obtain ⟨spans, -, closes⟩ := extract_scans_alike found
  exact ⟨found, spans, inner, (closes _ member rfl).2 25 inner⟩

end SuiteDocs.Source
