import SuiteDocs.Proofs.Lookaround

/-!
Exchanging the contents of a literal.

Where the scans of two texts differ in one literal only, the code of both is the same, moved by the
difference in length behind the literal, and so are the brackets that close each other. The scans of
two texts that differ in the contents of one string are of this kind.
-/

set_option autoImplicit false

namespace SuiteDocs.Source

open SuiteDocs.Text

/-! ## Moving code -/

theorem codeAt_add (offset count depth : Nat) (scanned : List Piece) :
    codeAt (offset + count) depth scanned =
      (codeAt offset depth scanned).map fun code => { code with offset := code.offset + count } := by
  induction scanned generalizing offset depth with
  | nil => rfl
  | cons piece rest ih =>
    cases piece with
    | literal first inner =>
      simp only [codeAt]
      rw [← ih]
      congr 1
      omega
    | code c =>
      have next : offset + count + 1 = offset + 1 + count := by omega
      simp only [codeAt, next, ih]
      split
      · rfl
      · split <;> rfl

/-- The depth behind a symbol of code. -/
def depthBehind (depth : Nat) (c : Symbol) : Nat :=
  if isOpener c then depth + 1 else if isCloser c then depth - 1 else depth

/-- The depth behind some pieces. -/
def depthAfter (depth : Nat) (scanned : List Piece) : Nat :=
  (codeOf scanned).foldl depthBehind depth

theorem depthAfter_append (depth : Nat) (leading following : List Piece) :
    depthAfter depth (leading ++ following) = depthAfter (depthAfter depth leading) following := by
  rw [depthAfter, codeOf_append, List.foldl_append]
  rfl

/-- A symbol of code is at the lesser of the depths before and behind it. -/
theorem codeAt_cons (offset depth : Nat) (c : Symbol) (rest : List Piece) :
    codeAt offset depth (.code c :: rest) =
      ⟨offset, c, min depth (depthBehind depth c)⟩ ::
        codeAt (offset + 1) (depthBehind depth c) rest := by
  rw [codeAt, depthBehind]
  split
  · rw [Nat.min_eq_left (Nat.le_succ depth)]
  · split
    · rw [Nat.min_eq_right (Nat.sub_le depth 1)]
    · rw [Nat.min_self]

/-- Code is collected piece by piece; what comes before decides only the depth of what follows. -/
theorem codeAt_append (offset depth : Nat) (leading following : List Piece) :
    codeAt offset depth (leading ++ following) = codeAt offset depth leading ++
      codeAt (offset + (textOf leading).length) (depthAfter depth leading) following := by
  induction leading generalizing offset depth with
  | nil => rfl
  | cons piece leading ih =>
    have place : offset + (textOf (piece :: leading)).length =
        offset + piece.length + (textOf leading).length := by
      rw [length_textOf_cons, Nat.add_assoc]
    rw [place]
    cases piece with
    | literal first contents => exact ih (offset + contents.length + 1) depth
    | code c =>
      rw [List.cons_append, codeAt_cons, codeAt_cons, ih]
      rfl

theorem exists_codeAt_append (offset depth : Nat) (leading : List Piece) :
    ∃ inner, ∀ following, codeAt offset depth (leading ++ following) =
      codeAt offset depth leading ++ codeAt (offset + (textOf leading).length) inner following :=
  ⟨depthAfter depth leading, codeAt_append offset depth leading⟩

/-- A symbol of code among some pieces is at the depth behind those before it. -/
theorem mem_codeAt (offset depth : Nat) (leading following : List Piece) (c : Symbol) :
    ⟨offset + (textOf leading).length, c,
        min (depthAfter depth leading) (depthBehind (depthAfter depth leading) c)⟩ ∈
      codeAt offset depth (leading ++ .code c :: following) := by
  rw [codeAt_append, codeAt_cons]
  exact List.mem_append_right _ List.mem_cons_self

theorem offset_of_mem_codeAt {offset depth : Nat} {scanned : List Piece} {code : CodeChar}
    (member : code ∈ codeAt offset depth scanned) :
    offset ≤ code.offset ∧ code.offset < offset + (textOf scanned).length := by
  obtain ⟨leading, following, rfl, place⟩ := exists_cut_of_mem_codeAt member
  rw [textOf_append, List.length_append, textOf_code, List.length_cons]
  omega

theorem eq_of_mem_codeAt {offset depth : Nat} {leading following : List Piece} {c : Symbol}
    {code : CodeChar} (member : code ∈ codeAt offset depth (leading ++ .code c :: following))
    (place : code.offset = offset + (textOf leading).length) :
    code = ⟨offset + (textOf leading).length, c,
      min (depthAfter depth leading) (depthBehind (depthAfter depth leading) c)⟩ := by
  rw [codeAt_append, codeAt_cons] at member
  cases List.mem_append.mp member with
  | inl earlier =>
    have before := (offset_of_mem_codeAt earlier).2
    omega
  | inr member =>
    cases List.mem_cons.mp member with
    | inl here => exact here
    | inr later =>
      have behind := (offset_of_mem_codeAt later).1
      omega

theorem closeOffset?_add (opener closer : Symbol) (nested offset count : Nat) (scanned : List Piece) :
    closeOffset? opener closer nested (offset + count) scanned =
      (closeOffset? opener closer nested offset scanned).map (· + count) := by
  have next (offset : Nat) : offset + count + 1 = offset + 1 + count := by omega
  fun_induction closeOffset? opener closer nested offset scanned with
  | case1 => rfl
  | case2 nested offset first inner rest ih =>
    rw [closeOffset?_literal, ← ih]
    congr 1
    omega
  | case3 nested offset c rest opens ih => simp only [closeOffset?, opens, if_true, next, ih]
  | case4 offset c rest notOpener closes => simp [closeOffset?, notOpener, closes]
  | case5 offset c rest notOpener closes nested ih => simp [closeOffset?, notOpener, closes, next, ih]
  | case6 nested offset c rest notOpener notCloser ih =>
    simp [closeOffset?, notOpener, notCloser, next, ih]

/-- The count of brackets stops among some pieces, whatever follows, or goes on behind them. -/
def CountsThrough (opener closer : Symbol) (nested offset : Nat) (leading : List Piece) : Prop :=
  (∃ stop < offset + (textOf leading).length, ∀ following,
    closeOffset? opener closer nested offset (leading ++ following) = some stop) ∨
  ∃ inner, ∀ following, closeOffset? opener closer nested offset (leading ++ following) =
    closeOffset? opener closer inner (offset + (textOf leading).length) following

theorem CountsThrough.cons {opener closer : Symbol} {nested nested' offset : Nat} {piece : Piece}
    {leading : List Piece}
    (step : ∀ rest, closeOffset? opener closer nested offset (piece :: rest) =
      closeOffset? opener closer nested' (offset + piece.length) rest)
    (counts : CountsThrough opener closer nested' (offset + piece.length) leading) :
    CountsThrough opener closer nested offset (piece :: leading) := by
  have place : offset + (textOf (piece :: leading)).length =
      offset + piece.length + (textOf leading).length := by
    rw [length_textOf_cons, Nat.add_assoc]
  rcases counts with ⟨stop, before, stops⟩ | ⟨inner, goesOn⟩
  · exact .inl ⟨stop, place ▸ before, fun following => (step _).trans (stops following)⟩
  · exact .inr ⟨inner, fun following => place ▸ (step _).trans (goesOn following)⟩

theorem countsThrough (opener closer : Symbol) (nested offset : Nat) (leading : List Piece) :
    CountsThrough opener closer nested offset leading := by
  fun_induction closeOffset? opener closer nested offset leading with
  | case1 nested offset => exact .inr ⟨nested, fun following => rfl⟩
  | case2 nested offset first inner rest ih =>
    exact CountsThrough.cons (fun rest => closeOffset?_literal ..) ih
  | case3 nested offset c rest opens ih =>
    exact .cons (fun rest => by simp only [closeOffset?, opens, if_true]; rfl) ih
  | case4 offset c rest notOpener closes =>
    refine .inl ⟨offset, by simp, fun following => ?_⟩
    simp [closeOffset?, notOpener, closes]
  | case5 offset c rest notOpener closes nested ih =>
    exact .cons (fun rest => by simp [closeOffset?, notOpener, closes]) ih
  | case6 nested offset c rest notOpener notCloser ih =>
    exact .cons (fun rest => by simp [closeOffset?, notOpener, notCloser]) ih

theorem toOption_matchingClose {text : Text} {start : Nat} {opener closer : Symbol}
    (code : IsCode text start opener) (pair : closerOf? opener = some closer) :
    (matchingClose text start).toOption =
      closeOffset? opener closer 0 (start + 1) (piecesFrom text (start + 1)) := by
  rw [matchingClose_eq code pair]
  cases closeOffset? opener closer 0 (start + 1) (piecesFrom text (start + 1)) <;> rfl

theorem codeBetween_zero (text : Text) : codeBetween text 0 none = codeAt 0 0 (pieces [] text) :=
  List.takeWhile_eq_self_iff.mpr fun _ _ => rfl

theorem IsCode.exists_mem {text : Text} {offset : Nat} {c : Symbol} (code : IsCode text offset c) :
    ∃ found ∈ codeBetween text 0 none, found.offset = offset ∧ found.char = c := by
  obtain ⟨leading, scan, rfl⟩ := code.boundary.scan
  rw [codeBetween_zero, scan, code.next.2]
  exact ⟨_, mem_codeAt 0 0 leading _ c, Nat.zero_add _, rfl⟩

/-- The code before an offset is that of the pieces before it, also if the offset is inside the literal
behind them. -/
theorem codeBetween_of_free {text : Text} {start stop : Nat} {leading following : List Piece}
    (scan : piecesFrom text start = leading ++ following)
    (reached : start + (textOf leading).length ≤ stop)
    (free : ∀ code ∈ codeAt (start + (textOf leading).length) (depthAfter 0 leading) following,
      stop ≤ code.offset) :
    codeBetween text start (some stop) = codeAt start 0 leading := by
  rw [codeBetween, scan, codeAt_append, List.takeWhile_append_of_pos]
  · have nothing : (codeAt (start + (textOf leading).length) (depthAfter 0 leading) following).takeWhile
        (fun code => decide (code.offset < stop)) = [] := by
      rw [List.takeWhile_eq_nil_iff]
      intro nonempty
      have beyond := free _ (List.get_mem _ ⟨0, nonempty⟩)
      simpa using beyond
    rw [nothing, List.append_nil]
  · intro code member
    have before := (offset_of_mem_codeAt member).2
    exact decide_eq_true (Nat.lt_of_lt_of_le before reached)

theorem codeBetween_of_scan {text : Text} {start : Nat} {leading following : List Piece}
    (scan : piecesFrom text start = leading ++ following) :
    codeBetween text start (some (start + (textOf leading).length)) = codeAt start 0 leading :=
  codeBetween_of_free scan (Nat.le_refl _) fun _ member => (offset_of_mem_codeAt member).1

theorem isCode_of_scan {text : Text} {leading following : List Piece} {c : Symbol}
    (scan : pieces [] text = leading ++ .code c :: following) :
    IsCode text (textOf leading).length c ∧
      piecesFrom text ((textOf leading).length + 1) = following := by
  have code : IsCode text (textOf leading).length c :=
    ⟨⟨leading, _, scan, rfl⟩, following, piecesFrom_of_scan scan⟩
  have rest := (piecesFrom_of_scan scan).symm.trans code.next.2
  exact ⟨code, (List.cons.inj rest).2.symm⟩

/-! ## Exchanging a literal -/

/-- Offsets before `start` stay, and those from `stop` on move along with it to `stop'`. -/
structure Moves (moved : Nat → Nat) (start stop stop' : Nat) : Prop where
  before : ∀ offset < start, moved offset = offset
  behind : ∀ distance, moved (stop + distance) = stop' + distance

theorem Moves.further {moved : Nat → Nat} {start stop stop' : Nat} (moves : Moves moved start stop stop')
    (count : Nat) : Moves moved start (stop + count) (stop' + count) := by
  constructor
  · exact moves.before
  · intro distance
    rw [Nat.add_assoc, Nat.add_assoc]
    exact moves.behind (count + distance)

section Exchange

variable {moved : Nat → Nat} {leading following : List Piece} {first : Symbol} {inner inner' : Text}

theorem codeAt_exchange {start stop stop' : Nat} (moves : Moves moved start stop stop')
    (reaches : (textOf leading).length = start) (ends : start + inner.length + 1 = stop)
    (ends' : start + inner'.length + 1 = stop') :
    codeAt 0 0 (leading ++ .literal first inner' :: following) =
      (codeAt 0 0 (leading ++ .literal first inner :: following)).map fun code =>
        { code with offset := moved code.offset } := by
  obtain ⟨depth, appended⟩ := exists_codeAt_append 0 0 leading
  have before : ∀ code ∈ codeAt 0 0 leading, { code with offset := moved code.offset } = id code := by
    intro code member
    have place := (offset_of_mem_codeAt member).2
    rw [moves.before code.offset (by omega)]
    rfl
  have behind (stop : Nat) : codeAt stop depth following =
      (codeAt 0 depth following).map fun code => { code with offset := stop + code.offset } := by
    have shifted := codeAt_add 0 stop depth following
    simpa only [Nat.zero_add, Nat.add_comm stop] using shifted
  rw [appended, appended, codeAt, codeAt, Nat.zero_add, reaches, ends, ends', List.map_append,
    List.map_congr_left before, List.map_id, behind stop, behind stop', List.map_map]
  simp only [Function.comp_def, moves.behind]

theorem closeOffset?_exchange_behind {start stop stop' : Nat} (moves : Moves moved start stop stop')
    (opener closer : Symbol) (nested distance : Nat) :
    closeOffset? opener closer nested (stop' + distance) following =
      (closeOffset? opener closer nested (stop + distance) following).map moved := by
  have behind (stop : Nat) : closeOffset? opener closer nested (stop + distance) following =
      (closeOffset? opener closer nested 0 following).map (stop + distance + ·) := by
    have shifted := closeOffset?_add opener closer nested 0 (stop + distance) following
    simpa only [Nat.zero_add, Nat.add_comm (stop + distance)] using shifted
  rw [behind stop, behind stop', Option.map_map]
  simp only [Function.comp_def, Nat.add_assoc, moves.behind]

theorem closeOffset?_exchange {start stop stop' offset : Nat} (moves : Moves moved start stop stop')
    (reaches : offset + (textOf leading).length = start) (ends : start + inner.length + 1 = stop)
    (ends' : start + inner'.length + 1 = stop') (opener closer : Symbol) (nested : Nat) :
    closeOffset? opener closer nested offset (leading ++ .literal first inner' :: following) =
      (closeOffset? opener closer nested offset
        (leading ++ .literal first inner :: following)).map moved := by
  rcases countsThrough opener closer nested offset leading with ⟨close, before, stops⟩ | ⟨depth, goesOn⟩
  · rw [stops, stops, Option.map_some, moves.before close (by omega)]
  · rw [goesOn, goesOn, reaches, closeOffset?_literal, closeOffset?_literal, ends, ends']
    exact closeOffset?_exchange_behind moves opener closer depth 0

theorem outside_of_mem_codeAt {code : CodeChar}
    (member : code ∈ codeAt 0 0 (leading ++ .literal first inner :: following)) :
    code.offset < (textOf leading).length ∨ (textOf leading).length + inner.length + 1 ≤ code.offset := by
  obtain ⟨depth, appended⟩ := exists_codeAt_append 0 0 leading
  rw [appended, List.mem_append, codeAt, Nat.zero_add] at member
  cases member with
  | inl member =>
    have place := (offset_of_mem_codeAt member).2
    exact .inl (by omega)
  | inr member => exact .inr (offset_of_mem_codeAt member).1

/-- A bracket is closed at the same place, or in neither text. -/
theorem matchingClose_exchange {text text' : Text} {start stop stop' : Nat}
    (moves : Moves moved start stop stop') (reaches : (textOf leading).length = start)
    (ends : start + inner.length + 1 = stop) (ends' : start + inner'.length + 1 = stop')
    (scan : pieces [] text = leading ++ .literal first inner :: following)
    (scan' : pieces [] text' = leading ++ .literal first inner' :: following)
    {code : CodeChar} (member : code ∈ codeBetween text 0 none) (opens : isOpener code.char = true) :
    (matchingClose text' (moved code.offset)).toOption =
      (matchingClose text code.offset).toOption.map moved := by
  obtain ⟨closer, pair⟩ := isOpener_iff.mp opens
  rw [codeBetween_zero] at member
  obtain ⟨earlier, later, cut, place⟩ := exists_cut_of_mem_codeAt member
  rw [Nat.zero_add] at place
  obtain ⟨isCode, rest⟩ := isCode_of_scan cut
  rw [place, toOption_matchingClose isCode pair, rest]
  rcases List.append_eq_append_iff.mp (scan.symm.trans cut) with
    ⟨between, rfl, tail⟩ | ⟨between, rfl, tail⟩
  · cases between with
    | nil => simp at tail
    | cons piece between =>
      -- The bracket stands behind the literal.
      rw [List.cons_append] at tail
      obtain ⟨rfl, rfl⟩ := List.cons.inj tail
      have cut' : pieces [] text' = (leading ++ .literal first inner' :: between) ++
          .code code.char :: later := by rw [scan', List.append_assoc, List.cons_append]
      obtain ⟨isCode', rest'⟩ := isCode_of_scan cut'
      have place (inner : Text) : (textOf (leading ++ .literal first inner :: between)).length =
          start + inner.length + 1 + (textOf between).length := by
        rw [textOf_append, List.length_append, length_textOf_cons, Piece.length_literal, reaches]
        omega
      rw [place inner', ends'] at isCode' rest'
      rw [place inner, ends, moves.behind, toOption_matchingClose isCode' pair, rest']
      exact closeOffset?_exchange_behind moves code.char closer 0 ((textOf between).length + 1)
  · cases between with
    | nil => simp at tail
    | cons piece between =>
      -- The bracket stands before the literal.
      rw [List.cons_append] at tail
      obtain ⟨rfl, rfl⟩ := List.cons.inj tail
      have cut' : pieces [] text' = earlier ++ .code code.char ::
          (between ++ .literal first inner' :: following) := by
        rw [scan', List.append_assoc, List.cons_append]
      obtain ⟨isCode', rest'⟩ := isCode_of_scan cut'
      rw [textOf_append, List.length_append, textOf_code, List.length_cons] at reaches
      rw [moves.before _ (by omega), toOption_matchingClose isCode' pair, rest']
      exact closeOffset?_exchange moves (by omega) ends ends' code.char closer 0

end Exchange

/-- Where a literal starts. -/
def StartsLiteral (text : Text) (offset : Nat) : Prop :=
  ∃ span ∈ literalSpans text, span.start = offset

theorem exists_scan_literal {before inner after : Text} {first : Symbol}
    (starts : StartsLiteral (before ++ first :: (inner ++ after)) before.length)
    (literal : literalTail? before.reverse first (inner ++ after) = some inner.length) :
    ∃ leading, textOf leading = before ∧
      pieces [] (before ++ first :: (inner ++ after)) =
        leading ++ .literal first inner ::
          pieces (inner.reverse ++ first :: before.reverse) after := by
  obtain ⟨span, member, start⟩ := starts
  obtain ⟨leading, opening, contents, following, scan, rfl⟩ := mem_spansAt.mp member
  have whole : before ++ first :: (inner ++ after) =
      textOf leading ++ textOf (.literal opening contents :: following) := by
    rw [← textOf_append, ← scan, textOf_pieces]
  rw [Nat.zero_add] at start
  obtain ⟨covers, rest⟩ := List.append_inj whole start.symm
  refine ⟨leading, covers.symm, ?_⟩
  rw [scan, pieces_resume scan, ← rest, ← covers, List.append_nil, pieces, literal]
  simp only [List.take_left, List.drop_left]

/-! ## Contents of a string -/

/-- What may stand between two quotes of a kind without closing the string: any symbol behind a
backslash, and any other but that quote and, unless the quotes are backticks, a line break. -/
inductive Contents (quote : Quote) : Text → Prop where
  | empty : Contents quote []
  | escaped (c : Symbol) {rest : Text} : Contents quote rest →
      Contents quote (.char '\\' :: c :: rest)
  | plain {c : Symbol} {rest : Text} (unescaped : c ≠ .char '\\') (inner : c ≠ quote.symbol)
      (fits : quote = .backtick ∨ c ≠ .char '\n') : Contents quote rest → Contents quote (c :: rest)

theorem Contents.stringEnd_eq {quote : Quote} {contents : Text} (fits : Contents quote contents)
    (rest : Text) : stringEnd quote.symbol (contents ++ quote.symbol :: rest) =
      ⟨contents.length + 1, true⟩ := by
  induction fits with
  | empty => exact stringEnd_quote quote.symbol_ne_backslash rest
  | escaped c _ ih =>
    rw [List.cons_append, List.cons_append, stringEnd_escaped, ih]
    rfl
  | plain unescaped inner fits _ ih =>
    have fits := fits.imp_left fun backtick => show quote.symbol = .char '`' by rw [backtick]; rfl
    rw [List.cons_append, stringEnd_other unescaped inner fits, ih]
    rfl

/-- A text with a string between two parts of it. -/
def quotedBetween (before after : Text) (quote : Quote) (contents : Text) : Text :=
  before ++ quote.symbol :: (contents ++ quote.symbol :: after)

theorem Contents.literalTail?_eq {quote : Quote} {contents : Text} (fits : Contents quote contents)
    (before after : Text) :
    literalTail? before quote.symbol (contents ++ [quote.symbol] ++ after) =
      some (contents ++ [quote.symbol]).length := by
  simp [literalTail?, quote.isQuote_symbol, fits.stringEnd_eq]

theorem exists_scan_quotedBetween {before after contents : Text} {quote : Quote}
    (fits : Contents quote contents)
    (starts : StartsLiteral (quotedBetween before after quote contents) before.length) :
    ∃ leading, textOf leading = before ∧
      pieces [] (quotedBetween before after quote contents) =
        leading ++ .literal quote.symbol (contents ++ [quote.symbol]) ::
          pieces (quote.symbol :: (contents.reverse ++ quote.symbol :: before.reverse)) after := by
  have whole : quotedBetween before after quote contents =
      before ++ quote.symbol :: (contents ++ [quote.symbol] ++ after) := by
    rw [quotedBetween, List.append_assoc]
    rfl
  rw [whole] at starts ⊢
  obtain ⟨leading, covers, scan⟩ := exists_scan_literal starts (fits.literalTail?_eq before.reverse after)
  refine ⟨leading, covers, ?_⟩
  rw [scan, List.reverse_append]
  rfl

/-- The scans of two texts that differ in the contents of a string differ in that string alone. -/
theorem exists_scans_quotedBetween {before after first second : Text} {quote : Quote}
    (fits : Contents quote first) (fits' : Contents quote second)
    (starts : StartsLiteral (quotedBetween before after quote first) before.length)
    (starts' : StartsLiteral (quotedBetween before after quote second) before.length) :
    ∃ leading following, textOf leading = before ∧
      pieces [] (quotedBetween before after quote first) =
        leading ++ .literal quote.symbol (first ++ [quote.symbol]) :: following ∧
      pieces [] (quotedBetween before after quote second) =
        leading ++ .literal quote.symbol (second ++ [quote.symbol]) :: following := by
  obtain ⟨leading, covers, scan⟩ := exists_scan_quotedBetween fits starts
  obtain ⟨leading', covers', scan'⟩ := exists_scan_quotedBetween fits' starts'
  obtain rfl := pieces_common scan scan' covers covers'
  have following := pieces_barrier quote.barrier [] (first.reverse ++ quote.symbol :: before.reverse)
    (second.reverse ++ quote.symbol :: before.reverse) after
  rw [List.nil_append, List.nil_append] at following
  exact ⟨leading', _, covers, scan, following ▸ scan'⟩

/-- Where an offset outside a string goes when the contents of the string are exchanged for others:
nowhere if it lies before the string, and along with the end of the string if it lies behind. -/
def exchangedOffset (start oldLength newLength offset : Nat) : Nat :=
  if offset < start then offset else offset - oldLength + newLength

theorem moves_exchangedOffset (start oldLength newLength : Nat) :
    Moves (exchangedOffset start oldLength newLength) start (start + oldLength + 2)
      (start + newLength + 2) := by
  constructor
  · intro offset before
    exact if_pos before
  · intro distance
    rw [exchangedOffset, if_neg (by omega)]
    omega

/-- What a string holds is not code: texts that differ in the contents of one string have the same
code at the same depths, in the same places but for the difference in length behind the string, and
every bracket of the code is closed at the same place or in neither text. -/
theorem codeBetween_exchange_contents {before after first second : Text} {quote : Quote}
    (fits : Contents quote first) (fits' : Contents quote second)
    (starts : StartsLiteral (quotedBetween before after quote first) before.length)
    (starts' : StartsLiteral (quotedBetween before after quote second) before.length) :
    let text := quotedBetween before after quote first
    let text' := quotedBetween before after quote second
    let moved := exchangedOffset before.length first.length second.length
    codeBetween text' 0 none =
        (codeBetween text 0 none).map (fun code => { code with offset := moved code.offset }) ∧
      (∀ code ∈ codeBetween text 0 none,
        code.offset < before.length ∨ before.length + first.length + 2 ≤ code.offset) ∧
      ∀ code ∈ codeBetween text 0 none, isOpener code.char = true →
        (matchingClose text' (moved code.offset)).toOption =
          (matchingClose text code.offset).toOption.map moved := by
  intro text text' moved
  obtain ⟨leading, following, covers, scan, scan'⟩ := exists_scans_quotedBetween fits fits' starts starts'
  have moves := moves_exchangedOffset before.length first.length second.length
  have reaches : (textOf leading).length = before.length := by rw [covers]
  have ends (contents : Text) : before.length + (contents ++ [quote.symbol]).length + 1 =
      before.length + contents.length + 2 := by
    rw [List.length_append, List.length_singleton]
    omega
  refine ⟨?_, ?_, ?_⟩
  · rw [codeBetween_zero, codeBetween_zero, scan, scan']
    exact codeAt_exchange moves reaches (ends first) (ends second)
  · intro code member
    rw [codeBetween_zero, scan] at member
    obtain ⟨depth, appended⟩ := exists_codeAt_append 0 0 leading
    rw [appended, List.mem_append, codeAt, Nat.zero_add, reaches, ends] at member
    rcases member with member | member
    · have place := (offset_of_mem_codeAt member).2
      exact .inl (by omega)
    · exact .inr (offset_of_mem_codeAt member).1
  · intro code member opens
    exact matchingClose_exchange moves reaches (ends first) (ends second) scan scan' member opens

/-- The contents `x` and `')}/*`, the first quote of them escaped, behind a regular expression with a
quote in it: the call and the block around the string are closed in the same places. -/
theorem codeBetween_exchange_contents_brackets :
    let before : Text := "\x7b /'/.test("
    let after : Text := ") / 2 \x7d"
    let text := quotedBetween before after .single ['x']
    let text' := quotedBetween before after .single ['\\', '\'', ')', '}', '/', '*']
    Contents .single ['x'] ∧ Contents .single ['\\', '\'', ')', '}', '/', '*'] ∧
      StartsLiteral text before.length ∧ StartsLiteral text' before.length ∧
      (matchingClose text' 0).toOption = (matchingClose text 0).toOption.map (· + 5) ∧
      (matchingClose text 0).toOption = some 20 := by
  intro before after text text'
  have starts : StartsLiteral text before.length := by
    unfold StartsLiteral
    decide +kernel
  have starts' : StartsLiteral text' before.length := by
    unfold StartsLiteral
    decide +kernel
  have fits : Contents .single ['x'] := .plain (by decide) (by decide) (.inr (by decide)) .empty
  have fits' : Contents .single ['\\', '\'', ')', '}', '/', '*'] :=
    .escaped _ (.plain (by decide) (by decide) (.inr (by decide))
      (.plain (by decide) (by decide) (.inr (by decide))
        (.plain (by decide) (by decide) (.inr (by decide))
          (.plain (by decide) (by decide) (.inr (by decide)) .empty))))
  obtain ⟨-, -, closes⟩ := codeBetween_exchange_contents fits fits' starts starts'
  have opening := closes ⟨0, .char '\x7b', 0⟩ (by decide +kernel) (by decide)
  have closed : (matchingClose text 0).toOption = some 20 := by decide +kernel
  rw [closed] at opening ⊢
  exact ⟨fits, fits', starts, starts', opening, rfl⟩

end SuiteDocs.Source
