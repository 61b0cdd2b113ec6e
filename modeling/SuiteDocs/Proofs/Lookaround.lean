import SuiteDocs.Proofs.Layout

/-!
How far the scanner looks.

It looks ahead for the end of what it has met, and back for what a slash may mean. A literal that ends
in a part of a text is found there whatever follows the next symbol, also if nothing does, and no look
back goes past a symbol that is neither white space nor part of a name. Texts that agree between such
places are scanned alike between them.
-/

set_option autoImplicit false

namespace SuiteDocs.Source

open SuiteDocs.Text

/-! ## Looking ahead

Of what follows the part in which a literal ends only the next symbol counts, since it may be the one
before which the literal stops. -/

/-- The second text starts like the first, or there is nothing of it. -/
inductive GoesOnLike : Text → Text → Prop where
  | cut (rest : Text) : GoesOnLike rest []
  | next (c : Symbol) (rest rest' : Text) : GoesOnLike (c :: rest) (c :: rest')

theorem GoesOnLike.eq_nil {rest : Text} (alike : GoesOnLike [] rest) : rest = [] := by
  cases alike
  rfl

theorem takeWhile_of_length_le {p : Symbol → Bool} {part rest rest' : Text}
    (alike : GoesOnLike rest rest')
    (within : ((part ++ rest).takeWhile p).length ≤ part.length) :
    (part ++ rest').takeWhile p = (part ++ rest).takeWhile p := by
  induction part with
  | nil =>
    cases alike with
    | cut => exact (List.length_eq_zero_iff.mp (Nat.le_zero.mp within)).symm
    | next c rest rest' =>
      cases goesOn : p c with
      | true => simp [goesOn] at within
      | false => simp [goesOn]
  | cons c part ih =>
    cases goesOn : p c with
    | true =>
      simp only [List.cons_append, List.takeWhile_cons, goesOn, if_true, List.length_cons] at within ⊢
      rw [ih (Nat.le_of_succ_le_succ within)]
    | false => simp [goesOn]

theorem lineCommentLength_of_le {part rest rest' : Text} (alike : GoesOnLike rest rest')
    (within : lineCommentLength (part ++ rest) ≤ part.length) :
    lineCommentLength (part ++ rest') = lineCommentLength (part ++ rest) := by
  rw [lineCommentLength, takeWhile_of_length_le alike within]
  rfl

/-- A string ends at once only before a line break, whatever follows that. -/
theorem stringEnd_eq_of_length_eq_zero {quote next : Symbol} {rest : Text}
    (empty : (stringEnd quote (next :: rest)).length = 0) (rest' : Text) :
    stringEnd quote (next :: rest') = stringEnd quote (next :: rest) := by
  by_cases escape : next = .char '\\'
  · subst escape
    cases rest <;> simp [stringEnd, StringEnd.after] at empty
  · by_cases closes : next = quote
    · subst closes
      simp [stringEnd_quote escape] at empty
    · by_cases fits : quote = .char '`' ∨ next ≠ .char '\n'
      · rw [stringEnd_other escape closes fits] at empty
        simp [StringEnd.after] at empty
      · simp_all [stringEnd]

theorem ne_backslash_of_unescaped {c : Symbol} {part : Text}
    (alone : c = .char '\\' → part = [] → False)
    (followed : ∀ next rest, c = .char '\\' → part = next :: rest → False) : c ≠ .char '\\' := by
  intro escape
  cases part with
  | nil => exact alone escape rfl
  | cons next rest => exact followed next rest escape rfl

theorem stringEnd_of_length_le {quote : Symbol} {part rest rest' : Text}
    (alike : GoesOnLike rest rest')
    (within : (stringEnd quote (part ++ rest)).length ≤ part.length) :
    (stringEnd quote (part ++ rest')).length = (stringEnd quote (part ++ rest)).length := by
  fun_induction stringEnd quote part with
  | case1 =>
    cases alike with
    | cut => exact (Nat.le_zero.mp within).symm
    | next c rest rest' =>
      exact congrArg StringEnd.length (stringEnd_eq_of_length_eq_zero (Nat.le_zero.mp within) rest')
  | case2 =>
    -- A backslash takes the next symbol with it, if there is one.
    cases rest with
    | nil => rw [alike.eq_nil]
    | cons c rest => simp [stringEnd_escaped, StringEnd.after] at within
  | case3 c part ih =>
    simp only [List.cons_append, stringEnd_escaped, StringEnd.after] at within ⊢
    rw [ih (Nat.le_of_add_le_add_right within)]
  | case4 c part alone followed closes =>
    obtain rfl := beq_iff_eq.mp closes
    simp only [List.cons_append, stringEnd_quote (ne_backslash_of_unescaped alone followed)]
  | case5 c part alone followed inner breaks =>
    have plain := ne_backslash_of_unescaped alone followed
    simp [stringEnd, plain, inner, breaks]
  | case6 c part alone followed inner goesOn ih =>
    have plain := ne_backslash_of_unescaped alone followed
    have fits : quote = .char '`' ∨ c ≠ .char '\n' := by
      simp at goesOn
      tauto
    have inner : c ≠ quote := by simpa using inner
    simp only [List.cons_append, stringEnd_other plain inner fits, StringEnd.after] at within ⊢
    rw [ih (Nat.le_of_add_le_add_right within)]

theorem blockCommentLength_cons_cons (c d : Symbol) (rest : Text) :
    blockCommentLength (c :: d :: rest) =
      if c = .char '*' ∧ d = .char '/' then 2 else blockCommentLength (d :: rest) + 1 := by
  split
  · rename_i closes
    obtain ⟨rfl, rfl⟩ := closes
    simp [blockCommentLength]
  · rename_i goesOn
    rw [blockCommentLength]
    rintro other star slash
    simp_all

theorem blockCommentLength_cons_pos (c : Symbol) (rest : Text) :
    0 < blockCommentLength (c :: rest) := by
  cases rest with
  | nil => simp [blockCommentLength]
  | cons d rest => rw [blockCommentLength_cons_cons]; split <;> simp

theorem blockCommentLength_of_le {part rest rest' : Text} (alike : GoesOnLike rest rest')
    (within : blockCommentLength (part ++ rest) ≤ part.length) :
    blockCommentLength (part ++ rest') = blockCommentLength (part ++ rest) := by
  induction part with
  | nil =>
    cases alike with
    | cut => exact (Nat.le_zero.mp within).symm
    | next c rest => exact absurd (blockCommentLength_cons_pos c rest) (Nat.not_lt.mpr within)
  | cons c part ih =>
    cases part with
    | nil =>
      cases rest with
      | nil => rw [alike.eq_nil]
      | cons d rest =>
        have positive := blockCommentLength_cons_pos d rest
        simp only [List.cons_append, List.nil_append, blockCommentLength_cons_cons,
          List.length_singleton] at within
        split at within <;> omega
    | cons d part =>
      simp only [List.cons_append, blockCommentLength_cons_cons c d, List.length_cons] at within ih ⊢
      split
      · rfl
      · rename_i goesOn
        rw [if_neg goesOn] at within
        rw [ih (Nat.le_of_succ_le_succ within)]

theorem regexLength?_escaped (inSet : Bool) (c : Symbol) (rest : Text) :
    regexLength? inSet (.char '\\' :: c :: rest) = (regexLength? inSet rest).map (· + 2) := by
  rw [regexLength?]

theorem regexLength?_unescaped {c : Symbol} (plain : c ≠ .char '\\') (inSet : Bool) (rest : Text) :
    regexLength? inSet (c :: rest) =
      if c == '\n' then none
      else if inSet then (regexLength? (c != ']') rest).map (· + 1)
      else if c == .char '/' then some ((rest.takeWhile isLetter).length + 1)
      else (regexLength? (c == '[') rest).map (· + 1) := by
  cases rest <;> simp [regexLength?, plain]

theorem regexLength?_pos {inSet : Bool} {text : Text} {count : Nat}
    (found : regexLength? inSet text = some count) : 0 < count := by
  fun_induction regexLength? inSet text with
  | case1 => cases found
  | case2 => cases found
  | case3 inSet c rest =>
    obtain ⟨inner, -, rfl⟩ := Option.map_eq_some_iff.mp found
    exact Nat.succ_pos _
  | case4 => cases found
  | case5 c rest alone followed goesOn =>
    obtain ⟨inner, -, rfl⟩ := Option.map_eq_some_iff.mp found
    exact Nat.succ_pos _
  | case6 inSet c rest alone followed goesOn outside closes =>
    obtain rfl := Option.some.inj found
    exact Nat.succ_pos _
  | case7 inSet c rest alone followed goesOn outside inner =>
    obtain ⟨inner, -, rfl⟩ := Option.map_eq_some_iff.mp found
    exact Nat.succ_pos _

theorem regexLength?_of_le {inSet : Bool} {part rest rest' : Text} {count : Nat}
    (alike : GoesOnLike rest rest') (found : regexLength? inSet (part ++ rest) = some count)
    (within : count ≤ part.length) : regexLength? inSet (part ++ rest') = some count := by
  fun_induction regexLength? inSet part generalizing count with
  | case1 => exact absurd (regexLength?_pos found) (Nat.not_lt.mpr within)
  | case2 =>
    cases rest with
    | nil => rwa [alike.eq_nil]
    | cons c rest =>
      simp only [List.cons_append, List.nil_append, regexLength?_escaped] at found
      obtain ⟨inner, -, rfl⟩ := Option.map_eq_some_iff.mp found
      simp at within
  | case3 inSet c part ih =>
    simp only [List.cons_append, regexLength?_escaped] at found ⊢
    obtain ⟨inner, counted, rfl⟩ := Option.map_eq_some_iff.mp found
    rw [ih counted (Nat.le_of_add_le_add_right within)]
    rfl
  | case4 inSet c part alone followed breaks =>
    have plain := ne_backslash_of_unescaped alone followed
    rw [List.cons_append, regexLength?_unescaped plain, if_pos breaks] at found
    cases found
  | case5 c part alone followed goesOn ih =>
    have plain := ne_backslash_of_unescaped alone followed
    simp only [List.cons_append, regexLength?_unescaped plain, if_neg goesOn, if_true] at found ⊢
    obtain ⟨inner, counted, rfl⟩ := Option.map_eq_some_iff.mp found
    rw [ih counted (Nat.le_of_succ_le_succ within)]
    rfl
  | case6 inSet c part alone followed goesOn outside closes =>
    have plain := ne_backslash_of_unescaped alone followed
    simp only [List.cons_append, regexLength?_unescaped plain, if_neg goesOn, if_neg outside,
      if_pos closes] at found ⊢
    obtain rfl := Option.some.inj found
    rw [takeWhile_of_length_le alike (Nat.le_of_succ_le_succ within)]
  | case7 inSet c part alone followed goesOn outside inner ih =>
    have plain := ne_backslash_of_unescaped alone followed
    simp only [List.cons_append, regexLength?_unescaped plain, if_neg goesOn, if_neg outside,
      if_neg inner] at found ⊢
    obtain ⟨inner, counted, rfl⟩ := Option.map_eq_some_iff.mp found
    rw [ih counted (Nat.le_of_succ_le_succ within)]
    rfl

theorem literalTail?_slash (before : Text) (d : Symbol) (rest : Text) :
    literalTail? before '/' (d :: rest) =
      if d = '/' then some (lineCommentLength (d :: rest))
      else if d = '*' then some (blockCommentLength rest + 1)
      else if regexMayStart before then regexLength? false (d :: rest) else none := by
  by_cases line : d = .char '/'
  · simp [literalTail?, isQuote, line]
  · by_cases block : d = .char '*'
    · simp [literalTail?, isQuote, block]
    · simp [literalTail?, isQuote, line, block]

theorem literalTail?_of_ne {before rest : Text} {c : Symbol} (notQuote : isQuote c = false)
    (notSlash : c ≠ '/') : literalTail? before c rest = none :=
  literalTail?_of_isPlain (by simp [isPlain, notQuote, notSlash]) before rest

theorem literalTail?_quote {c : Symbol} (quote : isQuote c = true) (before rest : Text) :
    literalTail? before c rest = some (stringEnd c rest).length := by
  simp only [literalTail?, quote, if_true]

/-- What a slash starts goes past the slash. -/
theorem literalTail?_slash_pos {before rest : Text} {count : Nat}
    (literal : literalTail? before '/' rest = some count) : 0 < count := by
  cases rest with
  | nil => cases literal
  | cons d rest =>
    rw [literalTail?_slash] at literal
    split at literal
    · rename_i line
      obtain rfl := Option.some.inj literal
      simp [lineCommentLength, line]
    · split at literal
      · obtain rfl := Option.some.inj literal
        exact Nat.succ_pos _
      · split at literal
        · exact regexLength?_pos literal
        · cases literal

/-- A literal that ends in a part of the text is found whatever follows the symbol after that part. -/
theorem literalTail?_of_le {before part rest rest' : Text} {c : Symbol} {count : Nat}
    (alike : GoesOnLike rest rest') (literal : literalTail? before c (part ++ rest) = some count)
    (within : count ≤ part.length) : literalTail? before c (part ++ rest') = some count := by
  cases quote : isQuote c with
  | true =>
    rw [literalTail?_quote quote] at literal ⊢
    obtain rfl := Option.some.inj literal
    rw [stringEnd_of_length_le alike within]
  | false =>
    by_cases slash : c = '/'
    · subst slash
      cases part with
      | nil => exact absurd (literalTail?_slash_pos literal) (Nat.not_lt.mpr within)
      | cons d part =>
        rw [List.cons_append, literalTail?_slash] at literal ⊢
        split at literal
        · rename_i line
          obtain rfl := Option.some.inj literal
          have same := @lineCommentLength_of_le (d :: part) rest rest' alike within
          rw [if_pos line]
          exact congrArg some same
        · rename_i notLine
          rw [if_neg notLine]
          split at literal
          · rename_i block
            obtain rfl := Option.some.inj literal
            rw [if_pos block, blockCommentLength_of_le alike (Nat.le_of_succ_le_succ within)]
          · rename_i notBlock
            rw [if_neg notBlock]
            split at literal
            · rename_i starts
              rw [if_pos starts]
              exact regexLength?_of_le alike literal within
            · cases literal
    · rw [literalTail?_of_ne quote slash] at literal
      cases literal

/-- A literal at the start of a covered text ends in it. -/
theorem count_le_of_covers {before common rest : Text} {c : Symbol} {count : Nat}
    {leading : List Piece} (literal : literalTail? before c rest = some count)
    (covers : textOf (.literal c (rest.take count) :: leading) = c :: common) :
    count ≤ common.length := by
  have parts : rest.take count ++ textOf leading = common := (List.cons.inj covers).2
  rw [← parts, List.length_append, List.length_take_of_le (literalTail?_le literal)]
  exact Nat.le_add_right _ _

theorem textOf_of_covers {common : Text} {c : Symbol} {count : Nat} {leading : List Piece}
    (covers : textOf (.literal c (common.take count) :: leading) = c :: common) :
    textOf leading = common.drop count := by
  have parts : common.take count ++ textOf leading = common := (List.cons.inj covers).2
  exact List.append_cancel_left (parts.trans (List.take_append_drop count common).symm)

/-- Two texts that go on with the same symbol after a common part, at which both scans stand between
two pieces, are scanned alike up to there. -/
theorem pieces_common {before common rest rest' : Text} {next : Symbol}
    {leading leading' following following' : List Piece}
    (scan : pieces before (common ++ next :: rest) = leading ++ following)
    (scan' : pieces before (common ++ next :: rest') = leading' ++ following')
    (covers : textOf leading = common) (covers' : textOf leading' = common) :
    leading' = leading := by
  induction leading generalizing before common leading' with
  | nil => exact textOf_eq_nil_iff.mp (covers'.trans covers.symm)
  | cons piece leading ih =>
    cases leading' with
    | nil => exact (textOf_eq_nil_iff.mp (covers.trans covers'.symm)).symm
    | cons piece' leading' =>
      cases common with
      | nil => cases textOf_eq_nil_iff.mp covers
      | cons c common =>
        rw [List.cons_append, pieces] at scan scan'
        cases literal : literalTail? before c (common ++ next :: rest) with
        | none =>
          rw [literal] at scan
          cases literal' : literalTail? before c (common ++ next :: rest') with
          | none =>
            rw [literal'] at scan'
            obtain ⟨rfl, tail⟩ := List.cons.inj scan
            obtain ⟨rfl, tail'⟩ := List.cons.inj scan'
            rw [ih tail tail' (List.cons.inj covers).2 (List.cons.inj covers').2]
          | some count =>
            rw [literal'] at scan'
            obtain ⟨rfl, -⟩ := List.cons.inj scan'
            rw [literalTail?_of_le (.next ..) literal' (count_le_of_covers literal' covers')] at literal
            cases literal
        | some count =>
          rw [literal] at scan
          obtain ⟨rfl, tail⟩ := List.cons.inj scan
          have within := count_le_of_covers literal covers
          rw [literalTail?_of_le (.next ..) literal within] at scan'
          obtain ⟨rfl, tail'⟩ := List.cons.inj scan'
          rw [List.take_append_of_le_length within] at covers tail ⊢
          rw [List.take_append_of_le_length within] at covers' tail'
          rw [List.drop_append_of_le_length within] at tail tail'
          rw [ih tail tail' (textOf_of_covers covers) (textOf_of_covers covers'),
            List.take_append_of_le_length within]

/-! ## Looking back -/

/-- A symbol past which no look back goes: neither white space nor part of a name, and no operator. -/
structure Barrier (c : Symbol) : Prop where
  solid : isBlank c = false
  closed : isExpressionOpener c = false
  outside : isNamePart c = false

theorem Quote.barrier (quote : Quote) : Barrier quote.symbol := by
  cases quote <;> exact ⟨by decide, by decide, by decide⟩

theorem takeWhile_before {p : Symbol → Bool} {c : Symbol} (stops : p c = false) (part rest : Text) :
    (part ++ c :: rest).takeWhile p = part.takeWhile p := by
  induction part with
  | nil => simp [stops]
  | cons d part ih =>
    rw [List.cons_append, List.takeWhile_cons, List.takeWhile_cons, ih]

theorem dropWhile_before {p : Symbol → Bool} {c : Symbol} (stops : p c = false) (part rest : Text) :
    (part ++ c :: rest).dropWhile p = part.dropWhile p ++ c :: rest := by
  induction part with
  | nil => simp [stops]
  | cons d part ih =>
    rw [List.cons_append, List.dropWhile_cons, List.dropWhile_cons, ih]
    split <;> rfl

/-- Behind something solid a look back goes no farther than to a symbol that is no part of a name. -/
theorem regexMayStart_outside {stop : Symbol} (outside : isNamePart stop = false) {nearer : Text}
    (solid : nearer.dropWhile isBlank ≠ []) (farther farther' : Text) :
    regexMayStart (nearer ++ stop :: farther') = regexMayStart (nearer ++ stop :: farther) := by
  have kept (farther : Text) : (nearer ++ stop :: farther).dropWhile isBlank =
      nearer.dropWhile isBlank ++ stop :: farther := by
    rw [List.dropWhile_append, List.isEmpty_eq_false_iff.mpr solid]
    rfl
  simp only [regexMayStart, kept]
  cases shape : nearer.dropWhile isBlank with
  | nil => exact absurd shape solid
  | cons previous earlier =>
    simp only [List.cons_append, takeWhile_before outside, dropWhile_before outside]
    -- Only the next symbol counts after the name, and that is the same on both sides.
    cases earlier.dropWhile isNamePart with
    | nil => by_cases dot : stop = .char '.' <;> simp [dot]
    | cons d more => by_cases dot : d = .char '.' <;> simp [dot]

/-- What a slash means does not depend on what stands before a barrier. -/
theorem regexMayStart_barrier {c : Symbol} (barrier : Barrier c) (nearer farther farther' : Text) :
    regexMayStart (nearer ++ c :: farther') = regexMayStart (nearer ++ c :: farther) := by
  by_cases blank : nearer.dropWhile isBlank = []
  · have notLetter : (isLetter c || c == '_' || c == '$') = false := by
      have outside := barrier.outside
      simp only [isNamePart, isWord, isLetterOrNumeral, Bool.or_eq_false_iff] at outside ⊢
      exact ⟨⟨outside.1.1.1, outside.1.2⟩, outside.2⟩
    simp [regexMayStart, dropWhile_before barrier.solid, blank, barrier.closed, notLetter]
  · exact regexMayStart_outside barrier.outside blank farther farther'

/-- Two texts that no look back tells apart, from however far behind them it comes. -/
def SeenAlike (before before' : Text) : Prop :=
  ∀ nearer, regexMayStart (nearer ++ before') = regexMayStart (nearer ++ before)

theorem SeenAlike.append {before before' : Text} (alike : SeenAlike before before') (nearer : Text) :
    SeenAlike (nearer ++ before) (nearer ++ before') := by
  intro more
  simpa only [List.append_assoc] using alike (more ++ nearer)

theorem SeenAlike.literalTail?_eq {before before' : Text} (alike : SeenAlike before before')
    (first : Symbol) (rest : Text) :
    literalTail? before' first rest = literalTail? before first rest := by
  have same : regexMayStart before' = regexMayStart before := alike []
  simp only [literalTail?, same]

/-- What stands before a text counts for its scan only as far as looks back see it. -/
theorem SeenAlike.pieces_eq {before before' : Text} (alike : SeenAlike before before') (text : Text) :
    pieces before' text = pieces before text := by
  induction before, text using pieces.induct generalizing before' with
  | case1 before => rw [pieces, pieces]
  | case2 before first rest code ih =>
    rw [pieces, pieces, alike.literalTail?_eq, code]
    exact congrArg _ (ih (alike.append [first]))
  | case3 before first rest count literal ih =>
    rw [pieces, pieces, alike.literalTail?_eq, literal]
    exact congrArg _ (ih ((alike.append [first]).append (rest.take count).reverse))

theorem Barrier.seenAlike {c : Symbol} (barrier : Barrier c) (farther farther' : Text) :
    SeenAlike (c :: farther) (c :: farther') :=
  fun nearer => regexMayStart_barrier barrier nearer farther farther'

/-- What follows a barrier is scanned alike, whatever stands before it. -/
theorem pieces_barrier {c : Symbol} (barrier : Barrier c) (nearer farther farther' text : Text) :
    pieces (nearer ++ c :: farther') text = pieces (nearer ++ c :: farther) text :=
  ((barrier.seenAlike farther farther').append nearer).pieces_eq text

end SuiteDocs.Source
