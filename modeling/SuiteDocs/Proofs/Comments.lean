import SuiteDocs.Proofs.Exchange

/-!
What a comment says.

A comment is no code, but its text stands before what follows it, and the look back from a slash goes
over white space into it. A block comment ends in a slash, at which every look back ends as well. A
line comment ends in its contents: they decide what the first slash behind the comment means if
nothing but white space stands between, and nothing else.
-/

set_option autoImplicit false

namespace SuiteDocs.Source

open SuiteDocs.Text

/-- The two forms of comments. -/
inductive CommentForm where
  | line
  | block
  deriving DecidableEq, Repr

namespace CommentForm

/-- What follows the slash that opens a comment. -/
def mark : CommentForm → Symbol
  | line => '/'
  | block => '*'

/-- What closes a comment. A line comment ends before the line break. -/
def closing : CommentForm → Text
  | line => []
  | block => ['*', '/']

/-- The part of a comment behind its first slash. -/
def tail (form : CommentForm) (contents : Text) : Text :=
  form.mark :: (contents ++ form.closing)

/-- A text with a comment between two parts of it. -/
def between (form : CommentForm) (before after contents : Text) : Text :=
  before ++ .char '/' :: (form.tail contents ++ after)

/-- What may be said in a comment that `after` follows. -/
def Fits (contents after : Text) : CommentForm → Prop
  | line => .char '\n' ∉ contents ∧ (after = [] ∨ ∃ rest, after = .char '\n' :: rest)
  | block => ¬ [.char '*', .char '/'] <:+: contents

/-- What the look back from a slash behind the comment makes of the text of the comment. -/
def invitesRegex (form : CommentForm) (contents : Text) : Bool :=
  regexMayStart (.char '/' :: form.tail contents).reverse

theorem length_tail (form : CommentForm) (contents : Text) :
    (form.tail contents).length = contents.length + form.closing.length + 1 := by
  rw [tail, List.length_cons, List.length_append]

theorem lineCommentLength_append {contents after : Text} (fits : line.Fits contents after) :
    lineCommentLength (contents ++ after) = contents.length := by
  obtain ⟨within, ends⟩ := fits
  have whole : (contents ++ after).takeWhile (· != .char '\n') = contents := by
    have inside : ∀ c ∈ contents, (c != .char '\n') = true := by
      intro c member
      apply bne_iff_ne.mpr
      intro breaks
      exact within (breaks ▸ member)
    rw [List.takeWhile_append_of_pos inside]
    cases ends with
    | inl ends => simp [ends]
    | inr ends =>
      obtain ⟨rest, rfl⟩ := ends
      simp
  rw [lineCommentLength, whole]

theorem blockCommentLength_append {contents : Text} (fits : ¬ [.char '*', .char '/'] <:+: contents)
    (after : Text) :
    blockCommentLength (contents ++ .char '*' :: .char '/' :: after) = contents.length + 2 := by
  induction contents with
  | nil => rfl
  | cons c contents ih =>
    have inner := ih fun inside => fits (List.infix_cons inside)
    -- A star that closes nothing may be the last symbol of the contents, but no slash follows it.
    cases contents with
    | nil =>
      rw [List.cons_append, List.nil_append, blockCommentLength_cons_cons, if_neg (by simp)]
      rfl
    | cons d contents =>
      have goesOn : ¬ (c = .char '*' ∧ d = .char '/') := by
        intro closes
        apply fits
        rw [closes.1, closes.2]
        exact ⟨[], contents, rfl⟩
      rw [List.cons_append, List.cons_append, blockCommentLength_cons_cons, if_neg goesOn]
      rw [List.cons_append] at inner
      rw [inner]
      rfl

/-- A comment reaches as far as its contents and what closes it. -/
theorem literalTail?_tail {form : CommentForm} {contents after : Text} (fits : form.Fits contents after)
    (before : Text) :
    literalTail? before '/' (form.tail contents ++ after) = some (form.tail contents).length := by
  cases form with
  | line =>
    have length : lineCommentLength (.char '/' :: (contents ++ after)) = contents.length + 1 := by
      rw [← lineCommentLength_append fits]
      rfl
    simp [tail, mark, closing, literalTail?_slash, length]
  | block =>
    have length := blockCommentLength_append fits after
    simp [tail, mark, closing, literalTail?_slash, length]

theorem exists_scan {form : CommentForm} {before after contents : Text}
    (fits : form.Fits contents after)
    (starts : StartsLiteral (form.between before after contents) before.length) :
    ∃ leading, textOf leading = before ∧
      pieces [] (form.between before after contents) =
        leading ++ .literal '/' (form.tail contents) ::
          pieces ((form.tail contents).reverse ++ .char '/' :: before.reverse) after :=
  exists_scan_literal starts (literalTail?_tail fits before.reverse)

theorem slash_barrier : Barrier '/' :=
  ⟨by decide, by decide, by decide⟩

/-- Nothing before a comment counts for what follows it. -/
theorem pieces_behind (form : CommentForm) (contents before after : Text) :
    pieces ((form.tail contents).reverse ++ .char '/' :: before) after =
      pieces (.char '/' :: form.tail contents).reverse after := by
  rw [List.reverse_cons]
  exact pieces_barrier slash_barrier (form.tail contents).reverse [] before after

end CommentForm

/-! ## The first slash behind a comment -/

/-- A slash that could open a regular expression is the first of the text that is no white space. -/
def OffersRegex (text : Text) : Prop :=
  ∃ blanks rest, text = blanks ++ .char '/' :: rest ∧ (∀ c ∈ blanks, isBlank c = true) ∧
    startsComment (.char '/' :: rest) = false ∧ (regexLength? false rest).isSome = true

theorem literalTail?_of_not_comment {rest : Text} (plain : startsComment (.char '/' :: rest) = false)
    (before : Text) :
    literalTail? before '/' rest = if regexMayStart before then regexLength? false rest else none := by
  cases rest with
  | nil => simp [literalTail?, isQuote, regexLength?]
  | cons d rest =>
    rw [startsComment_cons_cons] at plain
    have line : d ≠ .char '/' := by
      intro line
      simp [line] at plain
    have block : d ≠ .char '*' := by
      intro block
      simp [block] at plain
    rw [literalTail?_slash, if_neg line, if_neg block]

/-- What stands before a symbol counts for nothing but a slash that could open a regular expression. -/
theorem literalTail?_eq_or (before before' : Text) (c : Symbol) (rest : Text) :
    literalTail? before' c rest = literalTail? before c rest ∨
      c = .char '/' ∧ startsComment (.char '/' :: rest) = false ∧
        (regexLength? false rest).isSome = true := by
  by_cases slash : c = .char '/'
  · subst slash
    cases comment : startsComment (.char '/' :: rest) with
    | true =>
      apply Or.inl
      unfold startsComment at comment
      split at comment
      · rename_i shape
        obtain ⟨-, rfl⟩ := List.cons.inj shape
        simp only [literalTail?_slash, if_true]
      · rename_i shape
        obtain ⟨-, rfl⟩ := List.cons.inj shape
        simp [literalTail?_slash]
      · cases comment
    | false =>
      cases regex : regexLength? false rest with
      | none =>
        apply Or.inl
        simp only [literalTail?_of_not_comment comment, regex, ite_self]
      | some count => exact .inr ⟨rfl, rfl, rfl⟩
  · apply Or.inl
    simp [literalTail?, slash]

theorem pieces_blanks {blanks : Text} (blank : ∀ c ∈ blanks, isBlank c = true) (before rest : Text) :
    pieces before (blanks ++ rest) = codes blanks ++ pieces (blanks.reverse ++ before) rest := by
  have stable := stable_codes fun c member => isPlain_of_isBlank (blank c member)
  simpa only [textOf_codes] using pieces_textOf stable before rest

theorem regexMayStart_blanks {blanks : Text} (blank : ∀ c ∈ blanks, isBlank c = true) (before : Text) :
    regexMayStart (blanks.reverse ++ before) = regexMayStart before := by
  have blank' : ∀ c ∈ blanks.reverse, isBlank c = true := by
    intro c member
    exact blank c (List.mem_reverse.mp member)
  simp only [regexMayStart, List.dropWhile_append_of_pos blank']

/-- No look back goes past a symbol that is no part of a name and what is solid behind it. -/
theorem seenAlike_of_solid {c stop : Symbol} (solid : isBlank c = false) (outside : isNamePart stop = false)
    (more farther farther' : Text) :
    SeenAlike (c :: (more ++ stop :: farther)) (c :: (more ++ stop :: farther')) := by
  intro nearer
  have kept : (nearer ++ c :: more).dropWhile isBlank ≠ [] := by
    rw [dropWhile_before solid]
    simp
  simpa only [List.append_assoc, List.cons_append] using
    regexMayStart_outside outside kept farther farther'

theorem pieces_eq_of_literalTail?_eq {before before' rest : Text} {c : Symbol}
    (alike : SeenAlike (c :: before) (c :: before'))
    (same : literalTail? before' c rest = literalTail? before c rest) :
    pieces before' (c :: rest) = pieces before (c :: rest) := by
  rw [pieces, pieces, same]
  cases literalTail? before c rest with
  | none => exact congrArg _ (alike.pieces_eq rest)
  | some count => exact congrArg _ ((alike.append _).pieces_eq _)

/-- On a new line nothing but the first slash is judged by what stands before the line. -/
theorem pieces_newline {before before' rest : Text}
    (same : regexMayStart before' = regexMayStart before ∨ ¬ OffersRegex (.char '\n' :: rest)) :
    pieces before' (.char '\n' :: rest) = pieces before (.char '\n' :: rest) := by
  obtain ⟨blanks, solid, shape, blank, ends⟩ : ∃ blanks solid, rest = blanks ++ solid ∧
      (∀ c ∈ blanks, isBlank c = true) ∧ ∀ c ∈ solid.head?, isBlank c = false := by
    refine ⟨rest.takeWhile isBlank, rest.dropWhile isBlank, List.takeWhile_append_dropWhile.symm,
      fun c => List.mem_takeWhile_imp, ?_⟩
    intro c first
    simpa [Option.mem_def.mp first] using List.head?_dropWhile_not isBlank rest
  have blank' : ∀ c ∈ Symbol.char '\n' :: blanks, isBlank c = true := by
    intro c member
    cases List.mem_cons.mp member with
    | inl newline => exact newline ▸ by decide
    | inr member => exact blank c member
  have scan (before : Text) : pieces before (.char '\n' :: rest) =
      codes (.char '\n' :: blanks) ++ pieces (blanks.reverse ++ .char '\n' :: before) solid := by
    have scan := pieces_blanks blank' before solid
    rw [List.reverse_cons, List.append_assoc] at scan
    rw [shape]
    exact scan
  rw [scan, scan]
  apply congrArg
  cases solid with
  | nil => rw [pieces, pieces]
  | cons c solid =>
    apply pieces_eq_of_literalTail?_eq
    · exact seenAlike_of_solid (ends c rfl) (by decide) blanks.reverse before before'
    · cases same with
      | inl same =>
        have decided (before : Text) : regexMayStart (blanks.reverse ++ .char '\n' :: before) =
            regexMayStart before := by
          have decided := regexMayStart_blanks blank' before
          rwa [List.reverse_cons, List.append_assoc] at decided
        simp only [literalTail?, decided, same]
      | inr offers =>
        cases literalTail?_eq_or (blanks.reverse ++ .char '\n' :: before)
          (blanks.reverse ++ .char '\n' :: before') c solid with
        | inl same => exact same
        | inr opens =>
          obtain ⟨rfl, plain, regex⟩ := opens
          exact absurd ⟨.char '\n' :: blanks, solid, by rw [shape]; rfl, blank', plain, regex⟩ offers

/-- The scan of the text comes to a slash behind some white space, and what stands before the text
decides whether that slash is code. -/
def LeavesSlashOpen (text blanks : Text) : Prop :=
  ∀ before, ∃ piece following, pieces before text = codes blanks ++ piece :: following ∧
    (regexMayStart before = false → piece = .code '/') ∧
    (regexMayStart before = true → ∃ inner, piece = .literal '/' inner)

theorem OffersRegex.leavesSlashOpen {text : Text} (offers : OffersRegex text) :
    ∃ blanks, LeavesSlashOpen text blanks := by
  obtain ⟨blanks, rest, rfl, blank, plain, regex⟩ := offers
  obtain ⟨count, found⟩ := Option.isSome_iff_exists.mp regex
  refine ⟨blanks, fun before => ?_⟩
  have tail := literalTail?_of_not_comment plain (blanks.reverse ++ before)
  rw [regexMayStart_blanks blank, found] at tail
  rw [pieces_blanks blank, pieces, tail]
  cases regexMayStart before with
  | false =>
    refine ⟨.code '/', _, rfl, fun _ => rfl, ?_⟩
    intro starts
    cases starts
  | true =>
    refine ⟨.literal '/' (rest.take count), _, rfl, ?_, fun _ => ⟨_, rfl⟩⟩
    intro declines
    cases declines

/-! ## Exchanging a comment -/

theorem offset_iff_of_moves {moved : Nat → Nat} {start stop stop' : Nat}
    (moves : Moves moved start stop stop') (order : start ≤ stop') {codes codes' : List CodeChar}
    (outside : ∀ code ∈ codes, code.offset < start ∨ stop ≤ code.offset)
    (same : codes' = codes.map fun code => { code with offset := moved code.offset }) (distance : Nat) :
    (∃ code ∈ codes', code.offset = stop' + distance) ↔ ∃ code ∈ codes, code.offset = stop + distance := by
  subst same
  constructor
  · intro found
    obtain ⟨code', member', place⟩ := found
    obtain ⟨code, member, rfl⟩ := List.mem_map.mp member'
    refine ⟨code, member, ?_⟩
    change moved code.offset = stop' + distance at place
    cases outside code member with
    | inl before =>
      rw [moves.before _ before] at place
      omega
    | inr behind =>
      have moved := moves.behind (code.offset - stop)
      rw [Nat.add_sub_cancel' behind, place] at moved
      omega
  · intro found
    obtain ⟨code, member, place⟩ := found
    refine ⟨_, List.mem_map_of_mem member, ?_⟩
    change moved code.offset = stop' + distance
    rw [place, moves.behind]

namespace CommentForm

theorem reverse_block (contents : Text) : (.char '/' :: block.tail contents).reverse =
    [] ++ .char '/' :: .char '*' :: (contents.reverse ++ [.char '*', .char '/']) := by
  simp [tail, mark, closing]

theorem invitesRegex_block (contents : Text) : block.invitesRegex contents = false := by
  rw [invitesRegex, reverse_block, regexMayStart_barrier slash_barrier [] []]
  decide

theorem pieces_behind_eq {form : CommentForm} {first second after : Text} (fits : form.Fits first after)
    (same : form.invitesRegex second = form.invitesRegex first ∨ ¬ OffersRegex after) :
    pieces (.char '/' :: form.tail second).reverse after =
      pieces (.char '/' :: form.tail first).reverse after := by
  cases form with
  | line =>
    cases fits.2 with
    | inl ends => rw [ends, pieces, pieces]
    | inr ends =>
      obtain ⟨rest, rfl⟩ := ends
      exact pieces_newline same
  | block =>
    rw [reverse_block, reverse_block]
    exact pieces_barrier slash_barrier [] _ _ after

theorem exists_code_iff {form : CommentForm} {before after contents : Text}
    (fits : form.Fits contents after)
    (starts : StartsLiteral (form.between before after contents) before.length) {blanks : Text}
    (slash : LeavesSlashOpen after blanks) :
    (∃ code ∈ codeBetween (form.between before after contents) 0 none,
        code.offset = before.length + (form.tail contents).length + 1 + blanks.length) ↔
      form.invitesRegex contents = false := by
  obtain ⟨leading, covers, whole⟩ := exists_scan fits starts
  obtain ⟨piece, following, behind, code, literal⟩ := slash (.char '/' :: form.tail contents).reverse
  have cut : pieces [] (form.between before after contents) =
      (leading ++ .literal '/' (form.tail contents) :: codes blanks) ++ piece :: following := by
    rw [whole, pieces_behind, behind, List.append_assoc]
    rfl
  have place : (textOf (leading ++ .literal '/' (form.tail contents) :: codes blanks)).length =
      before.length + (form.tail contents).length + 1 + blanks.length := by
    rw [textOf_append, List.length_append, length_textOf_cons, Piece.length_literal, covers, textOf_codes]
    omega
  rw [codeBetween_zero, cut]
  constructor
  · intro found
    obtain ⟨found, member, offset⟩ := found
    apply Bool.eq_false_iff.mpr
    intro invites
    obtain ⟨inner, rfl⟩ := literal invites
    cases outside_of_mem_codeAt member with
    | inl earlier => omega
    | inr later => omega
  · intro declines
    rw [code declines]
    have member := mem_codeAt 0 0
      (leading ++ .literal '/' (form.tail contents) :: codes blanks) following '/'
    exact ⟨_, member, by rw [← place, Nat.zero_add]⟩

/-- What a block comment says is of no effect: texts that differ in it have the same code at the same
depths, in the same places but for the difference in length. What a line comment says has one effect.
If the first slash behind it could open a regular expression, and nothing but white space stands
between, the end of the comment is read as if it were the code before that slash. -/
theorem codeBetween_exchange_comment_iff {form : CommentForm} {before after first second : Text}
    (fits : form.Fits first after) (fits' : form.Fits second after)
    (starts : StartsLiteral (form.between before after first) before.length)
    (starts' : StartsLiteral (form.between before after second) before.length) :
    let text := form.between before after first
    let text' := form.between before after second
    let moved := exchangedOffset before.length first.length second.length
    (codeBetween text' 0 none =
        (codeBetween text 0 none).map (fun code => { code with offset := moved code.offset }) ↔
      form.invitesRegex second = form.invitesRegex first ∨ ¬ OffersRegex after) ∧
    (form = .block → form.invitesRegex second = form.invitesRegex first) ∧
    ∀ code ∈ codeBetween text 0 none, code.offset < before.length ∨
      before.length + (form.tail first).length + 1 ≤ code.offset := by
  intro text text' moved
  obtain ⟨leading, covers, scan⟩ := exists_scan fits starts
  obtain ⟨leading', covers', scan'⟩ := exists_scan fits' starts'
  obtain rfl := pieces_common scan scan' covers covers'
  have reaches : (textOf leading').length = before.length := by rw [covers]
  have moves : Moves moved before.length (before.length + (form.tail first).length + 1)
      (before.length + (form.tail second).length + 1) := by
    have moves := (moves_exchangedOffset before.length first.length second.length).further
      form.closing.length
    have stop (contents : Text) : before.length + contents.length + 2 + form.closing.length =
        before.length + (form.tail contents).length + 1 := by
      rw [length_tail]
      omega
    rwa [stop, stop] at moves
  have outside : ∀ code ∈ codeBetween text 0 none, code.offset < before.length ∨
      before.length + (form.tail first).length + 1 ≤ code.offset := by
    intro code member
    rw [codeBetween_zero, scan] at member
    exact reaches ▸ outside_of_mem_codeAt member
  refine ⟨⟨?_, ?_⟩, ?_, outside⟩
  · intro same
    by_cases offers : OffersRegex after
    · obtain ⟨blanks, slash⟩ := offers.leavesSlashOpen
      have decided := offset_iff_of_moves moves (by omega) outside same blanks.length
      rw [exists_code_iff fits starts slash, exists_code_iff fits' starts' slash] at decided
      exact .inl (Bool.eq_iff_iff.mpr (by simpa using not_congr decided))
    · exact .inr offers
  · intro same
    rw [codeBetween_zero, codeBetween_zero, scan, scan', pieces_behind, pieces_behind,
      pieces_behind_eq fits same]
    exact codeAt_exchange moves reaches rfl rfl
  · intro block
    rw [block, invitesRegex_block, invitesRegex_block]

/-- The comments ` a` and ` 'b`, before a line that begins with a regular expression with a quote in
it: after either the slash is read as a division, and the quote opens a string. -/
theorem codeBetween_exchange_comment_iff_division :
    let after : Text := "\n/'/ b"
    let text := line.between [] after " a"
    let text' := line.between [] after " 'b"
    line.Fits " a" after ∧ line.Fits " 'b" after ∧ StartsLiteral text 0 ∧ StartsLiteral text' 0 ∧
      OffersRegex after ∧ codeBetween text 0 none = [⟨4, '\n', 0⟩, ⟨5, '/', 0⟩] ∧
      codeBetween text' 0 none = [⟨5, '\n', 0⟩, ⟨6, '/', 0⟩] := by
  intro after text text'
  have fits : line.Fits " a" after := ⟨by decide, .inr ⟨_, rfl⟩⟩
  have fits' : line.Fits " 'b" after := ⟨by decide, .inr ⟨_, rfl⟩⟩
  have starts : StartsLiteral text 0 := by
    unfold StartsLiteral
    decide +kernel
  have starts' : StartsLiteral text' 0 := by
    unfold StartsLiteral
    decide +kernel
  have offers : OffersRegex after := ⟨"\n", "'/ b", rfl, by decide, by decide, by decide⟩
  have codes : codeBetween text 0 none = [⟨4, '\n', 0⟩, ⟨5, '/', 0⟩] := by decide +kernel
  have same := (codeBetween_exchange_comment_iff fits fits' starts starts').1.mpr
    (.inl (by decide +kernel))
  rw [codes] at same
  exact ⟨fits, fits', starts, starts', offers, codes, same⟩

/-- The comments ` a` and ` a=` before the same line: after the second the slash opens a regular
expression, and what follows that is code. -/
theorem line_comment_changes_code :
    let after : Text := "\n/'/ b"
    let text := line.between [] after " a"
    let text' := line.between [] after " a="
    line.Fits " a" after ∧ line.Fits " a=" after ∧ StartsLiteral text 0 ∧ StartsLiteral text' 0 ∧
      codeBetween text 0 none = [⟨4, '\n', 0⟩, ⟨5, '/', 0⟩] ∧
      codeBetween text' 0 none = [⟨5, '\n', 0⟩, ⟨9, ' ', 0⟩, ⟨10, 'b', 0⟩] := by
  intro after text text'
  refine ⟨⟨by decide, .inr ⟨_, rfl⟩⟩, ⟨by decide, .inr ⟨_, rfl⟩⟩, ?_, ?_, by decide +kernel, by decide +kernel⟩
  · unfold StartsLiteral
    decide +kernel
  · unfold StartsLiteral
    decide +kernel

end CommentForm

end SuiteDocs.Source
