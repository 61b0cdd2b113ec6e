import SuiteDocs.Proofs.Declarations
import SuiteDocs.Proofs.Objects

/-!
Declaring calls as they are written.

A call gives a title, perhaps options, and at last an arrow function. Wherever such a call stands,
it is found at the start of its name and read as the title and the body that it gives.
-/

set_option autoImplicit false

namespace SuiteDocs

open SuiteDocs.Text SuiteDocs.Source

namespace Source

theorem Stands.charBefore?_enclosed {text : Text} {start : Nat} {opener closer : Symbol}
    {inner : List Piece} (stands : Stands text start (enclosed opener closer inner)) :
    charBefore? text (start + (textOf (enclosed opener closer inner)).length) = some closer := by
  have closing := stands.next.right.isCode.getElem?
  have length : start + (textOf (enclosed opener closer inner)).length =
      start + 1 + (textOf inner).length + 1 := by
    rw [textOf_enclosed, List.length_cons, List.length_append, List.length_singleton]
    omega
  rw [length]
  exact closing

/-! ## Arrow functions -/

/-- What may stand before the arrow of a function that is an element of a list. -/
def IsHeader (header : Text) : Prop :=
  (∀ c ∈ header, isPlain c = true) ∧ WellNested header ∧ .char ',' ∉ header ∧ .char '=' ∉ header ∧
    ∃ c ∈ header.head?, isBlank c = false

instance (header : Text) : Decidable (IsHeader header) :=
  inferInstanceAs (Decidable (_ ∧ _))

/-- An arrow function with a block for its body. -/
def arrow (header : Text) (body : List Piece) : List Piece :=
  codes header ++ (.code '=' :: .code '>' :: .code ' ' :: enclosed '\x7b' '\x7d' body)

theorem textOf_arrow (header : Text) (body : List Piece) :
    textOf (arrow header body) = header ++ ("=> \x7b" ++ (textOf body ++ "\x7d")) := by
  rw [arrow, textOf_append, textOf_codes, textOf_code, textOf_code, textOf_code, textOf_enclosed]
  rfl

theorem isElement_arrow {header : Text} (isHeader : IsHeader header) {body : List Piece}
    (stable : ∀ piece ∈ body, piece.Stable) (nested : WellNested (codeOf body)) :
    IsElement (arrow header body) := by
  obtain ⟨plain, nestedHeader, noComma, -, c, starts, solid⟩ := isHeader
  obtain ⟨rest, rfl⟩ : ∃ rest, header = c :: rest := by
    cases header with
    | nil => cases starts
    | cons d rest => exact ⟨rest, by rw [Option.some.inj starts]⟩
  have block : IsElement (enclosed '\x7b' '\x7d' body) := isElement_enclosed rfl stable nested
  have arrowed : arrow (c :: rest) body =
      codes (c :: (rest ++ [.char '=', .char '>', .char ' '])) ++ enclosed '\x7b' '\x7d' body := by
    simp [arrow]
  rw [arrowed]
  refine block.preceded ?_ ?_ ?_ solid
  · intro d member
    rw [← List.cons_append] at member
    rcases List.mem_append.mp member with member | member
    · exact plain d member
    · have marks : ∀ e ∈ [Symbol.char '=', .char '>', .char ' '], isPlain e = true := by decide
      exact marks d member
  · exact wellNested_append nestedHeader (by decide)
  · rw [← List.cons_append, List.mem_append]
    rintro (member | member)
    · exact noComma member
    · exact absurd member (by decide)

/-- The body of an arrow function is the block behind its arrow. -/
theorem callbackBody?_arrow {header : Text} (isHeader : IsHeader header) {body : List Piece}
    (nested : WellNested (codeOf body)) {text : Text} {span : Span}
    (covers : Covers text span (arrow header body)) :
    Block.callbackBody? text span = .ok (some (span.start + header.length + 3)) := by
  obtain ⟨-, nestedHeader, -, noEquals, -⟩ := isHeader
  obtain ⟨stands, stops⟩ := covers
  have nestedLead : WellNested (codeOf (codes header)) := by rwa [codeOf_codes]
  have nestedAll : WellNested (codeOf (arrow header body)) := by
    simp only [arrow, codeOf_append, codeOf_codes, codeOf_code]
    have marks : WellNested [.char '=', .char '>', .char ' '] := by decide
    exact wellNested_append nestedHeader
      (wellNested_append marks (wellNested_enclosed rfl nested))
  have found : findTopLevel? text "=>" span.start (some span.stop) =
      some (span.start + header.length) := by
    have avoids : Avoids (.char '=') (codes header) := avoids_of_not_mem (by rwa [codeOf_codes])
    have continues : [Symbol.char '>'] <+:
        textOf (.code '>' :: .code ' ' :: enclosed '\x7b' '\x7d' body) := by simp
    have arrowAt := stands.findTopLevel? (by decide) (by decide) nestedLead nestedAll avoids continues
    rw [textOf_codes] at arrowAt
    rw [stops]
    exact arrowAt
  have block := stands.right.next.next
  rw [textOf_codes] at block
  have blank : ∀ c ∈ [Symbol.char ' '], isBlank c = true := by decide
  have brace : nextCode? text (span.start + header.length + 2) (some span.stop) =
      some (span.start + header.length + 3) := by
    refine block.nextCode? blank (by decide) ?_
    simp only [stops, arrow, textOf_append, textOf_codes, textOf_code, textOf_enclosed,
      List.length_append, List.length_cons]
    omega
  have opens : text[span.start + header.length + 3]? = some (.char '\x7b') :=
    block.next.isCode.getElem?
  simp [Block.callbackBody?, found, brace, opens]

end Source

/-! ## Reading -/

/-- A declaring call: a name, a title, options and an arrow function. -/
structure DeclaringCall where
  name : Text
  title : StringLiteral
  options : List (List Piece)
  header : Text
  body : List Piece
  callName : CallSite.IsCallName name
  elements : ∀ part ∈ options, IsElement part
  isHeader : IsHeader header
  stable : ∀ piece ∈ body, piece.Stable
  nested : WellNested (codeOf body)

namespace DeclaringCall

/-- The arguments behind the title. -/
def others (call : DeclaringCall) : List (List Piece) :=
  call.options ++ [arrow call.header call.body]

/-- All arguments in their parentheses. -/
def arguments (call : DeclaringCall) : List Piece :=
  enclosed '(' ')' (separated [] [] [call.title.piece] call.others)

/-- The call as it is written. -/
def pieces (call : DeclaringCall) : List Piece :=
  codes call.name ++ call.arguments

theorem textOf_pieces (call : DeclaringCall) :
    textOf call.pieces = call.name ++ ("(" ++
      (List.intercalate ", " (call.title.text :: call.others.map textOf) ++ ")")) := by
  rw [pieces, arguments, textOf_append, textOf_codes, textOf_enclosed, textOf_separated,
    List.map_cons, StringLiteral.textOf_singleton, List.nil_append, List.append_nil]
  rfl

theorem isElement_of_mem (call : DeclaringCall) :
    ∀ part ∈ [call.title.piece] :: call.others, IsElement part := by
  intro part member
  rcases List.mem_cons.mp member with rfl | member
  · exact isElement_string call.title
  · rcases List.mem_append.mp member with member | member
    · exact call.elements part member
    · obtain rfl := List.mem_singleton.mp member
      exact isElement_arrow call.isHeader call.stable call.nested

theorem isElement_arguments (call : DeclaringCall) : IsElement call.arguments :=
  isElement_list rfl isBlank_nil isBlank_nil call.isElement_of_mem

theorem length_arguments (call : DeclaringCall) :
    (textOf call.arguments).length =
      (textOf (separated [] [] [call.title.piece] call.others)).length + 2 := by
  rw [arguments, textOf_enclosed, List.length_cons, List.length_append, List.length_singleton]

/-- What a call gives is what is read: the title, and the body of the function. -/
theorem exists_read (call : DeclaringCall) {text : Text} (site : CallSite) (stop : Option Nat)
    (stands : Stands text site.openParen call.arguments)
    (room : ∀ bound ∈ stop, site.openParen + (textOf call.arguments).length ≤ bound) :
    ∃ block others, Block.read text site stop = .ok block ∧ block.title = call.title.contents ∧
      block.stop = site.openParen + (textOf call.arguments).length ∧
      List.Forall₂ (Covers text) others call.others ∧
      block.options = Block.optionsOf text others ∧
      Stands text block.bodyStart (enclosed '\x7b' '\x7d' call.body) ∧
      block.bodyStop = block.bodyStart + 1 + (textOf call.body).length ∧
      block.body = textOf call.body := by
  have each := call.isElement_of_mem
  have closed := stands.matchingClose rfl (wellNested_separated isBlank_nil isBlank_nil each)
  obtain ⟨spans, split, covered⟩ := splitTopLevel_separated isBlank_nil isBlank_nil each
    stands.next.left
  have length := call.length_arguments
  cases covered with
  | @cons first _ others _ titled covered =>
    have literal : literalValue? (slice text first.start first.stop) = some call.title.contents := by
      rw [titled.slice, StringLiteral.textOf_singleton, call.title.literalValue?_text]
    -- The function is the last argument, and the arguments are tried from the last one on.
    have reversed : List.Forall₂ (Covers text) others.reverse
        (arrow call.header call.body :: call.options.reverse) := by
      have backwards := List.forall₂_reverse_iff.mpr covered
      rwa [DeclaringCall.others, List.reverse_append, List.reverse_singleton,
        List.singleton_append] at backwards
    obtain ⟨span, rest, callback, -, shape⟩ := List.forall₂_cons_right_iff.mp reversed
    have opened : Block.firstBody? text others.reverse =
        .ok (some (span.start + call.header.length + 3)) := by
      rw [shape, Block.firstBody?, callbackBody?_arrow call.isHeader call.nested callback]
    have block := callback.1.right.next.next.next
    rw [textOf_codes] at block
    have bodyClosed := block.matchingClose rfl call.nested
    have bodyText := block.next.left.slice
    refine ⟨_, others, Block.read_eq_ok_iff.mpr ⟨_, first, others, call.title.contents, _, _, closed,
      ?_, split, literal, opened, bodyClosed, rfl⟩, rfl, ?_, covered, rfl, block, rfl, bodyText⟩
    · intro bound member
      have := room bound member
      omega
    · dsimp only
      omega

end DeclaringCall

namespace CallSite

/-! ## Finding -/

/-- White space and semicolons, which may stand between calls. -/
def IsBetweenCalls (gap : Text) : Prop :=
  ∀ c ∈ gap, isBlank c = true ∨ c = .char ';'

/-- What stands between calls is no symbol of a name. -/
theorem IsBetweenCalls.notSymbol {gap : Text} (between : IsBetweenCalls gap) {c : Symbol}
    (member : c ∈ gap) : isNamePart c = false ∧ c ≠ .char '.' := by
  rcases between c member with blank | rfl
  · refine ⟨isNamePart_of_isBlank blank, ?_⟩
    rintro rfl
    exact absurd blank (by decide)
  · decide

/-- A call starts with a symbol of its name. -/
theorem StandsIn.head {site : CallSite} {text : Text} {names : List Text} {stop : Nat}
    (callNames : ∀ name ∈ names, IsCallName name) (stands : site.StandsIn text names stop) :
    ∃ c, text[site.start]? = some c ∧ (isNamePart c = true ∨ c = '.') := by
  obtain ⟨nonempty, symbols⟩ := callNames _ stands.named
  obtain ⟨c, others, shape⟩ := List.exists_cons_of_ne_nil nonempty
  obtain ⟨blanks, rest, whole, -⟩ := stands.drop_start
  refine ⟨c, ?_, symbols c (shape ▸ List.mem_cons_self)⟩
  rw [← List.head?_drop, whole, shape]
  rfl

/-- Between calls no call starts. -/
theorem StandsIn.past_gap {site : CallSite} {text gap : Text} {names : List Text}
    {start stop : Nat} {part : List Piece} (callNames : ∀ name ∈ names, IsCallName name)
    (between : IsBetweenCalls gap) (stands : Stands text start (codes gap ++ part))
    (call : site.StandsIn text names stop) (after : start ≤ site.start) :
    start + gap.length ≤ site.start := by
  by_contra inside
  obtain ⟨c, here, symbol⟩ := call.head callNames
  obtain ⟨rest, shape⟩ := stands.drop
  have inGap : gap[site.start - start]? = some c := by
    rw [← Nat.add_sub_of_le after, ← List.getElem?_drop, shape, textOf_append, textOf_codes,
      List.append_assoc, List.getElem?_append_left (by omega)] at here
    exact here
  obtain ⟨notPart, notDot⟩ := between.notSymbol (List.mem_of_getElem? inGap)
  rcases symbol with symbol | symbol
  · rw [symbol] at notPart
    cases notPart
  · exact notDot symbol

theorem continuesName_lastBefore {previous : Option Symbol} {gap : Text}
    (fresh : continuesName previous = false) (between : IsBetweenCalls gap) :
    continuesName (lastBefore previous gap) = false := by
  induction gap generalizing previous with
  | nil => exact fresh
  | cons c gap ih =>
    obtain ⟨notPart, notDot⟩ := between.notSymbol List.mem_cons_self
    refine ih ?_ fun d member => between d (List.mem_cons_of_mem _ member)
    simp [continuesName, notPart, notDot]

section Next

variable {text gap name : Text} {keywords : List Text} {start : Nat} {title : StringLiteral}
  {more : List Piece}

theorem standsIn_of_stands {stop : Nat} (member : name ∈ keywords) (nonempty : name ≠ [])
    (fresh : continuesName (charBefore? text start) = false)
    (stands : Stands text start (codes name ++ (.code '(' :: title.piece :: more)))
    (room : start + name.length + 2 ≤ stop) :
    StandsIn ⟨name, start, start + name.length⟩ text keywords stop := by
  have outside : insideLiteral text start = false := by
    obtain ⟨c, rest, shape⟩ := List.exists_cons_of_ne_nil nonempty
    rw [shape] at stands
    have code : IsCode text start c := stands.isCode
    exact (insideLiteral_eq_false_iff code.lt).mpr ⟨c, code⟩
  refine ⟨outside, fresh, member, name.length, name.length, ⟨?_⟩, rfl⟩
  obtain ⟨rest, shape⟩ := stands.drop
  refine ⟨[], [], title.quote.symbol,
    (title.tail ++ textOf more ++ rest).take (stop - start - (name.length + 2)), ?_, by simp,
    by simp, title.quote.isQuote_symbol, rfl, rfl⟩
  have parts : text.drop start = (name ++ [.char '(', title.quote.symbol]) ++
      (title.tail ++ textOf more ++ rest) := by
    simp [shape, StringLiteral.text]
  have covered : (name ++ [.char '(', title.quote.symbol]).length ≤ stop - start := by
    rw [List.length_append, List.length_cons, List.length_singleton]
    omega
  rw [slice, parts, List.take_append, List.take_of_length_le covered]
  simp

/-- The search passes over what stands between calls and finds the call behind it. -/
theorem next?_eq_some {stop : Option Nat} (names : ∀ name ∈ keywords, IsCallName name)
    (member : name ∈ keywords) (between : IsBetweenCalls gap)
    (fresh : continuesName (charBefore? text start) = false)
    (stands : Stands text start (codes gap ++ (codes name ++ (.code '(' :: title.piece :: more))))
    (room : ∀ bound ∈ stop, start + gap.length + name.length + 2 ≤ bound) :
    next? text keywords start stop =
      some ⟨name, start + gap.length, start + gap.length + name.length⟩ := by
  have given : keywords ≠ [] := List.ne_nil_of_mem member
  have call := stands.right
  rw [textOf_codes] at call
  have freshCall : continuesName (charBefore? text (start + gap.length)) = false := by
    have seen := stands.slice
    rw [textOf_append, textOf_codes] at seen
    rw [charBefore?_add seen]
    exact continuesName_lastBefore fresh between
  have inside : start + gap.length + name.length + 2 ≤ stop.getD text.length := by
    cases stop with
    | some bound => exact room bound rfl
    | none =>
      obtain ⟨rest, shape⟩ := call.drop
      have count := congrArg List.length shape
      simp only [List.length_drop, textOf_append, textOf_codes, textOf_code,
        StringLiteral.textOf_piece, StringLiteral.text, List.length_append, List.length_cons] at count
      rw [Option.getD_none]
      omega
  have site := standsIn_of_stands member (names name member).1 freshCall call inside
  obtain ⟨found, finds, notLater⟩ := exists_next?_le names site (Nat.le_add_right _ _)
  obtain ⟨after, foundCall⟩ := standsIn_of_next? finds
  have known := foundCall.mono fun other listed => (mem_searchOrder given).mp listed
  have notEarlier := known.past_gap names between stands after
  rw [finds, known.eq_of_start names site (Nat.le_antisymm notLater notEarlier)]

/-- The search finds nothing in what stands between calls. -/
theorem next?_eq_none (names : ∀ name ∈ keywords, IsCallName name) (given : keywords ≠ [])
    (between : IsBetweenCalls gap) (stands : Stands text start (codes gap)) :
    next? text keywords start (some (start + gap.length)) = none := by
  rw [Option.eq_none_iff_forall_ne_some]
  intro found finds
  obtain ⟨after, foundCall⟩ := standsIn_of_next? finds
  have known := foundCall.mono fun other listed => (mem_searchOrder given).mp listed
  have whole : Stands text start (codes gap ++ []) := by rwa [List.append_nil]
  have notEarlier := known.past_gap names between whole after
  obtain ⟨paren, tail, spelling, -⟩ := foundCall.spelled
  obtain ⟨c, rest, shape⟩ := spelling.nonempty
  rw [slice, Option.getD_some, Nat.sub_eq_zero_of_le notEarlier] at shape
  cases shape

end Next

end CallSite

namespace DeclaringCall

theorem exists_pieces_eq (call : DeclaringCall) :
    ∃ more, call.pieces = codes call.name ++ (.code '(' :: call.title.piece :: more) := by
  rw [pieces, arguments, enclosed]
  cases call.others with
  | nil => exact ⟨_, rfl⟩
  | cons second rest => exact ⟨_, rfl⟩

/-- Calls that follow one another, with texts before, between and behind them. -/
def sequence : Text → List (DeclaringCall × Text) → List Piece
  | gap, [] => codes gap
  | gap, (call, after) :: rest => codes gap ++ (call.pieces ++ sequence after rest)

/-- A visited call was read as a written one. -/
def ReadAs (visit : CallSite × Except Block.Error Block) (item : DeclaringCall × Text) : Prop :=
  ∃ block, visit.2 = .ok block ∧ block.title = item.1.title.contents ∧
    block.body = textOf item.1.body

/-- Calls that follow one another are visited one by one and read as they are written. -/
theorem outermost_sequence {keywords : List Text}
    (names : ∀ name ∈ keywords, CallSite.IsCallName name) (given : keywords ≠ []) {text gap : Text}
    {start : Nat} {items : List (DeclaringCall × Text)}
    (each : ∀ item ∈ items, item.1.name ∈ keywords ∧ CallSite.IsBetweenCalls item.2)
    (between : CallSite.IsBetweenCalls gap)
    (fresh : CallSite.continuesName (charBefore? text start) = false)
    (stands : Stands text start (sequence gap items)) :
    List.Forall₂ ReadAs (Block.outermost text keywords start
      (some (start + (textOf (sequence gap items)).length))) items := by
  induction items generalizing start gap with
  | nil =>
    have nothing := CallSite.next?_eq_none names given between stands
    rw [sequence, textOf_codes, Block.outermost, Block.walk_of_none nothing]
    exact .nil
  | cons item items ih =>
    obtain ⟨call, after⟩ := item
    obtain ⟨member, between'⟩ := each _ List.mem_cons_self
    rw [sequence] at stands
    have length : start + (textOf (sequence gap ((call, after) :: items))).length =
        start + gap.length + call.name.length + (textOf call.arguments).length +
          (textOf (sequence after items)).length := by
      simp only [sequence, pieces, textOf_append, textOf_codes, List.length_append]
      omega
    have here := stands.right.left
    have later := stands.right.right
    rw [textOf_codes] at here later
    rw [pieces] at here
    have opened := here.right
    rw [textOf_codes] at opened
    have size := call.length_arguments
    have next : CallSite.next? text keywords start
        (some (start + (textOf (sequence gap ((call, after) :: items))).length)) =
          some ⟨call.name, start + gap.length, start + gap.length + call.name.length⟩ := by
      obtain ⟨more, shape⟩ := call.exists_pieces_eq
      rw [shape, ← List.append_assoc] at stands
      refine CallSite.next?_eq_some names member between fresh stands.left ?_
      rintro bound ⟨⟩
      omega
    obtain ⟨block, others, isRead, titled, stops, -, -, -, -, bodied⟩ :=
      call.exists_read ⟨call.name, start + gap.length, start + gap.length + call.name.length⟩
        (some (start + (textOf (sequence gap ((call, after) :: items))).length)) opened (by
          rintro bound ⟨⟩
          dsimp only
          omega)
    rw [Block.outermost, Block.walk_of_next? next, Block.Stride.next_past, isRead, Block.resume,
      stops, length]
    refine .cons ⟨block, rfl, titled, bodied⟩ ?_
    rw [pieces, textOf_append, textOf_codes, List.length_append, ← Nat.add_assoc] at later
    refine ih (fun other listed => each other (List.mem_cons_of_mem _ listed)) between' ?_ later
    rw [arguments, opened.charBefore?_enclosed]
    decide

/-! ## Calls inside other passages -/

theorem stable_pieces (call : DeclaringCall) : ∀ piece ∈ call.pieces, piece.Stable := by
  have named := stable_codes fun c member =>
    CallSite.isPlain_of_callSymbol (call.callName.2 c member)
  exact List.forall_mem_append.mpr ⟨named, call.isElement_arguments.stable⟩

theorem nested_pieces (call : DeclaringCall) : WellNested (codeOf call.pieces) := by
  have named : WellNested call.name := by
    refine wellNested_of_class (fun c => isNamePart c || c == '.') (by decide) ?_
    simpa using call.callName.2
  rw [pieces, codeOf_append, codeOf_codes]
  exact wellNested_append named call.isElement_arguments.nested

theorem stable_gap {gap : Text} (between : CallSite.IsBetweenCalls gap) :
    ∀ piece ∈ codes gap, piece.Stable := by
  refine stable_codes fun c member => ?_
  rcases between c member with blank | rfl
  · exact isPlain_of_isBlank blank
  · decide

theorem nested_gap {gap : Text} (between : CallSite.IsBetweenCalls gap) : WellNested gap := by
  refine wellNested_of_class (fun c => isBlank c || c == ';') (by decide) ?_
  simpa [CallSite.IsBetweenCalls] using between

theorem stable_sequence {gap : Text} {items : List (DeclaringCall × Text)}
    (between : CallSite.IsBetweenCalls gap)
    (each : ∀ item ∈ items, CallSite.IsBetweenCalls item.2) :
    ∀ piece ∈ sequence gap items, piece.Stable := by
  induction items generalizing gap with
  | nil => exact stable_gap between
  | cons item items ih =>
    obtain ⟨after, others⟩ := List.forall_mem_cons.mp each
    exact List.forall_mem_append.mpr ⟨stable_gap between,
      List.forall_mem_append.mpr ⟨item.1.stable_pieces, ih after others⟩⟩

theorem nested_sequence {gap : Text} {items : List (DeclaringCall × Text)}
    (between : CallSite.IsBetweenCalls gap)
    (each : ∀ item ∈ items, CallSite.IsBetweenCalls item.2) :
    WellNested (codeOf (sequence gap items)) := by
  induction items generalizing gap with
  | nil =>
    rw [sequence, codeOf_codes]
    exact nested_gap between
  | cons item items ih =>
    obtain ⟨after, others⟩ := List.forall_mem_cons.mp each
    rw [sequence, codeOf_append, codeOf_append, codeOf_codes]
    exact wellNested_append (nested_gap between)
      (wellNested_append item.1.nested_pieces (ih after others))

end DeclaringCall

end SuiteDocs
