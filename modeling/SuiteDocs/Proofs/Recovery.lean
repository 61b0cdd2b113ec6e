import SuiteDocs.Proofs.Reading
import SuiteDocs.Proofs.Recognition
import SuiteDocs.Proofs.Declarations
import SuiteDocs.Proofs.Declarators

/-!
Reading recovers from every text.

A text may leave anything open, and nothing else can be wrong with it: readers look only at places
inside the text, and ask for a closing bracket or quote only where an opening one stands. What is
left open costs the declaration or annotation that it belongs to, and a file without a suite is left
out. All else is read.
-/

set_option autoImplicit false

namespace SuiteDocs

/-- Fails, if at all, for a reason of one kind. -/
def FailsOnlyBy {ε α : Type} (kind : ε → Bool) (result : Except ε α) : Prop :=
  ∀ error, result = .error error → kind error = true

theorem failsOnlyBy_ok {ε α : Type} {kind : ε → Bool} (value : α) : FailsOnlyBy kind (.ok value) := by
  intro error failed
  cases failed

theorem failsOnlyBy_error {ε α : Type} {kind : ε → Bool} {error : ε} (allowed : kind error = true) :
    FailsOnlyBy kind (.error error : Except ε α) := by
  intro other failed
  obtain rfl := Except.error.inj failed
  exact allowed

theorem FailsOnlyBy.bind {ε α β : Type} {kind : ε → Bool} {first : Except ε α}
    {next : α → Except ε β} (fails : FailsOnlyBy kind first)
    (each : ∀ value, first = .ok value → FailsOnlyBy kind (next value)) :
    FailsOnlyBy kind (first >>= next) := by
  cases given : first with
  | error error => exact failsOnlyBy_error (fails error given)
  | ok value => exact each value given

namespace Source

open SuiteDocs.Text

/-- Fails, if at all, because the text does not close what it opens. -/
abbrev Recoverable {α : Type} (result : Except Fault α) : Prop :=
  FailsOnlyBy Fault.isUnbalanced result

/-! ## Places in a text -/

theorem getElem?_of_drop {text rest : Text} {offset : Nat} {c : Symbol}
    (shape : text.drop offset = c :: rest) : text[offset]? = some c := by
  rw [← List.head?_drop, shape, List.head?_cons]

theorem exists_drop_of_head? {text : Text} {c : Symbol} (first : text.head? = some c) :
    ∃ rest, text.drop 0 = c :: rest :=
  ⟨_, List.eq_cons_of_mem_head? first⟩

theorem exists_drop_of_getElem? {text : Text} {offset : Nat} {c : Symbol}
    (stands : text[offset]? = some c) : ∃ rest, text.drop offset = c :: rest := by
  rw [← List.head?_drop] at stands
  exact exists_drop_of_head? stands

theorem getElem?_of_mem_codeBetween {text : Text} {start : Nat} {stop : Option Nat} {code : CodeChar}
    (member : code ∈ codeBetween text start stop) :
    text[code.offset]? = some code.char ∧ ∀ bound ∈ stop, code.offset < bound := by
  obtain ⟨leading, following, scan, place⟩ :=
    exists_cut_of_mem_codeAt (List.takeWhile_subset _ member)
  have shape : text.drop code.offset = code.char :: textOf following := by
    rw [place, ← List.drop_drop, ← textOf_piecesFrom text start, scan, textOf_append,
      List.drop_left, textOf_code]
  refine ⟨getElem?_of_drop shape, ?_⟩
  have below := List.mem_takeWhile_imp member
  rintro bound rfl
  simpa using below

theorem drop_of_findTopLevel? {text token : Text} {c : Symbol} {start found : Nat}
    {stop : Option Nat} (finds : findTopLevel? text (c :: token) start stop = some found) :
    ∃ rest, text.drop found = c :: rest := by
  obtain ⟨code, chosen, rfl⟩ := Option.map_eq_some_iff.mp finds
  have stands := List.find?_some chosen
  obtain ⟨rest, shape⟩ := List.isPrefixOf_iff_prefix.mp stands
  exact ⟨token ++ rest, shape.symm⟩

theorem nextSolid?_lt {stop offset found : Nat} {scanned : List Piece}
    (finds : nextSolid? stop offset scanned = some found) :
    found < offset + (textOf scanned).length := by
  induction scanned generalizing offset with
  | nil => cases finds
  | cons piece rest ih =>
    have length := piece.length_pos
    rw [nextSolid?] at finds
    rw [length_textOf_cons]
    split at finds
    · cases finds
    · split at finds
      · have later := ih finds
        omega
      · obtain rfl := Option.some.inj finds
        omega

theorem nextCode?_lt {text : Text} {start found : Nat} {stop : Option Nat}
    (finds : nextCode? text start stop = some found) : found < text.length := by
  rw [nextCode?, nextCodeAt?_eq_nextSolid?] at finds
  obtain ⟨-, leading, following, -, place⟩ := nextSolid?_some finds
  have inside := nextSolid?_lt finds
  rw [textOf_pieces, List.length_drop] at inside
  omega

/-! ## Brackets and segments -/

theorem trimPieces_total {stop offset : Nat} {found : Option Span} {scanned : List Piece}
    (fits : stop ≤ offset + (textOf scanned).length) :
    ∃ trimmed, trimPieces stop found offset scanned = .ok trimmed := by
  induction scanned generalizing found offset with
  | nil => exact ⟨found, if_pos fits⟩
  | cons piece rest ih =>
    rw [trimPieces]
    split
    · exact ⟨found, rfl⟩
    · rw [length_textOf_cons] at fits
      exact ih (by omega)

theorem trimPieces_start_lt {stop offset : Nat} {found : Option Span} {scanned : List Piece}
    {span : Span} (before : ∀ earlier ∈ found, earlier.start < earlier.stop ∧ earlier.start < offset)
    (trimmed : trimPieces stop found offset scanned = .ok (some span)) : span.start < span.stop := by
  induction scanned generalizing found offset with
  | nil =>
    simp only [trimPieces] at trimmed
    split at trimmed
    · exact (before span (Except.ok.inj trimmed)).1
    · cases trimmed
  | cons piece rest ih =>
    simp only [trimPieces] at trimmed
    split at trimmed
    · exact (before span (Except.ok.inj trimmed)).1
    · have length := piece.length_pos
      refine ih ?_ trimmed
      intro earlier member
      cases gap : piece.isGap with
      | true =>
        have known := before earlier (by simpa [gap] using member)
        omega
      | false =>
        simp only [gap, Bool.false_eq_true, if_false, Option.mem_some_iff] at member
        subst member
        cases found with
        | none =>
          change offset < min _ _ ∧ offset < _
          omega
        | some earlier =>
          have known := before earlier rfl
          change earlier.start < min _ _ ∧ earlier.start < _
          omega

/-- A span inside the text can be trimmed, and what is left of it is not empty. -/
theorem trimSpan_total {text : Text} {raw : Span} (fits : raw.stop ≤ text.length) :
    ∃ trimmed, trimSpan text raw = .ok trimmed ∧
      ∀ span ∈ trimmed, span.start < span.stop ∧ span.stop ≤ raw.stop := by
  simp only [trimSpan_eq]
  have room : raw.stop ≤ raw.start + (textOf (piecesFrom text raw.start)).length := by
    rw [textOf_piecesFrom, List.length_drop]
    omega
  obtain ⟨trimmed, same⟩ := @trimPieces_total _ _ none _ room
  refine ⟨trimmed, same, ?_⟩
  rintro span rfl
  exact ⟨trimPieces_start_lt (by simp) same, trimPieces_stop_le (by simp) same⟩

/-- A text is split up to any offset inside it, and its segments are not empty. -/
theorem splitTopLevel_total {text : Text} {stop : Nat} (start : Nat) (isSeparator : Symbol → Bool)
    (fits : stop ≤ text.length) :
    ∃ spans, splitTopLevel text start stop isSeparator = .ok spans ∧
      ∀ span ∈ spans, span.start < span.stop ∧ span.stop ≤ stop := by
  obtain ⟨trimmed, passed⟩ := exists_mapM_eq_ok fun raw member => by
    obtain ⟨span?, same, -⟩ := trimSpan_total (Nat.le_trans (stop_le_of_separated member) fits)
    exact ⟨span?, same⟩
  have split := splitTopLevel_eq_ok_iff.mpr ⟨trimmed, mapM_eq_ok_iff.mp passed, rfl⟩
  refine ⟨trimmed.filterMap id, split, ?_⟩
  intro span member
  obtain ⟨raw, inRaw, same⟩ := (mem_splitTopLevel split).mp member
  have upper := stop_le_of_separated inRaw
  obtain ⟨_, again, bounds⟩ := trimSpan_total (Nat.le_trans upper fits)
  obtain rfl := Except.ok.inj (again.symm.trans same)
  obtain ⟨nonempty, below⟩ := bounds span rfl
  exact ⟨nonempty, by omega⟩

/-- An opening bracket has a closing one inside the text, or is left open. -/
theorem matchingClose_recoverable {text rest : Text} {start : Nat} {opener closer : Symbol}
    (shape : text.drop start = opener :: rest) (pair : closerOf? opener = some closer) :
    Recoverable (matchingClose text start) ∧
      ∀ close, matchingClose text start = .ok close → close < text.length := by
  constructor
  · simp only [matchingClose, shape, pair]
    split
    · exact failsOnlyBy_error rfl
    · exact failsOnlyBy_ok _
  · intro close found
    obtain ⟨inner, after, whole, place⟩ := exists_of_matchingClose shape pair found
    have count := congrArg List.length whole
    rw [List.length_drop, List.length_append, List.length_cons] at count
    omega

theorem readString_recoverable {text rest : Text} {start : Nat} {quote : Symbol}
    (shape : text.drop start = quote :: rest) (opens : isQuote quote = true) :
    Recoverable (readString text start) := by
  simp only [readString, shape, opens, if_true]
  split
  · exact failsOnlyBy_ok _
  · exact failsOnlyBy_error rfl

/-! ## Objects and arrays -/

theorem objectFields_recoverable {text rest : Text} {start : Nat}
    (shape : text.drop start = .char '\x7b' :: rest) : Recoverable (objectFields text start) := by
  obtain ⟨recoverable, inside⟩ := matchingClose_recoverable shape rfl
  refine recoverable.bind fun close found => ?_
  obtain ⟨spans, split, -⟩ := splitTopLevel_total (start + 1) (· == .char ',')
    (Nat.le_of_lt (inside close found))
  rw [split]
  exact failsOnlyBy_ok _

theorem arrayItems_recoverable (raw : Text) : Recoverable (arrayItems raw) := by
  unfold arrayItems
  generalize strip raw = candidate
  dsimp only
  split
  · rename_i rest
    have shape : List.drop 0 (.char '[' :: rest) = .char '[' :: rest := rfl
    obtain ⟨recoverable, inside⟩ := matchingClose_recoverable shape rfl
    refine recoverable.bind fun close found => ?_
    obtain ⟨spans, split, -⟩ := splitTopLevel_total 1 (· == .char ',')
      (Nat.le_of_lt (inside close found))
    rw [split]
    exact failsOnlyBy_ok _
  · exact failsOnlyBy_ok _

end Source

open SuiteDocs.Text SuiteDocs.Source

namespace SuiteOptions

theorem tagOf_recoverable (raw : Option Text) : Recoverable (tagOf raw) := by
  cases raw with
  | none => exact failsOnlyBy_ok _
  | some raw =>
    rw [tagOf]
    cases literalValue? raw with
    | some value => exact failsOnlyBy_ok _
    | none => exact (arrayItems_recoverable raw).bind fun items _ => failsOnlyBy_ok _

theorem firstDescription_recoverable (candidates : List Text) :
    Recoverable (firstDescription candidates) := by
  induction candidates with
  | nil => exact failsOnlyBy_ok _
  | cons candidate rest ih =>
    rw [firstDescription]
    split
    · rename_i opens
      obtain ⟨_, shape⟩ := exists_drop_of_head? (beq_iff_eq.mp opens)
      refine (objectFields_recoverable shape).bind fun fields _ => ?_
      split
      · split
        · exact ih
        · exact failsOnlyBy_ok _
      · exact ih
    · exact ih

theorem descriptionOf_recoverable (raw : Option Text) : Recoverable (descriptionOf raw) := by
  cases raw with
  | none => exact failsOnlyBy_ok _
  | some raw =>
    rw [descriptionOf]
    split
    · exact firstDescription_recoverable _
    · exact (arrayItems_recoverable raw).bind fun items _ => firstDescription_recoverable items

/-- Options can always be read. -/
theorem ofText_total (text : Text) : ∃ options, ofText text = .ok options := by
  unfold ofText
  generalize strip text = text
  dsimp only
  split
  · rename_i opens
    obtain ⟨_, shape⟩ := exists_drop_of_head? (beq_iff_eq.mp opens)
    have recoverable : Recoverable (objectFields text 0 >>= ofFields) :=
      (objectFields_recoverable shape).bind fun fields _ =>
        (tagOf_recoverable _).bind fun tag _ =>
          (descriptionOf_recoverable _).bind fun description _ => failsOnlyBy_ok _
    cases given : objectFields text 0 >>= ofFields with
    | ok options => exact ⟨options, rfl⟩
    | error fault => exact ⟨none, if_pos (recoverable fault given)⟩
  · exact ⟨none, rfl⟩

end SuiteOptions

namespace Block

/-- The search for a body never fails, and a body that is found opens with a brace. -/
theorem callbackBody?_total (text : Text) (span : Span) :
    ∃ body, callbackBody? text span = .ok body ∧
      ∀ brace ∈ body, ∃ rest, text.drop brace = .char '\x7b' :: rest := by
  unfold callbackBody?
  cases findTopLevel? text "=>" span.start (some span.stop) with
  | some arrow =>
    refine ⟨_, rfl, ?_⟩
    intro brace member
    obtain ⟨-, opens⟩ := Option.filter_eq_some_iff.mp member
    exact exists_drop_of_getElem? (beq_iff_eq.mp opens)
  | none =>
    have nothing : ∀ brace ∈ (none : Option Nat), ∃ rest, text.drop brace = .char '\x7b' :: rest := by
      simp
    dsimp only
    split
    · cases opened : findTopLevel? text "(" span.start (some span.stop) with
      | none => exact ⟨none, rfl, nothing⟩
      | some parameters =>
        obtain ⟨rest, shape⟩ := drop_of_findTopLevel? opened
        have recoverable := (matchingClose_recoverable shape rfl).1
        dsimp only
        cases closed : matchingClose text parameters with
        | error fault => exact ⟨none, if_pos (recoverable fault closed), nothing⟩
        | ok close => exact ⟨_, rfl, fun brace found => drop_of_findTopLevel? found⟩
    · exact ⟨none, rfl, nothing⟩

theorem firstBody?_total (text : Text) (spans : List Span) :
    ∃ body, firstBody? text spans = .ok body ∧
      ∀ brace ∈ body, ∃ rest, text.drop brace = .char '\x7b' :: rest := by
  induction spans with
  | nil => exact ⟨none, rfl, by simp⟩
  | cons span rest ih =>
    obtain ⟨body, found, opens⟩ := callbackBody?_total text span
    rw [firstBody?, found]
    cases body with
    | none => exact ih
    | some brace => exact ⟨some brace, rfl, opens⟩

theorem recover_fails {α : Type} {name : Fault → Error} {result : Except Fault α}
    (recoverable : Recoverable result) (named : ∀ fault, (name fault).isNotFound = true) :
    FailsOnlyBy Error.isNotFound (recover name result) := by
  cases result with
  | ok value => exact failsOnlyBy_ok value
  | error fault =>
    refine failsOnlyBy_error ?_
    rw [if_pos (recoverable fault rfl)]
    exact named fault

/-- A declaration that cannot be read is missing or malformed. -/
theorem read_fails {text : Text} {site : CallSite} {names : List Text} {bound : Nat}
    (stands : site.StandsIn text names bound) (stop : Option Nat) :
    FailsOnlyBy Error.isNotFound (read text site stop) := by
  -- Names of calls are arbitrary, so the parenthesis need not be code; it stands in the text, though.
  obtain ⟨rest, shape⟩ := stands.drop_openParen
  obtain ⟨recoverable, inside⟩ := matchingClose_recoverable shape rfl
  refine (recover_fails recoverable fun _ => rfl).bind fun close closed => ?_
  have fits := Nat.le_of_lt (inside close (recover_eq_ok_iff.mp closed))
  obtain ⟨spans, split, -⟩ := splitTopLevel_total (site.openParen + 1) (· == ',') fits
  rw [split]
  dsimp only
  split
  · exact failsOnlyBy_error rfl
  · refine (failsOnlyBy_ok spans).bind fun arguments given => ?_
    obtain rfl := Except.ok.inj given
    cases spans with
    | nil => exact failsOnlyBy_error rfl
    | cons first others =>
      dsimp only
      cases literalValue? (slice text first.start first.stop) with
      | none => exact failsOnlyBy_error rfl
      | some title =>
        obtain ⟨body, found, opens⟩ := firstBody?_total text others.reverse
        rw [found]
        cases body with
        | none => exact failsOnlyBy_error rfl
        | some brace =>
          obtain ⟨rest, shape⟩ := opens brace rfl
          have recoverable := (matchingClose_recoverable shape rfl).1
          exact (recover_fails recoverable fun _ => rfl).bind fun _ _ => failsOnlyBy_ok _

theorem select_total {missing : Error} {visited : List (CallSite × Except Error Block)}
    (title : Option Text) (each : ∀ visit ∈ visited, FailsOnlyBy Error.isNotFound visit.2) :
    (∃ block, select missing title visited = .ok block) ∨
      select missing title visited = .error missing := by
  fun_induction select missing title visited with
  | case1 => exact .inr rfl
  | case2 site block rest => exact .inl ⟨block, rfl⟩
  | case3 site block rest _ ih => exact ih fun visit member => each visit (List.mem_cons_of_mem _ member)
  | case4 site error rest _ ih => exact ih fun visit member => each visit (List.mem_cons_of_mem _ member)
  | case5 site error rest fault =>
    exact absurd (each _ List.mem_cons_self error rfl) fault

theorem declarations_fail {text : Text} {keywords : List Text} {start : Nat} {stop : Option Nat}
    {visit : CallSite × Except Error Block} (member : visit ∈ declarations text keywords start stop) :
    FailsOnlyBy Error.isNotFound visit.2 := by
  obtain ⟨same, -, stands⟩ := mem_walk member
  rw [same]
  exact read_fails stands stop

/-- The search for the first declaration finds one, or reports that there is none. -/
theorem first_total (text : Text) (keywords : List Text) (start : Nat) (stop : Option Nat) :
    (∃ block, first text keywords start stop = .ok block) ∨
      first text keywords start stop = .error (.undeclared (label keywords) none) :=
  select_total none fun _ => declarations_fail

theorem named_total (text : Text) (keywords : List Text) (title : Text) (start : Nat)
    (stop : Option Nat) :
    (∃ block, named text keywords title start stop = .ok block) ∨
      named text keywords title start stop = .error (.undeclared (label keywords) (some title)) :=
  select_total (some title) fun _ => declarations_fail

end Block

namespace Extraction

open LoggedExcept

theorem ofArgument_total (body : Text) (constants : Constants) (source : Option Text) (span : Span) :
    ∃ found, (ofArgument body constants source span).outcome = .ok found := by
  unfold ofArgument
  split
  · rename_i opens
    obtain ⟨rest, shape⟩ := exists_drop_of_getElem? (beq_iff_eq.mp opens)
    cases given : objectFields body span.start with
    | ok fields => exact ⟨_, rfl⟩
    | error fault =>
      dsimp only
      rw [if_pos (objectFields_recoverable shape fault given)]
      exact ⟨none, rfl⟩
  · exact ⟨none, rfl⟩

theorem ofCall_total {body rest : Text} {paren : Nat} (constants : Constants) (source : Option Text)
    (shape : body.drop paren = .char '(' :: rest) :
    ∃ found, (ofCall body constants source paren).outcome = .ok found := by
  obtain ⟨recoverable, inside⟩ := matchingClose_recoverable shape rfl
  unfold ofCall
  cases closed : matchingClose body paren with
  | error fault =>
    dsimp only
    rw [if_pos (recoverable fault closed)]
    exact ⟨[], rfl⟩
  | ok close =>
    obtain ⟨spans, split, -⟩ := splitTopLevel_total (paren + 1) (· == ',')
      (Nat.le_of_lt (inside close closed))
    refine exists_outcome_bind ⟨spans, by rw [outcome_ofExcept, split]⟩ fun arguments => ?_
    refine exists_outcome_bind (exists_outcome_mapM fun span _ => ofArgument_total _ _ _ span)
      fun found => ?_
    dsimp only
    split
    · exact ⟨_, rfl⟩
    · exact ⟨_, rfl⟩

/-- Nothing in a call that is recognised opens a literal before its parenthesis. -/
theorem exists_part_of_registration {body : Text} {place : Match Unit}
    (member : place ∈ codeMatches recogniseCall body 0 none) :
    ∃ part rest, body.drop place.offset = part ++ .char '(' :: rest ∧ part.length = place.tail ∧
      ∀ c ∈ part, isPlain c = true := by
  obtain ⟨leading, c, following, whole, offset, recognised⟩ :=
    mem_matchesAt (List.mem_filter.mp member).1
  obtain ⟨rfl, first, second, third, fourth, inner, rfl, blankFirst, blankSecond, blankThird,
    blankFourth, count⟩ := exists_of_recogniseCall recognised
  have text : slice body 0 ((none : Option Nat).getD body.length) = body := by simp [slice]
  have plain {blanks : Text} (blank : ∀ c ∈ blanks, isBlank c = true) :
      ∀ c ∈ blanks, isPlain c = true := fun c member => isPlain_of_isBlank (blank c member)
  refine ⟨.char '.' :: (first ++ (("annotations" : Text) ++ (second ++ .char '.' :: (third ++
    (("push" : Text) ++ fourth))))), inner, ?_, ?_, ?_⟩
  · have parted := congrArg (List.drop leading.length) whole
    rw [text, List.drop_left] at parted
    rw [offset, Nat.zero_add, parted]
    simp only [List.append_assoc, List.cons_append]
  · simp only [List.length_append, List.length_cons] at count ⊢
    omega
  · have dot : isPlain '.' = true := by decide
    have annotations : ∀ c ∈ ("annotations" : Text), isPlain c = true := by decide
    have push : ∀ c ∈ ("push" : Text), isPlain c = true := by decide
    simp only [List.forall_mem_cons, List.forall_mem_append]
    exact ⟨dot, plain blankFirst, annotations, plain blankSecond, dot, plain blankThird, push,
      plain blankFourth⟩

/-- A call that is recognised ends with its parenthesis. -/
theorem drop_of_registration {body : Text} {place : Match Unit}
    (member : place ∈ codeMatches recogniseCall body 0 none) :
    ∃ rest, body.drop (place.offset + place.tail) = .char '(' :: rest := by
  obtain ⟨part, rest, shape, count, -⟩ := exists_part_of_registration member
  exact ⟨rest, by rw [← List.drop_drop, shape, ← count, List.drop_left]⟩

/-- Annotations can always be read. -/
theorem annotations_total (body : Text) (constants : Constants) (source : Option Text) :
    ∃ found, (annotations body constants source).outcome = .ok found := by
  refine exists_outcome_bind (exists_outcome_mapM fun place member => ?_) fun found => ?_
  · obtain ⟨rest, shape⟩ := drop_of_registration member
    exact ofCall_total constants source shape
  · dsimp only
    split
    · exact ⟨_, rfl⟩
    · exact ⟨_, rfl⟩

end Extraction

/-- Readers of a text look only inside it and only at what they can read: a closing bracket is sought
where one opens, a string is read where a quote stands. Whatever the text leaves open, nothing else is
wrong with it. -/
structure SafeToRead (text : Text) : Prop where
  code : ∀ {start stop code}, code ∈ codeBetween text start stop →
    text[code.offset]? = some code.char
  next : ∀ {start stop found}, nextCode? text start stop = some found → found < text.length
  segments : ∀ start stop isSeparator, stop ≤ text.length →
    ∃ spans, splitTopLevel text start stop isSeparator = .ok spans ∧
      ∀ span ∈ spans, span.start < span.stop ∧ span.stop ≤ stop
  brackets : ∀ {start opener closer}, text[start]? = some opener → closerOf? opener = some closer →
    Recoverable (matchingClose text start) ∧
      ∀ close, matchingClose text start = .ok close → close < text.length
  strings : ∀ {start quote}, text[start]? = some quote → isQuote quote = true →
    Recoverable (readString text start)
  objects : ∀ {start}, text[start]? = some (.char '\x7b') → Recoverable (objectFields text start)
  arrays : Recoverable (arrayItems text)
  constants : ∀ {offset name distance},
    Constants.declaration? (text.drop offset) = some (name, distance) →
    ∃ quote, text[offset + distance]? = some quote ∧ isQuote quote = true
  calls : ∀ {keywords start stop site}, CallSite.next? text keywords start stop = some site →
    text[site.openParen]? = some (.char '(') ∧
      FailsOnlyBy Block.Error.isNotFound (Block.read text site stop)
  options : ∃ options, SuiteOptions.ofText text = .ok options
  registrations : ∀ {place}, place ∈ codeMatches Extraction.recogniseCall text 0 none →
    text[place.offset + place.tail]? = some (.char '(')
  annotations : ∀ constants source,
    ∃ found, (Extraction.annotations text constants source).outcome = .ok found

theorem safeToRead (text : Text) : SafeToRead text where
  code member := (getElem?_of_mem_codeBetween member).1
  next := nextCode?_lt
  segments start _ isSeparator fits := splitTopLevel_total start isSeparator fits
  brackets stands pair := by
    obtain ⟨rest, shape⟩ := exists_drop_of_getElem? stands
    exact matchingClose_recoverable shape pair
  strings stands opens := by
    obtain ⟨rest, shape⟩ := exists_drop_of_getElem? stands
    exact readString_recoverable shape opens
  objects stands := by
    obtain ⟨rest, shape⟩ := exists_drop_of_getElem? stands
    exact objectFields_recoverable shape
  arrays := arrayItems_recoverable text
  constants found := by
    obtain ⟨quote, rest, shape, opens⟩ := Constants.drop_of_declaration? found
    rw [List.drop_drop] at shape
    exact ⟨quote, getElem?_of_drop shape, opens⟩
  calls found := by
    obtain ⟨-, stands⟩ := CallSite.standsIn_of_next? found
    obtain ⟨rest, shape⟩ := stands.drop_openParen
    exact ⟨getElem?_of_drop shape, Block.read_fails stands _⟩
  options := SuiteOptions.ofText_total text
  registrations member := by
    obtain ⟨rest, shape⟩ := Extraction.drop_of_registration member
    exact getElem?_of_drop shape
  annotations := Extraction.annotations_total text

namespace Suite

open LoggedExcept

theorem testOf_total {site : CallSite} {result : Except Block.Error Block} (file : SourceFile) (constants : Constants)
    (fails : FailsOnlyBy Block.Error.isNotFound result) :
    ∃ test, (testOf file constants (site, result)).outcome = .ok test := by
  cases result with
  | error error => exact ⟨none, outcome_testOf_error.mpr ⟨fails error rfl, rfl⟩⟩
  | ok block =>
    obtain ⟨annotations, found⟩ :=
      Extraction.annotations_total block.body constants (some file.path)
    have documents : Documents file constants block ⟨block.title, annotations⟩ :=
      ⟨rfl, mapError_eq_ok_iff.mpr found⟩
    exact ⟨_, outcome_testOf_ok.mpr ⟨_, documents, rfl⟩⟩

theorem testsFrom_total (calls : Calls) (file : SourceFile) (constants : Constants)
    (stop cursor : Nat) :
    ∃ tests, (testsFrom calls file constants stop cursor).outcome = .ok tests := by
  refine exists_outcome_bind (exists_outcome_mapM fun visit member => ?_) fun tests => ⟨_, rfl⟩
  obtain ⟨site, result⟩ := visit
  obtain ⟨rfl, -, stands⟩ := Block.mem_walk member
  exact testOf_total file constants (Block.read_fails stands _)

theorem exists_ofSource {calls : Calls} {file : SourceFile} {block : Block}
    (found : Block.first file.text calls.suites 0 none = .ok block) :
    ∃ suite, (ofSource calls file).outcome = .ok suite := by
  obtain ⟨options, given⟩ := SuiteOptions.ofText_total block.options
  obtain ⟨tests, passed⟩ := testsFrom_total calls file (Constants.ofText file.text) block.bodyStop
    (block.bodyStart + 1)
  exact ⟨_, outcome_ofSource.mpr ⟨block, options, tests, found, given, passed, rfl⟩⟩

/-- A source file documents a suite or declares none. -/
theorem ofSource_total (calls : Calls) (file : SourceFile) :
    (∃ suite, (ofSource calls file).outcome = .ok suite) ∨
      (ofSource calls file).outcome = .error (.noSuite file.path) := by
  rcases Block.first_total file.text calls.suites 0 none with ⟨block, found⟩ | missing
  · exact .inl (exists_ofSource found)
  · right
    rw [ofSource, missing]
    rfl

end Suite

namespace Model

open LoggedExcept

/-- The suites that the files document, each file that documents none left out. -/
def documentedBy (calls : Calls) (files : List SourceFile) : List Suite :=
  files.filterMap fun file => (Suite.ofSource calls file).outcome.toOption

theorem outcome_addSource (calls : Calls) (model : Model) (file : SourceFile) :
    (addSource calls model file).outcome =
      .ok (((Suite.ofSource calls file).outcome.toOption.map model.add).getD model) := by
  rw [addSource, outcome_bind, outcome_lift]
  change outcome (tryCatch _ _) = _
  rw [outcome_tryCatch, outcome_bind]
  rcases Suite.ofSource_total calls file with ⟨suite, read⟩ | missing
  · rw [read]
    rfl
  · rw [missing]
    rfl

/-- Every list of files gives a model, that of the suites which the files document. -/
theorem outcome_ofSources (calls : Calls) (files : List SourceFile) :
    (ofSources calls files).outcome = .ok ((documentedBy calls files).foldl add OrderedMap.empty) := by
  rw [ofSources, outcome_foldlM]
  generalize (OrderedMap.empty : Model) = model
  induction files generalizing model with
  | nil => rfl
  | cons file rest ih =>
    rw [List.foldlM_cons, outcome_addSource]
    change List.foldlM _ _ rest = _
    rw [ih, documentedBy, documentedBy, List.filterMap_cons]
    cases (Suite.ofSource calls file).outcome.toOption with
    | none => rfl
    | some suite => rfl

/-- No file aborts a run: every text is safe to read, every file documents a suite or is reported to
have none, and the model has the suites of all files that document one. -/
theorem reading_never_aborts (calls : Calls) :
    (∀ text, SafeToRead text) ∧
      (∀ file, (∃ suite, (Suite.ofSource calls file).outcome = .ok suite) ∨
        (Suite.ofSource calls file).outcome = .error (.noSuite file.path)) ∧
      ∀ files, (ofSources calls files).outcome =
        .ok ((documentedBy calls files).foldl add OrderedMap.empty) :=
  ⟨safeToRead, Suite.ofSource_total calls, outcome_ofSources calls⟩

end Model

end SuiteDocs
