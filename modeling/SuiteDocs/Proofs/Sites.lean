import Mathlib.Data.List.TakeWhile
import SuiteDocs.Block.Site
import SuiteDocs.Proofs.Characters
import SuiteDocs.Proofs.Matches
import SuiteDocs.Proofs.Segments

/-!
The places of a text at which calls are made.

What a call is to look like is said without a search: outside literals, not within a name, one of
the names, white space, a parenthesis, white space and a quote. The search finds the first such
place whenever the names are made up of the characters of names and dots.
-/

set_option autoImplicit false

namespace SuiteDocs

open SuiteDocs.Text SuiteDocs.Source

namespace CallSite

/-- Leading white space ends at the first symbol that is none. -/
theorem takeWhile_blanks {blanks rest : Text} {c : Symbol} (blank : ∀ d ∈ blanks, isBlank d = true)
    (solid : isBlank c = false) : (blanks ++ c :: rest).takeWhile isBlank = blanks := by
  rw [List.takeWhile_append_of_pos blank, List.takeWhile_cons_of_neg (by simp [solid]),
    List.append_nil]

theorem drop_takeWhile_length (text : Text) :
    text.drop (text.takeWhile isBlank).length = text.dropWhile isBlank := by
  have parts := List.takeWhile_append_dropWhile (p := isBlank) (l := text)
  calc text.drop (text.takeWhile isBlank).length
      = (text.takeWhile isBlank ++ text.dropWhile isBlank).drop
          (text.takeWhile isBlank).length := by rw [parts]
    _ = text.dropWhile isBlank := List.drop_left

/-- An argument follows where a text goes on with white space, a parenthesis, white space and a
quote. -/
theorem argumentAfter?_eq_some_iff {text : Text} {paren quote : Nat} :
    argumentAfter? text = some (paren, quote) ↔
      ∃ blanks inner mark rest, text = blanks ++ .char '(' :: (inner ++ mark :: rest) ∧
        (∀ c ∈ blanks, isBlank c = true) ∧ (∀ c ∈ inner, isBlank c = true) ∧
        isQuote mark = true ∧ paren = blanks.length ∧ quote = blanks.length + 1 + inner.length := by
  constructor
  · intro found
    simp only [argumentAfter?, drop_takeWhile_length] at found
    split at found
    · rename_i inner shape
      split at found
      · rename_i mark rest shape'
        split at found
        · rename_i isMark
          obtain ⟨rfl, rfl⟩ := Prod.mk.inj (Option.some.inj found)
          refine ⟨text.takeWhile isBlank, inner.takeWhile isBlank, mark, rest, ?_,
            fun c member => List.mem_takeWhile_imp member,
            fun c member => List.mem_takeWhile_imp member, isMark, rfl, rfl⟩
          rw [← shape', List.takeWhile_append_dropWhile, ← shape,
            List.takeWhile_append_dropWhile]
        · cases found
      · cases found
    · cases found
  · rintro ⟨blanks, inner, mark, rest, rfl, outerBlank, innerBlank, isMark, rfl, rfl⟩
    have outer : (blanks ++ .char '(' :: (inner ++ mark :: rest)).takeWhile isBlank = blanks :=
      takeWhile_blanks outerBlank (by decide)
    have within : (inner ++ mark :: rest).takeWhile isBlank = inner :=
      takeWhile_blanks innerBlank (isBlank_of_isQuote isMark)
    simp [argumentAfter?, outer, within, isMark]

/-- The call of a keyword at the start of a text. -/
theorem callOf?_eq_some_iff {text keyword name : Text} {paren quote : Nat} :
    callOf? text keyword = some (name, paren, quote) ↔ name = keyword ∧
      ∃ blanks inner mark rest, text = keyword ++ blanks ++ .char '(' :: (inner ++ mark :: rest) ∧
        (∀ c ∈ blanks, isBlank c = true) ∧ (∀ c ∈ inner, isBlank c = true) ∧
        isQuote mark = true ∧ paren = keyword.length + blanks.length ∧
        quote = paren + 1 + inner.length := by
  constructor
  · intro found
    unfold callOf? at found
    split at found
    · rename_i leads
      obtain ⟨after, rfl⟩ := List.isPrefixOf_iff_prefix.mp leads
      rw [List.drop_left] at found
      obtain ⟨⟨distance, further⟩, argument, parts⟩ := Option.map_eq_some_iff.mp found
      obtain ⟨rfl, rfl, rfl⟩ : keyword = name ∧ keyword.length + distance = paren ∧
        keyword.length + further = quote := by simpa using parts
      obtain ⟨blanks, inner, mark, rest, rfl, outerBlank, innerBlank, isMark, rfl, rfl⟩ :=
        argumentAfter?_eq_some_iff.mp argument
      exact ⟨rfl, blanks, inner, mark, rest, by simp, outerBlank, innerBlank, isMark, rfl,
        by omega⟩
    · cases found
  · rintro ⟨rfl, blanks, inner, mark, rest, rfl, outerBlank, innerBlank, isMark, rfl, rfl⟩
    have argument := argumentAfter?_eq_some_iff.mpr
      ⟨blanks, inner, mark, rest, rfl, outerBlank, innerBlank, isMark, rfl, rfl⟩
    rw [callOf?, List.append_assoc, if_pos (List.isPrefixOf_iff_prefix.mpr ⟨_, rfl⟩),
      List.drop_left, argument]
    simp only [Option.map_some, Option.some.injEq, Prod.mk.injEq, true_and]
    omega

/-! ## Recognised calls -/

theorem mem_insertByLength {keyword name : Text} {keywords : List Text} :
    name ∈ insertByLength keyword keywords ↔ name = keyword ∨ name ∈ keywords := by
  induction keywords with
  | nil => simp [insertByLength]
  | cons other rest ih =>
    rw [insertByLength]
    split
    · simp
    · rw [List.mem_cons, ih, List.mem_cons]
      exact or_left_comm

/-- Ordering the keywords neither adds nor drops one, if there are any. -/
theorem mem_searchOrder {name : Text} {keywords : List Text} (given : keywords ≠ []) :
    name ∈ searchOrder keywords ↔ name ∈ keywords := by
  have ordered (keywords : List Text) :
      name ∈ keywords.foldr insertByLength [] ↔ name ∈ keywords := by
    induction keywords with
    | nil => rfl
    | cons keyword rest ih => rw [List.foldr_cons, mem_insertByLength, ih, List.mem_cons]
  cases keywords with
  | nil => exact absurd rfl given
  | cons keyword rest => exact ordered (keyword :: rest)

/-- What holds of the keywords and of the empty text holds of all that is searched for. -/
theorem forall_searchOrder {holds : Text → Prop} {keywords : List Text} (empty : holds [])
    (each : ∀ name ∈ keywords, holds name) : ∀ name ∈ searchOrder keywords, holds name := by
  intro name member
  cases keywords with
  | nil =>
    obtain rfl : name = [] := List.mem_singleton.mp member
    exact empty
  | cons keyword rest => exact each name ((mem_searchOrder (List.cons_ne_nil _ _)).mp member)

/-- A name, white space, a parenthesis, white space and a quote, with the distance of the
parenthesis and the number of symbols after the first and before the quote. -/
structure Spelling (text name : Text) (paren tail : Nat) : Prop where
  parts : ∃ blanks inner mark rest,
    text = name ++ blanks ++ .char '(' :: (inner ++ mark :: rest) ∧
      (∀ c ∈ blanks, isBlank c = true) ∧ (∀ c ∈ inner, isBlank c = true) ∧
      isQuote mark = true ∧ paren = name.length + blanks.length ∧ tail = paren + inner.length

theorem Spelling.nonempty {text name : Text} {paren tail : Nat}
    (spelling : Spelling text name paren tail) : ∃ c rest, text = c :: rest := by
  obtain ⟨blanks, inner, mark, rest, rfl, -⟩ := spelling
  exact List.exists_cons_of_ne_nil (by simp)

theorem Spelling.paren_le {text name : Text} {paren tail : Nat}
    (spelling : Spelling text name paren tail) : paren ≤ tail := by
  obtain ⟨blanks, inner, mark, rest, -, -, -, -, rfl, rfl⟩ := spelling
  exact Nat.le_add_right _ _

theorem spelling_of_recognise {keywords : List Text} {previous : Option Symbol} {first : Symbol}
    {rest name : Text} {paren tail : Nat}
    (recognised : recognise keywords previous first rest = some ((name, paren), tail)) :
    continuesName previous = false ∧ name ∈ keywords ∧ Spelling (first :: rest) name paren tail := by
  unfold recognise at recognised
  split at recognised
  · cases recognised
  · rename_i fresh
    obtain ⟨⟨word, distance, quote⟩, call, same⟩ := Option.map_eq_some_iff.mp recognised
    obtain ⟨keyword, member, here⟩ := List.exists_of_findSome?_eq_some call
    obtain ⟨rfl, blanks, inner, mark, more, shape, outerBlank, innerBlank, isMark, rfl, rfl⟩ :=
      callOf?_eq_some_iff.mp here
    obtain ⟨⟨rfl, rfl⟩, rfl⟩ : (word = name ∧ word.length + blanks.length = paren) ∧
      word.length + blanks.length + 1 + inner.length - 1 = tail := by simpa using same
    exact ⟨by simpa using fresh, member, blanks, inner, mark, more, shape, outerBlank, innerBlank,
      isMark, rfl, by omega⟩

theorem exists_recognise {keywords : List Text} {previous : Option Symbol} {first : Symbol}
    {rest name : Text} {paren tail : Nat} (fresh : continuesName previous = false)
    (member : name ∈ keywords) (spelling : Spelling (first :: rest) name paren tail) :
    ∃ found, recognise keywords previous first rest = some found := by
  obtain ⟨blanks, inner, mark, more, shape, outerBlank, innerBlank, isMark, rfl, rfl⟩ := spelling
  have call := callOf?_eq_some_iff.mpr
    ⟨rfl, blanks, inner, mark, more, shape, outerBlank, innerBlank, isMark, rfl, rfl⟩
  have some : (keywords.findSome? (callOf? (first :: rest))).isSome = true :=
    List.findSome?_isSome_iff.mpr ⟨name, member, by rw [call]; rfl⟩
  obtain ⟨found, finds⟩ := Option.isSome_iff_exists.mp some
  exact ⟨_, by rw [recognise, fresh, finds]; rfl⟩

/-- A name of a call: characters of names and dots, at least one. -/
def IsCallName (name : Text) : Prop :=
  name ≠ [] ∧ ∀ c ∈ name, isNamePart c = true ∨ c = '.'

instance (name : Text) : Decidable (IsCallName name) :=
  inferInstanceAs (Decidable (_ ∧ _))

theorem callSymbols_of_searchOrder {keywords : List Text} (names : ∀ name ∈ keywords, IsCallName name) :
    ∀ name ∈ searchOrder keywords, ∀ c ∈ name, isNamePart c = true ∨ c = '.' :=
  forall_searchOrder (fun _ member => absurd member List.not_mem_nil)
    fun name member => (names name member).2

theorem isBlank_of_callSymbol {c : Symbol} (part : isNamePart c = true ∨ c = '.') :
    isBlank c = false := by
  rcases part with part | rfl
  · exact isBlank_of_isNamePart part
  · decide

theorem isPlain_of_callSymbol {c : Symbol} (part : isNamePart c = true ∨ c = '.') :
    isPlain c = true := by
  rcases part with part | rfl
  · exact isPlain_of_isNamePart part
  · decide

theorem takeWhile_name {name blanks rest : Text}
    (symbols : ∀ c ∈ name, isNamePart c = true ∨ c = '.') (blank : ∀ c ∈ blanks, isBlank c = true) :
    (name ++ blanks ++ .char '(' :: rest).takeWhile (fun c => isNamePart c || c == '.') = name := by
  have held : ∀ c ∈ name, (isNamePart c || c == '.') = true := by simpa using symbols
  rw [List.append_assoc, List.takeWhile_append_of_pos held]
  cases blanks with
  | nil =>
    rw [List.nil_append, List.takeWhile_cons_of_neg (by decide), List.append_nil]
  | cons c blanks =>
    have white := blank c List.mem_cons_self
    have apart : ¬ (isNamePart c || c == '.') = true := by
      intro part
      have solid := isBlank_of_callSymbol (by simpa using part)
      rw [white] at solid
      cases solid
    rw [List.cons_append, List.takeWhile_cons, if_neg apart, List.append_nil]

/-- A text spells a call of at most one name. -/
theorem Spelling.unique {text name name' : Text} {paren paren' tail tail' : Nat}
    (spelling : Spelling text name paren tail) (spelling' : Spelling text name' paren' tail')
    (symbols : ∀ c ∈ name, isNamePart c = true ∨ c = '.')
    (symbols' : ∀ c ∈ name', isNamePart c = true ∨ c = '.') :
    name = name' ∧ paren = paren' ∧ tail = tail' := by
  obtain ⟨blanks, inner, mark, rest, rfl, blank, blankInner, isMark, rfl, rfl⟩ := spelling
  obtain ⟨blanks', inner', mark', rest', shape, blank', blankInner', isMark', rfl, rfl⟩ := spelling'
  have sameName : name = name' := by
    rw [← takeWhile_name symbols blank, shape, takeWhile_name symbols' blank']
  subst sameName
  rw [List.append_assoc, List.append_assoc] at shape
  have after := List.append_cancel_left shape
  have sameBlanks : blanks = blanks' := by
    rw [← takeWhile_blanks blank (by decide : isBlank '(' = false), after,
      takeWhile_blanks blank' (by decide)]
  subst sameBlanks
  have after := (List.cons.inj (List.append_cancel_left after)).2
  have sameInner : inner = inner' := by
    rw [← takeWhile_blanks blankInner (isBlank_of_isQuote isMark), after,
      takeWhile_blanks blankInner' (isBlank_of_isQuote isMark')]
  exact ⟨rfl, rfl, by rw [sameInner]⟩

theorem exists_lastBefore (c : Symbol) (between : Text) :
    ∃ last ∈ c :: between, lastBefore (some c) between = some last := by
  induction between generalizing c with
  | nil => exact ⟨c, List.mem_cons_self, rfl⟩
  | cons d between ih =>
    obtain ⟨last, member, same⟩ := ih d
    exact ⟨last, List.mem_cons_of_mem _ member, same⟩

/-- Inside a call up to its quote no other call starts: the rest of a name continues it, and white
space and parentheses start none. -/
theorem separates_recognise {keywords : List Text} (names : ∀ name ∈ keywords, IsCallName name) :
    Separates (recognise keywords) := by
  rintro previous c rest ⟨name, paren⟩ tail recognised between d more rfl near
  rw [Option.eq_none_iff_forall_not_mem]
  rintro ⟨⟨other, paren'⟩, tail'⟩ again
  obtain ⟨-, member, blanks, inner, mark, after, whole, outerBlank, innerBlank, -, rfl, rfl⟩ :=
    spelling_of_recognise recognised
  obtain ⟨fresh, member', blanks', inner', mark', after', whole', -⟩ := spelling_of_recognise again
  have starts : isNamePart d = true ∨ d = '.' := by
    obtain ⟨nonempty, symbols⟩ := names other member'
    obtain ⟨e, others, rfl⟩ := List.exists_cons_of_ne_nil nonempty
    obtain ⟨rfl, -⟩ := List.cons.inj whole'
    exact symbols d List.mem_cons_self
  have notGap : d ∉ blanks ++ .char '(' :: inner := by
    have solid := isBlank_of_callSymbol starts
    intro gap
    rcases List.mem_append.mp gap with gap | gap
    · exact absurd (outerBlank d gap) (by simp [solid])
    · rcases List.mem_cons.mp gap with rfl | gap
      · exact absurd starts (by decide)
      · exact absurd (innerBlank d gap) (by simp [solid])
  have notInside : ∀ later, name ≠ (c :: between) ++ d :: later := by
    rintro later rfl
    obtain ⟨last, inName, same⟩ := exists_lastBefore c between
    have symbol := (names _ member).2 last (List.mem_append_left _ inName)
    rw [same] at fresh
    rcases symbol with symbol | rfl
    · simp [continuesName, symbol] at fresh
    · simp [continuesName] at fresh
  -- The second place lies in the name or in what follows it up to the quote.
  have cut : name ++ (blanks ++ .char '(' :: inner) ++ mark :: after =
      (c :: between) ++ d :: more := by rw [List.cons_append, whole]; simp
  obtain ⟨covered, parts, -⟩ | ⟨beyond, parts, rest⟩ := List.append_eq_append_iff.mp cut
  · have lengths := congrArg List.length parts
    simp at lengths
    omega
  · obtain ⟨e, later, rfl⟩ : ∃ e later, beyond = e :: later := by
      refine List.exists_cons_of_ne_nil ?_
      rintro rfl
      have lengths := congrArg List.length parts
      simp at lengths
      omega
    obtain ⟨rfl, -⟩ := List.cons.inj rest
    obtain ⟨part, left, right⟩ | ⟨part, left, right⟩ := List.append_eq_append_iff.mp parts
    · exact notGap (right ▸ List.mem_append_right _ List.mem_cons_self)
    · cases part with
      | nil => exact notGap (by rw [← List.nil_append (blanks ++ _), ← right]; exact List.mem_cons_self)
      | cons f part =>
        obtain ⟨rfl, -⟩ := List.cons.inj right
        exact notInside part left

/-! ## Calls in a text -/

/-- A call of one of the names in a text that is seen up to `stop`: outside literals and comments,
and not within a longer name. -/
structure StandsIn (site : CallSite) (text : Text) (names : List Text) (stop : Nat) : Prop where
  outside : insideLiteral text site.start = false
  fresh : continuesName (charBefore? text site.start) = false
  named : site.keyword ∈ names
  spelled : ∃ paren tail, Spelling (slice text site.start stop) site.keyword paren tail ∧
    site.openParen = site.start + paren

theorem StandsIn.start_le {site : CallSite} {text : Text} {names : List Text} {stop : Nat}
    (stands : site.StandsIn text names stop) : site.start ≤ site.openParen := by
  obtain ⟨paren, tail, -, place⟩ := stands.spelled
  omega

theorem StandsIn.drop_start {site : CallSite} {text : Text} {names : List Text} {stop : Nat}
    (stands : site.StandsIn text names stop) :
    ∃ blanks rest, text.drop site.start = (site.keyword ++ blanks) ++ .char '(' :: rest ∧
      (∀ c ∈ blanks, isBlank c = true) ∧
      site.openParen = site.start + (site.keyword.length + blanks.length) := by
  obtain ⟨paren, tail, ⟨blanks, inner, mark, rest, shape, blank, -, -, rfl, -⟩, place⟩ :=
    stands.spelled
  rw [slice] at shape
  have parts := List.take_append_drop (stop - site.start) (text.drop site.start)
  rw [shape] at parts
  refine ⟨blanks, inner ++ mark :: rest ++ (text.drop site.start).drop (stop - site.start), ?_, blank,
    place⟩
  rw [← List.cons_append, ← List.append_assoc]
  exact parts.symm

theorem StandsIn.drop_openParen {site : CallSite} {text : Text} {names : List Text} {stop : Nat}
    (stands : site.StandsIn text names stop) :
    ∃ rest, text.drop site.openParen = .char '(' :: rest := by
  obtain ⟨blanks, rest, whole, -, place⟩ := stands.drop_start
  exact ⟨rest, by rw [place, ← List.length_append, ← List.drop_drop, whole, List.drop_left]⟩

theorem StandsIn.mono {site : CallSite} {text : Text} {names more : List Text} {stop : Nat}
    (stands : site.StandsIn text names stop) (included : ∀ name ∈ names, name ∈ more) :
    site.StandsIn text more stop :=
  ⟨stands.outside, stands.fresh, included _ stands.named, stands.spelled⟩

theorem standsIn_of_mem_codeMatches {text : Text} {names : List Text} {start : Nat}
    {stop : Option Nat} {place : Match (Text × Nat)}
    (member : place ∈ codeMatches (recognise names) text start stop) :
    start ≤ place.offset ∧
      StandsIn ⟨place.value.1, place.offset, place.offset + place.value.2⟩ text names
        (stop.getD text.length) := by
  rw [codeMatches_eq_filter] at member
  obtain ⟨member, outside⟩ := List.mem_filter.mp member
  obtain ⟨leading, c, rest, shape, offset, recognised⟩ := mem_matchesAt member
  obtain ⟨fresh, named, spelling⟩ := spelling_of_recognise recognised
  rw [← charBefore?_add shape, ← offset] at fresh
  have here := slice_eq_append shape
  rw [← offset] at here
  rw [← here] at spelling
  exact ⟨by omega, by simpa using outside, fresh, named, _, _, spelling, rfl⟩

/-- What the search finds is a call. -/
theorem standsIn_of_next? {text : Text} {keywords : List Text} {start : Nat} {stop : Option Nat}
    {site : CallSite} (found : next? text keywords start stop = some site) :
    start ≤ site.start ∧ site.StandsIn text (searchOrder keywords) (stop.getD text.length) := by
  obtain ⟨place, head, rfl⟩ := Option.map_eq_some_iff.mp found
  exact standsIn_of_mem_codeMatches (List.mem_of_mem_head? head)

/-- Whatever call there is from an offset on, the search from there finds one that is not later. -/
theorem exists_next?_le {text : Text} {keywords : List Text} {start : Nat} {stop : Option Nat}
    {site : CallSite} (names : ∀ name ∈ keywords, IsCallName name)
    (stands : site.StandsIn text keywords (stop.getD text.length)) (after : start ≤ site.start) :
    ∃ found, next? text keywords start stop = some found ∧ found.start ≤ site.start := by
  have given : keywords ≠ [] := List.ne_nil_of_mem stands.named
  have ordered : ∀ name ∈ searchOrder keywords, IsCallName name := fun name member =>
    names name ((mem_searchOrder given).mp member)
  obtain ⟨paren, tail, spelling, -⟩ := stands.spelled
  obtain ⟨c, rest, here⟩ := spelling.nonempty
  obtain ⟨leading, shape, distance⟩ := exists_slice_append after here
  have fresh := stands.fresh
  rw [← distance, charBefore?_add shape] at fresh
  rw [here] at spelling
  obtain ⟨⟨value, count⟩, recognised⟩ := exists_recognise fresh
    ((mem_searchOrder given).mpr stands.named) spelling
  have member := mem_matchesAt_of_recognise (separates_recognise ordered) start
    (charBefore? text start) leading recognised
  rw [← shape, distance] at member
  have kept : (⟨site.start, value, count⟩ : Match (Text × Nat)) ∈
      codeMatches (recognise (searchOrder keywords)) text start stop := by
    rw [codeMatches_eq_filter]
    exact List.mem_filter.mpr ⟨member, by simpa using stands.outside⟩
  obtain ⟨first, others, all⟩ := List.exists_cons_of_ne_nil (List.ne_nil_of_mem kept)
  refine ⟨_, by rw [next?, all]; rfl, ?_⟩
  have sorted : (codeMatches (recognise (searchOrder keywords)) text start stop).Pairwise
      (·.offset < ·.offset) := (matchesAt_increasing _ _ _).filter _
  rw [all] at kept sorted
  rcases List.mem_cons.mp kept with same | later
  · exact Nat.le_of_eq (congrArg Match.offset same).symm
  · exact Nat.le_of_lt (List.rel_of_pairwise_cons sorted later)

end CallSite

namespace Source

/-- Symbols that open no literal lead from boundary to boundary. -/
theorem IsBoundary.advance_plain {text part rest : Text} {offset : Nat}
    (boundary : IsBoundary text offset) (shape : text.drop offset = part ++ rest)
    (plain : ∀ c ∈ part, isPlain c = true) : IsBoundary text (offset + part.length) := by
  induction part generalizing offset with
  | nil => exact boundary
  | cons c part ih =>
    have code := boundary.code_of_isPlain shape (plain c List.mem_cons_self)
    have tail : text.drop (offset + 1) = part ++ rest := (List.cons.inj (code.drop ▸ shape)).2
    rw [List.length_cons, show offset + (part.length + 1) = offset + 1 + part.length by omega]
    exact ih code.next.1 tail fun d member => plain d (List.mem_cons_of_mem _ member)

end Source

namespace CallSite

/-- The parenthesis of a call is a character of code, behind the start of the call. -/
theorem StandsIn.isCode_openParen {site : CallSite} {text : Text} {names : List Text} {stop : Nat}
    (stands : site.StandsIn text names stop)
    (symbols : ∀ name ∈ names, ∀ c ∈ name, isNamePart c = true ∨ c = '.') :
    IsCode text site.openParen '(' ∧ site.start + site.keyword.length ≤ site.openParen := by
  obtain ⟨blanks, more, whole, outerBlank, place⟩ := stands.drop_start
  obtain ⟨rest, here⟩ := stands.drop_openParen
  have inside : site.start < text.length := by
    by_contra beyond
    rw [List.drop_eq_nil_of_le (by omega)] at whole
    simp at whole
  obtain ⟨c, code⟩ := (insideLiteral_eq_false_iff inside).mp stands.outside
  have plain : ∀ c ∈ site.keyword ++ blanks, isPlain c = true := by
    intro c member
    rcases List.mem_append.mp member with member | member
    · exact isPlain_of_callSymbol (symbols _ stands.named c member)
    · exact isPlain_of_isBlank (outerBlank c member)
  have boundary := code.boundary.advance_plain whole plain
  rw [List.length_append, ← place] at boundary
  exact ⟨boundary.code_of_isPlain here (by decide), by omega⟩

/-- Calls that start at the same offset are the same. -/
theorem StandsIn.eq_of_start {site other : CallSite} {text : Text} {names : List Text} {stop : Nat}
    (callNames : ∀ name ∈ names, IsCallName name) (stands : site.StandsIn text names stop)
    (stands' : other.StandsIn text names stop) (same : site.start = other.start) :
    site = other := by
  obtain ⟨paren, tail, spelling, place⟩ := stands.spelled
  obtain ⟨paren', tail', spelling', place'⟩ := stands'.spelled
  rw [← same] at spelling' place'
  obtain ⟨sameName, rfl, -⟩ := spelling.unique spelling' (callNames _ stands.named).2
    (callNames _ stands'.named).2
  cases site
  cases other
  simp_all

/-- A later call starts behind the parenthesis of an earlier one. -/
theorem StandsIn.openParen_lt {site other : CallSite} {text : Text} {names : List Text} {stop : Nat}
    (callNames : ∀ name ∈ names, IsCallName name) (stands : site.StandsIn text names stop)
    (stands' : other.StandsIn text names stop) (before : site.start < other.start) :
    site.openParen < other.start := by
  by_contra within
  obtain ⟨paren, tail, spelling, place⟩ := stands.spelled
  obtain ⟨paren', tail', spelling', -⟩ := stands'.spelled
  obtain ⟨d, more, there⟩ := spelling'.nonempty
  obtain ⟨leading, shape, distance⟩ := exists_slice_append (Nat.le_of_lt before) there
  obtain ⟨c, between, rfl⟩ : ∃ c between, leading = c :: between := by
    refine List.exists_cons_of_ne_nil ?_
    rintro rfl
    exact absurd distance (Nat.ne_of_lt before)
  have fresh := stands'.fresh
  rw [← distance, charBefore?_add shape, lastBefore_cons] at fresh
  rw [there] at spelling'
  obtain ⟨_, again⟩ := exists_recognise fresh stands'.named spelling'
  rw [shape] at spelling
  obtain ⟨⟨⟨name, distance'⟩, count⟩, recognised⟩ := exists_recognise stands.fresh stands.named
    spelling
  obtain ⟨-, member, found⟩ := spelling_of_recognise recognised
  obtain ⟨-, rfl, rfl⟩ := spelling.unique found (callNames _ stands.named).2 (callNames _ member).2
  have near : between.length < tail := by
    have le := spelling.paren_le
    rw [List.length_cons] at distance
    omega
  have nothing := separates_recognise callNames _ _ _ _ _ recognised between d more rfl near
  rw [nothing] at again
  cases again

theorem isCloser_of_spelled {c : Symbol}
    (part : (isNamePart c = true ∨ c = '.') ∨ isBlank c = true ∨ c = '(' ∨ isQuote c = true) :
    isCloser c = false := by
  cases closes : isCloser c with
  | false => rfl
  | true =>
    simp only [isCloser, Bool.or_eq_true, beq_iff_eq] at closes
    rcases closes with (rfl | rfl) | rfl <;> exact absurd part (by decide)

/-- A call that starts before a closing bracket is spelled before it. -/
theorem StandsIn.upTo {site : CallSite} {text : Text} {names : List Text} {stop limit : Nat}
    {closer : Symbol} (callNames : ∀ name ∈ names, IsCallName name)
    (stands : site.StandsIn text names stop) (closes : text[limit]? = some closer)
    (isClosing : isCloser closer = true) (before : site.start ≤ limit) (within : limit < stop) :
    site.StandsIn text names limit ∧ site.openParen < limit := by
  obtain ⟨paren, tail, ⟨blanks, inner, mark, rest, shape, blank, blankInner, isMark, rfl, rfl⟩,
    place⟩ := stands.spelled
  let spelled : Text := site.keyword ++ blanks ++ .char '(' :: (inner ++ [mark])
  have whole : slice text site.start stop = spelled ++ rest := by simpa [spelled] using shape
  have parts : ∀ c ∈ spelled, isCloser c = false := by
    intro c member
    have symbols := (callNames _ stands.named).2
    simp only [spelled, List.mem_append, List.mem_cons, List.not_mem_nil, or_false] at member
    rcases member with (member | member) | rfl | member | rfl
    · exact isCloser_of_spelled (.inl (symbols c member))
    · exact isCloser_of_spelled (.inr (.inl (blank c member)))
    · decide
    · exact isCloser_of_spelled (.inr (.inl (blankInner c member)))
    · exact isCloser_of_spelled (.inr (.inr (.inr isMark)))
  have beyond : spelled.length ≤ limit - site.start := by
    by_contra short
    have here : (slice text site.start stop)[limit - site.start]? = some closer := by
      rw [slice, List.getElem?_take_of_lt (by omega), List.getElem?_drop,
        Nat.add_sub_of_le before, closes]
    rw [whole, List.getElem?_append_left (by omega)] at here
    have := parts closer (List.mem_of_getElem? here)
    rw [isClosing] at this
    cases this
  have seen : slice text site.start limit = site.keyword ++ blanks ++ .char '(' ::
      (inner ++ mark :: rest.take (limit - site.start - spelled.length)) := by
    have cut : slice text site.start limit =
        (slice text site.start stop).take (limit - site.start) := by
      rw [slice, slice, List.take_take, Nat.min_eq_left (by omega)]
    rw [cut, whole, List.take_append, List.take_of_length_le beyond]
    simp [spelled]
  have length : spelled.length = site.keyword.length + blanks.length + inner.length + 2 := by
    simp [spelled]
    omega
  exact ⟨⟨stands.outside, stands.fresh, stands.named, _, _, ⟨blanks, inner, mark, _, seen, blank,
    blankInner, isMark, rfl, rfl⟩, place⟩, by omega⟩

/-! ## Parts of a text without calls -/

/-- What is recognised as a call holds no closing parenthesis but in its name. -/
theorem closeParen_not_mem_of_recognise {names : List Text} (free : ∀ name ∈ names, .char ')' ∉ name)
    {previous : Option Symbol} {c : Symbol} {rest : Text} {value : Text × Nat} {tail : Nat}
    (recognised : recognise names previous c rest = some (value, tail)) :
    .char ')' ∉ c :: rest.take tail := by
  obtain ⟨name, paren⟩ := value
  obtain ⟨-, member, blanks, inner, mark, more, whole, blank, blankInner, -, rfl, rfl⟩ :=
    spelling_of_recognise recognised
  have covered : c :: rest.take (name.length + blanks.length + inner.length) =
      name ++ blanks ++ .char '(' :: inner := by
    rw [← List.take_succ_cons, whole, ← List.cons_append, ← List.append_assoc]
    refine List.take_left' ?_
    simp
    omega
  rw [covered]
  intro closing
  rcases List.mem_append.mp closing with early | late
  · rcases List.mem_append.mp early with inName | inBlanks
    · exact free name member inName
    · exact absurd (blank _ inBlanks) (by decide)
  · rcases List.mem_cons.mp late with same | inInner
    · exact absurd same (by decide)
    · exact absurd (blankInner _ inInner) (by decide)

/-- The search passes over a part without calls that a parenthesis closes. -/
theorem next?_past {text inner after : Text} {keywords : List Text} {start limit : Nat}
    (free : ∀ name ∈ searchOrder keywords, .char ')' ∉ name)
    (shape : slice text start limit = inner ++ .char ')' :: after)
    (empty : ∀ site : CallSite, site.StandsIn text (searchOrder keywords) limit →
      ¬ (start ≤ site.start ∧ site.start < start + inner.length)) :
    next? text keywords start (some limit) =
      next? text keywords (start + inner.length + 1) (some limit) := by
  obtain ⟨early, matched, near⟩ := matchesAt_barrier
    (fun _ _ _ _ _ recognised => closeParen_not_mem_of_recognise free recognised) start
    (charBefore? text start) inner after
  have cut : slice text start limit = (inner ++ [.char ')']) ++ after := by simp [shape]
  have rest : slice text (start + inner.length + 1) limit = after := by
    have := slice_eq_append cut
    rwa [List.length_append, ← Nat.add_assoc] at this
  have previous : charBefore? text (start + inner.length + 1) = some (.char ')') := by
    have := charBefore?_add cut
    rw [List.length_append, ← Nat.add_assoc, lastBefore_append] at this
    exact this
  have nothing : early.filter (fun place => !insideLiteral text place.offset) = [] := by
    rw [List.filter_eq_nil_iff]
    intro place member outside
    have listed : place ∈ codeMatches (recognise (searchOrder keywords)) text start (some limit) := by
      rw [codeMatches_eq_filter]
      refine List.mem_filter.mpr ⟨?_, outside⟩
      rw [Option.getD_some, shape, matched]
      exact List.mem_append_left _ member
    exact empty _ (standsIn_of_mem_codeMatches listed).2 (near place member)
  rw [next?, next?, codeMatches_eq_filter, codeMatches_eq_filter, Option.getD_some, shape, rest, previous,
    matched, List.filter_append, nothing, List.nil_append]

/-- Whether a call starts at an offset of a text that is seen up to `limit`. -/
def isCallAt (text : Text) (names : List Text) (limit offset : Nat) : Bool :=
  !insideLiteral text offset &&
    match slice text offset limit with
    | [] => false
    | c :: rest => (recognise names (charBefore? text offset) c rest).isSome

theorem isCallAt_iff {text : Text} {names : List Text} {limit offset : Nat} :
    isCallAt text names limit offset = true ↔
      ∃ site : CallSite, site.start = offset ∧ site.StandsIn text names limit := by
  constructor
  · intro call
    obtain ⟨outside, recognised⟩ := Bool.and_eq_true_iff.mp call
    cases shape : slice text offset limit with
    | nil => simp [shape] at recognised
    | cons c rest =>
      simp only [shape] at recognised
      obtain ⟨⟨⟨name, paren⟩, tail⟩, found⟩ := Option.isSome_iff_exists.mp recognised
      obtain ⟨fresh, named, spelling⟩ := spelling_of_recognise found
      rw [← shape] at spelling
      exact ⟨⟨name, offset, offset + paren⟩, rfl, by simpa using outside, fresh, named, _, _,
        spelling, rfl⟩
  · rintro ⟨site, rfl, stands⟩
    obtain ⟨paren, tail, spelling, -⟩ := stands.spelled
    obtain ⟨c, rest, shape⟩ := spelling.nonempty
    rw [shape] at spelling
    obtain ⟨found, recognised⟩ := exists_recognise stands.fresh stands.named spelling
    simp [isCallAt, stands.outside, shape, recognised]

end CallSite

end SuiteDocs
