import SuiteDocs.Proofs.Scan
import SuiteDocs.Source.Bracket

/-!
Well nested brackets.

The closing bracket of an opening one is sought by counting brackets of its own kind alone. Where
the brackets of all three kinds are well nested, that count is right: what it encloses is well
nested again, so that of two bracketed passages one lies inside the other or they are apart.
-/

set_option autoImplicit false

namespace SuiteDocs.Source

/-- The closing brackets that are expected after a symbol, innermost first; none if the symbol
closes what is not open. -/
def expectAfter (expected : List Symbol) (c : Symbol) : Option (List Symbol) :=
  match closerOf? c with
  | some closer => some (closer :: expected)
  | none =>
    if isCloser c then
      match expected with
      | [] => none
      | innermost :: others => if c = innermost then some others else none
    else some expected

/-- The closing brackets that are expected after a word. -/
def nestAfter (expected : List Symbol) (word : List Symbol) : Option (List Symbol) :=
  word.foldlM expectAfter expected

/-- Every bracket of the word is closed by one of its own kind, after those opened inside it. -/
def WellNested (word : List Symbol) : Prop :=
  nestAfter [] word = some []

instance (word : List Symbol) : Decidable (WellNested word) :=
  inferInstanceAs (Decidable (nestAfter [] word = some []))

@[simp] theorem nestAfter_nil (expected : List Symbol) : nestAfter expected [] = some expected := rfl

theorem nestAfter_cons (expected : List Symbol) (c : Symbol) (word : List Symbol) :
    nestAfter expected (c :: word) =
      (expectAfter expected c).bind fun next => nestAfter next word :=
  List.foldlM_cons ..

theorem nestAfter_append (expected left right : List Symbol) :
    nestAfter expected (left ++ right) =
      (nestAfter expected left).bind fun next => nestAfter next right :=
  List.foldlM_append ..

theorem closerOf?_cases {opener closer : Symbol} (pair : closerOf? opener = some closer) :
    (opener = '{' ∧ closer = '}') ∨ (opener = '(' ∧ closer = ')') ∨
      (opener = '[' ∧ closer = ']') := by
  unfold closerOf? at pair
  split at pair
  · exact .inl ⟨rfl, (Option.some.inj pair).symm⟩
  · exact .inr (.inl ⟨rfl, (Option.some.inj pair).symm⟩)
  · exact .inr (.inr ⟨rfl, (Option.some.inj pair).symm⟩)
  · cases pair

theorem isCloser_of_pair {opener closer : Symbol} (pair : closerOf? opener = some closer) :
    isCloser closer = true := by
  rcases closerOf?_cases pair with ⟨-, rfl⟩ | ⟨-, rfl⟩ | ⟨-, rfl⟩ <;> rfl

theorem closerOf?_closer {opener closer : Symbol} (pair : closerOf? opener = some closer) :
    closerOf? closer = none := by
  rcases closerOf?_cases pair with ⟨-, rfl⟩ | ⟨-, rfl⟩ | ⟨-, rfl⟩ <;> rfl

theorem ne_opener_of_closerOf? {opener closer c : Symbol} (pair : closerOf? opener = some closer)
    (opensNot : closerOf? c = none) : c ≠ opener := by
  rintro rfl
  rw [pair] at opensNot
  cases opensNot

theorem opener_eq_of_pair {opener other closer : Symbol} (pair : closerOf? opener = some closer)
    (same : closerOf? other = some closer) : other = opener := by
  rcases closerOf?_cases pair with ⟨rfl, rfl⟩ | ⟨rfl, rfl⟩ | ⟨rfl, rfl⟩ <;>
    rcases closerOf?_cases same with ⟨rfl, shape⟩ | ⟨rfl, shape⟩ | ⟨rfl, shape⟩ <;>
    first | rfl | cases shape

theorem expectAfter_opener {opener closer : Symbol} (pair : closerOf? opener = some closer)
    (expected : List Symbol) : expectAfter expected opener = some (closer :: expected) := by
  simp only [expectAfter, pair]

/-- What a symbol can do: it opens a bracket, closes the innermost one that is open, or does neither. -/
theorem expectAfter_eq_some_iff {expected next : List Symbol} {c : Symbol} :
    expectAfter expected c = some next ↔
      (∃ closer, closerOf? c = some closer ∧ closer :: expected = next) ∨
      (closerOf? c = none ∧ isCloser c = true ∧ expected = c :: next) ∨
      (closerOf? c = none ∧ isCloser c = false ∧ expected = next) := by
  unfold expectAfter
  cases opens : closerOf? c with
  | some closer => simp
  | none =>
    cases closes : isCloser c with
    | false => simp
    | true =>
      cases expected with
      | nil => simp
      | cons innermost others => simp [eq_comm]

/-- Brackets that stay open outside a word do not matter to what it does inside them. -/
theorem expectAfter_frame {expected next : List Symbol} {c : Symbol}
    (expects : expectAfter expected c = some next) (outer : List Symbol) :
    expectAfter (expected ++ outer) c = some (next ++ outer) := by
  rw [expectAfter_eq_some_iff] at expects ⊢
  obtain ⟨closer, opens, rfl⟩ | ⟨opensNot, closes, rfl⟩ | ⟨opensNot, closesNot, rfl⟩ := expects
  · exact .inl ⟨closer, opens, rfl⟩
  · exact .inr (.inl ⟨opensNot, closes, rfl⟩)
  · exact .inr (.inr ⟨opensNot, closesNot, rfl⟩)

theorem nestAfter_frame {expected final : List Symbol} {word : List Symbol}
    (nested : nestAfter expected word = some final) (outer : List Symbol) :
    nestAfter (expected ++ outer) word = some (final ++ outer) := by
  induction word generalizing expected with
  | nil =>
    obtain rfl := Option.some.inj nested
    rfl
  | cons c word ih =>
    rw [nestAfter_cons] at nested ⊢
    obtain ⟨next, expects, nested⟩ := Option.bind_eq_some_iff.mp nested
    rw [expectAfter_frame expects outer]
    exact ih nested

theorem expectAfter_closer {opener closer : Symbol} (pair : closerOf? opener = some closer)
    (expected : List Symbol) : expectAfter (closer :: expected) closer = some expected := by
  simp [expectAfter, closerOf?_closer pair, isCloser_of_pair pair]

/-- The characters of code among the pieces. -/
def codeOf (scanned : List Piece) : List Symbol :=
  scanned.filterMap fun
    | .code c => some c
    | .literal _ _ => none

@[simp] theorem codeOf_nil : codeOf [] = [] := rfl

@[simp] theorem codeOf_code (c : Symbol) (rest : List Piece) :
    codeOf (.code c :: rest) = c :: codeOf rest := rfl

@[simp] theorem codeOf_literal (first : Symbol) (inner : Text) (rest : List Piece) :
    codeOf (.literal first inner :: rest) = codeOf rest := rfl

@[simp] theorem codeOf_append (leading following : List Piece) :
    codeOf (leading ++ following) = codeOf leading ++ codeOf following :=
  List.filterMap_append

theorem map_char_codeAt (offset depth : Nat) (scanned : List Piece) :
    (codeAt offset depth scanned).map (·.char) = codeOf scanned := by
  induction scanned generalizing offset depth with
  | nil => rfl
  | cons piece rest ih =>
    cases piece with
    | literal first inner => rw [codeAt, ih, codeOf_literal]
    | code c =>
      rw [codeAt, codeOf_code]
      split
      · rw [List.map_cons, ih]
      · split <;> rw [List.map_cons, ih]

/-- The brackets in the code of a text are well nested. -/
def HasNestedCode (text : Text) : Prop :=
  WellNested ((codeBetween text 0 none).map (·.char))

instance (text : Text) : Decidable (HasNestedCode text) :=
  inferInstanceAs (Decidable (WellNested _))

theorem hasNestedCode_iff {text : Text} :
    HasNestedCode text ↔ nestAfter [] (codeOf (pieces [] text)) = some [] := by
  have all : codeBetween text 0 none = codeAt 0 0 (pieces [] text) :=
    List.takeWhile_eq_self_iff.mpr fun _ _ => rfl
  rw [HasNestedCode, WellNested, all, map_char_codeAt]

/-! ## The closing bracket -/

@[simp] theorem closeOffset?_literal (opener closer first : Symbol) (contents : Text)
    (nested offset : Nat) (rest : List Piece) :
    closeOffset? opener closer nested offset (.literal first contents :: rest) =
      closeOffset? opener closer nested (offset + contents.length + 1) rest := by
  simp [closeOffset?]

@[simp] theorem closeOffset?_opener (opener closer : Symbol) (nested offset : Nat)
    (rest : List Piece) :
    closeOffset? opener closer nested offset (.code opener :: rest) =
      closeOffset? opener closer (nested + 1) (offset + 1) rest := by
  simp [closeOffset?]

theorem closeOffset?_closer {opener closer : Symbol} (different : closer ≠ opener) (offset : Nat)
    (rest : List Piece) :
    closeOffset? opener closer 0 offset (.code closer :: rest) = some offset := by
  simp [closeOffset?, different]

theorem closeOffset?_inner_closer {opener closer : Symbol} (different : closer ≠ opener)
    (nested offset : Nat) (rest : List Piece) :
    closeOffset? opener closer (nested + 1) offset (.code closer :: rest) =
      closeOffset? opener closer nested (offset + 1) rest := by
  simp [closeOffset?, different]

theorem closeOffset?_other {opener closer c : Symbol} (notOpener : c ≠ opener)
    (notCloser : c ≠ closer) (nested offset : Nat) (rest : List Piece) :
    closeOffset? opener closer nested offset (.code c :: rest) =
      closeOffset? opener closer nested (offset + 1) rest := by
  simp [closeOffset?, notOpener, notCloser]

/-- One step of the nesting inside a bracket and one of the count of its kind. The step closes that
bracket, or both go on inside it: of the brackets of its kind, those in `inner` and one more are open. -/
theorem closeOffset?_step {opener closer c : Symbol} (pair : closerOf? opener = some closer)
    {inner outer next : List Symbol}
    (expects : expectAfter (inner ++ closer :: outer) c = some next) :
    (inner = [] ∧ c = closer ∧ next = outer) ∨
      ∃ later, expectAfter inner c = some later ∧ next = later ++ closer :: outer ∧
        ∀ offset rest, closeOffset? opener closer (inner.count closer) offset (.code c :: rest) =
          closeOffset? opener closer (later.count closer) (offset + 1) rest := by
  rcases expectAfter_eq_some_iff.mp expects with
    ⟨other, opens, rfl⟩ | ⟨opensNot, closes, shape⟩ | ⟨opensNot, closesNot, rfl⟩
  · have notCloser : c ≠ closer := by
      rintro rfl
      rw [closerOf?_closer pair] at opens
      cases opens
    refine .inr ⟨other :: inner, expectAfter_opener opens inner, rfl, fun offset rest => ?_⟩
    by_cases same : c = opener
    · subst same
      obtain rfl : other = closer := Option.some.inj (opens.symm.trans pair)
      rw [closeOffset?_opener, List.count_cons_self]
    · have different : other ≠ closer := by
        rintro rfl
        exact same (opener_eq_of_pair pair opens)
      rw [closeOffset?_other same notCloser, List.count_cons_of_ne different]
  · have notOpener := ne_opener_of_closerOf? pair opensNot
    cases inner with
    | nil =>
      obtain ⟨same, rest⟩ := List.cons.inj shape
      exact .inl ⟨rfl, same.symm, rest.symm⟩
    | cons innermost inner =>
      obtain ⟨rfl, rfl⟩ := List.cons.inj shape
      refine .inr ⟨inner, expectAfter_eq_some_iff.mpr (.inr (.inl ⟨opensNot, closes, rfl⟩)), rfl,
        fun offset rest => ?_⟩
      by_cases kind : innermost = closer
      · subst kind
        rw [List.count_cons_self, closeOffset?_inner_closer notOpener]
      · rw [List.count_cons_of_ne kind, closeOffset?_other notOpener kind]
  · have notOpener := ne_opener_of_closerOf? pair opensNot
    have notCloser : c ≠ closer := by
      rintro rfl
      rw [isCloser_of_pair pair] at closesNot
      cases closesNot
    exact .inr ⟨inner, expectAfter_eq_some_iff.mpr (.inr (.inr ⟨opensNot, closesNot, rfl⟩)), rfl,
      closeOffset?_other notOpener notCloser _⟩

/-- In well nested pieces that close more than `inner`, the count of one kind of bracket stops where
the nesting does. -/
theorem closeOffset?_of_nest {opener closer : Symbol} (pair : closerOf? opener = some closer)
    {inner outer final : List Symbol} {scanned : List Piece} (offset : Nat)
    (nested : nestAfter (inner ++ closer :: outer) (codeOf scanned) = some final)
    (short : final.length ≤ outer.length) :
    ∃ leading following, scanned = leading ++ .code closer :: following ∧
      closeOffset? opener closer (inner.count closer) offset scanned =
        some (offset + (textOf leading).length) ∧
      nestAfter inner (codeOf leading) = some [] ∧
      nestAfter outer (codeOf following) = some final := by
  induction scanned generalizing inner offset with
  | nil =>
    have same := Option.some.inj nested
    rw [← same, List.length_append, List.length_cons] at short
    omega
  | cons piece rest ih =>
    cases piece with
    | literal first contents =>
      obtain ⟨leading, following, rfl, found, before, after⟩ :=
        ih (offset + contents.length + 1) nested
      refine ⟨.literal first contents :: leading, following, rfl, ?_, before, after⟩
      rw [closeOffset?_literal, found, textOf_literal, List.length_append, List.length_cons]
      congr 1
      omega
    | code c =>
      rw [codeOf_code, nestAfter_cons] at nested
      obtain ⟨next, expects, goesOn⟩ := Option.bind_eq_some_iff.mp nested
      rcases closeOffset?_step pair expects with ⟨rfl, rfl, rfl⟩ | ⟨later, inside, rfl, counts⟩
      · have different := ne_opener_of_closerOf? pair (closerOf?_closer pair)
        exact ⟨[], rest, rfl, closeOffset?_closer different offset rest, rfl, goesOn⟩
      · obtain ⟨leading, following, rfl, found, before, after⟩ := ih (offset + 1) goesOn
        refine ⟨.code c :: leading, following, rfl, ?_, ?_, after⟩
        · rw [counts, found, textOf_code, List.length_cons]
          congr 1
          omega
        · rw [codeOf_code, nestAfter_cons, inside]
          exact before

/-- In well nested pieces that close the bracket just opened, and all outside it, the count finds
its closing bracket behind well nested pieces. -/
theorem closeOffset?_of_opened {opener closer : Symbol} (pair : closerOf? opener = some closer)
    {outer : List Symbol} {scanned : List Piece} (offset : Nat)
    (nested : nestAfter (closer :: outer) (codeOf scanned) = some []) :
    ∃ leading following, scanned = leading ++ .code closer :: following ∧
      closeOffset? opener closer 0 offset scanned = some (offset + (textOf leading).length) ∧
      nestAfter [] (codeOf leading) = some [] := by
  have opened : nestAfter ([] ++ closer :: outer) (codeOf scanned) = some [] := nested
  obtain ⟨leading, following, cut, counted, enclosed, -⟩ :=
    closeOffset?_of_nest pair offset opened (Nat.zero_le _)
  exact ⟨leading, following, cut, counted, enclosed⟩

/-- The count stops at a closing bracket of the kind that it counts. -/
theorem exists_cut_of_closeOffset? {opener closer : Symbol} {nested offset stop : Nat}
    {scanned : List Piece} (found : closeOffset? opener closer nested offset scanned = some stop) :
    ∃ leading following, scanned = leading ++ .code closer :: following ∧
      stop = offset + (textOf leading).length := by
  fun_induction closeOffset? opener closer nested offset scanned with
  | case1 => cases found
  | case2 nested offset first inner rest ih =>
    obtain ⟨leading, following, rfl, rfl⟩ := ih found
    refine ⟨.literal first inner :: leading, following, rfl, ?_⟩
    rw [length_textOf_cons, Piece.length_literal]
    omega
  | case3 nested offset c rest same ih =>
    obtain ⟨leading, following, rfl, rfl⟩ := ih found
    refine ⟨.code c :: leading, following, rfl, ?_⟩
    rw [length_textOf_cons, Piece.length_code]
    omega
  | case4 offset c rest notOpener same =>
    obtain rfl := Option.some.inj found
    exact ⟨[], rest, by rw [beq_iff_eq.mp same]; rfl, rfl⟩
  | case5 offset c rest notOpener same nested ih =>
    obtain ⟨leading, following, rfl, rfl⟩ := ih found
    refine ⟨.code c :: leading, following, rfl, ?_⟩
    rw [length_textOf_cons, Piece.length_code]
    omega
  | case6 nested offset c rest notOpener notCloser ih =>
    obtain ⟨leading, following, rfl, rfl⟩ := ih found
    refine ⟨.code c :: leading, following, rfl, ?_⟩
    rw [length_textOf_cons, Piece.length_code]
    omega

theorem closeOffset?_append {opener closer : Symbol} {nested offset stop : Nat}
    {scanned : List Piece} (found : closeOffset? opener closer nested offset scanned = some stop)
    (following : List Piece) :
    closeOffset? opener closer nested offset (scanned ++ following) = some stop := by
  fun_induction closeOffset? opener closer nested offset scanned with
  | case1 => cases found
  | case2 nested offset first inner rest ih => simpa [closeOffset?] using ih found
  | case3 nested offset c rest same ih => simpa [closeOffset?, same] using ih found
  | case4 offset c rest notOpener same => simpa [closeOffset?, notOpener, same] using found
  | case5 offset c rest notOpener same nested ih =>
    simpa [closeOffset?, notOpener, same] using ih found
  | case6 nested offset c rest notOpener notCloser ih =>
    simpa [closeOffset?, notOpener, notCloser] using ih found

/-- Behind well nested pieces the count finds the bracket that closes around them. -/
theorem closeOffset?_of_enclosed {opener closer : Symbol} (pair : closerOf? opener = some closer)
    {inner : List Piece} (nested : WellNested (codeOf inner)) (offset : Nat)
    (following : List Piece) :
    closeOffset? opener closer 0 offset (inner ++ .code closer :: following) =
      some (offset + (textOf inner).length) := by
  have opened : nestAfter [closer] (codeOf (inner ++ [.code closer])) = some [] := by
    have framed : nestAfter [closer] (codeOf inner) = some [closer] :=
      nestAfter_frame nested [closer]
    rw [codeOf_append, nestAfter_append, framed, codeOf_code, Option.bind_some, nestAfter_cons,
      expectAfter_closer pair]
    rfl
  obtain ⟨leading, rest, cut, counted, enclosed⟩ := closeOffset?_of_opened pair offset opened
  -- Had the count stopped earlier, the pieces would close more than they open.
  have whole : inner = leading := by
    rcases List.append_eq_append_iff.mp cut with ⟨between, same, tail⟩ | ⟨between, same, tail⟩
    · cases between with
      | nil => simpa using same.symm
      | cons piece between => simp at tail
    · cases between with
      | nil => simpa using same
      | cons piece between =>
        obtain ⟨rfl, -⟩ := List.cons.inj tail
        rw [WellNested, same, codeOf_append, nestAfter_append, enclosed, codeOf_code,
          Option.bind_some, nestAfter_cons] at nested
        simp [expectAfter, closerOf?_closer pair, isCloser_of_pair pair] at nested
  subst whole
  have longer := closeOffset?_append counted following
  rwa [List.append_assoc] at longer

/-- The search for the closing bracket of a character of code. -/
theorem matchingClose_eq {text : Text} {start : Nat} {opener closer : Symbol}
    (code : IsCode text start opener) (pair : closerOf? opener = some closer) :
    matchingClose text start =
      match closeOffset? opener closer 0 (start + 1) (piecesFrom text (start + 1)) with
      | none => .error (.unclosedBracket opener closer start)
      | some stop => .ok stop := by
  cases closed : closeOffset? opener closer 0 (start + 1) (piecesFrom text (start + 1)) with
  | none => simp [matchingClose, code.drop, pair, closed]
  | some stop => simp [matchingClose, code.drop, pair, closed]

theorem closeOffset?_of_matchingClose {text : Text} {start close : Nat} {opener closer : Symbol}
    (code : IsCode text start opener) (pair : closerOf? opener = some closer)
    (found : matchingClose text start = .ok close) :
    closeOffset? opener closer 0 (start + 1) (piecesFrom text (start + 1)) = some close := by
  rw [matchingClose_eq code pair] at found
  split at found
  · cases found
  · rename_i stop counted
    rw [counted, Except.ok.inj found]

/-- The search passes whole pieces up to the closing bracket, also where the opening one is not code. -/
theorem exists_scan_of_matchingClose {text : Text} {start close : Nat}
    (found : matchingClose text start = .ok close) :
    ∃ opener closer leading following, text[start]? = some opener ∧ closerOf? opener = some closer ∧
      piecesFrom text (start + 1) = leading ++ .code closer :: following ∧
      close = start + 1 + (textOf leading).length := by
  unfold matchingClose at found
  cases shape : text.drop start with
  | nil => simp [shape] at found
  | cons opener rest =>
    simp only [shape] at found
    cases pair : closerOf? opener with
    | none => simp [pair] at found
    | some closer =>
      simp only [pair] at found
      cases counted : closeOffset? opener closer 0 (start + 1) (piecesFrom text (start + 1)) with
      | none => simp [counted] at found
      | some stop =>
        simp only [counted] at found
        obtain rfl := Except.ok.inj found
        obtain ⟨leading, following, scan, place⟩ := exists_cut_of_closeOffset? counted
        refine ⟨opener, closer, leading, following, ?_, pair, scan, place⟩
        rw [← List.head?_drop, shape, List.head?_cons]

theorem exists_of_matchingClose {text rest : Text} {start close : Nat} {opener closer : Symbol}
    (shape : text.drop start = opener :: rest) (pair : closerOf? opener = some closer)
    (found : matchingClose text start = .ok close) :
    ∃ inner after, text.drop (start + 1) = inner ++ closer :: after ∧
      close = start + 1 + inner.length := by
  obtain ⟨opener', closer', leading, following, stands, pair', scan, place⟩ :=
    exists_scan_of_matchingClose found
  rw [← List.head?_drop, shape, List.head?_cons] at stands
  obtain rfl := Option.some.inj stands
  obtain rfl := Option.some.inj (pair.symm.trans pair')
  refine ⟨textOf leading, textOf following, ?_, place⟩
  rw [← textOf_piecesFrom, scan, textOf_append, textOf_code]

/-- The bracket that closes a character of code is a character of code. -/
theorem matchingClose_isCode {text : Text} {start close : Nat} {opener closer : Symbol}
    (code : IsCode text start opener) (pair : closerOf? opener = some closer)
    (found : matchingClose text start = .ok close) : IsCode text close closer := by
  obtain ⟨leading, following, scan, place⟩ :=
    exists_cut_of_closeOffset? (closeOffset?_of_matchingClose code pair found)
  obtain ⟨boundary, rest⟩ := code.next.1.advance scan
  rw [← place] at boundary rest
  exact ⟨boundary, following, rest⟩

/-- What a bracket and its closing one enclose in a well nested text is well nested. -/
theorem nested_of_matchingClose {text : Text} (nested : HasNestedCode text) {start close : Nat}
    {opener closer : Symbol} (code : IsCode text start opener)
    (pair : closerOf? opener = some closer) (found : matchingClose text start = .ok close) :
    ∃ inner, piecesFrom text (start + 1) = inner ++ piecesFrom text close ∧
      close = start + 1 + (textOf inner).length ∧ nestAfter [] (codeOf inner) = some [] := by
  obtain ⟨leading, scan, -⟩ := code.boundary.scan
  rw [hasNestedCode_iff, scan, code.next.2, codeOf_append, codeOf_code, nestAfter_append] at nested
  obtain ⟨outer, -, nested⟩ := Option.bind_eq_some_iff.mp nested
  rw [nestAfter_cons, expectAfter_opener pair] at nested
  obtain ⟨inner, following, cut, counted, enclosed⟩ :=
    closeOffset?_of_opened pair (start + 1) nested
  have place := (closeOffset?_of_matchingClose code pair found).symm.trans counted
  have rest := (code.next.1.advance cut).2
  obtain rfl := Option.some.inj place
  exact ⟨inner, by rw [rest, cut], rfl, enclosed⟩

/-- In a well nested text a bracket inside another pair is closed inside it. -/
theorem matchingClose_inside {text : Text} (nested : HasNestedCode text)
    {start close start' close' : Nat} {opener closer opener' closer' : Symbol}
    (code : IsCode text start opener) (pair : closerOf? opener = some closer)
    (found : matchingClose text start = .ok close)
    (code' : IsCode text start' opener') (pair' : closerOf? opener' = some closer')
    (found' : matchingClose text start' = .ok close')
    (after : start < start') (before : start' < close) : close' < close := by
  obtain ⟨inner, scan, place, enclosed⟩ := nested_of_matchingClose nested code pair found
  obtain ⟨leading, scan', place'⟩ := code.next.1.between code'.boundary after
  have inside : IsBoundary text close := (matchingClose_isCode code pair found).boundary
  obtain ⟨following, rest, span⟩ := code'.boundary.between inside (Nat.le_of_lt before)
  -- The enclosed pieces are those up to the inner bracket and those from it on.
  have parts : inner = leading ++ following := by
    rw [scan', rest, ← List.append_assoc] at scan
    exact (List.append_cancel_right scan).symm
  have shape : following ≠ [] := by
    rintro rfl
    simp at span
    omega
  obtain ⟨piece, following, rfl⟩ := List.exists_cons_of_ne_nil shape
  rw [code'.next.2, List.cons_append] at rest
  obtain ⟨rfl, tail⟩ := List.cons.inj rest
  rw [parts, codeOf_append, codeOf_code, nestAfter_append] at enclosed
  obtain ⟨outer, -, enclosed⟩ := Option.bind_eq_some_iff.mp enclosed
  rw [nestAfter_cons, expectAfter_opener pair'] at enclosed
  obtain ⟨within, beyond, cut, counted, -⟩ := closeOffset?_of_opened pair' (start' + 1) enclosed
  have same := closeOffset?_of_matchingClose code' pair' found'
  rw [tail, closeOffset?_append counted] at same
  obtain rfl := Option.some.inj same
  rw [length_textOf_cons, cut, textOf_append, List.length_append, length_textOf_cons] at span
  simp only [Piece.length_code] at span
  omega

end SuiteDocs.Source
