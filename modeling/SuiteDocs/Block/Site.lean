import SuiteDocs.Source.Match

/-!
Calls that declare suites and tests, recognised by their name and a quoted first argument.
-/

set_option autoImplicit false

namespace SuiteDocs

open SuiteDocs.Text SuiteDocs.Source

/-- The calls that declare a suite unless others are configured. -/
def defaultSuiteCalls : List Text :=
  ["test.describe", "test.describe.only", "test.describe.serial", "test.describe.parallel",
    "test.describe.skip", "test.describe.fixme"]

/-- The calls that declare a test unless others are configured. -/
def defaultTestCalls : List Text :=
  ["test", "test.only", "test.skip", "test.fixme", "test.fail"]

/-- A declaring call: its name and the offsets of the name and of the opening parenthesis. -/
structure CallSite where
  keyword : Text
  start : Nat
  openParen : Nat
  deriving DecidableEq, Repr

namespace CallSite

/-- The number of characters up to the opening parenthesis, and up to the quote behind it, of a
text that goes on with white space, a parenthesis, white space and a quote. -/
def argumentAfter? (text : Text) : Option (Nat × Nat) :=
  let blanks := (text.takeWhile isBlank).length
  match text.drop blanks with
  | .char '(' :: inner =>
    let innerBlanks := (inner.takeWhile isBlank).length
    match inner.drop innerBlanks with
    | quote :: _ => if isQuote quote then some (blanks, blanks + 1 + innerBlanks) else none
    | [] => none
  | _ => none

/-- A call of one keyword at the start of a text: the keyword, the distance of the parenthesis and
that of the quote. -/
def callOf? (text keyword : Text) : Option (Text × Nat × Nat) :=
  if keyword.isPrefixOf text then
    (argumentAfter? (text.drop keyword.length)).map fun (paren, quote) =>
      (keyword, keyword.length + paren, keyword.length + quote)
  else none

/-- A name that goes on here from the character before is not a call of its own. -/
def continuesName (previous : Option Symbol) : Bool :=
  previous.any fun c => isNamePart c || c == '.'

/-- Recognises a call of one of the keywords, the first that fits. -/
def recognise (keywords : List Text) : Recogniser (Text × Nat) :=
  fun previous first rest =>
    if continuesName previous then none
    else (keywords.findSome? (callOf? (first :: rest))).map fun (keyword, paren, quote) =>
      ((keyword, paren), quote - 1)

/-- Puts a keyword before the first one that is not longer. -/
def insertByLength (keyword : Text) : List Text → List Text
  | [] => [keyword]
  | other :: rest =>
    if other.length ≤ keyword.length then keyword :: other :: rest
    else other :: insertByLength keyword rest

/-- The keywords in the order in which they are tried: longer ones first, equally long ones as they
are given, and the empty one if there is none. -/
def searchOrder (keywords : List Text) : List Text :=
  match keywords with
  | [] => [[]]
  | keywords => keywords.foldr insertByLength []

/-- The first declaring call at or after an offset. -/
def next? (text : Text) (keywords : List Text) (start : Nat) (stop : Option Nat) :
    Option CallSite :=
  (codeMatches (recognise (searchOrder keywords)) text start stop).head?.map fun place =>
    { keyword := place.value.1
      start := place.offset
      openParen := place.offset + place.value.2 }

theorem argumentAfter?_lt {text : Text} {paren quote : Nat}
    (found : argumentAfter? text = some (paren, quote)) : paren < text.length := by
  unfold argumentAfter? at found
  simp only at found
  split at found
  · rename_i inner shape
    have bound : (text.takeWhile isBlank).length < text.length := by
      have := congrArg List.length shape
      simp at this
      omega
    split at found
    · split at found <;> simp_all
    · simp at found
  · simp at found

theorem recognise_paren_lt {keywords : List Text} {previous : Option Symbol} {first : Symbol}
    {rest keyword : Text} {paren tail : Nat}
    (found : recognise keywords previous first rest = some ((keyword, paren), tail)) :
    paren < rest.length + 1 := by
  unfold recognise at found
  split at found
  · simp at found
  · obtain ⟨⟨word, distance, quote⟩, call, same⟩ := Option.map_eq_some_iff.mp found
    obtain ⟨keyword, member, here⟩ := List.exists_of_findSome?_eq_some call
    unfold callOf? at here
    split at here
    · obtain ⟨⟨offset, after⟩, argument, parts⟩ := Option.map_eq_some_iff.mp here
      have bound := argumentAfter?_lt argument
      simp at bound parts same
      omega
    · simp at here

/-- The next call starts at or after the offset from which it is searched, and its parenthesis is
a character of the text. -/
theorem next?_bounds {text : Text} {keywords : List Text} {start : Nat}
    {stop : Option Nat} {site : CallSite} (found : next? text keywords start stop = some site) :
    start ≤ site.start ∧ site.start ≤ site.openParen ∧ site.openParen < text.length := by
  obtain ⟨place, head, rfl⟩ := Option.map_eq_some_iff.mp found
  have member := List.mem_of_mem_head? head
  unfold codeMatches at member
  have member := (List.mem_filter.mp member).1
  obtain ⟨skipped, before, c, rest, offset, shape, recognised⟩ :=
    recognise_of_mem_matchesAt member
  have bound : place.value.2 < rest.length + 1 := recognise_paren_lt recognised
  have room : skipped + rest.length + 1 ≤ text.length - start := by
    have := congrArg List.length shape
    simp [slice] at this
    omega
  simp only
  omega

end CallSite

end SuiteDocs
