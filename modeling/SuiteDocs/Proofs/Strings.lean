import Mathlib.Data.List.DropRight
import SuiteDocs.Source.Field

/-!
Strings as they are written in a source.

A string is written between quotes of one kind, with a backslash before every quote of that kind and
every backslash in it. Whatever it holds, reading stops at its closing quote and gives its contents
back.
-/

set_option autoImplicit false

namespace SuiteDocs.Source

open SuiteDocs.Text

/-- The kinds of quotes. -/
inductive Quote where
  | single
  | double
  | backtick
  deriving DecidableEq, Repr

/-- The symbol of a quote. -/
def Quote.symbol : Quote → Symbol
  | .single => '\''
  | .double => '"'
  | .backtick => '`'

theorem Quote.isQuote_symbol (quote : Quote) : isQuote quote.symbol = true := by
  cases quote <;> decide

theorem Quote.isBlank_symbol (quote : Quote) : isBlank quote.symbol = false := by
  cases quote <;> decide

theorem Quote.symbol_ne_backslash (quote : Quote) : quote.symbol ≠ .char '\\' := by
  cases quote <;> decide

/-- A text with a backslash before every backslash and every quote of one kind. -/
def escape (quote : Symbol) (contents : Text) : Text :=
  contents.flatMap fun (c : Symbol) =>
    if c = .char '\\' ∨ c = quote then [.char '\\', c] else [c]

/-- A string and the quotes around it. Only backticks may stand around a line break. -/
structure StringLiteral where
  quote : Quote
  contents : Text
  fits : quote = .backtick ∨ .char '\n' ∉ contents

namespace StringLiteral

/-- What is written after the opening quote. -/
def tail (string : StringLiteral) : Text :=
  escape string.quote.symbol string.contents ++ [string.quote.symbol]

/-- The string as it is written. -/
def text (string : StringLiteral) : Text :=
  string.quote.symbol :: string.tail

/-- Any text as a string. -/
def ofContents (contents : Text) : StringLiteral :=
  ⟨.backtick, contents, .inl rfl⟩

end StringLiteral

/-! ## The end of a string -/

theorem stringEnd_escaped (quote c : Symbol) (rest : Text) :
    stringEnd quote (.char '\\' :: c :: rest) = (stringEnd quote rest).after 2 := by
  simp [stringEnd]

theorem stringEnd_quote {quote : Symbol} (plain : quote ≠ .char '\\') (rest : Text) :
    stringEnd quote (quote :: rest) = ⟨1, true⟩ := by
  simp [stringEnd, plain]

theorem stringEnd_other {quote c : Symbol} (plain : c ≠ .char '\\') (inner : c ≠ quote)
    (fits : quote = .char '`' ∨ c ≠ .char '\n') (rest : Text) :
    stringEnd quote (c :: rest) = (stringEnd quote rest).after 1 := by
  rcases fits with rfl | sameLine
  · simp [stringEnd, plain, inner]
  · simp [stringEnd, plain, inner, sameLine]

/-- A written string ends at its closing quote, whatever follows. -/
theorem stringEnd_escape {quote : Symbol} (plain : quote ≠ .char '\\') {contents : Text}
    (fits : quote = .char '`' ∨ .char '\n' ∉ contents) (rest : Text) :
    stringEnd quote (escape quote contents ++ quote :: rest) =
      ⟨(escape quote contents).length + 1, true⟩ := by
  induction contents with
  | nil => exact stringEnd_quote plain rest
  | cons c contents ih =>
    have inner := ih (fits.imp_right (mt (List.mem_cons_of_mem c)))
    have here : quote = .char '`' ∨ c ≠ .char '\n' :=
      fits.imp_right fun absent same => absent (same ▸ List.mem_cons_self)
    simp only [escape, List.flatMap_cons] at inner ⊢
    split
    · rw [List.append_assoc, List.cons_append, List.singleton_append, stringEnd_escaped, inner]
      simp [StringEnd.after]
    · rename_i other
      obtain ⟨solid, different⟩ := not_or.mp other
      rw [List.append_assoc, List.singleton_append, stringEnd_other solid different here, inner]
      simp [StringEnd.after]

theorem StringLiteral.stringEnd_tail (string : StringLiteral) (rest : Text) :
    stringEnd string.quote.symbol (string.tail ++ rest) = ⟨string.tail.length, true⟩ := by
  have fits : string.quote.symbol = .char '`' ∨ .char '\n' ∉ string.contents :=
    string.fits.imp_left fun backtick => by rw [backtick]; rfl
  rw [tail, List.append_assoc, List.singleton_append,
    stringEnd_escape string.quote.symbol_ne_backslash fits, List.length_append]
  rfl

/-! ## The contents of a string -/

theorem unescape_escaped {quote c : Symbol} (special : c = .char '\\' ∨ c = quote) (rest : Text) :
    unescape quote (.char '\\' :: c :: rest) = c :: unescape quote rest := by
  rw [unescape, if_pos (by simpa [or_comm] using special)]

theorem unescape_other {quote c : Symbol} (plain : c ≠ .char '\\') (rest : Text) :
    unescape quote (c :: rest) = c :: unescape quote rest := by
  cases rest <;> simp [unescape, plain]

/-- Unescaping gives the contents back. -/
theorem unescape_escape (quote : Symbol) (contents : Text) :
    unescape quote (escape quote contents) = contents := by
  induction contents with
  | nil => simp [escape, unescape]
  | cons c contents ih =>
    simp only [escape, List.flatMap_cons] at ih ⊢
    split
    · rename_i special
      rw [List.cons_append, List.singleton_append, unescape_escaped special, ih]
    · rename_i other
      rw [List.singleton_append, unescape_other (not_or.mp other).1, ih]

/-! ## White space around a text -/

/-- Some text without white space at either end. -/
def Solid (text : Text) : Prop :=
  (∃ first rest, text = first :: rest ∧ isBlank first = false) ∧
    ∃ rest last, text = rest ++ [last] ∧ isBlank last = false

theorem isBlank_nil : ∀ c ∈ ([] : Text), isBlank c = true := by
  intro c member
  cases member

/-- Stripping takes away the white space before a text and nothing of the text itself. -/
theorem strip_of_solid {blanks text : Text} (blank : ∀ c ∈ blanks, isBlank c = true)
    (solid : Solid text) : strip (blanks ++ text) = text := by
  obtain ⟨⟨first, rest, starts, notBlank⟩, before, last, ends, notBlankLast⟩ := solid
  have dropped : (blanks ++ text).dropWhile isBlank = text := by
    rw [List.dropWhile_append_of_pos blank, starts]
    exact List.dropWhile_cons_of_neg (by simp [notBlank])
  rw [strip, dropped, dropWhileEnd, ends, List.reverse_concat,
    List.dropWhile_cons_of_neg (by simp [notBlankLast]), ← List.reverse_concat,
    List.reverse_reverse]

theorem strip_eq_self {text : Text} (solid : Solid text) : strip text = text :=
  strip_of_solid isBlank_nil solid

namespace StringLiteral

theorem solid_text (string : StringLiteral) : Solid string.text := by
  refine ⟨⟨_, string.tail, rfl, string.quote.isBlank_symbol⟩, ?_⟩
  exact ⟨string.quote.symbol :: escape string.quote.symbol string.contents, _, rfl,
    string.quote.isBlank_symbol⟩

/-- A written string is read where it stands. -/
theorem readString_of_drop (string : StringLiteral) {source rest : Text} {start : Nat}
    (shape : source.drop start = string.text ++ rest) :
    readString source start = .ok (string.contents, start + string.text.length) := by
  have count : string.tail.length - 1 = (escape string.quote.symbol string.contents).length := by
    simp [tail]
  have contents : (string.tail ++ rest).take (string.tail.length - 1) =
      escape string.quote.symbol string.contents := by
    rw [count, tail, List.append_assoc]
    exact List.take_left
  rw [text, List.cons_append] at shape
  simp [readString, shape, string.quote.isQuote_symbol, string.stringEnd_tail, contents,
    unescape_escape, text, Nat.add_assoc]

theorem readString_text (string : StringLiteral) :
    readString string.text 0 = .ok (string.contents, string.text.length) := by
  have whole : string.text.drop 0 = string.text ++ [] := (List.append_nil _).symm
  rw [string.readString_of_drop whole, Nat.zero_add]

/-- A written string is read as its contents. -/
theorem literalValue?_text (string : StringLiteral) :
    literalValue? string.text = some string.contents := by
  have read := string.readString_text
  simp only [literalValue?, strip_eq_self string.solid_text]
  rw [read]
  simp [text, string.quote.isQuote_symbol]

/-- A written string is skipped as a whole, whatever stands around it. -/
theorem literalStop?_of_drop (string : StringLiteral) {source rest : Text} {start : Nat}
    (shape : source.drop start = string.text ++ rest) :
    literalStop? source start = .ok (some (start + string.text.length)) := by
  rw [text, List.cons_append] at shape
  simp [literalStop?, shape, literalTail?, string.quote.isQuote_symbol, string.stringEnd_tail, text,
    Nat.add_assoc]

end StringLiteral

theorem exists_quote {c : Symbol} (opens : isQuote c = true) : ∃ quote : Quote, quote.symbol = c := by
  simp only [isQuote, Bool.or_eq_true, beq_iff_eq] at opens
  obtain (rfl | rfl) | rfl := opens
  · exact ⟨.single, rfl⟩
  · exact ⟨.double, rfl⟩
  · exact ⟨.backtick, rfl⟩

/-- A text that is escaped and put in quotes is decoded wherever it stands, with all its backslashes and
quotes, and the string is skipped up to the same offset. Only a backtick may quote more than one line. -/
theorem readString_escape (before after : Text) {quote : Symbol} (opens : isQuote quote = true)
    {contents : Text} (fits : quote = .char '`' ∨ .char '\n' ∉ contents) :
    let source := before ++ [quote] ++ escape quote contents ++ [quote] ++ after
    let stop := before.length + (escape quote contents).length + 2
    readString source before.length = .ok (contents, stop) ∧
      literalStop? source before.length = .ok (some stop) := by
  intro source stop
  obtain ⟨quote, rfl⟩ := exists_quote opens
  have fits : quote = .backtick ∨ .char '\n' ∉ contents := by
    cases quote with
    | single => exact .inr (fits.resolve_left (by decide))
    | double => exact .inr (fits.resolve_left (by decide))
    | backtick => exact .inl rfl
  let string : StringLiteral := ⟨quote, contents, fits⟩
  have shape : source.drop before.length = string.text ++ after := by
    simp [source, string, StringLiteral.text, StringLiteral.tail]
  have length : before.length + string.text.length = stop := by
    simp [stop, string, StringLiteral.text, StringLiteral.tail, Nat.add_assoc]
  rw [string.readString_of_drop shape, string.literalStop?_of_drop shape, length]
  exact ⟨rfl, rfl⟩

/-- Backslashes before a quote and at the end, between quotes of another kind. -/
theorem readString_escape_backslashes :
    let contents : Text := "\\\\'\\"
    let source : Text := "\"'\\\\\\\\\\'\\\\'\\'"
    isQuote (.char '\'') = true ∧ .char '\n' ∉ contents ∧
      readString source 1 = .ok (contents, 11) ∧ literalStop? source 1 = .ok (some 11) := by
  intro contents source
  have opens : isQuote (.char '\'') = true := by decide
  have fits : .char '\n' ∉ contents := by decide
  have written : ("\"" : Text) ++ [.char '\''] ++ escape (.char '\'') contents ++ [.char '\''] ++
      ("\\'" : Text) = source := by decide
  have read := readString_escape "\"" "\\'" opens (.inr fits)
  simp only [written] at read
  exact ⟨opens, fits, read⟩

end SuiteDocs.Source
