import SuiteDocs.Constant
import SuiteDocs.Proofs.Sites

/-!
How a constant is declared.

A declaration is recognised by what it writes before its string: a word, a name, perhaps a type, and an
equals sign, with white space between. It gives a constant if the string is closed, ends the expression
and is no template with expressions in it.
-/

set_option autoImplicit false

namespace SuiteDocs.Constants

open SuiteDocs.Text SuiteDocs.Source

/-- A symbol of a type. -/
def isTypePart (c : Symbol) : Bool :=
  c != .char '=' && c != .char ';' && c != .char '\n'

/-- What may stand between a name and an equals sign: nothing, or a colon and a type. -/
def IsTyping (typing : Text) : Prop :=
  typing = [] ∨ ∃ type, typing = .char ':' :: type ∧ type ≠ [] ∧
    ∀ c ∈ type, isTypePart c = true

/-- What a declaration writes before its string. -/
structure Declarator where
  word : Text
  blanks : Text
  name : Text
  spaces : Text
  typing : Text
  gap : Text
  isWord : word ∈ declaringWords
  parted : blanks ≠ []
  blank : ∀ c ∈ blanks, isBlank c = true
  identifier : isIdentifier name = true
  blankSpaces : ∀ c ∈ spaces, isBlank c = true
  isType : IsTyping typing
  blankGap : ∀ c ∈ gap, isBlank c = true

/-- What stands before the equals sign. -/
def Declarator.left (declarator : Declarator) : Text :=
  declarator.word ++ (declarator.blanks ++ (declarator.name ++ (declarator.spaces ++
    declarator.typing)))

def Declarator.text (declarator : Declarator) : Text :=
  declarator.left ++ .char '=' :: declarator.gap

theorem Declarator.text_append (declarator : Declarator) (rest : Text) :
    declarator.text ++ rest = declarator.word ++ (declarator.blanks ++ (declarator.name ++
      (declarator.spaces ++ (declarator.typing ++ .char '=' :: (declarator.gap ++ rest))))) := by
  simp only [text, left, List.append_assoc, List.cons_append]

theorem find?_declaringWords {word : Text} (isWord : word ∈ declaringWords) (rest : Text) :
    declaringWords.find? (·.isPrefixOf (word ++ rest)) = some word := by
  simp only [declaringWords, List.mem_cons, List.not_mem_nil, or_false] at isWord
  rcases isWord with rfl | rfl | rfl
  · rfl
  · rfl
  · rfl

/-- A word that declares starts with one of three symbols. -/
theorem exists_declaringWord {word : Text} (isWord : word ∈ declaringWords) :
    ∃ first rest, word = first :: rest ∧ first ∈ ("clv" : Text) ∧
      ∀ c ∈ first :: rest, isNamePart c = true := by
  simp only [declaringWords, List.mem_cons, List.not_mem_nil, or_false] at isWord
  rcases isWord with same | same | same
  · exact ⟨_, _, same, by decide, by decide⟩
  · exact ⟨_, _, same, by decide, by decide⟩
  · exact ⟨_, _, same, by decide, by decide⟩

theorem mem_of_mayDeclare {text : Text} {code : CodeChar} (may : mayDeclare text code = true) :
    code.char ∈ ("clv" : Text) := by
  simp only [mayDeclare, Bool.and_eq_true, Bool.or_eq_true, beq_iff_eq] at may
  obtain ⟨⟨-, (same | same) | same⟩, -⟩ := may
  · rw [same]
    decide
  · rw [same]
    decide
  · rw [same]
    decide

theorem skipType_eq {typing : Text} (isType : IsTyping typing) (value : Text) :
    skipType (typing ++ .char '=' :: value) = .char '=' :: value := by
  cases isType with
  | inl none =>
    subst none
    rfl
  | inr given =>
    obtain ⟨type, rfl, nonempty, inside⟩ := given
    have ends : (type ++ .char '=' :: value).dropWhile isTypePart = .char '=' :: value := by
      rw [List.dropWhile_append_of_pos inside]
      rfl
    have shorter : (.char '=' :: value).length < (type ++ .char '=' :: value).length := by
      have positive := List.length_pos_of_ne_nil nonempty
      rw [List.length_append]
      omega
    unfold isTypePart at ends
    simp only [List.cons_append, skipType, ends, shorter, if_true]

theorem exists_typing {text value : Text} (skipped : skipType text = .char '=' :: value) :
    ∃ typing, text = typing ++ .char '=' :: value ∧ IsTyping typing := by
  unfold skipType at skipped
  split at skipped
  · rename_i rest
    dsimp only at skipped
    split at skipped
    · rename_i shorter
      have parts := @List.takeWhile_append_dropWhile _ isTypePart rest
      unfold isTypePart at parts
      rw [skipped] at parts shorter
      refine ⟨.char ':' :: rest.takeWhile isTypePart, ?_, .inr ⟨_, rfl, ?_, ?_⟩⟩
      · exact congrArg _ parts.symm
      · intro none
        unfold isTypePart at none
        rw [none] at parts
        rw [← parts] at shorter
        exact absurd shorter (Nat.lt_irrefl _)
      · intro c member
        exact List.mem_takeWhile_imp member
    · cases (List.cons.inj skipped).1
  · exact ⟨[], skipped, .inl rfl⟩

theorem isBlank_of_isIdentifier {name rest : Text} (identifier : isIdentifier name = true) :
    ∀ c ∈ (name ++ rest).head?, isBlank c = false := by
  cases name with
  | nil => cases identifier
  | cons first name =>
    intro c head
    obtain rfl := Option.some.inj head
    exact isBlank_of_isNamePart (isNamePart_of_isIdentifier identifier _ List.mem_cons_self)

theorem takeWhile_isNamePart {name rest : Text} (parts : ∀ c ∈ name, isNamePart c = true)
    (ends : ∀ c ∈ rest.head?, isNamePart c = false) : (name ++ rest).takeWhile isNamePart = name := by
  rw [List.takeWhile_append_of_pos parts]
  cases rest with
  | nil => exact List.append_nil name
  | cons c rest => rw [List.takeWhile_cons_of_neg (by simp [ends c rfl]), List.append_nil]

theorem head?_typing {typing : Text} (isType : IsTyping typing) (value : Text) :
    ∀ c ∈ (typing ++ .char '=' :: value).head?, isBlank c = false ∧ isNamePart c = false := by
  intro c head
  cases isType with
  | inl none =>
    subst none
    obtain rfl := Option.some.inj head
    exact ⟨by decide, by decide⟩
  | inr given =>
    obtain ⟨type, rfl, -⟩ := given
    obtain rfl := Option.some.inj head
    exact ⟨by decide, by decide⟩

theorem Declarator.takeWhile_word (declarator : Declarator) (rest : Text) :
    (declarator.text ++ rest).takeWhile isNamePart = declarator.word := by
  obtain ⟨first, more, isWord, -, parts⟩ := exists_declaringWord declarator.isWord
  rw [← isWord] at parts
  rw [text_append]
  apply takeWhile_isNamePart parts
  cases shape : declarator.blanks with
  | nil => exact absurd shape declarator.parted
  | cons d blanks =>
    intro c head
    obtain rfl := Option.some.inj head
    exact isNamePart_of_isBlank (declarator.blank d (shape ▸ List.mem_cons_self))

/-- A declarator before a quote is recognised. -/
theorem declaration?_text (declarator : Declarator) {quote : Symbol} (opens : isQuote quote = true)
    (rest : Text) :
    declaration? (declarator.text ++ quote :: rest) =
      some (declarator.name, declarator.text.length) := by
  have count : (declarator.text ++ quote :: rest).length - (quote :: rest).length =
      declarator.text.length := by
    rw [List.length_append, Nat.add_sub_cancel]
  rw [declarator.text_append] at count ⊢
  have typed := head?_typing declarator.isType (declarator.gap ++ quote :: rest)
  have skipped := skipType_eq declarator.isType (declarator.gap ++ quote :: rest)
  -- What follows each part is only looked at where the part ends.
  generalize declarator.typing ++ .char '=' :: (declarator.gap ++ quote :: rest) = assigned at *
  have spaced : (declarator.spaces ++ assigned).dropWhile isBlank = assigned :=
    dropWhile_blanks declarator.blankSpaces fun c head => (typed c head).1
  have ends : ∀ c ∈ (declarator.spaces ++ assigned).head?, isNamePart c = false := by
    intro c head
    cases shape : declarator.spaces with
    | nil =>
      rw [shape] at head
      exact (typed c head).2
    | cons d spaces =>
      rw [shape] at head
      obtain rfl := Option.some.inj head
      exact isNamePart_of_isBlank (declarator.blankSpaces d (shape ▸ List.mem_cons_self))
  generalize declarator.spaces ++ assigned = spacedOut at *
  have taken := takeWhile_isNamePart (isNamePart_of_isIdentifier declarator.identifier) ends
  have named : (declarator.blanks ++ (declarator.name ++ spacedOut)).dropWhile isBlank =
      declarator.name ++ spacedOut :=
    dropWhile_blanks declarator.blank (isBlank_of_isIdentifier declarator.identifier)
  have starts : (declarator.blanks ++ (declarator.name ++ spacedOut)).head?.any isBlank = true := by
    cases shape : declarator.blanks with
    | nil => exact absurd shape declarator.parted
    | cons c blanks => exact declarator.blank c (shape ▸ List.mem_cons_self)
  have opened : (declarator.gap ++ quote :: rest).dropWhile isBlank = quote :: rest := by
    apply dropWhile_blanks declarator.blankGap
    intro c head
    obtain rfl := Option.some.inj head
    exact isBlank_of_isQuote opens
  simp only [declaration?, find?_declaringWords declarator.isWord, Option.bind_eq_bind,
    Option.bind_some, List.drop_left, starts, if_true, named, taken, declarator.identifier, spaced,
    skipped, opened, List.head?_cons, Option.any_some, opens, count]

/-- What is recognised is a declarator before a quote. -/
theorem exists_declarator {text name : Text} {distance : Nat}
    (found : declaration? text = some (name, distance)) :
    ∃ (declarator : Declarator) (quote : Symbol) (rest : Text),
      text = declarator.text ++ quote :: rest ∧ isQuote quote = true ∧
        name = declarator.name ∧ distance = declarator.text.length := by
  unfold declaration? at found
  simp only [Option.bind_eq_bind, Option.bind_eq_some_iff] at found
  obtain ⟨word, isWord, found⟩ := found
  have starts := List.find?_some isWord
  obtain ⟨afterWord, rfl⟩ := List.isPrefixOf_iff_prefix.mp starts
  rw [List.drop_left] at found
  split at found
  · rename_i starts
    split at found
    · rename_i identifier
      split at found
      · rename_i value skipped
        split at found
        · rename_i opens
          obtain ⟨rfl, rfl⟩ := Prod.mk.inj (Option.some.inj found)
          obtain ⟨blanks, shape, blank⟩ := exists_blanks (Eq.refl (afterWord.dropWhile isBlank))
          obtain ⟨typing, typed, isType⟩ := exists_typing skipped
          obtain ⟨spaces, spaced, blankSpaces⟩ := exists_blanks typed
          obtain ⟨gap, opened, blankGap⟩ := exists_blanks (Eq.refl (value.dropWhile isBlank))
          generalize value.dropWhile isBlank = string at *
          generalize afterWord.dropWhile isBlank = named at *
          obtain ⟨quote, rest, rfl⟩ : ∃ quote rest, string = quote :: rest := by
            cases string with
            | nil => cases opens
            | cons quote rest => exact ⟨quote, rest, rfl⟩
          have parts : named.takeWhile isNamePart ++ (spaces ++ (typing ++
              .char '=' :: (gap ++ quote :: rest))) = named := by
            rw [← opened, ← spaced]
            exact List.prefix_iff_eq_append.mp (List.takeWhile_prefix isNamePart)
          have parted : blanks ≠ [] := by
            intro none
            rw [shape, none, List.nil_append, ← parts] at starts
            have solid := @isBlank_of_isIdentifier _ (spaces ++ (typing ++
              .char '=' :: (gap ++ quote :: rest))) identifier
            obtain ⟨c, head, blank⟩ := (Option.any_eq_true _ _).mp starts
            rw [solid c head] at blank
            cases blank
          let declarator : Declarator := ⟨word, blanks, _, spaces, typing, gap,
            List.mem_of_find?_eq_some isWord, parted, blank, identifier, blankSpaces, isType, blankGap⟩
          have whole : word ++ afterWord = declarator.text ++ quote :: rest := by
            rw [declarator.text_append, shape, ← parts]
          refine ⟨declarator, quote, rest, whole, opens, rfl, ?_⟩
          rw [whole, List.length_append, Nat.add_sub_cancel]
        · cases found
      · cases found
    · cases found
  · cases found

/-- What a declaration gives as its string opens with a quote. -/
theorem drop_of_declaration? {text name : Text} {distance : Nat}
    (found : declaration? text = some (name, distance)) :
    ∃ quote rest, text.drop distance = quote :: rest ∧ isQuote quote = true := by
  obtain ⟨declarator, quote, rest, rfl, opens, -, rfl⟩ := exists_declarator found
  exact ⟨quote, rest, List.drop_left, opens⟩

theorem constantAt?_eq_some_iff {text name value : Text} {offset : Nat} :
    constantAt? text offset = some (name, value) ↔ ∃ distance stop,
      declaration? (text.drop offset) = some (name, distance) ∧
      readString text (offset + distance) = .ok (value, stop) ∧
      (text[offset + distance]? = some (.char '`') → holds "$\x7b" value = false) ∧
      endsExpression (text.drop stop) = true := by
  unfold constantAt?
  constructor
  · intro found
    split at found
    · cases found
    · rename_i other distance declares
      split at found
      · cases found
      · rename_i contents stop reads
        split at found
        · cases found
        · rename_i notTemplate
          split at found
          · rename_i ends
            obtain ⟨rfl, rfl⟩ := Prod.mk.inj (Option.some.inj found)
            refine ⟨distance, stop, declares, reads, ?_, ends⟩
            intro backtick
            simpa [backtick] using notTemplate
          · cases found
  · intro given
    obtain ⟨distance, stop, declares, reads, plain, ends⟩ := given
    have notTemplate : (text[offset + distance]? == some (.char '`') && holds "$\x7b" value) = false := by
      by_cases backtick : text[offset + distance]? = some (.char '`')
      · rw [plain backtick, Bool.and_false]
      · rw [beq_eq_false_iff_ne.mpr backtick, Bool.false_and]
    simp only [declares, reads, notTemplate, ends]
    rfl

end SuiteDocs.Constants
