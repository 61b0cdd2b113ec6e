import SuiteDocs.Proofs.Scan
import SuiteDocs.Source.Field

/-!
Classes of characters that do not meet.
-/

set_option autoImplicit false

namespace SuiteDocs.Source

open SuiteDocs.Text

/-- The code points of white space. -/
def blankCodes : List Nat :=
  [9, 10, 11, 12, 13, 28, 29, 30, 31, 32, 0x85, 0xA0, 0x1680, 0x2000, 0x2001, 0x2002, 0x2003,
    0x2004, 0x2005, 0x2006, 0x2007, 0x2008, 0x2009, 0x200A, 0x2028, 0x2029, 0x202F, 0x205F, 0x3000]

theorem code_mem_blankCodes {c : Symbol} (blank : isBlank c = true) : c.code ∈ blankCodes := by
  simp only [isBlank] at blank
  simp only [blankCodes, List.mem_cons, List.not_mem_nil, or_false]
  split at blank <;> simp at blank <;> omega

/-- A table of changes read as a list, which evaluates in one pass. -/
theorem switchedOn_eq_foldl (changes : Array Nat) (code : Nat) :
    switchedOn changes code =
      changes.toList.foldl (fun holds point => if point ≤ code then !holds else holds) false :=
  (Array.foldl_toList ..).symm

/-- The tables of letters and numerals leave white space out. -/
theorem switchedOff_of_mem_blankCodes : ∀ code ∈ blankCodes, ¬ code < 128 →
    switchedOn letterChanges code = false ∧ switchedOn numeralChanges code = false := by
  simp only [switchedOn_eq_foldl]
  decide +kernel

/-- White space is no part of a name. -/
theorem isNamePart_of_isBlank {c : Symbol} (blank : isBlank c = true) : isNamePart c = false := by
  have member := code_mem_blankCodes blank
  have notMark (mark : Char) (other : (Symbol.char mark).code ∉ blankCodes) : c ≠ mark := by
    rintro rfl
    exact other member
  have underscore := notMark '_' (by decide)
  have dollar := notMark '$' (by decide)
  by_cases ascii : c.code < 128
  · have control : ∀ code ∈ blankCodes, code < 128 →
        (Symbol.ofCode code).isAlpha = false ∧ (Symbol.ofCode code).isDigit = false := by decide
    have same : Symbol.ofCode c.code = c := by
      cases c with
      | half index =>
        simp only [Symbol.code, Symbol.firstHalf] at ascii
        omega
      | char ch =>
        simp only [Symbol.code] at ascii ⊢
        have low : ¬ Symbol.firstHalf ≤ ch.toNat := by
          rw [Symbol.firstHalf]
          omega
        rw [Symbol.ofCode, dif_pos (by omega), if_neg low, Char.ofNat_toNat]
    have classes := control _ member ascii
    rw [same] at classes
    simp [isNamePart, isWord, isLetterOrNumeral, isLetter, isNumeral, ascii, classes, underscore,
      dollar]
  · obtain ⟨noLetter, noNumeral⟩ := switchedOff_of_mem_blankCodes _ member ascii
    simp [isNamePart, isWord, isLetterOrNumeral, isLetter, isNumeral, ascii, noLetter, noNumeral,
      underscore, dollar]

theorem isBlank_of_isNamePart {c : Symbol} (part : isNamePart c = true) : isBlank c = false := by
  cases blank : isBlank c with
  | false => rfl
  | true => rw [isNamePart_of_isBlank blank] at part; cases part

theorem exists_blanks {text rest : Text} (dropped : text.dropWhile isBlank = rest) :
    ∃ blanks, text = blanks ++ rest ∧ ∀ c ∈ blanks, isBlank c = true := by
  refine ⟨text.takeWhile isBlank, ?_, fun c member => List.mem_takeWhile_imp member⟩
  rw [← dropped, List.takeWhile_append_dropWhile]

theorem dropWhile_blanks {blanks rest : Text} (blank : ∀ c ∈ blanks, isBlank c = true)
    (solid : ∀ c ∈ rest.head?, isBlank c = false) : (blanks ++ rest).dropWhile isBlank = rest := by
  rw [List.dropWhile_append_of_pos blank]
  cases rest with
  | nil => rfl
  | cons c rest => exact List.dropWhile_cons_of_neg (by simp [solid c rfl])

/-- A part of a name differs from every symbol that is none. -/
theorem ne_of_isNamePart {c d : Symbol} (part : isNamePart c = true)
    (other : isNamePart d = false) : c ≠ d := by
  rintro rfl
  rw [part] at other
  cases other

theorem isPlain_of_isNamePart {c : Symbol} (part : isNamePart c = true) : isPlain c = true := by
  have single := ne_of_isNamePart part (by decide : isNamePart '\'' = false)
  have double := ne_of_isNamePart part (by decide : isNamePart '"' = false)
  have backtick := ne_of_isNamePart part (by decide : isNamePart '`' = false)
  have slash := ne_of_isNamePart part (by decide : isNamePart '/' = false)
  simp [isPlain, isQuote, single, double, backtick, slash]

theorem code_lt_of_isAlpha {c : Symbol} (letter : c.isAlpha = true) : c.code < 128 := by
  cases c with
  | half index => cases letter
  | char ch =>
    have sides : ch.isUpper = true ∨ ch.isLower = true := Bool.or_eq_true_iff.mp letter
    cases sides with
    | inl upper =>
      have last : ch.val ≤ 'Z'.val := (of_decide_eq_true upper).2
      exact Nat.lt_of_le_of_lt (UInt32.le_iff_toNat_le.mp last) (by decide)
    | inr lower =>
      have last : ch.val ≤ 'z'.val := of_decide_eq_true (Bool.and_eq_true_iff.mp lower).2
      exact Nat.lt_of_le_of_lt (UInt32.le_iff_toNat_le.mp last) (by decide)

/-- An identifier is made of parts of names. -/
theorem isNamePart_of_isIdentifier {name : Text} (identifier : isIdentifier name = true) :
    ∀ c ∈ name, isNamePart c = true := by
  cases name with
  | nil => simp
  | cons first rest =>
    simp only [isIdentifier, Bool.and_eq_true, List.all_eq_true] at identifier
    intro c member
    rcases List.mem_cons.mp member with rfl | member
    · have start := identifier.1
      simp only [isIdentifierStart, Bool.or_eq_true] at start
      rcases start with (letter | underscore) | dollar
      · have ascii := code_lt_of_isAlpha letter
        simp [isNamePart, isWord, isLetterOrNumeral, isLetter, ascii, letter]
      · simp [isNamePart, isWord, underscore]
      · simp [isNamePart, dollar]
    · exact identifier.2 c member

theorem not_mem_of_isIdentifier {name : Text} (identifier : isIdentifier name = true) {c : Symbol}
    (other : isNamePart c = false) : c ∉ name := fun member =>
  ne_of_isNamePart (isNamePart_of_isIdentifier identifier c member) other rfl

end SuiteDocs.Source
