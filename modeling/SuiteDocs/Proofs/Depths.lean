import SuiteDocs.Proofs.Exchange

/-!
Brackets of one kind and the depth of all kinds.

The bracket that closes another is found by counting brackets of one kind only, while the depth of a
character counts all brackets alike. In a well nested text the two agree: the depth follows the nesting,
so what a bracket encloses is deeper than it, and the first closing bracket at its depth is its own.
-/

set_option autoImplicit false

namespace SuiteDocs.Source

open SuiteDocs.Text

/-- The depth of an opening bracket in well nested pieces is the number of brackets open before it. -/
theorem exists_nest_of_mem_codeAt {expected final : List Symbol} {scanned : List Piece} {offset : Nat}
    {opening : CodeChar} (nested : nestAfter expected (codeOf scanned) = some final)
    (member : opening ∈ codeAt offset expected.length scanned) (opens : isOpener opening.char = true) :
    ∃ leading following outer, scanned = leading ++ .code opening.char :: following ∧
      nestAfter expected (codeOf leading) = some outer ∧
      opening.offset = offset + (textOf leading).length ∧ opening.depth = outer.length := by
  induction scanned generalizing expected offset with
  | nil => cases member
  | cons piece rest ih =>
    cases piece with
    | literal first inner =>
      obtain ⟨leading, following, outer, rfl, before, place, depth⟩ := ih nested member
      refine ⟨.literal first inner :: leading, following, outer, rfl, before, ?_, depth⟩
      rw [place, length_textOf_cons, Piece.length_literal]
      omega
    | code c =>
      rw [codeOf_code, nestAfter_cons] at nested
      obtain ⟨next, expects, nested⟩ := Option.bind_eq_some_iff.mp nested
      obtain ⟨depth, -, step⟩ := codeAt_code expects offset 0
      have here := step rest
      rw [Nat.add_zero] at here
      cases List.mem_cons.mp (here ▸ member) with
      | inl same =>
        subst same
        refine ⟨[], rest, expected, rfl, rfl, rfl, ?_⟩
        rw [codeAt, if_pos opens] at here
        exact (congrArg CodeChar.depth (List.cons.inj here).1).symm
      | inr later =>
        obtain ⟨leading, following, outer, rfl, before, place, depth⟩ := ih nested later
        refine ⟨.code c :: leading, following, outer, rfl, ?_, ?_, depth⟩
        · rw [codeOf_code, nestAfter_cons, expects]
          exact before
        · rw [place, length_textOf_cons, Piece.length_code]
          omega

theorem codeAt_closer {c : Symbol} (closes : isCloser c = true) (offset depth : Nat)
    (rest : List Piece) : codeAt offset (depth + 1) (.code c :: rest) =
      ⟨offset, c, depth⟩ :: codeAt (offset + 1) depth rest := by
  have notOpener : isOpener c = false := by
    simp only [isCloser, Bool.or_eq_true, beq_iff_eq] at closes
    obtain (rfl | rfl) | rfl := closes <;> rfl
  simp [codeAt, notOpener, closes]

theorem codeAt_opener {c : Symbol} (opens : isOpener c = true) (offset depth : Nat)
    (rest : List Piece) : codeAt offset depth (.code c :: rest) =
      ⟨offset, c, depth⟩ :: codeAt (offset + 1) (depth + 1) rest := by
  rw [codeAt, if_pos opens]

/-- A bracket of a well nested text parts its code into what stands before it, what it encloses, and what
follows the bracket that closes it. -/
theorem exists_code_around {text : Text} {opening : CodeChar} (nested : HasNestedCode text)
    (member : opening ∈ codeBetween text 0 none) (opens : isOpener opening.char = true) :
    ∃ closer close early inside late, closerOf? opening.char = some closer ∧
      matchingClose text opening.offset = .ok close ∧
      codeBetween text 0 none =
        early ++ opening :: (inside ++ ⟨close, closer, opening.depth⟩ :: late) ∧
      (∀ code ∈ early, code.offset < opening.offset) ∧
      (∀ code ∈ inside, opening.depth < code.depth) ∧
      ∀ code ∈ late, close < code.offset := by
  rw [hasNestedCode_iff] at nested
  rw [codeBetween_zero] at member ⊢
  obtain ⟨closer, pair⟩ := isOpener_iff.mp opens
  obtain ⟨leading, following, outer, scan, before, place, depth⟩ :=
    exists_nest_of_mem_codeAt nested member opens
  rw [Nat.zero_add] at place
  rw [scan, codeOf_append, nestAfter_append, before, codeOf_code, Option.bind_some, nestAfter_cons,
    expectAfter_opener pair, Option.bind_some] at nested
  obtain ⟨inner, rest, cut, counted, enclosed⟩ :=
    closeOffset?_of_opened pair (opening.offset + 1) nested
  obtain ⟨code, behind⟩ := isCode_of_scan scan
  rw [← place] at code behind
  have found : matchingClose text opening.offset =
      .ok (opening.offset + 1 + (textOf inner).length) := by
    rw [matchingClose_eq code pair, behind, counted]
  -- The depth follows the nesting up to the bracket, and again up to the one that closes it.
  have upToOpening := (codeAt_of_nest before 0 0 (.code opening.char :: following)).2
  obtain ⟨deeper, upToClosing⟩ :=
    codeAt_of_nest enclosed (opening.offset + 1) (outer.length + 1) (.code closer :: rest)
  simp only [List.length_nil, Nat.zero_add, Nat.add_zero, ← place] at upToOpening deeper upToClosing
  refine ⟨closer, _, codeAt 0 0 leading, codeAt (opening.offset + 1) (outer.length + 1) inner,
    codeAt (opening.offset + 1 + (textOf inner).length + 1) outer.length rest, pair, found, ?_, ?_, ?_, ?_⟩
  · have same : (⟨opening.offset, opening.char, outer.length⟩ : CodeChar) = opening := by rw [← depth]
    rw [scan, upToOpening, codeAt_opener opens, same, cut, upToClosing,
      codeAt_closer (isCloser_of_pair pair), depth]
  · intro code member
    have near := (offset_of_mem_codeAt member).2
    omega
  · intro code member
    rw [depth]
    exact deeper code member
  · intro code member
    exact (offset_of_mem_codeAt member).1

/-- A closing bracket behind a character of code, at its depth. -/
def ClosesBehind (opening code : CodeChar) : Prop :=
  opening.offset < code.offset ∧ code.depth = opening.depth ∧ isCloser code.char = true

instance (opening code : CodeChar) : Decidable (ClosesBehind opening code) :=
  inferInstanceAs (Decidable (_ ∧ _))

/-- In a text whose brackets are well nested, of whatever kinds, the bracket that closes another is the
first closing one behind it at its depth, although only brackets of its own kind are counted to find it.
Between the two, all code is deeper. -/
theorem matchingClose_first_at_depth {text : Text} {opening : CodeChar} (nested : HasNestedCode text)
    (member : opening ∈ codeBetween text 0 none) (opens : isOpener opening.char = true) :
    ∃ closing : CodeChar, matchingClose text opening.offset = .ok closing.offset ∧
      (codeBetween text 0 none).find? (ClosesBehind opening ·) = some closing ∧
      closerOf? opening.char = some closing.char ∧
      ∀ code ∈ codeBetween text 0 none, opening.offset < code.offset → code.offset < closing.offset →
        opening.depth < code.depth := by
  obtain ⟨closer, close, early, inside, late, pair, found, all, before, deeper, behind⟩ :=
    exists_code_around nested member opens
  have order := matchingClose_gt found
  refine ⟨⟨close, closer, opening.depth⟩, found, ?_, pair, ?_⟩
  · have passed : (early ++ opening :: inside).find? (ClosesBehind opening ·) = none := by
      rw [List.find?_eq_none]
      intro code listed closes
      have closes : ClosesBehind opening code := of_decide_eq_true closes
      cases List.mem_append.mp listed with
      | inl listed => exact Nat.lt_asymm closes.1 (before code listed)
      | inr listed =>
        cases List.mem_cons.mp listed with
        | inl same => exact Nat.lt_irrefl _ (same ▸ closes.1)
        | inr listed => exact Nat.lt_irrefl _ (closes.2.1 ▸ deeper code listed)
    have reached : ClosesBehind opening ⟨close, closer, opening.depth⟩ :=
      ⟨order, rfl, isCloser_of_pair pair⟩
    rw [all, ← List.cons_append, ← List.append_assoc, List.find?_append, passed, Option.none_or]
    exact List.find?_cons_of_pos (decide_eq_true reached)
  · intro code listed after till
    rw [all] at listed
    cases List.mem_append.mp listed with
    | inl listed => exact absurd after (Nat.lt_asymm (before code listed))
    | inr listed =>
      cases List.mem_cons.mp listed with
      | inl same => exact absurd after (same ▸ Nat.lt_irrefl _)
      | inr listed =>
        cases List.mem_append.mp listed with
        | inl listed => exact deeper code listed
        | inr listed =>
          cases List.mem_cons.mp listed with
          | inl same => exact absurd till (same ▸ Nat.lt_irrefl _)
          | inr listed => exact absurd till (Nat.lt_asymm (behind code listed))

theorem matchingClose_first_at_depth_object :
    let text : Text := "f(\x7b a: [')', /[\x7d]/, (b)] \x7d) // )"
    HasNestedCode text ∧ ⟨2, .char '\x7b', 1⟩ ∈ codeBetween text 0 none ∧
      matchingClose text 2 = .ok 25 := by
  intro text
  have nested : HasNestedCode text := by decide +kernel
  have member : (⟨2, .char '\x7b', 1⟩ : CodeChar) ∈ codeBetween text 0 none := by decide +kernel
  obtain ⟨closing, found, first, -⟩ := matchingClose_first_at_depth nested member rfl
  have same : (codeBetween text 0 none).find? (ClosesBehind ⟨2, .char '\x7b', 1⟩ ·) =
      some ⟨25, .char '\x7d', 1⟩ := by decide +kernel
  obtain rfl := Option.some.inj (first.symm.trans same)
  exact ⟨nested, member, found⟩

end SuiteDocs.Source
