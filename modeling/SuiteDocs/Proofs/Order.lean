import Mathlib.Data.List.Nodup
import SuiteDocs.Text.Symbol

/-!
The order of texts.
-/

set_option autoImplicit false

namespace SuiteDocs

theorem Symbol.code_injective {a b : Symbol} (same : a.code = b.code) : a = b := by
  -- No character has a number between those of the first and the last half.
  have apart (c : Char) (index : Fin 2048) : c.toNat ≠ firstHalf + index.val := by
    have valid := c.valid
    have bound := index.isLt
    rw [UInt32.isValidChar, Nat.isValidChar] at valid
    change c.val.toNat ≠ 0xD800 + index.val
    omega
  cases a with
  | char a =>
    cases b with
    | char b => exact congrArg Symbol.char (Char.toNat_inj.mp same)
    | half index => exact absurd same (apart a index)
  | half index =>
    cases b with
    | char b => exact absurd same.symm (apart b index)
    | half other => exact congrArg Symbol.half (Fin.ext (Nat.add_left_cancel same))

namespace Text

/-- A text comes before another in the lexicographic order of the numbers of their symbols. -/
def Before (a b : Text) : Prop :=
  List.Lex (· < ·) (a.map Symbol.code) (b.map Symbol.code)

theorem not_before_self (a : Text) : ¬ Before a a := by
  intro before
  induction a with
  | nil => cases before
  | cons c rest ih =>
    cases before with
    | rel less => exact Nat.lt_irrefl _ less
    | cons before => exact ih before

theorem le_cons_iff {c d : Symbol} {a b : Text} :
    le (c :: a) (d :: b) = true ↔ c.code < d.code ∨ c = d ∧ le a b = true := by
  rw [le]
  by_cases same : c = d
  · subst same
    simp
  · have different : c.code ≠ d.code := mt Symbol.code_injective same
    rw [if_neg (by simpa using same), decide_eq_true_iff]
    constructor
    · intro below
      exact .inl (Nat.lt_of_le_of_ne below different)
    · rintro (below | ⟨equal, -⟩)
      · exact Nat.le_of_lt below
      · exact absurd equal same

protected theorem le_trans (a b c : Text) (first : le a b = true) (second : le b c = true) :
    le a c = true := by
  induction a generalizing b c with
  | nil => rfl
  | cons x a ih =>
    cases b with
    | nil => cases first
    | cons y b =>
      cases c with
      | nil => cases second
      | cons z c =>
        rw [le_cons_iff] at first second ⊢
        rcases first with below | ⟨rfl, first⟩
        · rcases second with above | ⟨rfl, -⟩
          · exact .inl (Nat.lt_trans below above)
          · exact .inl below
        · rcases second with above | ⟨rfl, second⟩
          · exact .inl above
          · exact .inr ⟨rfl, ih b c first second⟩

protected theorem le_total (a b : Text) : le a b = true ∨ le b a = true := by
  induction a generalizing b with
  | nil => exact .inl rfl
  | cons x a ih =>
    cases b with
    | nil => exact .inr rfl
    | cons y b =>
      rw [le_cons_iff, le_cons_iff]
      rcases Nat.lt_trichotomy x.code y.code with below | same | above
      · exact .inl (.inl below)
      · obtain rfl := Symbol.code_injective same
        exact (ih b).imp (fun first => .inr ⟨rfl, first⟩) fun second => .inr ⟨rfl, second⟩
      · exact .inr (.inl above)

theorem before_of_le {a b : Text} (ordered : le a b = true) (different : a ≠ b) : Before a b := by
  induction a generalizing b with
  | nil =>
    cases b with
    | nil => exact absurd rfl different
    | cons y b => exact .nil
  | cons x a ih =>
    cases b with
    | nil => cases ordered
    | cons y b =>
      rcases le_cons_iff.mp ordered with below | ⟨rfl, behind⟩
      · exact .rel below
      · exact .cons (ih behind fun same => different (congrArg (x :: ·) same))

theorem pairwise_mergeSort {texts : List Text} (distinct : texts.Nodup) :
    (texts.mergeSort le).Pairwise Before := by
  have total (a b : Text) : (le a b || le b a) = true := by
    rw [Bool.or_eq_true]
    exact Text.le_total a b
  have ordered : (texts.mergeSort le).Pairwise fun a b => le a b = true :=
    List.pairwise_mergeSort Text.le_trans total texts
  have still : (texts.mergeSort le).Nodup := (List.mergeSort_perm texts le).nodup_iff.mpr distinct
  exact List.Pairwise.imp₂ (fun _ _ => before_of_le) ordered still

end Text

end SuiteDocs
