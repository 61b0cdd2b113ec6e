import Mathlib.Algebra.Order.Interval.Finset.SuccPred
import Mathlib.Data.Nat.SuccPred
import Mathlib.Order.Interval.Finset.Nat
import SuiteDocs.Proofs.Exchange

/-!
The closing bracket by the numbers of brackets.

A scan goes from offset to offset, over one character of code or past a whole literal, and so comes to
the end of the text. Among the offsets of code at which it stands, the bracket that closes another is at
the first one where the closing brackets of its kind are one more than the opening ones.
-/

set_option autoImplicit false

namespace SuiteDocs.Source

open SuiteDocs.Text

/-! ## Steps of a scan -/

/-- One step of a scan: over a character of code, or past a literal or comment. -/
inductive Step (text : Text) : Nat → Nat → Prop where
  | code {offset : Nat} (plain : literalStop? text offset = .ok none) : Step text offset (offset + 1)
  | literal {offset stop : Nat} (skips : literalStop? text offset = .ok (some stop)) :
      Step text offset stop

/-- A scan from one offset comes to another. -/
abbrev Visits (text : Text) : Nat → Nat → Prop :=
  Relation.ReflTransGen (Step text)

/-- A scan from one offset comes to another, and there stands a character of code. -/
def VisitsCode (text : Text) (start offset : Nat) : Prop :=
  Visits text start offset ∧ literalStop? text offset = .ok none

theorem lt_of_literalStop? {text : Text} {offset : Nat} {found : Option Nat}
    (looks : literalStop? text offset = .ok found) : offset < text.length := by
  by_contra beyond
  rw [literalStop?, List.drop_eq_nil_of_le (Nat.le_of_not_lt beyond)] at looks
  cases looks

theorem literalStop?_of_lt {text : Text} {offset : Nat} (inside : offset < text.length) :
    literalStop? text offset =
      .ok ((literalTail? (text.take offset).reverse text[offset] (text.drop (offset + 1))).map
        fun count => offset + count + 1) := by
  rw [literalStop?, List.drop_eq_getElem_cons inside]

/-- What a literal holds lies in the text and is more than nothing, whether or not it is closed. -/
theorem literalStop?_bounds {text : Text} {offset stop : Nat}
    (skips : literalStop? text offset = .ok (some stop)) : offset < stop ∧ stop ≤ text.length := by
  have inside := lt_of_literalStop? skips
  rw [literalStop?_of_lt inside] at skips
  obtain ⟨count, literal, rfl⟩ := Option.map_eq_some_iff.mp (Except.ok.inj skips)
  have within := literalTail?_le literal
  rw [List.length_drop] at within
  omega

theorem Step.bounds {text : Text} {offset next : Nat} (step : Step text offset next) :
    offset < next ∧ next ≤ text.length := by
  cases step with
  | code plain => exact ⟨Nat.lt_succ_self _, lt_of_literalStop? plain⟩
  | literal skips => exact literalStop?_bounds skips

theorem exists_step {text : Text} {offset : Nat} (inside : offset < text.length) :
    ∃ next, Step text offset next := by
  cases looks : literalStop? text offset with
  | error fault => cases (literalStop?_of_lt inside).symm.trans looks
  | ok found =>
    cases found with
    | none => exact ⟨_, .code looks⟩
    | some stop => exact ⟨_, .literal looks⟩

theorem step_unique (text : Text) : Relator.RightUnique (Step text) := by
  intro offset next other first second
  cases first with
  | code plain =>
    cases second with
    | code _ => rfl
    | literal skips => cases plain.symm.trans skips
  | literal skips =>
    cases second with
    | code plain => cases plain.symm.trans skips
    | literal skips' => exact Option.some.inj (Except.ok.inj (skips.symm.trans skips'))

theorem Visits.le {text : Text} {start offset : Nat} (visits : Visits text start offset) :
    start ≤ offset := by
  induction visits with
  | refl => exact Nat.le_refl _
  | tail _ step ih => exact Nat.le_trans ih (Nat.le_of_lt step.bounds.1)

/-- Between two offsets one step apart, a scan visits none. -/
theorem Visits.le_or_ge {text : Text} {start offset next other : Nat}
    (visits : Visits text start offset) (step : Step text offset next)
    (visitsOther : Visits text start other) : other ≤ offset ∨ next ≤ other := by
  rcases Relation.ReflTransGen.total_of_right_unique (step_unique text) visits visitsOther with
    onward | back
  · rcases Relation.ReflTransGen.cases_head onward with same | ⟨next', step', onward'⟩
    · exact .inl (Nat.le_of_eq same.symm)
    · rw [step_unique text step step']
      exact .inr (Visits.le onward')
  · exact .inl (Visits.le back)

/-- What holds past the end of the text and before each step of a scan if it holds behind it, holds
everywhere. -/
theorem scan_induction {text : Text} {motive : Nat → Prop}
    (done : ∀ offset, text.length ≤ offset → motive offset)
    (step : ∀ offset next, Step text offset next → motive next → motive offset) (offset : Nat) :
    motive offset := by
  induction left : text.length - offset using Nat.strongRecOn generalizing offset with
  | ind left ih =>
    rcases Nat.lt_or_ge offset text.length with inside | beyond
    · obtain ⟨next, taken⟩ := exists_step inside
      have bounds := taken.bounds
      exact step offset next taken (ih _ (by omega) next rfl)
    · exact done offset beyond

theorem visits_length {text : Text} {start : Nat} (inside : start ≤ text.length) :
    Visits text start text.length := by
  induction start using scan_induction with
  | done offset beyond =>
    obtain rfl := Nat.le_antisymm inside beyond
    exact .refl
  | step offset next taken ih => exact .head taken (ih taken.bounds.2)

/-! ## Steps and pieces -/

theorem piecesFrom_of_plain {text : Text} {offset : Nat} (plain : literalStop? text offset = .ok none) :
    ∃ c, text[offset]? = some c ∧ piecesFrom text offset = .code c :: piecesFrom text (offset + 1) := by
  have inside := lt_of_literalStop? plain
  rw [literalStop?_of_lt inside] at plain
  have scan : piecesFrom text offset = [.code text[offset]] ++
      pieces (text[offset] :: (text.take offset).reverse) (text.drop (offset + 1)) := by
    rw [piecesFrom, List.drop_eq_getElem_cons inside, pieces,
      Option.map_eq_none_iff.mp (Except.ok.inj plain)]
    rfl
  have rest := piecesFrom_advance scan
  refine ⟨text[offset], List.getElem?_eq_getElem inside, ?_⟩
  rw [scan, ← rest]
  rfl

theorem piecesFrom_of_skips {text : Text} {offset stop : Nat}
    (skips : literalStop? text offset = .ok (some stop)) :
    ∃ first inner, stop = offset + inner.length + 1 ∧
      piecesFrom text offset = .literal first inner :: piecesFrom text stop := by
  have inside := lt_of_literalStop? skips
  rw [literalStop?_of_lt inside] at skips
  obtain ⟨count, literal, rfl⟩ := Option.map_eq_some_iff.mp (Except.ok.inj skips)
  have counted : ((text.drop (offset + 1)).take count).length = count :=
    List.length_take_of_le (literalTail?_le literal)
  have scan : piecesFrom text offset = [.literal text[offset] ((text.drop (offset + 1)).take count)] ++
      pieces (((text.drop (offset + 1)).take count).reverse ++ text[offset] :: (text.take offset).reverse)
        ((text.drop (offset + 1)).drop count) := by
    rw [piecesFrom, List.drop_eq_getElem_cons inside, pieces, literal]
    rfl
  have rest := piecesFrom_advance scan
  refine ⟨text[offset], _, by rw [counted], ?_⟩
  rw [scan, ← rest]
  simp [counted, Nat.add_assoc]

theorem visitsCode_step_iff {text : Text} {start next offset : Nat} (step : Step text start next) :
    VisitsCode text start offset ↔
      offset = start ∧ literalStop? text start = .ok none ∨ VisitsCode text next offset := by
  constructor
  · rintro ⟨visits, plain⟩
    rcases Relation.ReflTransGen.cases_head visits with rfl | ⟨next', step', onward⟩
    · exact .inl ⟨rfl, plain⟩
    · rw [step_unique text step step']
      exact .inr ⟨onward, plain⟩
  · rintro (⟨rfl, plain⟩ | ⟨onward, plain⟩)
    · exact ⟨.refl, plain⟩
    · exact ⟨.head step onward, plain⟩

theorem exists_mem_codeAt_iff {text : Text} {start offset : Nat} (depth : Nat) :
    (∃ code ∈ codeAt start depth (piecesFrom text start), code.offset = offset) ↔
      VisitsCode text start offset := by
  induction start using scan_induction generalizing depth with
  | done start beyond =>
    have nothing : piecesFrom text start = [] := by
      rw [piecesFrom, List.drop_eq_nil_of_le beyond, pieces]
    have nowhere : ¬ VisitsCode text start offset := by
      rintro ⟨visits, plain⟩
      have inside := lt_of_literalStop? plain
      have order := Visits.le visits
      omega
    simp [nothing, codeAt, nowhere]
  | step start next taken ih =>
    rw [visitsCode_step_iff taken]
    cases taken with
    | code plain =>
      obtain ⟨c, -, scan⟩ := piecesFrom_of_plain plain
      rw [scan, codeAt_cons]
      simp only [List.mem_cons, exists_eq_or_imp, ih, plain, and_true]
      exact or_congr_left eq_comm
    | literal skips =>
      obtain ⟨first, inner, rfl, scan⟩ := piecesFrom_of_skips skips
      rw [scan, codeAt]
      simp [ih, skips]

/-- The offsets of the code that is listed from an offset on are those that a scan from there visits. -/
theorem exists_mem_codeBetween_iff {text : Text} {start offset : Nat} :
    (∃ code ∈ codeBetween text start none, code.offset = offset) ↔ VisitsCode text start offset := by
  have all : codeBetween text start none = codeAt start 0 (piecesFrom text start) :=
    List.takeWhile_eq_self_iff.mpr fun _ _ => rfl
  rw [all, exists_mem_codeAt_iff]

instance (text : Text) (start offset : Nat) : Decidable (VisitsCode text start offset) :=
  decidable_of_iff _ exists_mem_codeBetween_iff

/-! ## Brackets counted -/

/-- The number of times that a character of code stands behind an offset, up to another one, for a scan
from behind the first. -/
def countBehind (text : Text) (c : Symbol) (opening offset : Nat) : Nat :=
  ((Finset.Ioc opening offset).filter fun place =>
    VisitsCode text (opening + 1) place ∧ text[place]? = some c).card

/-- Behind an opening bracket, at a character of code, the closing brackets have become one more than the
opening ones. -/
def Outnumbered (text : Text) (opener closer : Symbol) (opening offset : Nat) : Prop :=
  opening < offset ∧ VisitsCode text (opening + 1) offset ∧
    countBehind text closer opening offset = countBehind text opener opening offset + 1

/-- The number of times that a character of code stands before an offset, for a scan from `start` on. -/
def tally (text : Text) (c : Symbol) (start offset : Nat) : Nat :=
  ((Finset.Ico start offset).filter fun place =>
    VisitsCode text start place ∧ text[place]? = some c).card

theorem countBehind_eq_tally (text : Text) (c : Symbol) (opening offset : Nat) :
    countBehind text c opening offset = tally text c (opening + 1) (offset + 1) := by
  rw [countBehind, tally, Finset.Ico_add_one_add_one_eq_Ioc]

theorem tally_start (text : Text) (c : Symbol) (start : Nat) : tally text c start start = 0 := by
  simp [tally]

theorem tally_code {text : Text} {start offset : Nat} (visits : VisitsCode text start offset)
    (c : Symbol) : tally text c start (offset + 1) =
      tally text c start offset + if text[offset]? = some c then 1 else 0 := by
  rw [tally, ← Finset.insert_Ico_right_eq_Ico_add_one (Visits.le visits.1), Finset.filter_insert]
  split
  · rename_i here
    rw [Finset.card_insert_of_notMem (by simp), if_pos here.2]
    rfl
  · rename_i other
    rw [if_neg fun here => other ⟨visits, here⟩]
    rfl

theorem tally_literal {text : Text} {start offset stop : Nat} (visits : Visits text start offset)
    (skips : literalStop? text offset = .ok (some stop)) (c : Symbol) :
    tally text c start stop = tally text c start offset := by
  have bounds := literalStop?_bounds skips
  rw [tally, tally]
  congr 1
  ext place
  simp only [Finset.mem_filter, Finset.mem_Ico]
  constructor
  · rintro ⟨⟨lower, upper⟩, code, here⟩
    refine ⟨⟨lower, ?_⟩, code, here⟩
    rcases visits.le_or_ge (.literal skips) code.1 with before | behind
    · rcases Nat.lt_or_eq_of_le before with before | rfl
      · exact before
      · cases skips.symm.trans code.2
    · omega
  · rintro ⟨⟨lower, upper⟩, code⟩
    exact ⟨⟨lower, by omega⟩, code⟩

/-! ## The closing bracket -/

section Search

variable {text : Text} {opener closer : Symbol} {opening : Nat}

theorem outnumbered_iff {offset : Nat} (visits : VisitsCode text (opening + 1) offset) :
    Outnumbered text opener closer opening offset ↔
      tally text closer (opening + 1) (offset + 1) = tally text opener (opening + 1) (offset + 1) + 1 := by
  rw [Outnumbered, countBehind_eq_tally, countBehind_eq_tally]
  exact ⟨fun outnumbered => outnumbered.2.2, fun count => ⟨Visits.le visits.1, visits, count⟩⟩

/-- How far the search for the closing bracket has come: of the brackets before the offset, `nested` more
open than close, and nowhere so far the closing ones were one more. -/
structure Searching (text : Text) (opener closer : Symbol) (opening nested offset : Nat) : Prop where
  visits : Visits text (opening + 1) offset
  depth : tally text closer (opening + 1) offset + nested = tally text opener (opening + 1) offset
  unmet : ∀ place < offset, ¬ Outnumbered text opener closer opening place

theorem Searching.start : Searching text opener closer opening 0 (opening + 1) := by
  refine ⟨.refl, ?_, fun place before met => ?_⟩
  · rw [tally_start, tally_start]
  · exact Nat.not_lt_of_le (Nat.le_of_lt_succ before) met.1

variable {nested offset : Nat}

/-- A character of code leaves the search where it is as long as the brackets are not outnumbered. -/
theorem Searching.code (searching : Searching text opener closer opening nested offset)
    (plain : literalStop? text offset = .ok none) {next : Nat}
    (depth : tally text closer (opening + 1) (offset + 1) + next =
      tally text opener (opening + 1) (offset + 1)) :
    Searching text opener closer opening next (offset + 1) := by
  refine ⟨searching.visits.tail (.code plain), depth, fun place before => ?_⟩
  rcases Nat.lt_succ_iff_lt_or_eq.mp before with before | rfl
  · exact searching.unmet place before
  · rw [outnumbered_iff ⟨searching.visits, plain⟩]
    omega

theorem Searching.literal (searching : Searching text opener closer opening nested offset) {stop : Nat}
    (skips : literalStop? text offset = .ok (some stop)) :
    Searching text opener closer opening nested stop := by
  refine ⟨searching.visits.tail (.literal skips), ?_, fun place before met => ?_⟩
  · rw [tally_literal searching.visits skips, tally_literal searching.visits skips]
    exact searching.depth
  · rcases searching.visits.le_or_ge (.literal skips) met.2.1.1 with till | behind
    · rcases Nat.lt_or_eq_of_le till with earlier | rfl
      · exact searching.unmet place earlier met
      · cases skips.symm.trans met.2.1.2
    · exact Nat.not_lt_of_le behind before

theorem Searching.isLeast (searching : Searching text opener closer opening 0 offset)
    (different : closer ≠ opener) (plain : literalStop? text offset = .ok none)
    (here : text[offset]? = some closer) :
    IsLeast {place | Outnumbered text opener closer opening place} offset := by
  have code : VisitsCode text (opening + 1) offset := ⟨searching.visits, plain⟩
  refine ⟨(outnumbered_iff code).mpr ?_, fun place met => ?_⟩
  · rw [tally_code code, tally_code code, here, if_pos rfl, if_neg fun same =>
      different (Option.some.inj same), ← searching.depth]
  · exact Nat.le_of_not_lt fun before => searching.unmet place before met

theorem Searching.unmet_of_length_le (searching : Searching text opener closer opening nested offset)
    (beyond : text.length ≤ offset) (place : Nat) :
    ¬ Outnumbered text opener closer opening place := by
  intro met
  have inside := lt_of_literalStop? met.2.1.2
  exact searching.unmet place (Nat.lt_of_lt_of_le inside beyond) met

theorem Searching.closeOffset?_spec (different : closer ≠ opener)
    (searching : Searching text opener closer opening nested offset) :
    (∀ stop, closeOffset? opener closer nested offset (piecesFrom text offset) = some stop →
      IsLeast {place | Outnumbered text opener closer opening place} stop) ∧
    (closeOffset? opener closer nested offset (piecesFrom text offset) = none →
      ∀ place, ¬ Outnumbered text opener closer opening place) := by
  -- The induction follows the scan; each step keeps `Searching`, with the depth that the counter has next.
  induction offset using scan_induction generalizing nested with
  | done offset beyond =>
    have nothing : piecesFrom text offset = [] := by
      rw [piecesFrom, List.drop_eq_nil_of_le beyond, pieces]
    rw [nothing]
    exact ⟨fun stop found => (by cases found), fun _ => searching.unmet_of_length_le beyond⟩
  | step offset next taken ih =>
    cases taken with
    | literal skips =>
      obtain ⟨first, inner, rfl, scan⟩ := piecesFrom_of_skips skips
      rw [scan, closeOffset?_literal]
      exact ih (searching.literal skips)
    | code plain =>
      obtain ⟨c, here, scan⟩ := piecesFrom_of_plain plain
      have depth := searching.depth
      have closers := tally_code ⟨searching.visits, plain⟩ closer
      have openers := tally_code ⟨searching.visits, plain⟩ opener
      simp only [here, Option.some.injEq] at closers openers
      rw [scan]
      by_cases opens : c = opener
      · rw [opens, closeOffset?_opener]
        rw [opens, if_neg different.symm] at closers
        rw [if_pos opens] at openers
        exact ih (searching.code plain (by omega))
      · rw [if_neg opens] at openers
        by_cases closes : c = closer
        · rw [if_pos closes] at closers
          rw [closes] at here ⊢
          cases nested with
          | zero =>
            rw [closeOffset?_closer different]
            refine ⟨fun stop found => ?_, fun found => by cases found⟩
            obtain rfl := Option.some.inj found
            exact searching.isLeast different plain here
          | succ nested =>
            rw [closeOffset?_inner_closer different]
            exact ih (searching.code plain (by omega))
        · rw [if_neg closes] at closers
          rw [closeOffset?_other opens closes]
          exact ih (searching.code plain (by omega))

end Search

theorem matchingClose_ends {text : Text} {opening : Nat} {opener closer : Symbol}
    (holds : text[opening]? = some opener) (pair : closerOf? opener = some closer) :
    (∃ stop, matchingClose text opening = .ok stop ∧
      IsLeast {offset | Outnumbered text opener closer opening offset} stop) ∨
    (matchingClose text opening = .error (.unclosedBracket opener closer opening) ∧
      ¬ ∃ offset, Outnumbered text opener closer opening offset) := by
  have different := ne_opener_of_closerOf? pair (closerOf?_closer pair)
  have shape : text.drop opening = opener :: text.drop (opening + 1) := by
    obtain ⟨inside, rfl⟩ := List.getElem?_eq_some_iff.mp holds
    exact List.drop_eq_getElem_cons inside
  have search : Searching text opener closer opening 0 (opening + 1) := .start
  obtain ⟨finds, fails⟩ := search.closeOffset?_spec different
  cases closed : closeOffset? opener closer 0 (opening + 1) (piecesFrom text (opening + 1)) with
  | some stop => exact .inl ⟨stop, by simp [matchingClose, shape, pair, closed], finds stop closed⟩
  | none =>
    exact .inr ⟨by simp [matchingClose, shape, pair, closed], not_exists.mpr (fails closed)⟩

/-- The bracket that closes the one at an offset, wherever in the text that lies: it is at the least visited
offset of code behind the opening bracket up to which the closing brackets of its kind are one more than
the opening ones. The search fails, for want of a closing bracket, just where there is no such offset. Every
step of the scan goes forward and stays in the text, however a literal is broken off, so the scan comes to
the end of the text. -/
theorem matchingClose_least_outnumbered {text : Text} {opening : Nat} {opener closer : Symbol}
    (holds : text[opening]? = some opener) (pair : closerOf? opener = some closer) :
    (∀ stop, matchingClose text opening = .ok stop ↔
      IsLeast {offset | Outnumbered text opener closer opening offset} stop) ∧
    (∀ fault, matchingClose text opening = .error fault ↔
      fault = .unclosedBracket opener closer opening ∧
        ¬ ∃ offset, Outnumbered text opener closer opening offset) ∧
    (∀ offset next, Step text offset next → offset < next ∧ next ≤ text.length) ∧
    Visits text (opening + 1) text.length := by
  have inside := (List.getElem?_eq_some_iff.mp holds).1
  refine ⟨fun stop => ?_, fun fault => ?_, fun _ _ step => step.bounds, visits_length inside⟩
  · rcases matchingClose_ends holds pair with ⟨found, ends, least⟩ | ⟨ends, nowhere⟩
    · rw [ends, Except.ok.injEq]
      exact ⟨fun same => same ▸ least, least.unique⟩
    · rw [ends]
      exact iff_of_false (by intro h; cases h) fun least => nowhere ⟨stop, least.1⟩
  · rcases matchingClose_ends holds pair with ⟨found, ends, least⟩ | ⟨ends, nowhere⟩
    · rw [ends]
      exact iff_of_false (by intro h; cases h) fun failed => failed.2 ⟨found, least.1⟩
    · rw [ends, Except.error.injEq]
      exact ⟨fun same => ⟨same.symm, nowhere⟩, fun failed => failed.1.symm⟩

/-- Brackets in a string that its line breaks off, in a regular expression and in a comment that is not
closed; the brackets of other kinds do not match. -/
theorem matchingClose_least_outnumbered_broken :
    let text : Text := "f(a[(/[)]/, 'x)\n) ] ) /* )"
    text[1]? = some (.char '(') ∧ closerOf? (.char '(') = some (.char ')') ∧
      IsLeast {offset | Outnumbered text (.char '(') (.char ')') 1 offset} 20 := by
  intro text
  have holds : text[1]? = some (.char '(') := by decide
  have pair : closerOf? (.char '(') = some (.char ')') := by decide
  have found : matchingClose text 1 = .ok 20 := by decide +kernel
  exact ⟨holds, pair, ((matchingClose_least_outnumbered holds pair).1 20).mp found⟩

end SuiteDocs.Source
