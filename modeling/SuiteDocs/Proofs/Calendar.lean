import Mathlib.Data.List.GetD
import Mathlib.Data.List.Lex
import Mathlib.Logic.Function.Iterate
import SuiteDocs.Moment

/-!
Days of the calendar and their numbers.

The calendar is the rule by which one date follows another, from the first of January of the year 1 on.
The number of a date is reckoned from its fields and a date from its number, in each case without a
walk through the days between. Both agree with that walk, so the numbers are in the order of the dates.
-/

set_option autoImplicit false

namespace SuiteDocs

open Moment

/-- A day of the calendar. Months and days are counted from 1. -/
structure Date where
  year : Nat
  month : Nat
  day : Nat
  deriving DecidableEq, Repr

namespace Date

/-- The number of days of a month. -/
def monthLength (year month : Nat) : Nat :=
  (monthLengths year).getD (month - 1) 0

/-- The day with which the calendar begins. -/
def first : Date := ⟨1, 1, 1⟩

/-- The day that follows. -/
def next (date : Date) : Date :=
  if date.day < monthLength date.year date.month then { date with day := date.day + 1 }
  else if date.month < 12 then ⟨date.year, date.month + 1, 1⟩
  else ⟨date.year + 1, 1, 1⟩

/-- The fields are those of a day. -/
structure IsValid (date : Date) : Prop where
  year : 1 ≤ date.year
  month : 1 ≤ date.month ∧ date.month ≤ 12
  day : 1 ≤ date.day ∧ date.day ≤ monthLength date.year date.month

/-- The number of a date, reckoned from its fields. -/
def number (date : Date) : Nat :=
  dayNumber date.year date.month date.day

/-- The number of days of a year before one of its months, or before the end of it. -/
def daysBeforeMonth (year month : Nat) : Nat :=
  ((monthLengths year).take (month - 1)).foldr (· + ·) 0

theorem number_eq (date : Date) : date.number =
    daysBeforeYear date.year + daysBeforeMonth date.year date.month + (date.day - 1) := rfl

theorem foldr_take_succ (lengths : List Nat) (count : Nat) :
    (lengths.take (count + 1)).foldr (· + ·) 0 =
      (lengths.take count).foldr (· + ·) 0 + lengths.getD count 0 := by
  induction lengths generalizing count with
  | nil => simp
  | cons length rest ih =>
    cases count with
    | zero => simp
    | succ count =>
      simp only [List.take_succ_cons, List.foldr_cons, List.getD_cons_succ, ih]
      omega

theorem daysBeforeMonth_succ {month : Nat} (counted : 1 ≤ month) (year : Nat) :
    daysBeforeMonth year (month + 1) = daysBeforeMonth year month + monthLength year month := by
  obtain ⟨index, rfl⟩ := Nat.exists_eq_add_of_le' counted
  exact foldr_take_succ (monthLengths year) index

theorem isLeap_iff {year : Nat} :
    isLeap year = true ↔ year % 4 = 0 ∧ (year % 100 ≠ 0 ∨ year % 400 = 0) := by
  simp [isLeap]

theorem yearLength (year : Nat) : daysBeforeMonth year 13 = if isLeap year then 366 else 365 := by
  simp only [daysBeforeMonth, monthLengths]
  split <;> rfl

/-- A year is as long as its months. -/
theorem daysBeforeYear_succ {year : Nat} (counted : 1 ≤ year) :
    daysBeforeYear (year + 1) = daysBeforeYear year + daysBeforeMonth year 13 := by
  obtain ⟨past, rfl⟩ := Nat.exists_eq_add_of_le' counted
  simp only [daysBeforeYear, yearLength, isLeap_iff, Nat.add_sub_cancel, Nat.succ_div,
    Nat.dvd_iff_mod_eq_zero]
  have fewer : past / 100 ≤ past / 4 := Nat.div_le_div_left (by decide) (by decide)
  -- Each of the four-year, hundred-year and four-hundred-year rules adds or takes away one day.
  split <;> split <;> split <;> split <;> omega

theorem monthLength_bounds {year month : Nat} (counted : 1 ≤ month ∧ month ≤ 12) :
    1 ≤ monthLength year month ∧ monthLength year month ≤ 31 := by
  have february : 1 ≤ (if isLeap year then 29 else 28) ∧ (if isLeap year then 29 else 28) ≤ 31 := by
    split <;> decide
  have all : ∀ length ∈ monthLengths year, 1 ≤ length ∧ length ≤ 31 := by
    simpa [monthLengths] using february
  have listed : month - 1 < (monthLengths year).length := by
    change month - 1 < 12
    omega
  rw [monthLength, List.getD_eq_getElem _ _ listed]
  exact all _ (List.getElem_mem listed)

theorem IsValid.next {date : Date} (valid : date.IsValid) : date.next.IsValid := by
  obtain ⟨year, ⟨month, last⟩, day, -⟩ := valid
  rw [Date.next]
  split
  · rename_i inMonth
    exact ⟨year, ⟨month, last⟩, Nat.le_succ_of_le day, inMonth⟩
  · split
    · rename_i inYear
      have counted : 1 ≤ date.month + 1 ∧ date.month + 1 ≤ 12 := ⟨Nat.succ_pos _, inYear⟩
      exact ⟨year, counted, Nat.le_refl 1, (monthLength_bounds counted).1⟩
    · have counted : 1 ≤ 1 ∧ 1 ≤ 12 := by decide
      exact ⟨Nat.le_succ_of_le year, counted, Nat.le_refl 1, (monthLength_bounds counted).1⟩

theorem IsValid.number_next {date : Date} (valid : date.IsValid) :
    date.next.number = date.number + 1 := by
  obtain ⟨year, ⟨month, last⟩, day, inMonth⟩ := valid
  have ends := daysBeforeMonth_succ month date.year
  rw [Date.next]
  split
  · simp only [number_eq]
    omega
  · split
    · simp only [number_eq, ends]
      omega
    · have december : date.month + 1 = 13 := by omega
      have starts : daysBeforeMonth (date.year + 1) 1 = 0 := rfl
      rw [december] at ends
      simp only [number_eq, daysBeforeYear_succ year, starts, ends]
      omega

theorem isValid_first : first.IsValid :=
  ⟨by decide, by decide, by decide⟩

theorem isValid_iterate (days : Nat) : (next^[days] first).IsValid := by
  induction days with
  | zero => exact isValid_first
  | succ days ih =>
    rw [Function.iterate_succ_apply']
    exact ih.next

theorem number_iterate (days : Nat) : (next^[days] first).number = days := by
  induction days with
  | zero => rfl
  | succ days ih => rw [Function.iterate_succ_apply', (isValid_iterate days).number_next, ih]

/-! ## The order of dates -/

/-- The fields of a date, the largest unit first. -/
def fields (date : Date) : List Nat :=
  [date.year, date.month, date.day]

theorem length_fields (date : Date) : date.fields.length = 3 := rfl

theorem fields_injective {a b : Date} (same : a.fields = b.fields) : a = b := by
  cases a
  cases b
  simpa [fields] using same

theorem le_of_added {total added : Nat → Nat}
    (step : ∀ count, 1 ≤ count → total (count + 1) = total count + added count)
    {earlier later : Nat} (counted : 1 ≤ earlier) (order : earlier ≤ later) :
    total earlier ≤ total later := by
  induction order with
  | refl => exact Nat.le_refl _
  | step order ih =>
    rw [step _ (Nat.le_trans counted order)]
    exact Nat.le_add_right_of_le ih

theorem daysBeforeYear_le {earlier later : Nat} (counted : 1 ≤ earlier) (order : earlier ≤ later) :
    daysBeforeYear earlier ≤ daysBeforeYear later :=
  le_of_added (fun _ => daysBeforeYear_succ) counted order

theorem daysBeforeMonth_le (year : Nat) {earlier later : Nat} (counted : 1 ≤ earlier)
    (order : earlier ≤ later) : daysBeforeMonth year earlier ≤ daysBeforeMonth year later :=
  le_of_added (fun _ counted => daysBeforeMonth_succ counted year) counted order

theorem IsValid.number_in_month {date : Date} (valid : date.IsValid) :
    daysBeforeYear date.year + daysBeforeMonth date.year date.month ≤ date.number ∧
      date.number < daysBeforeYear date.year + daysBeforeMonth date.year (date.month + 1) := by
  obtain ⟨-, ⟨month, -⟩, day, inMonth⟩ := valid
  rw [daysBeforeMonth_succ month, number_eq]
  omega

theorem IsValid.number_in_year {date : Date} (valid : date.IsValid) :
    daysBeforeYear date.year ≤ date.number ∧ date.number < daysBeforeYear (date.year + 1) := by
  have inMonth := valid.number_in_month
  have inYear : daysBeforeMonth date.year (date.month + 1) ≤ daysBeforeMonth date.year 13 :=
    daysBeforeMonth_le date.year (Nat.succ_pos _) (Nat.succ_le_succ valid.month.2)
  rw [daysBeforeYear_succ valid.year]
  omega

theorem IsValid.number_lt_iff {date : Date} (valid : date.IsValid) {year : Nat} (counted : 1 ≤ year) :
    date.number < daysBeforeYear year ↔ date.year < year := by
  obtain ⟨starts, ends⟩ := valid.number_in_year
  constructor
  · intro before
    by_contra notBefore
    have since := daysBeforeYear_le counted (Nat.le_of_not_lt notBefore)
    omega
  · intro before
    exact Nat.lt_of_lt_of_le ends (daysBeforeYear_le (Nat.succ_pos _) before)

theorem number_lt_number {a b : Date} (validA : a.IsValid) (validB : b.IsValid)
    (order : List.Lex (· < ·) a.fields b.fields) : a.number < b.number := by
  have inYearA := validA.number_in_year
  have inYearB := validB.number_in_year
  have inMonthA := validA.number_in_month
  have inMonthB := validB.number_in_month
  obtain ⟨yearA, monthA, dayA⟩ := a
  obtain ⟨yearB, monthB, dayB⟩ := b
  cases order with
  | rel laterYear =>
    have ended := daysBeforeYear_le (Nat.succ_pos _) laterYear
    exact Nat.lt_of_lt_of_le inYearA.2 (Nat.le_trans ended inYearB.1)
  | cons order =>
    cases order with
    | rel laterMonth =>
      have ended := daysBeforeMonth_le yearA (Nat.succ_pos _) laterMonth
      exact Nat.lt_of_lt_of_le inMonthA.2
        (Nat.le_trans (Nat.add_le_add_left ended _) inMonthB.1)
    | cons order =>
      cases order with
      | rel laterDay =>
        have counted : 1 ≤ dayA := validA.day.1
        have laterDay : dayA < dayB := laterDay
        simp only [number_eq]
        omega
      | cons order => cases order

theorem fields_lex {a b : Date} (validA : a.IsValid) (validB : b.IsValid)
    (order : a.number < b.number) : List.Lex (· < ·) a.fields b.fields := by
  by_contra notEarlier
  by_cases later : List.Lex (· < ·) b.fields a.fields
  · exact Nat.lt_asymm order (number_lt_number validB validA later)
  · have same := fields_injective (Std.Trichotomous.trichotomous _ _ notEarlier later)
    exact Nat.ne_of_lt order (congrArg number same)

theorem IsValid.eq_of_number_eq {a b : Date} (validA : a.IsValid) (validB : b.IsValid)
    (same : a.number = b.number) : a = b := by
  apply fields_injective
  refine Std.Trichotomous.trichotomous (r := List.Lex (· < ·)) _ _ (fun earlier => ?_) fun later => ?_
  · exact Nat.ne_of_lt (number_lt_number validA validB earlier) same
  · exact Nat.ne_of_lt (number_lt_number validB validA later) same.symm

/-- Every date comes in the calendar, after as many others as its number says. -/
theorem IsValid.iterate_number {date : Date} (valid : date.IsValid) :
    Date.next^[date.number] first = date :=
  (isValid_iterate _).eq_of_number_eq valid (number_iterate _)

/-! ## The date of a number -/

theorem monthOf_spec {lengths : List Nat} {day : Nat}
    (inside : day < lengths.foldr (· + ·) 0) :
    (lengths.take (monthOf lengths day).1).foldr (· + ·) 0 + (monthOf lengths day).2 = day ∧
      (monthOf lengths day).1 < lengths.length ∧
      (monthOf lengths day).2 < lengths.getD (monthOf lengths day).1 0 := by
  induction lengths generalizing day with
  | nil => exact absurd inside (Nat.not_lt_zero _)
  | cons length rest ih =>
    rw [monthOf]
    split
    · rename_i here
      exact ⟨Nat.zero_add _, Nat.succ_pos _, here⟩
    · rename_i later
      have behind : day - length < rest.foldr (· + ·) 0 := by
        rw [List.foldr_cons] at inside
        omega
      obtain ⟨counted, listed, inMonth⟩ := ih behind
      refine ⟨?_, Nat.succ_lt_succ listed, inMonth⟩
      simp only [List.take_succ_cons, List.foldr_cons]
      omega

section Cycle

variable {cycle century fourYears single : Nat} (centuries : century ≤ 3)
  (inCentury : fourYears ≤ 24) (inFour : single ≤ 3)

include centuries inCentury inFour

/-- The days before a year, by the cycle of four hundred years, the century, the four years and the
single year in which it lies. -/
theorem daysBeforeYear_split :
    daysBeforeYear (cycle * 400 + century * 100 + fourYears * 4 + single + 1) =
      146097 * cycle + 36524 * century + 1461 * fourYears + 365 * single := by
  have fours : (cycle * 400 + century * 100 + fourYears * 4 + single) / 4 =
      cycle * 100 + century * 25 + fourYears := by omega
  have hundreds : (cycle * 400 + century * 100 + fourYears * 4 + single) / 100 =
      cycle * 4 + century := by omega
  have cycles : (cycle * 400 + century * 100 + fourYears * 4 + single) / 400 = cycle := by omega
  simp only [daysBeforeYear, Nat.add_sub_cancel, fours, hundreds, cycles]
  omega

/-- The last of four years is a leap year, but for the one that ends a century and no cycle. -/
theorem isLeap_split :
    isLeap (cycle * 400 + century * 100 + fourYears * 4 + single + 1) = true ↔
      single = 3 ∧ (fourYears < 24 ∨ century = 3) := by
  rw [isLeap_iff]
  omega

end Cycle

theorem yearOf_spec (day : Nat) :
    daysBeforeYear ((yearOf day).1 + 1) + (yearOf day).2 = day ∧
      (yearOf day).2 < daysBeforeMonth ((yearOf day).1 + 1) 13 := by
  simp only [yearOf]
  generalize rest : day % 146097 = inCycle
  generalize hundreds : min (inCycle / 36524) 3 = century
  generalize part : inCycle - century * 36524 = inCentury
  generalize fours : inCentury / 1461 = fourYears
  generalize left : inCentury % 1461 = inFour
  generalize ones : min (inFour / 365) 3 = single
  have small : century ≤ 3 := by omega
  have few : fourYears ≤ 24 := by omega
  have less : single ≤ 3 := by omega
  rw [daysBeforeYear_split small few less, yearLength]
  simp only [isLeap_split small few less]
  constructor
  · omega
  · split
    · omega
    · omega

/-- The date with a number, reckoned from it. -/
def ofNumber (number : Nat) : Date :=
  let (year, dayOfYear) := yearOf number
  let (month, day) := monthOf (monthLengths (year + 1)) dayOfYear
  ⟨year + 1, month + 1, day + 1⟩

theorem ofNumber_spec (number : Nat) :
    (ofNumber number).IsValid ∧ (ofNumber number).number = number := by
  obtain ⟨inYear, dayOfYear⟩ := yearOf_spec number
  simp only [ofNumber]
  generalize yearOf number = year at *
  have inside : year.2 < (monthLengths (year.1 + 1)).foldr (· + ·) 0 := dayOfYear
  obtain ⟨counted, listed, inMonth⟩ := monthOf_spec inside
  generalize monthOf (monthLengths (year.1 + 1)) year.2 = month at *
  have months : (monthLengths (year.1 + 1)).length = 12 := rfl
  rw [months] at listed
  refine ⟨⟨Nat.succ_pos _, ⟨Nat.succ_pos _, listed⟩, Nat.succ_pos _, inMonth⟩, ?_⟩
  have before : daysBeforeMonth (year.1 + 1) (month.1 + 1) + month.2 = year.2 := counted
  simp only [number_eq, Nat.add_sub_cancel]
  omega

end Date

end SuiteDocs
