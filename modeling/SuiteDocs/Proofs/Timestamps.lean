import Mathlib.Algebra.Group.Nat.Defs
import SuiteDocs.Proofs.Calendar
import SuiteDocs.Proofs.Order

/-!
Timestamps and the instants that moments denote.

A timestamp is made of numbers at fixed widths, the largest unit first. So it comes before another just
where the number of milliseconds is smaller: at every unit the smaller number comes first, and where two
numbers agree the next smaller unit decides.
-/

set_option autoImplicit false

namespace SuiteDocs

open SuiteDocs.Text

/-! ## Numbers split into units -/

/-- A way to write the numbers below a bound as lists of one length, a larger number as a later list. -/
structure IsIncreasing (bound : Nat) (form : Nat → List Nat) : Prop where
  length : ∀ x y, x < bound → y < bound → (form x).length = (form y).length
  order : ∀ x y, x < y → y < bound → List.Lex (· < ·) (form x) (form y)

theorem lex_append {a b : List Nat} (order : List.Lex (· < ·) a b) (same : a.length = b.length)
    (restA restB : List Nat) : List.Lex (· < ·) (a ++ restA) (b ++ restB) := by
  induction order with
  | nil => cases same
  | rel less => exact .rel less
  | cons order ih => exact .cons (ih (Nat.succ.inj same))

/-- One more unit, in which the rest of a division is written. -/
theorem IsIncreasing.append_unit {bound base : Nat} {form : Nat → List Nat} {digit : Nat → Nat}
    (increasing : IsIncreasing bound form) (digits : ∀ a b, a < b → b < base → digit a < digit b) :
    IsIncreasing (bound * base) fun x => form (x / base) ++ [digit (x % base)] := by
  have inside {x : Nat} (below : x < bound * base) : x / base < bound :=
    Nat.div_lt_of_lt_mul (Nat.mul_comm bound base ▸ below)
  constructor
  · intro x y belowX belowY
    simpa using increasing.length _ _ (inside belowX) (inside belowY)
  · intro x y less below
    have quotients : x / base ≤ y / base := Nat.div_le_div_right (Nat.le_of_lt less)
    -- Where the quotients are equal, the rests decide.
    rcases Nat.lt_or_eq_of_le quotients with smaller | same
    · have belowX := Nat.lt_trans less below
      exact lex_append (increasing.order _ _ smaller (inside below))
        (increasing.length _ _ (inside belowX) (inside below)) _ _
    · have positive : 0 < base := Nat.pos_of_mul_pos_left (Nat.zero_lt_of_lt below)
      have rests : x % base < y % base := by
        have splitX := Nat.div_add_mod x base
        have splitY := Nat.div_add_mod y base
        rw [same] at splitX
        omega
      simp only [same]
      exact .append_left _ (.rel (digits _ _ rests (Nat.mod_lt _ positive))) _

namespace Moment

/-! ## Numbers at a width -/

theorem padded_one {n : Nat} (digit : n < 10) : padded 1 n = [.char n.digitChar] := by
  simp [padded, Text.ofNat, Nat.toDigits_of_lt_base digit]

theorem padded_succ (width n : Nat) :
    padded (width + 2) n = padded (width + 1) (n / 10) ++ [.char (n % 10).digitChar] := by
  by_cases digit : n < 10
  · have tens : n / 10 = 0 := Nat.div_eq_of_lt digit
    have whole : n % 10 = n := Nat.mod_eq_of_lt digit
    simp [padded, Text.ofNat, Nat.toDigits_of_lt_base digit, tens, whole, List.replicate_succ']
  · have more := Nat.toDigits_of_base_le (by decide : 1 < 10) (Nat.le_of_not_lt digit)
    simp [padded, Text.ofNat, more]

theorem isIncreasing_padded (width : Nat) :
    IsIncreasing (10 ^ (width + 1)) fun n => (padded (width + 1) n).map Symbol.code := by
  have digits (a b : Nat) (less : a < b) (below : b < 10) :
      (Symbol.char a.digitChar).code < (Symbol.char b.digitChar).code := by
    simp only [Symbol.code, Nat.toNat_digitChar_of_lt_ten below,
      Nat.toNat_digitChar_of_lt_ten (Nat.lt_trans less below)]
    omega
  induction width with
  | zero =>
    constructor
    · intro x y belowX belowY
      rw [padded_one belowX, padded_one belowY]
      rfl
    · intro x y less below
      rw [padded_one (Nat.lt_trans less below), padded_one below]
      exact .rel (digits x y less below)
  | succ width ih =>
    rw [Nat.pow_succ]
    simpa only [padded_succ, List.map_append, List.map_singleton] using ih.append_unit digits

/-- Numbers at their widths, each with a mark behind it. -/
def written : List (Nat × Text) → List Nat → Text
  | (width, mark) :: form, value :: values => padded width value ++ mark ++ written form values
  | _, _ => []

def Fits : List (Nat × Text) → List Nat → Prop :=
  List.Forall₂ fun part value => 1 ≤ part.1 ∧ value < 10 ^ part.1

theorem written_before {form : List (Nat × Text)} {earlier later : List Nat}
    (fitsEarlier : Fits form earlier) (fitsLater : Fits form later)
    (order : List.Lex (· < ·) earlier later) :
    Before (written form earlier) (written form later) := by
  -- The first number that differs decides, as texts of one width are in the order of their numbers.
  induction fitsEarlier generalizing later with
  | nil =>
    cases fitsLater
    cases order
  | @cons part value form values fit fits ih =>
    obtain ⟨width, mark⟩ := part
    obtain ⟨counted, below⟩ := fit
    cases fitsLater with
    | cons fitLater fitsLater =>
      simp only [written, Before, List.map_append, List.append_assoc]
      cases order with
      | rel less =>
        obtain ⟨width, rfl⟩ := Nat.exists_eq_add_of_le' counted
        have increasing := isIncreasing_padded width
        exact lex_append (increasing.order _ _ less fitLater.2)
          (increasing.length _ _ below fitLater.2) _ _
      | cons order => exact .append_left _ (.append_left _ (ih fitsLater order) _) _

/-! ## Timestamps of milliseconds -/

/-- The parts of a timestamp: the widths of its numbers and what stands behind them. -/
def stampForm : List (Nat × Text) :=
  [(4, "-"), (2, "-"), (2, "T"), (2, ":"), (2, ":"), (2, "."), (3, "Z")]

def stampFields (milliseconds : Nat) : List Nat :=
  (Date.ofNumber (milliseconds / 1000 / 60 / 60 / 24)).fields ++
    [milliseconds / 1000 / 60 / 60 % 24] ++ [milliseconds / 1000 / 60 % 60] ++
    [milliseconds / 1000 % 60] ++ [milliseconds % 1000]

theorem timestampOf_eq (milliseconds : Nat) :
    timestampOf milliseconds = written stampForm (stampFields milliseconds) := by
  simp only [timestampOf, stampForm, stampFields, Date.fields, Date.ofNumber, written,
    List.cons_append, List.nil_append, List.append_assoc, List.append_nil]

theorem isIncreasing_fields (bound : Nat) :
    IsIncreasing bound fun number => (Date.ofNumber number).fields := by
  constructor
  · intro x y belowX belowY
    rw [Date.length_fields, Date.length_fields]
  · intro x y less below
    obtain ⟨validX, numberX⟩ := Date.ofNumber_spec x
    obtain ⟨validY, numberY⟩ := Date.ofNumber_spec y
    exact Date.fields_lex validX validY (by rw [numberX, numberY]; exact less)

theorem isIncreasing_stampFields (days : Nat) :
    IsIncreasing (days * 24 * 60 * 60 * 1000) stampFields := by
  have rest {base : Nat} (a b : Nat) (less : a < b) (_ : b < base) : id a < id b := less
  -- Hours, minutes, seconds and milliseconds follow the date, one unit after the other.
  exact ((((isIncreasing_fields days).append_unit rest).append_unit rest).append_unit
    rest).append_unit rest

/-- The first millisecond after the calendar. -/
def stampEnd : Nat :=
  daysBeforeYear 10000 * 24 * 60 * 60 * 1000

theorem day_lt {milliseconds days : Nat} (inside : milliseconds < days * 24 * 60 * 60 * 1000) :
    milliseconds / 1000 / 60 / 60 / 24 < days := by
  omega

theorem fits_stampFields {milliseconds : Nat} (inside : milliseconds < stampEnd) :
    Fits stampForm (stampFields milliseconds) := by
  obtain ⟨valid, number⟩ := Date.ofNumber_spec (milliseconds / 1000 / 60 / 60 / 24)
  have days := day_lt inside
  rw [← number, valid.number_lt_iff (by decide)] at days
  have month := valid.month.2
  have day := Nat.le_trans valid.day.2 (Date.monthLength_bounds valid.month).2
  simp only [Fits, stampForm, stampFields, Date.fields, List.cons_append, List.nil_append,
    List.forall₂_cons, List.Forall₂.nil, and_true]
  omega

theorem timestampOf_before {earlier later : Nat} (less : earlier < later) (inside : later < stampEnd) :
    Before (timestampOf earlier) (timestampOf later) := by
  rw [timestampOf_eq, timestampOf_eq]
  exact written_before (fits_stampFields (Nat.lt_trans less inside)) (fits_stampFields inside)
    ((isIncreasing_stampFields _).order _ _ less inside)

theorem timestampOf_compare {x y : Nat} (insideX : x < stampEnd) (insideY : y < stampEnd) :
    (timestampOf x = timestampOf y ↔ x = y) ∧ (Before (timestampOf x) (timestampOf y) ↔ x < y) := by
  rcases Nat.lt_trichotomy x y with less | rfl | more
  · have before := timestampOf_before less insideY
    refine ⟨iff_of_false (fun same => ?_) (Nat.ne_of_lt less), iff_of_true before less⟩
    rw [same] at before
    exact not_before_self _ before
  · exact ⟨iff_of_true rfl rfl, iff_of_false (not_before_self _) (Nat.lt_irrefl x)⟩
  · have after := timestampOf_before more insideX
    refine ⟨iff_of_false (fun same => ?_) (Nat.ne_of_gt more),
      iff_of_false (fun before => ?_) (Nat.lt_asymm more)⟩
    · rw [same] at after
      exact not_before_self _ after
    · exact asymm_of (List.Lex (· < ·)) before after

/-! ## Instants -/

/-- The date of a moment, where its clock is. -/
def date (moment : Moment) : Date :=
  ⟨moment.year.toNat, moment.month.toNat, moment.day.toNat⟩

/-- The fields are those of a day of the years 1 to 9999 and of a time of day, and the offset is less
than a day. -/
structure IsValid (moment : Moment) : Prop where
  date : moment.date.IsValid
  year : moment.year ≤ 9999
  hour : 0 ≤ moment.hour ∧ moment.hour ≤ 23
  minute : 0 ≤ moment.minute ∧ moment.minute ≤ 59
  second : 0 ≤ moment.second ∧ moment.second ≤ 59
  microsecond : 0 ≤ moment.microsecond ∧ moment.microsecond ≤ 999999
  offset : ∀ offset ∈ moment.offset, -86400 < offset ∧ offset < 86400

/-- The instant of a moment, in microseconds of universal time: so many days of the calendar have passed
since its first one, and the clock is ahead by the offset. -/
def Denotes (moment : Moment) (instant : Int) : Prop :=
  ∃ days : Nat, Date.next^[days] Date.first = moment.date ∧
    instant = (days * 86400 + moment.hour * 3600 + moment.minute * 60 + moment.second -
      moment.offset.getD 0) * 1000000 + moment.microsecond

/-- An instant on a day of the years 1 to 9999, in universal time. -/
def InCalendar (instant : Int) : Prop :=
  ∃ days : Nat, (Date.next^[days] Date.first).year ≤ 9999 ∧
    days * (86400 * 1000000) ≤ instant ∧ instant < (days + 1) * (86400 * 1000000)

theorem Denotes.eq_instant {moment : Moment} {instant : Int} (denotes : moment.Denotes instant) :
    instant = moment.instant := by
  obtain ⟨days, reached, rfl⟩ := denotes
  have counted : days = dayNumber moment.year.toNat moment.month.toNat moment.day.toNat := by
    rw [← Date.number_iterate days, reached]
    rfl
  simp only [Moment.instant, ← counted]
  omega

theorem IsValid.denotes {moment : Moment} (valid : moment.IsValid) : moment.Denotes moment.instant := by
  refine ⟨moment.date.number, valid.date.iterate_number, ?_⟩
  have same : dayNumber moment.year.toNat moment.month.toNat moment.day.toNat = moment.date.number := rfl
  simp only [Moment.instant, same]
  omega

theorem InCalendar.bounds {instant : Int} (inside : InCalendar instant) :
    0 ≤ instant ∧ instant < endOfCalendar := by
  obtain ⟨days, year, lower, upper⟩ := inside
  have before : days < daysBeforeYear 10000 := by
    rw [← Date.number_iterate days, (Date.isValid_iterate days).number_lt_iff (by decide)]
    exact Nat.lt_succ_of_le year
  simp only [endOfCalendar]
  omega

theorem millisecond_lt {instant : Int} {days : Nat} (start : 0 ≤ instant)
    (stop : instant < (days : Int) * 86400 * 1000000) :
    instant.toNat / 1000 < days * 24 * 60 * 60 * 1000 := by
  omega

theorem fitsWord_of_natAbs_lt {bits : Nat} {value : Int} (small : value.natAbs < 2 ^ bits) :
    fitsWord bits value = true := by
  have limit : ((Nat.pow 2 bits : Nat) : Int) = ((2 ^ bits : Nat) : Int) := rfl
  simp only [fitsWord, limit, Bool.and_eq_true, decide_eq_true_eq]
  omega

theorem checkOffset_eq_ok {offset : Int} (low : -86400 < offset) (high : offset < 86400) :
    checkOffset offset = .ok () := by
  have days : (offset.fdiv 86400).natAbs ≤ 1 := by
    rw [Int.fdiv_eq_ediv_of_nonneg offset (by decide)]
    omega
  have word : fitsWord 31 (offset.fdiv 86400) = true :=
    fitsWord_of_natAbs_lt (Nat.lt_of_le_of_lt days (by decide))
  have span : ¬ 999999999 < (offset.fdiv 86400).natAbs := by omega
  have inside : (decide (offset ≤ -86400) || decide (86400 ≤ offset)) = false := by
    simp only [Bool.or_eq_false_iff, decide_eq_false_iff_not]
    omega
  simp [checkOffset, word, span, inside]

theorem checkWord_eq_ok {value : Int} (small : value.natAbs < 2 ^ 31) : checkWord value = .ok () := by
  have word : fitsWord 31 value = true := fitsWord_of_natAbs_lt small
  have long : fitsWord 63 value = true :=
    fitsWord_of_natAbs_lt (Nat.lt_trans small (by decide))
  simp [checkWord, word, long]

theorem forM_checkWord {values : List Int} (small : ∀ value ∈ values, value.natAbs < 2 ^ 31) :
    values.forM checkWord = .ok () := by
  induction values with
  | nil => rfl
  | cons value values ih =>
    rw [List.forM, checkWord_eq_ok (small value List.mem_cons_self)]
    exact ih fun other member => small other (List.mem_cons_of_mem value member)

theorem outside_eq_false {low value high : Int} (range : low ≤ value ∧ value ≤ high) :
    (decide (value < low) || decide (high < value)) = false := by
  simp only [Bool.or_eq_false_iff, decide_eq_false_iff_not]
  omega

theorem IsValid.check_eq_ok {moment : Moment} (valid : moment.IsValid) : moment.check = .ok () := by
  obtain ⟨⟨yearFrom, months, dayFrom, dayTo⟩, year, hour, minute, second, microsecond, offset⟩ :=
    valid
  have longest : Date.monthLength moment.date.year moment.date.month ≤ 31 :=
    (Date.monthLength_bounds months).2
  simp only [Moment.date] at yearFrom months dayFrom dayTo longest
  have shift : moment.offset.forM checkOffset = .ok () := by
    cases given : moment.offset with
    | none => rfl
    | some ahead =>
      obtain ⟨low, high⟩ := offset ahead given
      exact checkOffset_eq_ok low high
  have words : [moment.year, moment.month, moment.day, moment.hour, moment.minute, moment.second,
      moment.microsecond].forM checkWord = .ok () := by
    apply forM_checkWord
    simp only [List.forall_mem_cons, List.not_mem_nil, false_implies, implies_true, and_true]
    omega
  have index : (moment.month - 1).toNat = moment.month.toNat - 1 := by omega
  have years : 1 ≤ moment.year ∧ moment.year ≤ 9999 := by omega
  have months : 1 ≤ moment.month ∧ moment.month ≤ 12 := by omega
  have days : 1 ≤ moment.day ∧
      moment.day ≤ (monthLengths moment.year.toNat).getD (moment.month - 1).toNat 0 := by
    rw [index]
    rw [Date.monthLength] at dayTo
    omega
  simp only [check, shift, words, outside_eq_false years, outside_eq_false months,
    outside_eq_false days, outside_eq_false hour, outside_eq_false minute, outside_eq_false second,
    outside_eq_false microsecond]
  rfl

theorem timestamp_eq {moment : Moment} {instant : Int} (valid : moment.IsValid)
    (denotes : moment.Denotes instant) (inside : InCalendar instant) :
    moment.timestamp = .ok (timestampOf (instant.toNat / 1000)) := by
  obtain rfl := denotes.eq_instant
  obtain ⟨start, stop⟩ := inside.bounds
  have range : (decide (moment.instant < 0) || decide (endOfCalendar ≤ moment.instant)) = false := by
    simp only [Bool.or_eq_false_iff, decide_eq_false_iff_not]
    omega
  simp only [timestamp, valid.check_eq_ok, range]
  rfl

/-- Timestamps of valid moments compare like the instants in the calendar that the moments denote, cut to
milliseconds. -/
theorem timestamps_order_instants {a b : Moment} {x y : Int} (validA : a.IsValid) (validB : b.IsValid)
    (denotesX : a.Denotes x) (denotesY : b.Denotes y) (insideX : InCalendar x)
    (insideY : InCalendar y) :
    ∃ s t, a.timestamp = .ok s ∧ b.timestamp = .ok t ∧
      (s = t ↔ x / 1000 = y / 1000) ∧ (Before s t ↔ x / 1000 < y / 1000) := by
  refine ⟨_, _, timestamp_eq validA denotesX insideX, timestamp_eq validB denotesY insideY, ?_⟩
  obtain ⟨startX, stopX⟩ := insideX.bounds
  obtain ⟨startY, stopY⟩ := insideY.bounds
  obtain ⟨equal, before⟩ :=
    timestampOf_compare (millisecond_lt startX stopX) (millisecond_lt startY stopY)
  rw [equal, before]
  omega

/-- A clock an hour ahead shows the first of March while it is still the leap day. -/
theorem timestamps_order_instants_leapDay :
    let ahead : Moment := ⟨2024, 3, 1, 0, 30, 0, 999, some 3600⟩
    let universal : Moment := ⟨2024, 2, 29, 23, 30, 0, 1000, none⟩
    ahead.IsValid ∧ universal.IsValid ∧ ahead.Denotes 63844846200000999 ∧
      universal.Denotes 63844846200001000 ∧ InCalendar 63844846200000999 ∧
      InCalendar 63844846200001000 ∧
      ∃ s t, ahead.timestamp = .ok s ∧ universal.timestamp = .ok t ∧ s ≠ t ∧ Before s t := by
  intro ahead universal
  have validAhead : ahead.IsValid :=
    ⟨⟨by decide, by decide, by decide⟩, by decide, by decide, by decide, by decide, by decide,
      by rintro offset ⟨⟩; decide⟩
  have validUniversal : universal.IsValid :=
    ⟨⟨by decide, by decide, by decide⟩, by decide, by decide, by decide, by decide, by decide,
      by rintro offset ⟨⟩⟩
  have instantAhead : ahead.instant = 63844846200000999 := by decide
  have instantUniversal : universal.instant = 63844846200001000 := by decide
  have denotesAhead := instantAhead ▸ validAhead.denotes
  have denotesUniversal := instantUniversal ▸ validUniversal.denotes
  -- Both instants lie on the leap day.
  have year : (Date.next^[universal.date.number] Date.first).year ≤ 9999 := by
    rw [validUniversal.date.iterate_number]
    decide
  have inAhead : InCalendar 63844846200000999 := ⟨_, year, by decide, by decide⟩
  have inUniversal : InCalendar 63844846200001000 := ⟨_, year, by decide, by decide⟩
  obtain ⟨s, t, stampS, stampT, equal, before⟩ := timestamps_order_instants validAhead validUniversal
    denotesAhead denotesUniversal inAhead inUniversal
  exact ⟨validAhead, validUniversal, denotesAhead, denotesUniversal, inAhead, inUniversal, s, t,
    stampS, stampT, mt equal.mp (by decide), before.mpr (by decide)⟩

end Moment

end SuiteDocs
