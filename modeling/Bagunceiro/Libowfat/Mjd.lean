/-
# Libowfat.Mjd -- dates and their day numbers

`caldate_mjd` (the same patch) takes any month and any day; `caldate_normalize`
puts a date back that has been carried out of its month.  `caldateMjd_eq` says
that it counts the days of the calendar, and `caldate_frommjd` is its inverse:
every day number has a date (`caldateMjd_frommjd`), and a date that is one comes
back (`caldateFrommjd_mjd`).
-/
import Bagunceiro.Lib.Gregorian
import Bagunceiro.Libowfat.Caldate

namespace Bagunceiro

open Gregorian

set_option autoImplicit false

/-! ## From dates -/

def times365 : List Int := [0, 365, 730, 1095]
def times36524 : List Int := [0, 36524, 73048, 109572]
def montab : List Int := [0, 31, 61, 92, 122, 153, 184, 214, 245, 275, 306, 337]

def caldateMjd (cd : Caldate) : Int :=
  let d := cd.day - 678882
  let m := cd.month - 1
  let y := cd.year
  let d := d + 146097 * y.tdiv 400
  let y := y.tmod 400
  let (m, y) := if 2 ≤ m then (m - 2, y) else (m + 10, y - 1)
  let y := y + m.tdiv 12
  let m := m.tmod 12
  let (m, y) := if m < 0 then (m + 12, y - 1) else (m, y)
  let d := d + montab.getD m.toNat 0
  let d := d + 146097 * y.tdiv 400
  let y := y.tmod 400
  let (y, d) := if y < 0 then (y + 400, d - 146097) else (y, d)
  let d := d + times365.getD (y % 4).toNat 0
  let y := y / 4
  let d := d + 1461 * y.tmod 25
  let y := y.tdiv 25
  d + times36524.getD (y % 4).toNat 0

def caldateNormalize (cd : Caldate) : Caldate := caldateFrommjd (caldateMjd cd)

/-- It is a date of the calendar. -/
def Caldate.IsDate (cd : Caldate) : Prop := Gregorian.IsDate cd.year cd.month cd.day

/-! ## The tables -/

theorem montab_getD {m : Int} (low : 0 ≤ m) (high : m < 12) :
    montab.getD m.toNat 0 = daysToMonth m := by
  interval_cases m <;> rfl

theorem times365_getD {y : Int} (low : 0 ≤ y) (high : y < 4) : times365.getD y.toNat 0 = 365 * y := by
  interval_cases y <;> rfl

theorem times36524_getD {y : Int} (low : 0 ≤ y) (high : y < 4) :
    times36524.getD y.toNat 0 = 36524 * y := by
  interval_cases y <;> rfl

/-- Truncated and floored division differ by a carry below zero. -/
theorem tdiv_tmod (x : Int) {k : Int} (pos : 0 < k) :
    ∃ carry : Int, x.tdiv k = x / k + carry ∧ x.tmod k = x % k - k * carry ∧
      (carry = 0 ∨ carry = 1 ∧ x < 0 ∧ x % k ≠ 0) := by
  have whole := Int.mul_tdiv_add_tmod x k
  have floored := Int.mul_ediv_add_emod x k
  have low := Int.emod_nonneg x (ne_of_gt pos)
  rcases Int.lt_or_le x 0 with negative | nonneg
  · by_cases exact : x % k = 0
    · refine ⟨0, ?_, ?_, .inl rfl⟩
      · have := Int.tdiv_eq_ediv_of_dvd (Int.dvd_of_emod_eq_zero exact)
        omega
      · rw [Int.tmod_eq_zero_of_dvd (Int.dvd_of_emod_eq_zero exact), exact]
        omega
    · have up : x.tdiv k = x / k + 1 := by
        rw [Int.tdiv_eq_ediv]
        have ndvd : ¬ k ∣ x := fun divides => exact (Int.emod_eq_zero_of_dvd divides)
        rw [if_neg (by omega), Int.sign_eq_one_of_pos pos]
      refine ⟨1, up, ?_, .inr ⟨rfl, negative, exact⟩⟩
      rw [up] at whole
      have : k * (x / k + 1) = k * (x / k) + k := by ring
      omega
  · exact ⟨0, by rw [Int.tdiv_eq_ediv_of_nonneg nonneg, Int.add_zero],
      by rw [Int.tmod_eq_emod_of_nonneg nonneg, Int.mul_zero, Int.sub_zero], .inl rfl⟩

/-- The month is brought into its year. -/
theorem floored_month (m y : Int) :
    (if m.tmod 12 < 0 then (m.tmod 12 + 12, y + m.tdiv 12 - 1) else (m.tmod 12, y + m.tdiv 12)) =
      (m % 12, y + m / 12) := by
  obtain ⟨carry, quotient, remainder, which⟩ := tdiv_tmod m (show (0 : Int) < 12 by norm_num)
  rw [quotient, remainder]
  split <;> simp only [Prod.mk.injEq] <;> omega

/-- Whole cycles of years become days. -/
theorem floored_year (y d : Int) :
    (if y.tmod 400 < 0 then (y.tmod 400 + 400, d + 146097 * y.tdiv 400 - 146097)
      else (y.tmod 400, d + 146097 * y.tdiv 400)) = (y % 400, d + 146097 * (y / 400)) := by
  obtain ⟨carry, quotient, remainder, which⟩ := tdiv_tmod y (show (0 : Int) < 400 by norm_num)
  rw [quotient, remainder]
  split <;> simp only [Prod.mk.injEq] <;> omega

/-- The days of the years of one cycle. -/
theorem daysToYear_cycle {y : Int} (low : 0 ≤ y) (high : y < 400) :
    times365.getD (y % 4).toNat 0 + 1461 * (y / 4).tmod 25 +
      times36524.getD ((y / 4).tdiv 25 % 4).toNat 0 = daysToYear y := by
  have centuries : (y / 4).tdiv 25 = y / 4 / 25 := Int.tdiv_eq_ediv_of_nonneg (by omega)
  rw [times365_getD (by omega) (by omega), centuries, times36524_getD (by omega) (by omega),
    Int.tmod_eq_emod_of_nonneg (by omega)]
  rw [daysToYear]
  omega

theorem daysToYear_add_cycles (y k : Int) : daysToYear (y + 400 * k) = daysToYear y + 146097 * k := by
  unfold daysToYear
  omega

/-- **`caldate_mjd` counts the days of the calendar**, from 17 November 1858. -/
theorem caldateMjd_eq (cd : Caldate) :
    caldateMjd cd = dayNumber cd.year cd.month cd.day - 678881 := by
  have whole := Int.mul_tdiv_add_tmod cd.year 400
  have march : ∃ m y, (if 2 ≤ cd.month - 1 then (cd.month - 1 - 2, cd.year.tmod 400)
      else (cd.month - 1 + 10, cd.year.tmod 400 - 1)) = (m, y) ∧
      12 * y + m = 12 * cd.year.tmod 400 + cd.month - 3 := by
    split
    · exact ⟨_, _, rfl, by omega⟩
    · exact ⟨_, _, rfl, by omega⟩
  obtain ⟨m, y, pair, months⟩ := march
  have month : (cd.month - 3) % 12 = m % 12 := by omega
  have year : (12 * cd.year + cd.month - 3) / 12 =
      (y + m / 12) % 400 + 400 * ((y + m / 12) / 400 + cd.year.tdiv 400) := by
    omega
  rw [caldateMjd]
  simp only [pair, floored_month, floored_year]
  rw [montab_getD (by omega) (by omega), dayNumber, month, year, daysToYear_add_cycles,
    ← daysToYear_cycle (by omega) (by omega)]
  omega

/-! ## From day numbers -/

theorem dropCycles_whole (rounds : Nat) (day year : Int) :
    146097 * (dropCycles rounds day year).2 + (dropCycles rounds day year).1 =
      146097 * year + day := by
  induction rounds generalizing day year with
  | zero => rfl
  | succ rounds ih =>
      rw [dropCycles]
      split
      · rw [ih]
        omega
      · rfl

/-- The month and the day of the `day`-th day of a year that starts in March. -/
def dateInYear (year day : Int) : Caldate :=
  if 10 ≤ (10 * day + 5) / 306 then
    ⟨year + 1, (10 * day + 5) / 306 - 10 + 1, (10 * day + 5) % 306 / 10 + 1⟩
  else ⟨year, (10 * day + 5) / 306 + 2 + 1, (10 * day + 5) % 306 / 10 + 1⟩

/-- A day number cut into cycles, centuries, groups of four years and years. -/
structure Cut (n cycle century group year day : Int) : Prop where
  whole : n + 678881 = 146097 * cycle + 36524 * century + 1461 * group + 365 * year + day
  century_low : 0 ≤ century
  century_high : century ≤ 3
  group_low : 0 ≤ group
  group_high : group ≤ 24
  year_low : 0 ≤ year
  year_high : year ≤ 3
  day_low : 0 ≤ day
  day_high : day ≤ 365
  /-- a 29 February comes last in a group, and in a century only in the last one -/
  leap : day = 365 → year = 3 ∧ (group = 24 → century = 3)

theorem caldateFrommjd_cut (n : Int) :
    ∃ cycle century group year day, Cut n cycle century group year day ∧
      caldateFrommjd n = dateInYear (400 * cycle + 100 * century + 4 * group + year) day := by
  have below : n.tmod 146097 < 146097 := Int.tmod_lt_of_pos n (by norm_num)
  have above : -146097 < n.tmod 146097 := Int.lt_tmod_of_pos n (by norm_num)
  have start := Int.mul_tdiv_add_tmod n 146097
  obtain ⟨low, high⟩ := dropCycles_fst (by omega : 0 ≤ n.tmod 146097 + 678881) (by omega)
    (n.tdiv 146097)
  have whole := dropCycles_whole 6 (n.tmod 146097 + 678881) (n.tdiv 146097)
  rw [caldateFrommjd]
  generalize dropCycles 6 (n.tmod 146097 + 678881) (n.tdiv 146097) = cycles at low high whole
  obtain ⟨day, cycle⟩ := cycles
  simp only at low high whole ⊢
  -- centuries: the last one of a cycle has one day more
  obtain ⟨century, inCentury, cutCentury, centuryLow, centuryHigh, dayLow, dayHigh, split₁⟩ :
      ∃ c d, (if day = 146096 then (cycle * 4 + 3, (36524 : Int))
        else (cycle * 4 + day.tdiv 36524, day.tmod 36524)) = (cycle * 4 + c, d) ∧
        0 ≤ c ∧ c ≤ 3 ∧ 0 ≤ d ∧ (d ≤ 36523 ∨ d = 36524 ∧ c = 3) ∧ day = 36524 * c + d := by
    split
    · exact ⟨3, 36524, rfl, by omega⟩
    · refine ⟨day / 36524, day % 36524, ?_, by omega⟩
      rw [Int.tdiv_eq_ediv_of_nonneg low, Int.tmod_eq_emod_of_nonneg low]
  rw [cutCentury]
  simp only
  rw [Int.tdiv_eq_ediv_of_nonneg dayLow, Int.tmod_eq_emod_of_nonneg dayLow]
  -- years: the last one of a group has one day more
  obtain ⟨year, inYear, cutYear, yearLow, yearHigh, inYearLow, inYearHigh, split₂⟩ :
      ∃ j d, (if inCentury % 1461 = 1460 then
          (((cycle * 4 + century) * 25 + inCentury / 1461) * 4 + 3, (365 : Int))
        else (((cycle * 4 + century) * 25 + inCentury / 1461) * 4 + (inCentury % 1461).tdiv 365,
          (inCentury % 1461).tmod 365)) =
        (((cycle * 4 + century) * 25 + inCentury / 1461) * 4 + j, d) ∧
        0 ≤ j ∧ j ≤ 3 ∧ 0 ≤ d ∧ (d ≤ 364 ∨ d = 365 ∧ j = 3) ∧ inCentury % 1461 = 365 * j + d := by
    split
    · exact ⟨3, 365, rfl, by omega⟩
    · have nonneg : 0 ≤ inCentury % 1461 := Int.emod_nonneg _ (by norm_num)
      refine ⟨inCentury % 1461 / 365, inCentury % 1461 % 365, ?_, by omega⟩
      rw [Int.tdiv_eq_ediv_of_nonneg nonneg, Int.tmod_eq_emod_of_nonneg nonneg]
  rw [cutYear]
  simp only
  refine ⟨cycle, century, inCentury / 1461, year, inYear, ?_, ?_⟩
  · constructor <;> omega
  · have months : (inYear * 10 + 5).tdiv 306 = (10 * inYear + 5) / 306 := by
      rw [Int.tdiv_eq_ediv_of_nonneg (by omega), Int.mul_comm]
    have days : ((inYear * 10 + 5).tmod 306).tdiv 10 = (10 * inYear + 5) % 306 / 10 := by
      rw [Int.tmod_eq_emod_of_nonneg (by omega), Int.tdiv_eq_ediv_of_nonneg (by omega), Int.mul_comm]
    have years : ((cycle * 4 + century) * 25 + inCentury / 1461) * 4 + year =
        400 * cycle + 100 * century + 4 * (inCentury / 1461) + year := by omega
    rw [months, days, years]
    rw [dateInYear]
    split <;> rfl

namespace Cut

variable {n cycle century group year day : Int}

/-- The year that starts in March. -/
theorem daysToYear_eq (cut : Cut n cycle century group year day) :
    daysToYear (400 * cycle + 100 * century + 4 * group + year) + day = n + 678881 := by
  obtain ⟨whole, cLow, cHigh, gLow, gHigh, yLow, yHigh, dLow, dHigh, leap⟩ := cut
  rw [daysToYear]
  omega

/-- Its last day is there when the next year has a 29 February. -/
theorem day_lt (cut : Cut n cycle century group year day) :
    day < if isLeap (400 * cycle + 100 * century + 4 * group + year + 1) then 366 else 365 := by
  obtain ⟨whole, cLow, cHigh, gLow, gHigh, yLow, yHigh, dLow, dHigh, leap⟩ := cut
  cases rule : isLeap (400 * cycle + 100 * century + 4 * group + year + 1) with
  | true =>
      rw [if_pos rfl]
      omega
  | false =>
      rw [isLeap_eq_false] at rule
      rw [if_neg (by decide)]
      omega

end Cut

/-- A day of a year that starts in March is a day of one of its months. -/
theorem dateInYear_spec {year day : Int} (low : 0 ≤ day)
    (high : day < if isLeap (year + 1) then 366 else 365) :
    (dateInYear year day).IsDate ∧
      dayNumber (dateInYear year day).year (dateInYear year day).month (dateInYear year day).day =
        daysToYear year + day := by
  obtain ⟨m, month⟩ : ∃ m, (10 * day + 5) / 306 = m := ⟨_, rfl⟩
  obtain ⟨d, dayOfMonth⟩ : ∃ d, (10 * day + 5) % 306 / 10 = d := ⟨_, rfl⟩
  have high' : day ≤ 365 := by split at high <;> omega
  have monthLow : 0 ≤ m := by omega
  have monthHigh : m < 12 := by omega
  rw [dateInYear]
  rw [month, dayOfMonth]
  split
  · rename_i late
    constructor
    · refine ⟨by simp only; omega, by simp only; omega, by simp only; omega, ?_⟩
      simp only
      rw [monthLength]
      obtain rfl | rfl : m = 10 ∨ m = 11 := by omega
      · norm_num
        omega
      · norm_num
        split at high <;> rename_i rule <;> simp only [rule, if_true, Bool.false_eq_true, if_false] <;>
          omega
    · simp only
      rw [dayNumber_of_month (by omega) (by omega), if_pos (by omega)]
      rw [daysToMonth]
      rw [show year + 1 - 1 = year by omega]
      omega
  · rename_i early
    constructor
    · refine ⟨by simp only; omega, by simp only; omega, by simp only; omega, ?_⟩
      simp only
      rw [monthLength]
      interval_cases m <;> norm_num <;> omega
    · simp only
      rw [dayNumber_of_month (by omega) (by omega), if_neg (by omega)]
      rw [daysToMonth]
      omega

theorem caldateFrommjd_spec (n : Int) :
    (caldateFrommjd n).IsDate ∧
      dayNumber (caldateFrommjd n).year (caldateFrommjd n).month (caldateFrommjd n).day =
        n + 678881 := by
  obtain ⟨cycle, century, group, year, day, cut, date⟩ := caldateFrommjd_cut n
  obtain ⟨isDate, number⟩ := dateInYear_spec cut.day_low cut.day_lt
  rw [date]
  exact ⟨isDate, number.trans cut.daysToYear_eq⟩

theorem isDate_caldateFrommjd (n : Int) : (caldateFrommjd n).IsDate := (caldateFrommjd_spec n).1

/-- A year has more than one day. -/
theorem caldateFrommjd_year {n : Int} (low : -2 ^ 50 ≤ n) (high : n ≤ 2 ^ 50) :
    -2 ^ 50 ≤ (caldateFrommjd n).year ∧ (caldateFrommjd n).year ≤ 2 ^ 50 := by
  obtain ⟨date, number⟩ := caldateFrommjd_spec n
  obtain ⟨⟨monthLow, monthHigh⟩, dayLow, dayHigh⟩ := caldateFrommjd_bounds n
  generalize caldateFrommjd n = cd at *
  rw [dayNumber, daysToYear, daysToMonth] at number
  omega

/-- **Every day number has a date.** -/
@[simp] theorem caldateMjd_frommjd (n : Int) : caldateMjd (caldateFrommjd n) = n := by
  rw [caldateMjd_eq, (caldateFrommjd_spec n).2]
  omega

/-- **A date comes back.** -/
theorem caldateFrommjd_mjd {cd : Caldate} (date : cd.IsDate) :
    caldateFrommjd (caldateMjd cd) = cd := by
  obtain ⟨date', number⟩ := caldateFrommjd_spec (caldateMjd cd)
  rw [caldateMjd_eq, Int.sub_add_cancel] at number
  rw [caldateMjd_eq] at date' ⊢
  obtain ⟨year, month, day⟩ := dayNumber_inj date' date number
  cases cd
  exact (Caldate.mk.injEq ..).mpr ⟨year, month, day⟩

theorem caldateFrommjd_injective : Function.Injective caldateFrommjd := by
  intro n m same
  rw [← caldateMjd_frommjd n, same, caldateMjd_frommjd]

/-- The order of dates. -/
def Caldate.Before (a b : Caldate) : Prop :=
  Gregorian.Before a.year a.month a.day b.year b.month b.day

theorem before_caldateFrommjd {n m : Int} (lt : n < m) :
    (caldateFrommjd n).Before (caldateFrommjd m) := by
  obtain ⟨date, number⟩ := caldateFrommjd_spec n
  obtain ⟨date', number'⟩ := caldateFrommjd_spec m
  exact before_of_dayNumber_lt date date' (by omega)

/-- A carried date is the date of its day number. -/
theorem caldateNormalize_of_mjd_eq {cd date : Caldate} (isDate : date.IsDate)
    (same : caldateMjd cd = caldateMjd date) : caldateNormalize cd = date := by
  rw [caldateNormalize, same, caldateFrommjd_mjd isDate]

/-! ## The day before -/

/-- The day before a date, as one counts days. -/
def Caldate.dayBefore (cd : Caldate) : Caldate :=
  if cd.day = 1 then
    let m := prevMonth (cd.year, cd.month)
    ⟨m.1, m.2, monthLength m.1 m.2⟩
  else { cd with day := cd.day - 1 }

theorem dayBefore_spec {cd : Caldate} (date : cd.IsDate) :
    cd.dayBefore.IsDate ∧ caldateMjd cd.dayBefore = caldateMjd cd - 1 := by
  obtain ⟨year, month, day⟩ := cd
  obtain ⟨low, high, dayLow, dayHigh⟩ := date
  simp only at low high dayLow dayHigh
  rw [caldateMjd_eq, caldateMjd_eq]
  rw [Caldate.dayBefore]
  by_cases first : day = 1
  · subst first
    have ends := dayNumber_prevMonth year low high 0
    rw [Int.add_zero, show (0 : Int) = 1 + -1 by norm_num, dayNumber_add] at ends
    obtain ⟨prevLow, prevHigh⟩ := prevMonth_bounds year low high
    have long := monthLength_bounds (prevMonth (year, month)).1 (prevMonth (year, month)).2
    simp only [if_true]
    exact ⟨⟨prevLow, prevHigh, by simp only; omega, le_refl _⟩, by rw [ends]; omega⟩
  · simp only [first, if_false]
    refine ⟨⟨low, high, by simp only; omega, by simp only; omega⟩, ?_⟩
    rw [show day - 1 = day + -1 by omega, dayNumber_add]
    omega

/-- **Day numbers go back as the calendar does.** -/
theorem caldateFrommjd_sub (n : Int) (k : Nat) :
    caldateFrommjd (n - k) = Caldate.dayBefore^[k] (caldateFrommjd n) := by
  induction k with
  | zero => simp
  | succ k ih =>
      obtain ⟨date, number⟩ := dayBefore_spec (isDate_caldateFrommjd (n - k))
      rw [Function.iterate_succ_apply', ← ih, ← caldateFrommjd_mjd date, number, caldateMjd_frommjd]
      congr 1
      omega

/-! ## Stamps -/

/-- Both sides are far from the ends of a `long`. -/
theorem toInt_sub_const {a c : UInt64} (fits : a.toNat < 2 ^ 62) (fits' : c.toNat < 2 ^ 62) :
    (a - c).toInt64.toInt = a.toNat - c.toNat := by
  have left : a.toBitVec.toInt = a.toNat := BitVec.toInt_eq_toNat_of_lt (by
    show 2 * a.toNat < 2 ^ 64
    omega)
  have right : c.toBitVec.toInt = c.toNat := BitVec.toInt_eq_toNat_of_lt (by
    show 2 * c.toNat < 2 ^ 64
    omega)
  show (a.toBitVec - c.toBitVec).toInt = _
  rw [BitVec.toInt_sub, left, right]
  exact Int.bmod_eq_of_le (by omega) (by omega)

/-- The day number of a stamp is a number of days; 58486 seconds of a day have
passed at label 0. -/
theorem utcDay_eq (u : UInt64) :
    utcDay u = ((u + 58486).toNat / 86400 : Nat) - 53375995543064 := by
  have bound := (u + 58486).toNat_lt
  have quotient : ((u + 58486) / 86400).toNat = (u + 58486).toNat / 86400 := by
    rw [UInt64.toNat_div]
    rfl
  have offset : (53375995543064 : UInt64).toNat = 53375995543064 := rfl
  rw [utcDay]
  rw [toInt_sub_const (by omega) (by omega), quotient, offset]
  rfl

theorem utcDay_bounds (u : UInt64) : -53375995543064 ≤ utcDay u ∧ utcDay u < 2 ^ 48 - 53375995543064 := by
  have bound := (u + 58486).toNat_lt
  rw [utcDay_eq]
  omega

end Bagunceiro
