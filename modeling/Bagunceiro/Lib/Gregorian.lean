/-
# Lib.Gregorian -- the Gregorian calendar and its day numbers

The calendar extended to all years: `monthLength` is the rule everybody knows,
`dayNumber` counts days from 1 March of the year 0.  A month may be any integer;
months before the first or after the last belong to other years.

* `dayNumber_next_month` ties the two together: a month starts `monthLength`
  days after the one before it.
* `dayNumber_lt` makes day numbers follow the order of dates, so a day number
  has one date (`dayNumber_inj`).
-/
import Mathlib.Tactic.IntervalCases
import Mathlib.Tactic.NormNum

namespace Gregorian

set_option autoImplicit false

/-! ## Dates -/

/-- Every fourth year but for three centuries out of four. -/
def isLeap (year : Int) : Bool := year % 4 = 0 && (year % 100 ≠ 0 || year % 400 = 0)

/-- The days of a month from 1 to 12. -/
def monthLength (year month : Int) : Int :=
  if month = 2 then (if isLeap year then 29 else 28)
  else if month = 4 ∨ month = 6 ∨ month = 9 ∨ month = 11 then 30
  else 31

structure IsDate (year month day : Int) : Prop where
  month_pos : 1 ≤ month
  month_le : month ≤ 12
  day_pos : 1 ≤ day
  day_le : day ≤ monthLength year month

theorem isLeap_eq_true {year : Int} :
    isLeap year = true ↔ year % 4 = 0 ∧ (year % 100 ≠ 0 ∨ year % 400 = 0) := by
  simp [isLeap]

theorem isLeap_eq_false {year : Int} :
    isLeap year = false ↔ year % 4 = 0 → year % 100 = 0 ∧ year % 400 ≠ 0 := by
  rw [← Bool.not_eq_true, isLeap_eq_true]
  omega

theorem monthLength_bounds (year month : Int) :
    28 ≤ monthLength year month ∧ monthLength year month ≤ 31 := by
  rw [monthLength]
  split_ifs <;> omega

/-! ## Months in a row -/

/-- The month after, and the month before. -/
def nextMonth (m : Int × Int) : Int × Int := if m.2 = 12 then (m.1 + 1, 1) else (m.1, m.2 + 1)
def prevMonth (m : Int × Int) : Int × Int := if m.2 = 1 then (m.1 - 1, 12) else (m.1, m.2 - 1)

theorem prevMonth_bounds (year : Int) {month : Int} (low : 1 ≤ month) (high : month ≤ 12) :
    1 ≤ (prevMonth (year, month)).2 ∧ (prevMonth (year, month)).2 ≤ 12 := by
  rw [prevMonth]
  split <;> simp only at * <;> omega

theorem nextMonth_bounds (year : Int) {month : Int} (low : 1 ≤ month) (high : month ≤ 12) :
    1 ≤ (nextMonth (year, month)).2 ∧ (nextMonth (year, month)).2 ≤ 12 := by
  rw [nextMonth]
  split <;> simp only at * <;> omega

theorem prevMonth_nextMonth {year month : Int} (low : 1 ≤ month) :
    prevMonth (nextMonth (year, month)) = (year, month) := by
  rw [prevMonth, nextMonth]
  by_cases december : month = 12
  · simp [december]
  · have notFirst : ¬ month + 1 = 1 := by omega
    simp [december, notFirst]

theorem nextMonth_prevMonth {year month : Int} (high : month ≤ 12) :
    nextMonth (prevMonth (year, month)) = (year, month) := by
  rw [prevMonth, nextMonth]
  by_cases january : month = 1
  · simp [january]
  · have notLast : ¬ month - 1 = 12 := by omega
    simp [january, notLast]

theorem months_prevMonth (year month : Int) :
    12 * (prevMonth (year, month)).1 + (prevMonth (year, month)).2 = 12 * year + month - 1 := by
  rw [prevMonth]
  split <;> simp only at * <;> omega

theorem months_nextMonth (year month : Int) :
    12 * (nextMonth (year, month)).1 + (nextMonth (year, month)).2 = 12 * year + month + 1 := by
  rw [nextMonth]
  split <;> simp only at * <;> omega

/-! ## Day numbers -/

/-- The days from 1 March of the year 0 to 1 March of a year. -/
def daysToYear (year : Int) : Int := 365 * year + year / 4 - year / 100 + year / 400

/-- The days from 1 March to the first of the `month`-th month after it. -/
def daysToMonth (month : Int) : Int := (306 * month + 5) / 10

/-- Days from 1 March of the year 0. -/
def dayNumber (year month day : Int) : Int :=
  daysToYear ((12 * year + month - 3) / 12) + daysToMonth ((month - 3) % 12) + (day - 1)

theorem dayNumber_add (year month day k : Int) :
    dayNumber year month (day + k) = dayNumber year month day + k := by
  unfold dayNumber
  omega

/-- A month out of range belongs to another year. -/
theorem dayNumber_carry (year month day : Int) :
    dayNumber (year + 1) (month - 12) day = dayNumber year month day := by
  unfold dayNumber
  rw [show 12 * (year + 1) + (month - 12) - 3 = 12 * year + month - 3 by omega,
    show (month - 12 - 3) % 12 = (month - 3) % 12 by omega]

/-- Only the count of months matters. -/
theorem dayNumber_congr {year month year' month' : Int} (same : 12 * year + month = 12 * year' + month')
    (day : Int) : dayNumber year month day = dayNumber year' month' day := by
  unfold dayNumber
  rw [same, show (month - 3) % 12 = (month' - 3) % 12 by omega]

/-- In March a year starts anew. -/
theorem daysToYear_succ (year : Int) :
    daysToYear (year + 1) = daysToYear year + (if isLeap (year + 1) then 366 else 365) := by
  unfold daysToYear
  cases leap : isLeap (year + 1) with
  | true =>
      rw [isLeap_eq_true] at leap
      rw [if_pos rfl]
      omega
  | false =>
      rw [isLeap_eq_false] at leap
      rw [if_neg (by decide)]
      omega

theorem daysToYear_mono {year year' : Int} (le : year ≤ year') : daysToYear year ≤ daysToYear year' := by
  unfold daysToYear
  omega

/-- The months of a year from 1 to 12, as days. -/
theorem dayNumber_of_month {year month day : Int} (low : 1 ≤ month) (high : month ≤ 12) :
    dayNumber year month day =
      if month ≤ 2 then daysToYear (year - 1) + daysToMonth (month + 9) + (day - 1)
      else daysToYear year + daysToMonth (month - 3) + (day - 1) := by
  unfold dayNumber
  split
  · rw [show (12 * year + month - 3) / 12 = year - 1 by omega,
      show (month - 3) % 12 = month + 9 by omega]
  · rw [show (12 * year + month - 3) / 12 = year by omega,
      show (month - 3) % 12 = month - 3 by omega]

/-- **A month starts where the one before it ends.** -/
theorem dayNumber_next_month (year : Int) {month : Int} (low : 1 ≤ month) (high : month ≤ 12)
    (day : Int) :
    dayNumber year (month + 1) day = dayNumber year month day + monthLength year month := by
  by_cases december : month = 12
  · subst december
    rw [show (12 : Int) + 1 = 13 from rfl, ← dayNumber_carry year 13,
      dayNumber_of_month (by norm_num) (by norm_num),
      dayNumber_of_month (by norm_num) (by norm_num)]
    norm_num [daysToMonth, monthLength]
    omega
  · rw [dayNumber_of_month low high, dayNumber_of_month (by omega) (by omega)]
    have cut := daysToYear_succ (year - 1)
    rw [Int.sub_add_cancel] at cut
    rw [monthLength]
    interval_cases month <;> norm_num [daysToMonth]
    · omega
    · rw [cut]
      split <;> omega
    all_goals omega

theorem dayNumber_nextMonth (year month day : Int) :
    dayNumber (nextMonth (year, month)).1 (nextMonth (year, month)).2 day =
      dayNumber year (month + 1) day := by
  rw [nextMonth]
  split
  · rename_i december
    simp only at december ⊢
    rw [← dayNumber_carry year (month + 1), december]
    rfl
  · rfl

/-- The last day of the month before is the day before the first. -/
theorem dayNumber_prevMonth (year : Int) {month : Int} (low : 1 ≤ month) (high : month ≤ 12)
    (day : Int) :
    dayNumber (prevMonth (year, month)).1 (prevMonth (year, month)).2
        (monthLength (prevMonth (year, month)).1 (prevMonth (year, month)).2 + day) =
      dayNumber year month day := by
  rw [Int.add_comm, dayNumber_add]
  rw [prevMonth]
  by_cases january : month = 1
  · subst january
    have ends := dayNumber_next_month (year - 1) (show (1 : Int) ≤ 12 by norm_num) (le_refl 12) day
    have carry := dayNumber_carry (year - 1) 13 day
    rw [Int.sub_add_cancel] at carry
    simp only [if_true]
    rw [← ends]
    exact carry.symm
  · have ends := dayNumber_next_month year (show 1 ≤ month - 1 by omega) (by omega) day
    rw [Int.sub_add_cancel] at ends
    simp only [january, if_false]
    exact ends.symm

/-- Within a year the months follow each other. -/
theorem dayNumber_month_lt {year month month' day day' : Int} (date : IsDate year month day)
    (date' : IsDate year month' day') (lt : month < month') :
    dayNumber year month day < dayNumber year month' day' := by
  have monthLow := date.month_pos
  have dayHigh := date.day_le
  have monthHigh' := date'.month_le
  have dayLow' := date'.day_pos
  have ends : dayNumber year month day < dayNumber year (month + 1) 1 := by
    rw [dayNumber_next_month year monthLow date.month_le, show day = 1 + (day - 1) by omega,
      dayNumber_add]
    omega
  have later : ∀ k : Nat, month + 1 + k ≤ 12 →
      dayNumber year (month + 1) 1 ≤ dayNumber year (month + 1 + k) 1 := by
    intro k
    induction k with
    | zero => intro _; simp
    | succ k ih =>
        intro within
        push_cast at within ⊢
        have step := dayNumber_next_month year (show 1 ≤ month + 1 + k by omega)
          (by omega) 1
        have long := monthLength_bounds year (month + 1 + k)
        have before := ih (by omega)
        rw [← Int.add_assoc, step]
        omega
  have start := later (month' - (month + 1)).toNat (by omega)
  rw [show month + 1 + ((month' - (month + 1)).toNat : Int) = month' by omega] at start
  have within : dayNumber year month' 1 ≤ dayNumber year month' day' := by
    rw [show day' = 1 + (day' - 1) by omega, dayNumber_add]
    omega
  omega

/-- A year ends before the next one begins. -/
theorem dayNumber_year_lt {year year' month month' day day' : Int} (date : IsDate year month day)
    (date' : IsDate year' month' day') (lt : year < year') :
    dayNumber year month day < dayNumber year' month' day' := by
  have last : dayNumber year month day ≤ dayNumber year 12 31 := by
    by_cases december : month = 12
    · subst december
      have dayHigh := date.day_le
      rw [show monthLength year 12 = 31 from rfl] at dayHigh
      rw [show (31 : Int) = day + (31 - day) by omega, dayNumber_add]
      omega
    · have monthHigh := date.month_le
      exact le_of_lt (dayNumber_month_lt date ⟨by norm_num, le_refl _, by norm_num, le_refl _⟩
        (by omega))
  have first : dayNumber year' 1 1 ≤ dayNumber year' month' day' := by
    by_cases january : month' = 1
    · subst january
      have dayLow := date'.day_pos
      rw [show day' = 1 + (day' - 1) by omega, dayNumber_add]
      omega
    · have monthLow := date'.month_pos
      have long := monthLength_bounds year' 1
      exact le_of_lt (dayNumber_month_lt ⟨le_refl _, by norm_num, le_refl _, by omega⟩ date'
        (by omega))
  have between : dayNumber year 12 31 < dayNumber year' 1 1 := by
    have cut := daysToYear_mono (show year ≤ year' - 1 by omega)
    rw [dayNumber_of_month (by norm_num) (by norm_num),
      dayNumber_of_month (by norm_num) (by norm_num)]
    norm_num [daysToMonth]
    omega
  omega

/-- The order of dates. -/
def Before (year month day year' month' day' : Int) : Prop :=
  year < year' ∨ year = year' ∧ (month < month' ∨ month = month' ∧ day < day')

/-- **Day numbers follow the order of dates.** -/
theorem dayNumber_lt {year month day year' month' day' : Int} (date : IsDate year month day)
    (date' : IsDate year' month' day') (before : Before year month day year' month' day') :
    dayNumber year month day < dayNumber year' month' day' := by
  rcases before with years | ⟨rfl, months | ⟨rfl, days⟩⟩
  · exact dayNumber_year_lt date date' years
  · exact dayNumber_month_lt date date' months
  · rw [show day' = day + (day' - day) by omega, dayNumber_add]
    omega

theorem before_of_dayNumber_lt {year month day year' month' day' : Int}
    (date : IsDate year month day) (date' : IsDate year' month' day')
    (lt : dayNumber year month day < dayNumber year' month' day') :
    Before year month day year' month' day' := by
  by_contra notBefore
  have after : (year = year' ∧ month = month' ∧ day = day') ∨
      Before year' month' day' year month day := by
    unfold Before at notBefore ⊢
    omega
  rcases after with ⟨rfl, rfl, rfl⟩ | after
  · exact lt_irrefl _ lt
  · exact lt_asymm lt (dayNumber_lt date' date after)

/-- A day number has one date. -/
theorem dayNumber_inj {year month day year' month' day' : Int} (date : IsDate year month day)
    (date' : IsDate year' month' day')
    (same : dayNumber year month day = dayNumber year' month' day') :
    year = year' ∧ month = month' ∧ day = day' := by
  by_contra differ
  have apart : Before year month day year' month' day' ∨
      Before year' month' day' year month day := by
    unfold Before
    omega
  rcases apart with before | before
  · exact absurd same (ne_of_lt (dayNumber_lt date date' before))
  · exact absurd same.symm (ne_of_lt (dayNumber_lt date' date before))

end Gregorian
