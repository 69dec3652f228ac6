/-
# CaldateNav -- the date line of a page (`fmt_caldate_nav`)

The default build writes a weekday, a day, a month and a year.  Its `weekday`
works with a cycle of 28 years, which is the calendar's as long as every fourth
year is a leap year: it is right while the centuries without a 29 February are
as many as there were in 1970, or seven more, and so on
(`fmtCaldateNav_right_iff`).

The Erisian build writes the day of a season.  Its `convert` counts with the months
of a common year and takes the leap day out by its number, which is also that of
1 March (`convert_right_iff`).
-/
import Bagunceiro.Libowfat.Mjd
import Bagunceiro.Lib.Words

namespace Bagunceiro

open Gregorian Radix Words

set_option autoImplicit false

/-! ## The default calendar -/

def months : List Bytes :=
  ["Jan", "Feb", "Mar", "Apr", "May", "Jun", "Jul", "Aug", "Sep", "Okt", "Nov", "Dez"].map str

def weekdays : List Bytes := ["Mon", "Tue", "Wed", "Thu", "Fri", "Sat", "Sun"].map str

/-- `FMT_CALDATE_NAV` -/
def fmtCaldateNavSize : Nat := 20

/-- The `switch (month)` of `weekday`. -/
def weekdayOffset (month : Int) : Int :=
  if month = 2 ∨ month = 6 then 0
  else if month = 8 then 4
  else if month = 10 then 8
  else if month = 9 ∨ month = 12 then 12
  else if month = 3 ∨ month = 11 then 16
  else if month = 1 ∨ month = 5 then 20
  else if month = 4 ∨ month = 7 then 24
  else 0

def weekday (month day year : Int) : Int :=
  let year := if 1900 < year then year - 1900 else year
  let ix := (year - 21).tmod 28 + weekdayOffset month + if 2 < month then 1 else 0
  let tx := (ix + ix.tdiv 4).tmod 7 + day
  tx.tmod 7

/-- The loop that counts the digits of the year: `do { ++i; x /= 10; } while (x);`. -/
def countDigits (x : Nat) : Nat :=
  if x / 10 = 0 then 1 else countDigits (x / 10) + 1

/-- The loop that writes the year from its last digit on. -/
def yearText (x : Int) : Bytes :=
  (if x.tdiv 10 = 0 then [] else yearText (x.tdiv 10)) ++ [UInt8.ofInt (48 + x.tmod 10)]
termination_by x.natAbs
decreasing_by
  have smaller : (x.tdiv 10).natAbs = x.natAbs / 10 := Int.natAbs_tdiv x 10
  omega

/-- The two bytes of the day; a leading zero becomes a blank. -/
def dayText (day : Int) : Bytes :=
  let tens := UInt8.ofInt (48 + (day.tdiv 10).tmod 10)
  [if tens = 48 then 32 else tens, UInt8.ofInt (48 + day.tmod 10)]

/-- What is written to `s` and what is returned. -/
def fmtCaldateNav (cd : Caldate) : Bytes × Nat :=
  let yi := countDigits cd.year.natAbs
  (weekdays.getD (weekday (narrow cd.month) (narrow cd.day) (narrow cd.year)).toNat [] ++ str " " ++
      dayText cd.day ++ str " " ++ months.getD (cd.month - 1).toNat [] ++ str " " ++ yearText cd.year,
    (if cd.year < 0 then 1 else 0) + yi + 11)

/-! ### What it should write -/

/-- The weekday a date has: day 0 of `caldate_mjd` was a Wednesday. -/
def Caldate.weekdayName (cd : Caldate) : Bytes := weekdays.getD ((caldateMjd cd + 2) % 7).toNat []

/-- A number, with a blank in front if it has one digit. -/
def padded (day : Nat) : Bytes := (if day < 10 then str " " else []) ++ decimal day

/-- The line is weekday, day, month and year of the date, and fits. -/
structure NavRight (cd : Caldate) : Prop where
  text : (fmtCaldateNav cd).1 = cd.weekdayName ++ str " " ++ padded cd.day.toNat ++ str " " ++
    months.getD (cd.month - 1).toNat [] ++ str " " ++ decimal cd.year.toNat
  length : (fmtCaldateNav cd).2 = (fmtCaldateNav cd).1.length
  room : (fmtCaldateNav cd).2 < fmtCaldateNavSize

/-- The year a date belongs to when years begin in March, behind the leap day. -/
def Caldate.marchYear (cd : Caldate) : Int := if cd.month ≤ 2 then cd.year - 1 else cd.year

/-- The centuries up to a year that had no leap day. -/
def plainCenturies (year : Int) : Int := year / 100 - year / 400

/-! ### The loops -/

theorem yearText_natCast {fuel n : Nat} (enough : n < fuel) : yearText n = decimalFrom fuel n := by
  induction fuel generalizing n with
  | zero => omega
  | succ fuel ih =>
      have quotient : (n : Int).tdiv 10 = (n / 10 : Nat) := by simp
      have digit : UInt8.ofInt (48 + (n : Int).tmod 10) = UInt8.ofNat (48 + n % 10) := by
        rw [Int.tmod_eq_emod_of_nonneg (by omega)]
        show UInt8.ofNat _ = _
        congr 1
        omega
      rw [yearText, decimalFrom, quotient, digit]
      by_cases single : n / 10 = 0
      · simp [single]
      · have some_ : ((n / 10 : Nat) : Int) ≠ 0 := by omega
        rw [if_neg some_, if_neg single, ih (by omega)]

theorem countDigits_eq {fuel n : Nat} (enough : n < fuel) :
    countDigits n = (decimalFrom fuel n).length := by
  induction fuel generalizing n with
  | zero => omega
  | succ fuel ih =>
      rw [countDigits, decimalFrom, List.length_append, List.length_singleton]
      by_cases single : n / 10 = 0
      · simp [single]
      · rw [if_neg single, if_neg single, ih (by omega)]

theorem dayText_eq {day : Int} (low : 1 ≤ day) (high : day ≤ 31) : dayText day = padded day.toNat := by
  interval_cases day <;> decide

theorem length_dayText (day : Int) : (dayText day).length = 2 := rfl

/-! ### The weekday -/

/-- The offsets keep the formula's groups of four years whole. -/
theorem weekdayOffset_spec {m : Int} (low : 1 ≤ m) (high : m ≤ 12) :
    0 ≤ weekdayOffset m ∧ weekdayOffset m % 4 = 0 ∧
      (weekdayOffset m + weekdayOffset m / 4) % 7 =
        ((if m ≤ 2 then daysToMonth (m + 9) else daysToMonth (m - 3)) + 6) % 7 := by
  interval_cases m <;> decide

/-- The cycle of 28 years is made of groups of four. -/
theorem weekday_cycle (year k : Int) :
    ((year - 1921) % 28 + k + ((year - 1921) % 28 + k) / 4) % 7 =
      (year - 1921 + k + (year - 1921 + k) / 4) % 7 := by
  have cut := Int.emod_add_mul_ediv (year - 1921) 28
  have group : (year - 1921 + k) / 4 =
      ((year - 1921) % 28 + k) / 4 + 7 * ((year - 1921) / 28) := by
    omega
  omega

/-- The formula is off by the centuries without a leap day since the one it fits. -/
theorem weekday_eq {cd : Caldate} (date : cd.IsDate) (low : 1970 ≤ cd.year) :
    weekday cd.month cd.day cd.year =
      (caldateMjd cd + 2 + (plainCenturies cd.marchYear - 15)) % 7 := by
  obtain ⟨offsetLow, whole, fits⟩ := weekdayOffset_spec date.month_pos date.month_le
  have recent : 1900 < cd.year := by omega
  have cycle : (cd.year - 1900 - 21).tmod 28 = (cd.year - 1921) % 28 := by
    rw [Int.tmod_eq_emod_of_nonneg (by omega)]
    omega
  have reduced (ix : Int) (nonneg : 0 ≤ ix) :
      ((ix + ix.tdiv 4).tmod 7 + cd.day).tmod 7 = (ix + ix / 4 + cd.day) % 7 := by
    have dayLow := date.day_pos
    have tx : (ix + ix / 4).tmod 7 = (ix + ix / 4) % 7 := Int.tmod_eq_emod_of_nonneg (by omega)
    rw [Int.tdiv_eq_ediv_of_nonneg nonneg, tx, Int.tmod_eq_emod_of_nonneg (by omega)]
    omega
  rw [caldateMjd_eq, dayNumber_of_month date.month_pos date.month_le]
  unfold weekday plainCenturies Caldate.marchYear daysToYear
  simp only [if_pos recent, cycle]
  by_cases early : cd.month ≤ 2
  · have behind : ¬ 2 < cd.month := by omega
    have whole_ := weekday_cycle cd.year (weekdayOffset cd.month)
    rw [if_pos early] at fits
    simp only [if_pos early, if_neg behind, Int.add_zero]
    have group : (cd.year - 1921 + weekdayOffset cd.month) / 4 =
        (cd.year - 1) / 4 - 480 + weekdayOffset cd.month / 4 := by
      omega
    rw [reduced _ (by omega)]
    omega
  · have behind : 2 < cd.month := by omega
    have whole_ := weekday_cycle cd.year (weekdayOffset cd.month + 1)
    rw [if_neg early] at fits
    simp only [if_neg early, if_pos behind]
    rw [Int.add_assoc ((cd.year - 1921) % 28)]
    have group : (cd.year - 1921 + (weekdayOffset cd.month + 1)) / 4 =
        cd.year / 4 - 480 + weekdayOffset cd.month / 4 := by
      omega
    rw [reduced _ (by omega)]
    omega

/-! ### The line -/

theorem weekdays_inj {a b : Int} (aLow : 0 ≤ a) (aHigh : a < 7) (bLow : 0 ≤ b) (bHigh : b < 7) :
    weekdays.getD a.toNat [] = weekdays.getD b.toNat [] ↔ a = b := by
  interval_cases a <;> interval_cases b <;> decide

theorem length_weekdays {a : Int} (low : 0 ≤ a) (high : a < 7) :
    (weekdays.getD a.toNat []).length = 3 := by
  interval_cases a <;> rfl

theorem length_months {m : Int} (low : 1 ≤ m) (high : m ≤ 12) :
    (months.getD (m - 1).toNat []).length = 3 := by
  interval_cases m <;> rfl

theorem day_le_31 {cd : Caldate} (date : cd.IsDate) : cd.day ≤ 31 := by
  have bound := monthLength_bounds cd.year cd.month
  have inMonth := date.day_le
  omega

/-- The line is right but for the weekday. -/
theorem fmtCaldateNav_fst {cd : Caldate} (date : cd.IsDate) (low : 1970 ≤ cd.year)
    (high : cd.year ≤ 99999999) :
    (fmtCaldateNav cd).1 =
      weekdays.getD (weekday cd.month cd.day cd.year).toNat [] ++ str " " ++ padded cd.day.toNat ++
        str " " ++ months.getD (cd.month - 1).toNat [] ++ str " " ++ decimal cd.year.toNat := by
  have monthLow := date.month_pos
  have monthHigh := date.month_le
  have dayLow := date.day_pos
  have dayHigh := day_le_31 date
  have year : yearText cd.year = decimal cd.year.toNat := by
    have digits := yearText_natCast (Nat.lt_succ_self cd.year.toNat)
    rwa [Int.toNat_of_nonneg (by omega)] at digits
  simp only [fmtCaldateNav]
  rw [narrow_of_lt (by omega) (by omega), narrow_of_lt (by omega) (by omega),
    narrow_of_lt (by omega) (by omega), dayText_eq dayLow dayHigh, year]

/-- Its length is returned and leaves room for the terminator. -/
theorem fmtCaldateNav_snd {cd : Caldate} (date : cd.IsDate) (low : 1970 ≤ cd.year)
    (high : cd.year ≤ 99999999) :
    (fmtCaldateNav cd).2 = (fmtCaldateNav cd).1.length ∧ (fmtCaldateNav cd).2 < fmtCaldateNavSize := by
  have monthLow := date.month_pos
  have monthHigh := date.month_le
  have dayLow := date.day_pos
  have dayHigh := day_le_31 date
  have number : cd.year.natAbs = cd.year.toNat := by omega
  have written : (fmtCaldateNav cd).2 = (decimal cd.year.toNat).length + 11 := by
    have digits : countDigits cd.year.natAbs = (decimal cd.year.toNat).length := by
      rw [number]
      exact countDigits_eq (Nat.lt_succ_self _)
    have positive : ¬ cd.year < 0 := by omega
    simp [fmtCaldateNav, digits, positive]
  have short : (decimal cd.year.toNat).length ≤ 8 := length_decimalFrom (k := 7) _ _ (by omega)
  have name : (weekdays.getD (weekday cd.month cd.day cd.year).toNat []).length = 3 := by
    rw [weekday_eq date low]
    exact length_weekdays (Int.emod_nonneg _ (by decide)) (Int.emod_lt_of_pos _ (by decide))
  have month := length_months monthLow monthHigh
  have day : (padded cd.day.toNat).length = 2 := by
    rw [← dayText_eq dayLow dayHigh, length_dayText]
  constructor
  · rw [written, fmtCaldateNav_fst date low high]
    simp only [List.length_append, name, month, day, str]
    simp
    omega
  · rw [written, fmtCaldateNavSize]
    omega

/-- **The date line is right exactly while the centuries without a leap day are
as many, modulo seven, as from 1900 to 2100.** -/
theorem fmtCaldateNav_right_iff {cd : Caldate} (date : cd.IsDate) (low : 1970 ≤ cd.year)
    (high : cd.year ≤ 99999999) : NavRight cd ↔ plainCenturies cd.marchYear % 7 = 1 := by
  have line := fmtCaldateNav_fst date low high
  have room := fmtCaldateNav_snd date low high
  have names := weekdays_inj (a := weekday cd.month cd.day cd.year) (b := (caldateMjd cd + 2) % 7)
  rw [weekday_eq date low] at line names
  have same := names (by omega) (by omega) (by omega) (by omega)
  constructor
  · intro right
    have text := right.text
    rw [line] at text
    simp only [List.append_assoc] at text
    have first := (List.append_inj text (by
      rw [Caldate.weekdayName, length_weekdays (by omega) (by omega),
        length_weekdays (by omega) (by omega)])).1
    have day := same.1 first
    omega
  · intro centuries
    have day := same.2 (by omega)
    exact { text := by rw [line, day, Caldate.weekdayName], length := room.1, room := room.2 }

/-- 28 February 2100, the last day before the formula goes wrong. -/
theorem fmtCaldateNav_right_sample : NavRight ⟨2100, 2, 28⟩ := by
  have date : Caldate.IsDate ⟨2100, 2, 28⟩ := ⟨by decide, by decide, by decide, by decide⟩
  exact (fmtCaldateNav_right_iff date (by decide) (by decide)).2 (by decide)

/-- 1 March 2100 is a Monday; the line says otherwise. -/
theorem wrong_weekday : ¬ NavRight ⟨2100, 3, 1⟩ := by
  intro right
  have first := congrArg (List.take 3) right.text
  have written : (fmtCaldateNav ⟨2100, 3, 1⟩).1.take 3 = str "Tue" := by
    simp only [fmtCaldateNav, List.append_assoc]
    decide
  rw [written] at first
  revert first
  simp only [Caldate.weekdayName, List.append_assoc]
  decide

/-! ## The Erisian calendar -/

/-- `struct disc_time` -/
structure DiscTime where
  season : Int
  day : Int
  yday : Int
  year : Int
  deriving DecidableEq, Repr

def cal : List Int := [0, 31, 59, 90, 120, 151, 181, 212, 243, 273, 304, 334]

/-- The loop `while (dt->day >= 73)`: the season and the day in it. -/
def takeSeasons (season day : Int) : Int × Int :=
  if 73 ≤ day then takeSeasons (season + 1) (day - 73) else (season, day)
termination_by day.toNat

/-- The day of the year before the seasons are taken off, -1 for St. Tib's Day. -/
def discYday (cd : Caldate) : Int :=
  let day := narrow (cal.getD (cd.month - 1).toNat 0 + cd.day - 1)
  if (narrow (cd.year + 1166)).tmod 4 = 2 then
    if day = 59 then -1 else if 59 < day then day - 1 else day
  else day

def convert (cd : Caldate) : DiscTime :=
  let (season, day) := takeSeasons 0 (discYday cd)
  { season, day, yday := discYday cd, year := narrow (cd.year + 1166) }

/-- The number of the day in the year, from its season and its day. -/
def DiscTime.position (dt : DiscTime) : Int := dt.season * 73 + dt.day

/-- A year is numbered as the Discordian calendar has it. -/
structure DiscRight (year : Int) : Prop where
  tib : ∀ month day, IsDate year month day →
    ((convert ⟨year, month, day⟩).day = -1 ↔ month = 2 ∧ day = 29)
  bounds : ∀ month day, IsDate year month day → ¬ (month = 2 ∧ day = 29) →
    (0 ≤ (convert ⟨year, month, day⟩).season ∧ (convert ⟨year, month, day⟩).season ≤ 4) ∧
      0 ≤ (convert ⟨year, month, day⟩).day ∧ (convert ⟨year, month, day⟩).day ≤ 72
  ordered : ∀ month day month' day', IsDate year month day → ¬ (month = 2 ∧ day = 29) →
    IsDate year month' day' → ¬ (month' = 2 ∧ day' = 29) →
    Gregorian.Before year month day year month' day' →
    (convert ⟨year, month, day⟩).position < (convert ⟨year, month', day'⟩).position
  onto : ∀ k, 0 ≤ k → k ≤ 364 → ∃ month day, IsDate year month day ∧ ¬ (month = 2 ∧ day = 29) ∧
    (convert ⟨year, month, day⟩).position = k

/-! ### The conversion -/

theorem takeSeasons_eq {season day : Int} (low : 0 ≤ day) :
    takeSeasons season day = (season + day / 73, day % 73) := by
  induction season, day using takeSeasons.induct with
  | case1 season day long ih =>
      rw [takeSeasons, if_pos long, ih (by omega), Prod.mk.injEq]
      constructor <;> omega
  | case2 season day short =>
      rw [takeSeasons, if_neg short, Prod.mk.injEq]
      constructor <;> omega

theorem takeSeasons_of_short {season day : Int} (short : day < 73) :
    takeSeasons season day = (season, day) := by
  rw [takeSeasons, if_neg (by omega)]

/-- The years the conversion takes for leap years. -/
theorem corrected_iff (year : Int) :
    (narrow (year + 1166)).tmod 4 = 2 ↔ year % 4 = 0 ∧ 0 ≤ narrow (year + 1166) := by
  have residue : narrow (year + 1166) % 4 = (year + 1166) % 4 := by
    rw [narrow]
    rw [Int.bmod_def]
    split <;> omega
  constructor
  · intro two
    have nonneg : 0 ≤ narrow (year + 1166) := by
      by_contra neg
      have mirrored : (-narrow (year + 1166)).tmod 4 = -(narrow (year + 1166)).tmod 4 :=
        Int.neg_tmod _ _
      rw [Int.tmod_eq_emod_of_nonneg (by omega)] at mirrored
      omega
    rw [Int.tmod_eq_emod_of_nonneg nonneg] at two
    omega
  · rintro ⟨fourth, nonneg⟩
    rw [Int.tmod_eq_emod_of_nonneg nonneg]
    omega

theorem cal_getD {month : Int} (low : 1 ≤ month) (high : month ≤ 12) :
    cal.getD (month - 1).toNat 0 =
      if month ≤ 2 then daysToMonth (month + 9) - 306 else daysToMonth (month - 3) + 59 := by
  interval_cases month <;> rfl

/-- In a common year the table counts the days from New Year's Day on. -/
theorem cal_eq {year month day : Int} (date : IsDate year month day) (common : isLeap year = false) :
    cal.getD (month - 1).toNat 0 + day - 1 = dayNumber year month day - dayNumber year 1 1 := by
  have cut := daysToYear_succ (year - 1)
  rw [Int.sub_add_cancel, common, if_neg (by decide)] at cut
  have newYear : dayNumber year 1 1 = daysToYear (year - 1) + 306 := by
    rw [dayNumber_of_month (by decide) (by decide), if_pos (by decide)]
    norm_num [daysToMonth]
  rw [newYear, dayNumber_of_month date.month_pos date.month_le,
    cal_getD date.month_pos date.month_le]
  split <;> omega

/-- The days of a common year, the last one being the 365th. -/
theorem dayOfYear_bounds {year month day : Int} (date : IsDate year month day)
    (common : isLeap year = false) :
    0 ≤ dayNumber year month day - dayNumber year 1 1 ∧
      dayNumber year month day - dayNumber year 1 1 ≤ 364 := by
  have monthLow := date.month_pos
  have monthHigh := date.month_le
  have dayLow := date.day_pos
  have dayHigh := date.day_le
  rw [← cal_eq date common, cal_getD monthLow monthHigh]
  have long := monthLength_bounds year month
  rw [monthLength] at dayHigh
  rw [common] at dayHigh
  unfold daysToMonth
  interval_cases month <;> norm_num at * <;> omega

theorem not_leapDay {year month day : Int} (date : IsDate year month day)
    (common : isLeap year = false) : ¬ (month = 2 ∧ day = 29) := by
  rintro ⟨rfl, rfl⟩
  have inMonth := date.day_le
  simp [monthLength, common] at inMonth

/-- In a common year that the conversion takes for one, it counts the days. -/
theorem discYday_eq {year month day : Int} (date : IsDate year month day)
    (common : isLeap year = false) (plain : ¬ (narrow (year + 1166)).tmod 4 = 2) :
    discYday ⟨year, month, day⟩ = dayNumber year month day - dayNumber year 1 1 := by
  obtain ⟨low, high⟩ := dayOfYear_bounds date common
  simp only [discYday, if_neg plain]
  rw [cal_eq date common]
  exact narrow_of_lt (by omega) (by omega)

theorem convert_eq {cd : Caldate} (low : 0 ≤ discYday cd) :
    (convert cd).season = discYday cd / 73 ∧ (convert cd).day = discYday cd % 73 := by
  simp [convert, takeSeasons_eq low]

theorem position_eq {cd : Caldate} (low : 0 ≤ discYday cd) :
    (convert cd).position = discYday cd := by
  obtain ⟨season, day⟩ := convert_eq low
  rw [DiscTime.position, season, day]
  omega

/-- Every day of a year has a date. -/
theorem date_of_day {year k : Int} (common : isLeap year = false) (low : 0 ≤ k) (high : k ≤ 364) :
    ∃ month day, IsDate year month day ∧ dayNumber year month day = dayNumber year 1 1 + k := by
  obtain ⟨date, number⟩ := caldateFrommjd_spec (dayNumber year 1 1 + k - 678881)
  generalize caldateFrommjd (dayNumber year 1 1 + k - 678881) = cd at date number
  have newYear : IsDate year 1 1 := ⟨by decide, by decide, by decide, by simp [monthLength]⟩
  have lastDay : IsDate year 12 31 := ⟨by decide, by decide, by decide, by simp [monthLength]⟩
  have whole : dayNumber year 12 31 = dayNumber year 1 1 + 364 := by
    have counted := cal_eq lastDay common
    rw [cal_getD (by decide) (by decide)] at counted
    norm_num [daysToMonth] at counted
    omega
  have sameYear : cd.year = year := by
    by_contra other
    rcases Int.lt_or_gt_of_ne other with before | after
    · have earlier := dayNumber_lt date newYear (.inl before)
      omega
    · have later := dayNumber_lt lastDay date (.inl after)
      omega
  subst sameYear
  exact ⟨cd.month, cd.day, date, by omega⟩

/-! ### Which years are right -/

theorem convert_right {year : Int} (common : isLeap year = false)
    (plain : ¬ (narrow (year + 1166)).tmod 4 = 2) : DiscRight year := by
  have yday {month day : Int} (date : IsDate year month day) := discYday_eq date common plain
  have nonneg {month day : Int} (date : IsDate year month day) : 0 ≤ discYday ⟨year, month, day⟩ := by
    rw [yday date]
    exact (dayOfYear_bounds date common).1
  constructor
  · intro month day date
    have dayLow := (convert_eq (nonneg date)).2
    have noTib : (convert ⟨year, month, day⟩).day ≠ -1 := by omega
    exact iff_of_false noTib (not_leapDay date common)
  · intro month day date _
    have low := nonneg date
    obtain ⟨season, rest⟩ := convert_eq low
    have high := (dayOfYear_bounds date common).2
    rw [← yday date] at high
    rw [season, rest]
    omega
  · intro month day month' day' date _ date' _ before
    rw [position_eq (nonneg date), position_eq (nonneg date'), yday date, yday date']
    have lt := dayNumber_lt date date' before
    omega
  · intro k low high
    obtain ⟨month, day, date, number⟩ := date_of_day common low high
    refine ⟨month, day, date, not_leapDay date common, ?_⟩
    rw [position_eq (nonneg date), yday date]
    omega

/-- In a year that is taken for a leap year, 1 March is St. Tib's Day as well. -/
theorem firstOfMarch_tib {year : Int} (corrected : (narrow (year + 1166)).tmod 4 = 2) :
    (convert ⟨year, 3, 1⟩).day = -1 := by
  have yday : discYday ⟨year, 3, 1⟩ = -1 := by
    simp only [discYday, if_pos corrected]
    decide
  simp only [convert, yday]
  rw [takeSeasons_of_short (by decide)]

/-- **A year is numbered right exactly when it is not a multiple of four**, or is
one of the century years without a leap day whose shifted number does not fit. -/
theorem convert_right_iff (year : Int) :
    DiscRight year ↔ year % 4 ≠ 0 ∨ isLeap year = false ∧ narrow (year + 1166) < 0 := by
  constructor
  · intro right
    by_contra bad
    obtain ⟨fourth, leap⟩ := not_or.1 bad
    by_cases corrected : (narrow (year + 1166)).tmod 4 = 2
    · have date : IsDate year 3 1 := ⟨by decide, by decide, by decide, by simp [monthLength]⟩
      have february := ((right.tib 3 1 date).1 (firstOfMarch_tib corrected)).1
      exact absurd february (by decide)
    · have negative : narrow (year + 1166) < 0 := by
        rw [corrected_iff] at corrected
        omega
      have isLeap_ : isLeap year = true := by
        rw [← Bool.not_eq_false]
        exact fun common => leap ⟨common, negative⟩
      have date : IsDate year 2 29 := ⟨by decide, by decide, by decide, by simp [monthLength, isLeap_]⟩
      have yday : discYday ⟨year, 2, 29⟩ = 59 := by
        simp only [discYday, if_neg corrected]
        decide
      have tib := (right.tib 2 29 date).2 ⟨rfl, rfl⟩
      rw [(convert_eq (by omega)).2, yday] at tib
      exact absurd tib (by decide)
  · intro good
    have common : isLeap year = false := by
      rw [isLeap_eq_false]
      rcases good with notFourth | ⟨common, -⟩
      · omega
      · exact isLeap_eq_false.1 common
    apply convert_right common
    rw [corrected_iff]
    omega

/-- 2012 is a leap year with two St. Tib's Days. -/
theorem two_tibs : ¬ DiscRight 2012 := by
  intro right
  have date : IsDate 2012 3 1 := ⟨by decide, by decide, by decide, by decide⟩
  have tib : (convert ⟨2012, 3, 1⟩).day = -1 := firstOfMarch_tib (by decide)
  exact absurd ((right.tib 3 1 date).1 tib).1 (by decide)

end Bagunceiro
