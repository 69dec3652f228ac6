/-
# Libowfat.Caldate -- dates, leap seconds and calendar times

The calendar routines the repository adds to libowfat
(`0001-Add-caldate-and-caltime.patch`).  A `long` is 64 bits wide; the day
numbers that come out of a stamp are far from its ends, so the arithmetic of
`caldate_frommjd` is carried out in `Int` with the C operators' rounding.

`caldate_fmt` is injective on the dates `caldate_frommjd` makes
(`caldateFmt_injective`), so two stamps have the same date text exactly when
they have the same date.
-/
import Mathlib.Tactic.NormNum
import Bagunceiro.Libowfat.Bytes
import Bagunceiro.Lib.Radix

namespace Bagunceiro

open Radix

set_option autoImplicit false

/-- `struct caldate` -/
structure Caldate where
  year : Int
  month : Int
  day : Int
  deriving DecidableEq, Repr

/-- `struct caltime` -/
structure Caltime where
  date : Caldate
  hour : Int
  minute : Int
  second : Int
  offset : Int
  deriving DecidableEq, Repr

/-! ## Dates from day numbers -/

/-- The loop of `caldate_frommjd`; its day number is below six cycles. -/
def dropCycles : Nat → Int → Int → Int × Int
  | 0, day, year => (day, year)
  | rounds + 1, day, year =>
      if 146097 ≤ day then dropCycles rounds (day - 146097) (year + 1) else (day, year)

def caldateFrommjd (day : Int) : Caldate :=
  let (day, year) := dropCycles 6 (day.tmod 146097 + 678881) (day.tdiv 146097)
  let year := year * 4
  let (year, day) :=
    if day = 146096 then (year + 3, 36524) else (year + day.tdiv 36524, day.tmod 36524)
  let year := year * 25
  let year := year + day.tdiv 1461
  let day := day.tmod 1461
  let year := year * 4
  let (year, day) := if day = 1460 then (year + 3, 365) else (year + day.tdiv 365, day.tmod 365)
  let day := day * 10
  let month := (day + 5).tdiv 306
  let day := ((day + 5).tmod 306).tdiv 10
  let (year, month) := if 10 ≤ month then (year + 1, month - 10) else (year, month + 2)
  { year, month := month + 1, day := day + 1 }

theorem dropCycles_fst {day : Int} (low : 0 ≤ day) (high : day < 7 * 146097) (year : Int) :
    0 ≤ (dropCycles 6 day year).1 ∧ (dropCycles 6 day year).1 < 146097 := by
  simp only [dropCycles]
  split_ifs <;> constructor <;> omega

/-- The dates of day numbers have months and days of at most two digits. -/
theorem caldateFrommjd_bounds (n : Int) :
    (1 ≤ (caldateFrommjd n).month ∧ (caldateFrommjd n).month ≤ 12) ∧
      1 ≤ (caldateFrommjd n).day ∧ (caldateFrommjd n).day ≤ 31 := by
  have below : n.tmod 146097 < 146097 := Int.tmod_lt_of_pos n (by norm_num)
  have above : -146097 < n.tmod 146097 := Int.lt_tmod_of_pos n (by norm_num)
  obtain ⟨low, high⟩ := dropCycles_fst (by omega : 0 ≤ n.tmod 146097 + 678881) (by omega)
    (n.tdiv 146097)
  rw [caldateFrommjd]
  generalize dropCycles 6 (n.tmod 146097 + 678881) (n.tdiv 146097) = cycle at low high
  obtain ⟨day, year⟩ := cycle
  simp only at low high ⊢
  -- a century, a group of four years and a year are cut off one after the other
  obtain ⟨century, inCentury⟩ : ∃ d, 0 ≤ d ∧ d ≤ 36524 ∧
      (if day = 146096 then (year * 4 + 3, 36524)
        else (year * 4 + day.tdiv 36524, day.tmod 36524)).2 = d := by
    refine ⟨_, ?_, ?_, rfl⟩ <;> split <;> simp only [Int.tmod_eq_emod_of_nonneg low] <;> omega
  obtain ⟨centuryLow, centuryHigh, eq⟩ := inCentury
  rw [eq]
  have group := Int.tmod_eq_emod_of_nonneg (b := 1461) centuryLow
  rw [group]
  obtain ⟨d, inYear⟩ : ∃ d, 0 ≤ d ∧ d ≤ 365 ∧ ∀ y : Int,
      (if century % 1461 = 1460 then (y + 3, 365)
        else (y + (century % 1461).tdiv 365, (century % 1461).tmod 365)).2 = d := by
    have nonneg : 0 ≤ century % 1461 := Int.emod_nonneg _ (by norm_num)
    refine ⟨if century % 1461 = 1460 then 365 else (century % 1461).tmod 365, ?_, ?_, ?_⟩
    · split
      · norm_num
      · rw [Int.tmod_eq_emod_of_nonneg nonneg]; omega
    · split
      · norm_num
      · rw [Int.tmod_eq_emod_of_nonneg nonneg]; omega
    · intro y
      split <;> rfl
  obtain ⟨dLow, dHigh, eqs⟩ := inYear
  simp only [eqs]
  have monthEq : (d * 10 + 5).tdiv 306 = (d * 10 + 5) / 306 :=
    Int.tdiv_eq_ediv_of_nonneg (by omega)
  have dayEq : ((d * 10 + 5).tmod 306).tdiv 10 = (d * 10 + 5) % 306 / 10 := by
    rw [Int.tmod_eq_emod_of_nonneg (by omega), Int.tdiv_eq_ediv_of_nonneg (by omega)]
  rw [monthEq, dayEq]
  split <;> simp only <;> omega

/-! ## Dates as text -/

/-- The two digits of a month or a day. -/
def twoDigits (x : Int) : Bytes :=
  [UInt8.ofInt (48 + (x.tdiv 10).tmod 10), UInt8.ofInt (48 + x.tmod 10)]

def fmtYear (year : Int) : Bytes :=
  if year < 0 then str "-" ++ decimal year.natAbs else decimal year.natAbs

def caldateFmt (cd : Caldate) : Bytes :=
  fmtYear cd.year ++ str "-" ++ twoDigits cd.month ++ str "-" ++ twoDigits cd.day

theorem fmtYear_injective : Function.Injective fmtYear := by
  have signed (n m : Nat) : str "-" ++ decimal n ≠ decimal m := by
    intro same
    have member : (45 : UInt8) ∈ decimal m := by
      rw [← same]
      exact List.mem_cons_self
    have low := (digit_of_mem_decimal member).1
    simp at low
  intro a b same
  unfold fmtYear at same
  split_ifs at same with negA negB negB
  · have := decimal_injective (List.append_cancel_left same)
    omega
  · exact absurd same (signed _ _)
  · exact absurd same.symm (signed _ _)
  · have := decimal_injective same
    omega

theorem toNat_ofInt_digit {d : Int} (low : 0 ≤ d) (high : d ≤ 9) :
    ((UInt8.ofInt (48 + d)).toNat : Int) = 48 + d := by
  obtain ⟨n, rfl⟩ := Int.eq_ofNat_of_zero_le low
  have : n ≤ 9 := by omega
  interval_cases n <;> decide

theorem twoDigits_inj {x y : Int} (xLow : 0 ≤ x) (xHigh : x ≤ 99) (yLow : 0 ≤ y) (yHigh : y ≤ 99)
    (same : twoDigits x = twoDigits y) : x = y := by
  have value {z : Int} (low : 0 ≤ z) (high : z ≤ 99) :
      twoDigits z = [UInt8.ofInt (48 + z / 10), UInt8.ofInt (48 + z % 10)] := by
    have tens : (z.tdiv 10).tmod 10 = z / 10 := by
      rw [Int.tdiv_eq_ediv_of_nonneg low, Int.tmod_eq_emod_of_nonneg (by omega)]
      omega
    rw [twoDigits, tens, Int.tmod_eq_emod_of_nonneg low]
  rw [value xLow xHigh, value yLow yHigh] at same
  simp only [List.cons.injEq, and_true] at same
  have tens := congrArg (fun c => (c.toNat : Int)) same.1
  have ones := congrArg (fun c => (c.toNat : Int)) same.2
  rw [toNat_ofInt_digit (by omega) (by omega), toNat_ofInt_digit (by omega) (by omega)] at tens ones
  omega

/-- **Different dates have different texts.** -/
theorem caldateFmt_injective {n m : Int}
    (same : caldateFmt (caldateFrommjd n) = caldateFmt (caldateFrommjd m)) :
    caldateFrommjd n = caldateFrommjd m := by
  obtain ⟨⟨nMonth, nMonth'⟩, nDay, nDay'⟩ := caldateFrommjd_bounds n
  obtain ⟨⟨mMonth, mMonth'⟩, mDay, mDay'⟩ := caldateFrommjd_bounds m
  generalize caldateFrommjd n = a at *
  generalize caldateFrommjd m = b at *
  rw [caldateFmt] at same
  obtain ⟨same, day⟩ := List.append_inj' same rfl
  obtain ⟨same, -⟩ := List.append_inj' same rfl
  obtain ⟨same, month⟩ := List.append_inj' same rfl
  obtain ⟨year, -⟩ := List.append_inj' same rfl
  have year := fmtYear_injective year
  have month := twoDigits_inj (by omega) (by omega) (by omega) (by omega) month
  have day := twoDigits_inj (by omega) (by omega) (by omega) (by omega) day
  cases a
  cases b
  simp_all

/-- The digits at the front of a piece of memory, as an `unsigned long`, and the
rest of it. -/
def scanDigits (z : UInt64) : Bytes → UInt64 × Bytes
  | [] => (z, [])
  | c :: cs =>
      if 48 ≤ c.toNat ∧ c.toNat ≤ 57 then scanDigits (z * 10 + (c - 48).toUInt64) cs
      else (z, c :: cs)

/-- `caldate_scan`: what it leaves in the caller's structure. -/
def caldateScan (s : Bytes) (cd : Caldate) : Caldate :=
  let (sign, t) : UInt64 × Bytes := if s.head? = some 45 then (-1, s.tail) else (1, s)
  let (z, t) := scanDigits 0 t
  let cd := { cd with year := (z * sign).toInt64.toInt }
  if t.head? ≠ some 45 then cd
  else
    let (z, t) := scanDigits 0 t.tail
    let cd := { cd with month := z.toUInt32.toInt32.toInt }
    if t.head? ≠ some 45 then cd
    else { cd with day := (scanDigits 0 t.tail).1.toUInt32.toInt32.toInt }

/-! ## Stamps -/

/-- The loop of `leapsecs_sub` from a leap second on; `s` have passed. -/
def passLeapsecs (u : UInt64) : List UInt64 → UInt64 → UInt64 × Int
  | [], s => (u - s, 0)
  | leap :: leaps, s =>
      if u < leap then (u - s, 0)
      else if u = leap then (u - (s + 1), 1)
      else passLeapsecs u leaps (s + 1)

/-- `leapsecs_sub`; without a table nothing is subtracted. -/
def leapsecsSub (leapsecs : List UInt64) (t : UInt64) : UInt64 × Int := passLeapsecs t leapsecs 0

/-- The modified Julian day number of a second count that leap seconds have been
taken out of. -/
def utcDay (u : UInt64) : Int := ((u + 58486) / 86400 - 53375995543064).toInt64.toInt

def caltimeUtc (leapsecs : List UInt64) (t : UInt64) : Caltime :=
  let (u, leap) := leapsecsSub leapsecs t
  let s : Int := ((u + 58486) % 86400).toNat
  { date := caldateFrommjd (utcDay u)
    hour := s / 60 / 60
    minute := s / 60 % 60
    second := s % 60 + leap
    offset := 0 }

end Bagunceiro
