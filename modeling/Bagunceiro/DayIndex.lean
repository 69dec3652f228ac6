/-
# DayIndex -- the buffer of the index of days (`z_entry.c`)

`fmt_day_idx` has a buffer of `FMT_TAIA_STR` bytes, and `fmt_time_str` writes a
date into it with a terminator and without a look at its size.  A date has six
characters behind its year, so eleven are left for the year and its sign: the
years from -9999999999 to 99999999999 fit.  `dateFits_iff` says which labels those
are: an interval of the 64-bit labels.  What is before it and behind it overflows,
the last 58486 labels too, whose seconds wrap to the first day of all.
-/
import Bagunceiro.Blogger
import Bagunceiro.Libowfat.Mjd

namespace Bagunceiro

open Radix Gregorian

set_option autoImplicit false

/-! ## The buffer -/

/-- `FMT_TAIA_STR` -/
def fmtTaiaStr : Nat := 18

section

variable (leapsecs : List UInt64) (buf : Bytes)

/-- `fmt_day_idx` with its buffer, which holds `buf` before. -/
def fmtDayIdxIn (l : Taia) : Except Fault Bytes := do
  let date := fmtTimeStr leapsecs l
  let buf ← store fmtTaiaStr buf (date ++ [0])
  return buf.take date.length ++ str "@"

/-- `add_entry` with the buffer -/
def addEntryIn (modifiedAt : Taia) (a : Cdbb) (k : Taia) (v : Bytes) : Except Fault Cdbb := do
  let dayidx ← fmtDayIdxIn leapsecs buf k
  let pk := taiaPack k
  let a := cdbbAdd a pk v
  let a := cdbbAdd a dayidx pk
  return blogModified modifiedAt a

/-- `delete_entry` with the buffer -/
def deleteEntryIn (modifiedAt : Taia) (a : Cdbb) (k : Taia) : Except Fault Cdbb := do
  let dayidx ← fmtDayIdxIn leapsecs buf k
  let pk := taiaPack k
  let a := cdbbDel a pk
  let a := cdbbDelVal a dayidx pk
  return blogModified modifiedAt a

/-- The date and its terminator fit in the buffer. -/
def DateFits (l : Taia) : Prop := (fmtTimeStr leapsecs l ++ [0]).length ≤ fmtTaiaStr

theorem fmtDayIdxIn_of_fits {l : Taia} (fits : DateFits leapsecs l) :
    fmtDayIdxIn leapsecs buf l = .ok (fmtDayIdx leapsecs l) := by
  have stored : store fmtTaiaStr buf (fmtTimeStr leapsecs l ++ [0]) =
      .ok (fmtTimeStr leapsecs l ++ [0] ++ buf.drop (fmtTimeStr leapsecs l ++ [0]).length) :=
    if_pos fits
  simp only [fmtDayIdxIn, stored]
  show Except.ok (_ ++ _) = Except.ok (_ ++ _)
  rw [List.append_assoc (fmtTimeStr leapsecs l), List.take_left]

theorem fmtDayIdxIn_of_not_fits {l : Taia} (long : ¬ DateFits leapsecs l) :
    fmtDayIdxIn leapsecs buf l = .error .overflow := by
  have stored : store fmtTaiaStr buf (fmtTimeStr leapsecs l ++ [0]) = .error .overflow :=
    if_neg long
  rw [fmtDayIdxIn, stored]
  rfl

/-- Where the date fits, the entry is added as if the buffer had no end. -/
theorem addEntryIn_of_fits {k : Taia} (fits : DateFits leapsecs k) (modifiedAt : Taia) (a : Cdbb)
    (v : Bytes) :
    addEntryIn leapsecs buf modifiedAt a k v = .ok (addEntry leapsecs modifiedAt a k v) := by
  rw [addEntryIn, fmtDayIdxIn_of_fits leapsecs buf fits]
  rfl

theorem deleteEntryIn_of_fits {k : Taia} (fits : DateFits leapsecs k) (modifiedAt : Taia)
    (a : Cdbb) :
    deleteEntryIn leapsecs buf modifiedAt a k = .ok (deleteEntry leapsecs modifiedAt a k) := by
  rw [deleteEntryIn, fmtDayIdxIn_of_fits leapsecs buf fits]
  rfl

theorem exists_addEntryIn_iff (modifiedAt : Taia) (a : Cdbb) (k : Taia) (v : Bytes) :
    (∃ b, addEntryIn leapsecs buf modifiedAt a k v = .ok b) ↔ DateFits leapsecs k := by
  constructor
  · rintro ⟨b, added⟩
    by_contra long
    rw [addEntryIn, fmtDayIdxIn_of_not_fits leapsecs buf long] at added
    cases added
  · intro fits
    exact ⟨_, addEntryIn_of_fits leapsecs buf fits modifiedAt a v⟩

theorem exists_deleteEntryIn_iff (modifiedAt : Taia) (a : Cdbb) (k : Taia) :
    (∃ b, deleteEntryIn leapsecs buf modifiedAt a k = .ok b) ↔ DateFits leapsecs k := by
  constructor
  · rintro ⟨b, deleted⟩
    by_contra long
    rw [deleteEntryIn, fmtDayIdxIn_of_not_fits leapsecs buf long] at deleted
    cases deleted
  · intro fits
    exact ⟨_, deleteEntryIn_of_fits leapsecs buf fits modifiedAt a⟩

end

/-! ## Years -/

theorem length_caldateFmt (cd : Caldate) :
    (caldateFmt cd).length = (fmtYear cd.year).length + 6 := by
  rw [caldateFmt]
  simp only [List.length_append]
  rfl

/-- The sign takes the place of a digit. -/
theorem length_fmtYear_le_iff {k : Nat} (year : Int) :
    (fmtYear year).length ≤ k + 2 ↔ -10 ^ (k + 1) < year ∧ year < 10 ^ (k + 2) := by
  have positive (j : Nat) : (0 : Int) < 10 ^ j := by positivity
  have digits (j : Nat) :
      (decimal year.natAbs).length ≤ j + 1 ↔ (year.natAbs : Int) < 10 ^ (j + 1) := by
    rw [length_decimal_le_iff, ← Int.ofNat_lt]
    push_cast
    rfl
  have negative := digits k
  have plain := digits (k + 1)
  have fewer := positive (k + 1)
  have more := positive (k + 2)
  generalize (10 : Int) ^ (k + 1) = few at *
  generalize (10 : Int) ^ (k + 2) = many at *
  rw [fmtYear]
  split
  · rw [List.length_append, show (str "-").length = 1 from rfl]
    omega
  · omega

theorem year_le_iff (n year : Int) :
    (caldateFrommjd n).year ≤ year ↔ n < caldateMjd ⟨year + 1, 1, 1⟩ := by
  obtain ⟨date, number⟩ := caldateFrommjd_spec n
  have long := monthLength_bounds (year + 1) 1
  have january : IsDate (year + 1) 1 1 := ⟨le_refl _, by norm_num, le_refl _, by omega⟩
  rw [caldateMjd_eq]
  constructor
  · intro within
    have := dayNumber_year_lt date january (by omega)
    simp only
    omega
  · intro before
    simp only at before
    have := before_of_dayNumber_lt date january (by omega)
    have := date.month_pos
    have := date.day_pos
    rw [Gregorian.Before] at *
    omega

/-! ## Labels -/

/-- The leap seconds of the table up to a label. -/
def leapsUpTo (u : UInt64) : List UInt64 → UInt64
  | [] => 0
  | leap :: leaps => if u < leap then 0 else if u = leap then 1 else leapsUpTo u leaps + 1

theorem passLeapsecs_eq_sub (u s : UInt64) (leaps : List UInt64) :
    (passLeapsecs u leaps s).1 = u - (s + leapsUpTo u leaps) := by
  induction leaps generalizing s with
  | nil => rw [passLeapsecs, leapsUpTo, UInt64.add_zero]
  | cons leap leaps ih =>
      rw [passLeapsecs, leapsUpTo]
      split
      · rw [UInt64.add_zero]
      · split
        · rfl
        · rw [ih, UInt64.add_assoc, UInt64.add_comm 1]

/-- The label without the leap seconds up to it. -/
def withoutLeaps (leapsecs : List UInt64) (u : UInt64) : UInt64 := u - leapsUpTo u leapsecs

theorem dayOf_withoutLeaps (leapsecs : List UInt64) (t : Taia) :
    dayOf leapsecs t = caldateFrommjd (utcDay (withoutLeaps leapsecs t.sec)) := by
  rw [dayOf, caltimeUtc, leapsecsSub]
  simp only [passLeapsecs_eq_sub, UInt64.zero_add]
  rfl

/-- The first second of the year -9999999999, and of the year 100000000000. -/
def firstFitting : Nat := 4296116436291791114
def firstTooLong : Nat := 7767381156260168714

/-- Seconds of the years that leave the date seventeen characters. -/
structure ShortYear (u : UInt64) : Prop where
  low : firstFitting ≤ u.toNat
  high : u.toNat < firstTooLong

instance (u : UInt64) : Decidable (ShortYear u) :=
  decidable_of_iff (firstFitting ≤ u.toNat ∧ u.toNat < firstTooLong)
    ⟨fun both => ⟨both.1, both.2⟩, fun short => ⟨short.low, short.high⟩⟩

/-- The years of a second; the last ones of all are wrapped to the first day. -/
theorem shortYear_iff (u : UInt64) :
    ShortYear u ↔ caldateMjd ⟨-9999999999, 1, 1⟩ ≤ utcDay u ∧
      utcDay u < caldateMjd ⟨100000000000, 1, 1⟩ := by
  have first : caldateMjd ⟨-9999999999, 1, 1⟩ = -3652425678575 := by decide
  have last : caldateMjd ⟨100000000000, 1, 1⟩ = 36524249321059 := by decide
  have wrapped : (u + 58486).toNat = (u.toNat + 58486) % 2 ^ 64 := UInt64.toNat_add ..
  have cases_ : (u + 58486).toNat = u.toNat + 58486 ∨
      2 ^ 64 ≤ u.toNat + 58486 ∧ (u + 58486).toNat < 58486 := by
    have bound := u.toNat_lt
    omega
  rw [first, last, utcDay_eq]
  clear wrapped
  constructor
  · rintro ⟨low, high⟩
    rw [firstFitting] at low
    rw [firstTooLong] at high
    omega
  · rintro ⟨low, high⟩
    constructor
    · rw [firstFitting]
      omega
    · rw [firstTooLong]
      omega

/-- **Which dates fit.** -/
theorem dateFits_iff (leapsecs : List UInt64) (l : Taia) :
    DateFits leapsecs l ↔ ShortYear (withoutLeaps leapsecs l.sec) := by
  have size : DateFits leapsecs l ↔ (fmtYear (dayOf leapsecs l).year).length ≤ 9 + 2 := by
    rw [DateFits, List.length_append, show fmtTimeStr leapsecs l = caldateFmt (dayOf leapsecs l)
      from rfl, length_caldateFmt, fmtTaiaStr, List.length_singleton]
    omega
  have high := year_le_iff (utcDay (withoutLeaps leapsecs l.sec)) 99999999999
  have low := year_le_iff (utcDay (withoutLeaps leapsecs l.sec)) (-10000000000)
  rw [size, length_fmtYear_le_iff, dayOf_withoutLeaps, shortYear_iff]
  norm_num at high low ⊢
  omega

/-! ## Keys from the command line -/

/-- Every label has a key of thirty-two digits, whatever the buffer of the scan held. -/
theorem exists_key_of_label (u : UInt64) :
    ∃ key : Bytes, key.length = 32 ∧ (∀ c ∈ key, (fromHex c).isSome = true) ∧
      ∀ (env : CmdEnv) (cmd : Cmd) (rest : Bytes), cmd.skey = key ++ rest →
        (cmd.stamp env).sec = u := by
  refine ⟨hexdump (taiaPack ⟨u, 0, 0⟩), ?_, ?_, ?_⟩
  · rw [length_hexdump, length_taiaPack]
  · intro c member
    exact fromHex_isSome_of_isLowerHex (isLowerHex_of_mem_hexdump member)
  · intro env cmd rest typed
    rw [Cmd.stamp, typed, scanTimeHex_hexdump]

/-- **When the day of a key is written inside its buffer**: when the label of the
key, less the leap seconds up to it, is a second of the years that are short enough. -/
theorem Cmd.dayIdx_fits_iff (env : CmdEnv) (cmd : Cmd) (buf : Bytes) (a : Cdbb) (v : Bytes) :
    ((∃ b, addEntryIn env.leapsecs buf env.modifiedAt a (cmd.stamp env) v = .ok b) ↔
        ShortYear (withoutLeaps env.leapsecs (cmd.stamp env).sec)) ∧
      ((∃ b, deleteEntryIn env.leapsecs buf env.modifiedAt a (cmd.stamp env) = .ok b) ↔
        ShortYear (withoutLeaps env.leapsecs (cmd.stamp env).sec)) := by
  constructor
  · rw [exists_addEntryIn_iff, dateFits_iff]
  · rw [exists_deleteEntryIn_iff, dateFits_iff]

/-- What `main` finds without a table, over memory that is zero. -/
def cmdBlank : CmdEnv where
  leapsecs := []
  sha256 s := s
  skey := zeros 100
  left := zeros taiaPackSize
  behind := []
  stdin := []
  memory _ := ⟨0, 0, fun _ => 0⟩
  clk _ := ⟨0, 0, 0⟩
  entryAt := ⟨0, 0, 0⟩
  modifiedAt := ⟨0, 0, 0⟩

/-- `-t -a -k ffffffffffffffff0000000000000000` -/
def lastLabelOptions : List CmdOption := [.t, .a, .k (str "ffffffffffffffff0000000000000000")]

/-- The last label of all has a year of thirteen characters. -/
theorem last_label_overflows : ¬ ∀ (env : CmdEnv) (options : List CmdOption) (cmd : Cmd)
    (buf : Bytes) (a : Cdbb) (v : Bytes),
    Cmd.parse env.sha256 options (Cmd.start env.skey env.stdin) = .ok cmd → cmd.mode = .taia →
      (cstr cmd.skey).length = 32 → (∀ c ∈ cstr cmd.skey, (fromHex c).isSome = true) →
        ∃ b, addEntryIn env.leapsecs buf env.modifiedAt a (cmd.stamp env) v = .ok b := by
  intro always
  obtain ⟨cmd, parsed, timed, typed⟩ : ∃ cmd,
      Cmd.parse cmdBlank.sha256 lastLabelOptions (Cmd.start cmdBlank.skey cmdBlank.stdin) =
        .ok cmd ∧ cmd.mode = .taia ∧
      cmd.skey = hexdump (taiaPack ⟨-1, 0, 0⟩) ++ zeros 68 :=
    ⟨_, rfl, rfl, by decide⟩
  have stamp : cmd.stamp cmdBlank = ⟨-1, 0, 0⟩ := by
    rw [Cmd.stamp, typed, scanTimeHex_hexdump]
  have digits : cstr cmd.skey = hexdump (taiaPack ⟨-1, 0, 0⟩) := by
    rw [typed]
    decide
  have added := always cmdBlank lastLabelOptions cmd [] (started cmdBlank.memory [] 0 0) [] parsed
    timed (by rw [digits]; decide)
    fun c member => fromHex_isSome_of_isLowerHex (isLowerHex_of_mem_hexdump (digits ▸ member))
  rw [exists_addEntryIn_iff, stamp, dateFits_iff] at added
  exact absurd added (by decide)

end Bagunceiro
