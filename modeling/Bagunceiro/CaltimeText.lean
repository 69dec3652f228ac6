/-
# CaltimeText -- calendar times as text (`0001-Add-caldate-and-caltime.patch`)

`caltime_fmt` writes a calendar time with its offset from UTC, and `caltime_scan` reads
one.  What was written is read back, whatever follows it and whatever the caller's
structure held (`caltimeScan_caltimeFmt`).

The program `leapsecs` reads the dates that end in a leap second, line by line, and makes
the table of them; under such a table every label comes back (`leapsecs_label_back`).
-/
import Bagunceiro.Caltime
import Bagunceiro.Months

namespace Bagunceiro

open Radix

set_option autoImplicit false

/-! ## Writing -/

/-- The sign and the four digits of an offset: hours and minutes. -/
def fmtOffset (offset : Int) : Bytes :=
  let x := offset.natAbs
  (if offset < 0 then 45 else 43) :: [UInt8.ofNat (48 + x / 600 % 10), UInt8.ofNat (48 + x / 60 % 10),
    UInt8.ofNat (48 + x / 10 % 6), UInt8.ofNat (48 + x % 10)]

/-- `caltime_fmt` -/
def caltimeFmt (ct : Caltime) : Bytes :=
  caldateFmt ct.date ++ (32 :: twoDigits ct.hour ++ (58 :: twoDigits ct.minute ++
    (58 :: twoDigits ct.second ++ 32 :: fmtOffset ct.offset)))

/-! ## Reading -/

/-- What is behind a date, if `caldate_scan` finds one. -/
def afterDate (s : Bytes) : Option Bytes :=
  let t := if s.head? = some 45 then s.tail else s
  let t := (scanDigits 0 t).2
  if t.head? ≠ some 45 then none
  else
    let t := (scanDigits 0 t.tail).2
    if t.head? ≠ some 45 then none else some (scanDigits 0 t.tail).2

/-- The four digits of an offset, and what is behind them. -/
def scanOffset : Bytes → Option (Nat × Bytes)
  | a :: b :: c :: d :: rest =>
      if [a, b, c, d].all fun c => 48 ≤ c.toNat ∧ c.toNat ≤ 57 then
        some ((((a.toNat - 48) * 10 + (b.toNat - 48)) * 6 + (c.toNat - 48)) * 10 + (d.toNat - 48), rest)
      else none
  | _ => none

/-- The digits at the front as an `int`, and the rest. -/
def scanInt (s : Bytes) : Int × Bytes :=
  let (z, t) := scanDigits 0 s
  (z.toUInt32.toInt32.toInt, t)

/-- `caltime_scan`: what is behind the time, if there is one, and the caller's structure.
Where no date is found, the time is looked for in the place of the date. -/
def caltimeScan (s : Bytes) (ct : Caltime) : Option Bytes × Caltime :=
  let ct := { ct with date := caldateScan s ct.date }
  let t := (afterDate s).getD s
  let (hour, t) := scanInt (t.dropWhile fun c => c = 32 ∨ c = 9 ∨ c = 84)
  let ct := { ct with hour := hour }
  if t.head? ≠ some 58 then (none, ct)
  else
    let (minute, t) := scanInt t.tail
    let (second, t) := if t.head? ≠ some 58 then (0, t) else scanInt t.tail
    let ct := { ct with minute := minute, second := second }
    let t := t.dropWhile fun c => c = 32 ∨ c = 9
    if t.head? ≠ some 43 ∧ t.head? ≠ some 45 then (none, ct)
    else
      match scanOffset t.tail with
      | none => (none, ct)
      | some (x, rest) =>
          (some rest, { ct with offset := if t.head? = some 43 then x else -x })

/-! ## There and back -/

theorem twoDigits_read {x : Int} (low : 0 ≤ x) (high : x ≤ 99) :
    IsDigits (twoDigits x) ∧ (ofDecimal (twoDigits x) : Int) = x := by
  have tens : (x.tdiv 10).tmod 10 = x / 10 := by
    rw [Int.tdiv_eq_ediv_of_nonneg low, Int.tmod_eq_emod_of_nonneg (by omega)]
    omega
  have first := toNat_ofInt_digit (d := x / 10) (by omega) (by omega)
  have second := toNat_ofInt_digit (d := x % 10) (by omega) (by omega)
  rw [twoDigits, tens, Int.tmod_eq_emod_of_nonneg low]
  constructor
  · intro c member
    simp only [List.mem_cons, List.not_mem_nil, or_false] at member
    rcases member with rfl | rfl
    · omega
    · omega
  · simp only [ofDecimal, List.foldl_cons, List.foldl_nil]
    omega

/-- Two digits are read. -/
theorem scanInt_twoDigits {x : Int} (low : 0 ≤ x) (high : x ≤ 99) {rest : Bytes}
    (stop : ∀ c ∈ rest.head?, ¬ (48 ≤ c.toNat ∧ c.toNat ≤ 57)) :
    scanInt (twoDigits x ++ rest) = (x, rest) := by
  obtain ⟨digits, value⟩ := twoDigits_read low high
  have read : scanDigits 0 (twoDigits x ++ rest) = (UInt64.ofNat (ofDecimal (twoDigits x)), rest) :=
    scanDigits_append digits stop 0
  rw [scanInt, read]
  dsimp only
  rw [toInt32_ofNat (by omega), value]

theorem toNat_digit {d : Nat} (small : d < 10) : (UInt8.ofNat (48 + d)).toNat = 48 + d := by
  rw [UInt8.toNat_ofNat']
  omega

theorem scanOffset_fmtOffset {offset : Int} (small : offset.natAbs < 6000) (rest : Bytes) :
    scanOffset ((fmtOffset offset).tail ++ rest) = some (offset.natAbs, rest) := by
  have a := toNat_digit (d := offset.natAbs / 600 % 10) (by omega)
  have b := toNat_digit (d := offset.natAbs / 60 % 10) (by omega)
  have c := toNat_digit (d := offset.natAbs / 10 % 6) (by omega)
  have d := toNat_digit (d := offset.natAbs % 10) (by omega)
  have digits : [UInt8.ofNat (48 + offset.natAbs / 600 % 10),
      UInt8.ofNat (48 + offset.natAbs / 60 % 10), UInt8.ofNat (48 + offset.natAbs / 10 % 6),
      UInt8.ofNat (48 + offset.natAbs % 10)].all
        (fun c => 48 ≤ c.toNat ∧ c.toNat ≤ 57) = true := by
    simp only [List.all_cons, List.all_nil, a, b, c, d, Bool.and_true, Bool.and_eq_true,
      decide_eq_true_iff]
    omega
  have value : (((48 + offset.natAbs / 600 % 10 - 48) * 10 + (48 + offset.natAbs / 60 % 10 - 48)) * 6 +
      (48 + offset.natAbs / 10 % 6 - 48)) * 10 + (48 + offset.natAbs % 10 - 48) = offset.natAbs := by
    omega
  show scanOffset (_ :: _ :: _ :: _ :: rest) = _
  rw [scanOffset, if_pos digits, a, b, c, d, value]

/-- What `caltime_fmt` can write: years of a `long`, two digits for each other number and
four for the offset. -/
structure Caltime.Written (ct : Caltime) : Prop where
  year : -2 ^ 63 < ct.date.year ∧ ct.date.year < 2 ^ 63
  month : 0 ≤ ct.date.month ∧ ct.date.month ≤ 99
  day : 0 ≤ ct.date.day ∧ ct.date.day ≤ 99
  hour : 0 ≤ ct.hour ∧ ct.hour ≤ 99
  minute : 0 ≤ ct.minute ∧ ct.minute ≤ 99
  second : 0 ≤ ct.second ∧ ct.second ≤ 99
  offset : ct.offset.natAbs < 6000

/-- The number behind a sign. -/
theorem toInt_signed {n : Nat} (small : n < 2 ^ 63) :
    (UInt64.ofNat n * 1).toInt64.toInt = n ∧ (UInt64.ofNat n * -1).toInt64.toInt = -n := by
  have whole : (BitVec.ofNat 64 n).toInt = n := by
    have count : (BitVec.ofNat 64 n).toNat = n := by
      rw [BitVec.toNat_ofNat, Nat.mod_eq_of_lt (by omega)]
    rw [BitVec.toInt_eq_toNat_of_lt (by omega), count]
  constructor
  · rw [UInt64.mul_one]
    exact whole
  · have minus : UInt64.ofNat n * -1 = -UInt64.ofNat n := by grind
    rw [minus]
    show (-BitVec.ofNat 64 n).toInt = _
    rw [BitVec.toInt_neg, whole]
    exact Int.bmod_eq_of_le (by omega) (by omega)

/-- What follows the digits of a number is not a digit. -/
theorem stop_cons {c : UInt8} (other : ¬ (48 ≤ c.toNat ∧ c.toNat ≤ 57)) (rest : Bytes) :
    ∀ d ∈ (c :: rest).head?, ¬ (48 ≤ d.toNat ∧ d.toNat ≤ 57) := by
  rintro d ⟨⟩
  exact other

theorem caldateFmt_append (cd : Caldate) (rest : Bytes) :
    caldateFmt cd ++ rest = fmtYear cd.year ++
      45 :: (twoDigits cd.month ++ 45 :: (twoDigits cd.day ++ rest)) := by
  have dash : str "-" = [45] := rfl
  rw [caldateFmt, dash]
  simp only [List.append_assoc, List.cons_append, List.nil_append]

theorem decimal_ne_nil (n : Nat) : decimal n ≠ [] := by
  rw [decimal, decimalFrom]
  exact List.append_ne_nil_of_right_ne_nil _ (List.cons_ne_nil _ _)

/-- A date is read, up to its last digit. -/
theorem scan_date {cd : Caldate} (year : -2 ^ 63 < cd.year ∧ cd.year < 2 ^ 63)
    (month : 0 ≤ cd.month ∧ cd.month ≤ 99) (day : 0 ≤ cd.day ∧ cd.day ≤ 99) {rest : Bytes}
    (stop : ∀ c ∈ rest.head?, ¬ (48 ≤ c.toNat ∧ c.toNat ≤ 57)) (cd' : Caldate) :
    caldateScan (caldateFmt cd ++ rest) cd' = cd ∧ afterDate (caldateFmt cd ++ rest) = some rest := by
  have dash : ¬ (48 ≤ (45 : UInt8).toNat ∧ (45 : UInt8).toNat ≤ 57) := by decide
  obtain ⟨plus, minus⟩ := toInt_signed (n := cd.year.natAbs) (by omega)
  have years : scanDigits 0 (decimal cd.year.natAbs ++
      45 :: (twoDigits cd.month ++ 45 :: (twoDigits cd.day ++ rest))) =
        (UInt64.ofNat cd.year.natAbs,
          45 :: (twoDigits cd.month ++ 45 :: (twoDigits cd.day ++ rest))) := by
    have read := scanDigits_append (isDigits_decimal cd.year.natAbs)
      (stop_cons dash (twoDigits cd.month ++ 45 :: (twoDigits cd.day ++ rest))) 0
    rw [show List.foldl _ 0 (decimal cd.year.natAbs) = cd.year.natAbs from
      ofDecimal_decimal cd.year.natAbs] at read
    exact read
  obtain ⟨monthDigits, monthValue⟩ := twoDigits_read month.1 month.2
  obtain ⟨dayDigits, dayValue⟩ := twoDigits_read day.1 day.2
  have months : scanDigits 0 (twoDigits cd.month ++ 45 :: (twoDigits cd.day ++ rest)) =
      (UInt64.ofNat (ofDecimal (twoDigits cd.month)), 45 :: (twoDigits cd.day ++ rest)) :=
    scanDigits_append monthDigits (stop_cons dash _) 0
  have days : scanDigits 0 (twoDigits cd.day ++ rest) =
      (UInt64.ofNat (ofDecimal (twoDigits cd.day)), rest) := scanDigits_append dayDigits stop 0
  have month_ : (UInt64.ofNat (ofDecimal (twoDigits cd.month))).toUInt32.toInt32.toInt = cd.month := by
    rw [toInt32_ofNat (by omega), monthValue]
  have day_ : (UInt64.ofNat (ofDecimal (twoDigits cd.day))).toUInt32.toInt32.toInt = cd.day := by
    rw [toInt32_ofNat (by omega), dayValue]
  rw [caldateFmt_append, caldateScan, afterDate, fmtYear]
  by_cases negative : cd.year < 0
  · rw [if_pos negative]
    simp only [show str "-" = [45] from rfl, List.cons_append, List.nil_append,
      List.head?_cons, if_true, List.tail_cons, years, months, days, minus, month_, day_, ne_eq,
      not_true_eq_false, if_false, and_true]
    obtain ⟨y, m, d⟩ := cd
    dsimp only at negative ⊢
    rw [Caldate.mk.injEq]
    omega
  · have first : (decimal cd.year.natAbs ++
        45 :: (twoDigits cd.month ++ 45 :: (twoDigits cd.day ++ rest))).head? ≠ some 45 := by
      obtain ⟨c, digits, more⟩ := List.exists_cons_of_ne_nil (decimal_ne_nil cd.year.natAbs)
      have digit := isDigits_decimal cd.year.natAbs c (by rw [more]; exact List.mem_cons_self)
      rw [more]
      rintro ⟨⟩
      exact dash digit
    rw [if_neg negative]
    simp only [if_neg first, List.head?_cons, List.tail_cons, years, months, days, plus,
      month_, day_, ne_eq, not_true_eq_false, if_false, and_true]
    obtain ⟨y, m, d⟩ := cd
    dsimp only at negative ⊢
    rw [Caldate.mk.injEq]
    omega

/-- Nothing is passed over in front of digits. -/
theorem dropWhile_twoDigits {x : Int} (low : 0 ≤ x) (high : x ≤ 99) (rest : Bytes)
    {p : UInt8 → Bool} (keeps : ∀ c : UInt8, 48 ≤ c.toNat ∧ c.toNat ≤ 57 → p c = false) :
    (twoDigits x ++ rest).dropWhile p = twoDigits x ++ rest := by
  have digit := (twoDigits_read low high).1 _ List.mem_cons_self
  exact List.dropWhile_cons_of_neg (Bool.eq_false_iff.1 (keeps _ digit))

/-- **A calendar time that was written is read back.** -/
theorem caltimeScan_caltimeFmt {ct : Caltime} (written : ct.Written) (rest : Bytes) (ct' : Caltime) :
    caltimeScan (caltimeFmt ct ++ rest) ct' = (some rest, ct) := by
  have colon : ¬ (48 ≤ (58 : UInt8).toNat ∧ (58 : UInt8).toNat ≤ 57) := by decide
  have blank : ¬ (48 ≤ (32 : UInt8).toNat ∧ (32 : UInt8).toNat ≤ 57) := by decide
  have digits (c : UInt8) (digit : 48 ≤ c.toNat ∧ c.toNat ≤ 57) :
      decide (c = 32 ∨ c = 9 ∨ c = 84) = false := by
    rw [decide_eq_false_iff_not]
    rintro (rfl | rfl | rfl) <;> revert digit <;> decide
  -- what is behind each of the parts
  let behindSecond := 32 :: (fmtOffset ct.offset ++ rest)
  let behindMinute := 58 :: (twoDigits ct.second ++ behindSecond)
  let behindHour := 58 :: (twoDigits ct.minute ++ behindMinute)
  let behindDate := 32 :: (twoDigits ct.hour ++ behindHour)
  have whole : caltimeFmt ct ++ rest = caldateFmt ct.date ++ behindDate := by
    simp only [caltimeFmt, behindDate, behindHour, behindMinute, behindSecond, List.append_assoc,
      List.cons_append]
  obtain ⟨date, after⟩ := scan_date written.year written.month written.day
    (stop_cons blank (twoDigits ct.hour ++ behindHour)) ct'.date
  have hour := scanInt_twoDigits written.hour.1 written.hour.2
    (stop_cons colon (twoDigits ct.minute ++ behindMinute))
  have minute := scanInt_twoDigits written.minute.1 written.minute.2
    (stop_cons colon (twoDigits ct.second ++ behindSecond))
  have second := scanInt_twoDigits written.second.1 written.second.2
    (stop_cons blank (fmtOffset ct.offset ++ rest))
  have skips : behindDate.dropWhile (fun c => decide (c = 32 ∨ c = 9 ∨ c = 84)) =
      twoDigits ct.hour ++ behindHour := by
    rw [List.dropWhile_cons_of_pos (by decide)]
    exact dropWhile_twoDigits written.hour.1 written.hour.2 behindHour digits
  have sign : behindSecond.dropWhile (fun c => decide (c = 32 ∨ c = 9)) =
      fmtOffset ct.offset ++ rest := by
    rw [List.dropWhile_cons_of_pos (by decide), fmtOffset]
    by_cases negative : ct.offset < 0
    · rw [if_pos negative]
      exact List.dropWhile_cons_of_neg (by decide)
    · rw [if_neg negative]
      exact List.dropWhile_cons_of_neg (by decide)
  have offset := scanOffset_fmtOffset written.offset rest
  have head : (fmtOffset ct.offset ++ rest).head? = some (if ct.offset < 0 then 45 else 43) := rfl
  have tail : (fmtOffset ct.offset ++ rest).tail = (fmtOffset ct.offset).tail ++ rest := rfl
  have found : ∀ bs : Bytes, (58 :: bs).head? = some 58 ∧ (58 :: bs).tail = bs :=
    fun bs => ⟨rfl, rfl⟩
  rw [whole, caltimeScan, date, after, Option.getD_some, skips, hour]
  dsimp only
  rw [if_neg (not_not_intro (found _).1), (found _).2, minute]
  dsimp only
  rw [if_neg (not_not_intro (found _).1), (found _).2, second]
  dsimp only
  rw [sign, head, tail, offset]
  by_cases negative : ct.offset < 0
  · rw [if_pos negative, if_neg (by decide)]
    dsimp only
    have back : -(ct.offset.natAbs : Int) = ct.offset := by omega
    rw [if_neg (by decide), back]
  · rw [if_neg negative, if_neg (by decide)]
    dsimp only
    have back : (ct.offset.natAbs : Int) = ct.offset := by omega
    rw [if_pos rfl, back]

/-- At a UTC offset, and in front of other text. -/
theorem caltimeScan_evening :
    caltimeScan (caltimeFmt ⟨⟨2012, 6, 30⟩, 23, 59, 60, -330⟩ ++ str "Z") ⟨⟨0, 0, 0⟩, 0, 0, 0, 0⟩ =
      (some (str "Z"), ⟨⟨2012, 6, 30⟩, 23, 59, 60, -330⟩) :=
  caltimeScan_caltimeFmt ⟨by decide, by decide, by decide, by decide, by decide, by decide, by decide⟩
    (str "Z") ⟨⟨0, 0, 0⟩, 0, 0, 0, 0⟩

/-! ## The table of leap seconds -/

/-- The loop of `leapsecs` over the lines of its input, behind so many leap seconds. -/
def leapsecsLoop : List Bytes → Caldate → Nat → List UInt64
  | [], _, _ => []
  | line :: lines, cd, leaps =>
      if line.head? = some 43 then
        let cd := caldateScan line.tail cd
        if (afterDate line.tail).isSome then leapLabel cd leaps :: leapsecsLoop lines cd (leaps + 1)
        else leapsecsLoop lines cd leaps
      else leapsecsLoop lines cd leaps

/-- The input lists dates, each behind a `+` on a line of its own, among other lines. -/
inductive ListsDates : List Bytes → List Caldate → Prop
  | nil : ListsDates [] []
  | other {line : Bytes} {lines : List Bytes} {cds : List Caldate} (notPlus : line.head? ≠ some 43)
      (rest : ListsDates lines cds) : ListsDates (line :: lines) cds
  | date {cd : Caldate} {lines : List Bytes} {cds : List Caldate} (text : Bytes)
      (isDate : cd.IsDate) (year : -2 ^ 63 < cd.year ∧ cd.year < 2 ^ 63)
      (stop : ∀ c ∈ text.head?, ¬ (48 ≤ c.toNat ∧ c.toNat ≤ 57)) (rest : ListsDates lines cds) :
      ListsDates ((43 :: (caldateFmt cd ++ text)) :: lines) (cd :: cds)

theorem leapsecsLoop_eq {lines : List Bytes} {cds : List Caldate} (lists : ListsDates lines cds)
    (cd : Caldate) (leaps : Nat) : leapsecsLoop lines cd leaps = leapTable cds leaps := by
  induction lists generalizing cd leaps with
  | nil => rfl
  | other notPlus rest ih =>
      rw [leapsecsLoop, if_neg notPlus]
      exact ih cd leaps
  | @date cd' lines cds text isDate year stop rest ih =>
      obtain ⟨low, high, dayLow, dayHigh⟩ := isDate
      have length := Gregorian.monthLength_bounds cd'.year cd'.month
      obtain ⟨date, after⟩ := @scan_date cd' year ⟨by omega, by omega⟩ ⟨by omega, by omega⟩
        _ stop cd
      have plus : (43 :: (caldateFmt cd' ++ text)).head? = some 43 := rfl
      rw [leapsecsLoop, if_pos plus, List.tail_cons, date, after]
      exact congrArg _ (ih cd' (leaps + 1))

/-- **Under a table that `leapsecs` makes, every label comes back**, leap seconds too. -/
theorem leapsecs_label_back {lines : List Bytes} {cds : List Caldate}
    (lists : ListsDates lines cds) (ascending : Ascending cds) (cd : Caldate) (t : UInt64) :
    caltimeTai (leapsecsLoop lines cd 0) (caltimeUtc (leapsecsLoop lines cd 0) t) = t := by
  rw [leapsecsLoop_eq lists]
  exact caltimeTai_caltimeUtc (leapTable_endsDays ascending) t

/-- The leap second at the end of June 1972. -/
theorem leapsecs_label_back_june :
    caltimeTai (leapsecsLoop [str "# leap seconds", str "+1972-06-30"] ⟨0, 0, 0⟩ 0)
      (caltimeUtc (leapsecsLoop [str "# leap seconds", str "+1972-06-30"] ⟨0, 0, 0⟩ 0)
        firstLeapsec) = firstLeapsec := by
  have text : str "+1972-06-30" = 43 :: (caldateFmt ⟨1972, 6, 30⟩ ++ []) := by decide
  have isDate : (⟨1972, 6, 30⟩ : Caldate).IsDate := ⟨by decide, by decide, by decide, by decide⟩
  have lists : ListsDates [str "# leap seconds", str "+1972-06-30"] [⟨1972, 6, 30⟩] := by
    rw [text]
    exact .other (by decide) (.date [] isDate (by decide) (fun _ no => nomatch no) .nil)
  exact leapsecs_label_back lists ascending_june ⟨0, 0, 0⟩ firstLeapsec

end Bagunceiro
