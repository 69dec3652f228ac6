/-
# Caltime -- calendar times and labels, with leap seconds (`0001-Add-caldate-and-caltime.patch`)

`caltime_utc` takes the leap seconds of a table out of a label and gives the calendar
time, in which a leap second is a sixtieth second; `caltime_tai` puts them in again.
Where each leap second of the table ends a day, as in the tables that `leapsecs` makes,
every label comes back, leap seconds included (`caltimeTai_caltimeUtc`), and the calendar
times that come back are exactly those that exist (`caltimeUtc_caltimeTai_iff`).
-/
import Bagunceiro.LeapDays

namespace Bagunceiro

set_option autoImplicit false

/-! ## Leap seconds put in -/

/-- The loop of `leapsecs_add`. -/
def addLeaps (hit : Bool) : List UInt64 → UInt64 → UInt64
  | [], u => u
  | leap :: leaps, u =>
      if u < leap then u
      else addLeaps hit leaps (if hit = false ∨ leap < u then u + 1 else u)

/-- `leapsecs_add` -/
def leapsecsAdd (leapsecs : List UInt64) (t : UInt64) (hit : Bool) : UInt64 :=
  addLeaps hit leapsecs t

/-- `caltime_tai`; the sum is a `uint64`. -/
def caltimeTai (leapsecs : List UInt64) (ct : Caltime) : UInt64 :=
  let day := caldateMjd ct.date
  let s := ct.hour * 60 + ct.minute
  let s := (s - ct.offset) * 60 + ct.second
  leapsecsAdd leapsecs (UInt64.ofInt (day * 86400 + 4611686014920671114 + s))
    (ct.second = 60)

/-! ## The leap seconds before a label -/

/-- The leap seconds before a label. -/
def before (leapsecs : List UInt64) (t : UInt64) : Nat := leapsecs.countP (· < t)

@[simp] theorem before_nil (t : UInt64) : before [] t = 0 := rfl

theorem before_eq_zero {leapsecs : List UInt64} {t : UInt64} (later : ∀ leap ∈ leapsecs, t ≤ leap) :
    before leapsecs t = 0 := by
  rw [before, List.countP_eq_zero]
  intro leap member
  rw [decide_eq_true_iff, UInt64.not_lt]
  exact later leap member

theorem before_cons_of_lt {leap t : UInt64} (lt : leap < t) (leaps : List UInt64) :
    before (leap :: leaps) t = before leaps t + 1 :=
  List.countP_cons_of_pos (decide_eq_true lt)

theorem before_cons_of_le {leap t : UInt64} (le : t ≤ leap) (leaps : List UInt64) :
    before (leap :: leaps) t = before leaps t :=
  List.countP_cons_of_neg (by rw [decide_eq_true_iff, UInt64.not_lt]; exact le)

section Table

variable {leap t : UInt64} {leaps leapsecs : List UInt64}

theorem LeapTable.tail (table : LeapTable (leap :: leaps)) : LeapTable leaps :=
  (List.pairwise_cons.1 table).2

theorem LeapTable.head_lt (table : LeapTable (leap :: leaps)) : ∀ next ∈ leaps, leap < next :=
  (List.pairwise_cons.1 table.lt).1

/-- The leap seconds between two labels are days apart. -/
theorem LeapTable.before_le (table : LeapTable (leap :: leaps)) (lt : leap < t) :
    leap.toNat + 86400 * before leaps t < t.toNat ∧
      (t ∈ leaps → leap.toNat + 86400 * before leaps t + 86400 < t.toNat) := by
  induction leaps generalizing leap with
  | nil =>
      rw [before_nil]
      exact ⟨UInt64.lt_iff_toNat_lt.1 lt, fun no => nomatch no⟩
  | cons next leaps ih =>
      have apart : leap.toNat + 86400 < next.toNat :=
        (List.pairwise_cons.1 table).1 next List.mem_cons_self
      by_cases reached : next < t
      · obtain ⟨far, farther⟩ := ih table.tail reached
        rw [before_cons_of_lt reached, Nat.mul_succ, ← Nat.add_assoc]
        constructor
        · omega
        · intro member
          have later := farther ((List.mem_cons.1 member).resolve_left (UInt64.ne_of_lt reached).symm)
          omega
      · have le := UInt64.not_lt.1 reached
        have none_ : before leaps t = 0 := before_eq_zero fun other member =>
          UInt64.le_of_lt (UInt64.lt_of_le_of_lt le (table.tail.head_lt other member))
        rw [before_cons_of_le le, none_]
        refine ⟨UInt64.lt_iff_toNat_lt.1 lt, fun member => ?_⟩
        rcases List.mem_cons.1 member with rfl | later
        · omega
        · exact absurd (table.tail.head_lt t later) (UInt64.not_lt.2 le)

/-- Labels that are not reached yet change nothing. -/
theorem addLeaps_of_le (hit : Bool) (later : ∀ next ∈ leaps, t < next) : addLeaps hit leaps t = t := by
  cases leaps with
  | nil => rfl
  | cons next leaps => exact if_pos (later next List.mem_cons_self)

/-- One leap second is put in. -/
theorem sub_ofNat_succ_add_one (t : UInt64) (n : Nat) :
    t - UInt64.ofNat (n + 1) + 1 = t - UInt64.ofNat n := by
  have one : UInt64.ofNat (n + 1) = UInt64.ofNat n + 1 := UInt64.ofNat_add n 1
  rw [one]
  grind

theorem toNat_sub_ofNat {t : UInt64} {n : Nat} (le : n ≤ t.toNat) :
    (t - UInt64.ofNat n).toNat = t.toNat - n := by
  have size := t.toNat_lt
  have count : (UInt64.ofNat n).toNat = n := by
    rw [UInt64.toNat_ofNat', Nat.mod_eq_of_lt (by omega)]
  rw [UInt64.toNat_sub_of_le _ _ (by rw [UInt64.le_iff_toNat_le, count]; exact le), count]

/-- **The leap seconds that were taken out are put in again.**  The label is a leap second
exactly if the calendar time says so. -/
theorem addLeaps_sub_before (table : LeapTable leapsecs) {hit : Bool}
    (met : hit = true ↔ t ∈ leapsecs) :
    addLeaps hit leapsecs (t - UInt64.ofNat (before leapsecs t)) = t := by
  induction leapsecs with
  | nil => exact UInt64.sub_zero t
  | cons leap leaps ih =>
      by_cases reached : leap < t
      · obtain ⟨far, farther⟩ := table.before_le reached
        have other : t ∈ leap :: leaps ↔ t ∈ leaps :=
          ⟨fun member => (List.mem_cons.1 member).resolve_left (UInt64.ne_of_lt reached).symm,
            List.mem_cons_of_mem leap⟩
        have start := toNat_sub_ofNat (t := t) (n := before leaps t + 1) (by omega)
        have passes : ¬ t - UInt64.ofNat (before leaps t + 1) < leap := by
          rw [UInt64.lt_iff_toNat_lt, start]
          omega
        have counts : hit = false ∨ leap < t - UInt64.ofNat (before leaps t + 1) := by
          cases hit with
          | false => exact .inl rfl
          | true =>
              have later := farther (other.1 (met.1 rfl))
              right
              rw [UInt64.lt_iff_toNat_lt, start]
              omega
        rw [before_cons_of_lt reached, addLeaps, if_neg passes, if_pos counts,
          sub_ofNat_succ_add_one]
        exact ih table.tail (met.trans other)
      · have le := UInt64.not_lt.1 reached
        have later : ∀ next ∈ leaps, t < next := fun next member =>
          UInt64.lt_of_le_of_lt le (table.head_lt next member)
        have none_ : before (leap :: leaps) t = 0 := by
          rw [before_cons_of_le le]
          exact before_eq_zero fun next member => UInt64.le_of_lt (later next member)
        have whole : t - UInt64.ofNat 0 = t := UInt64.sub_zero t
        rw [none_, whole, addLeaps]
        by_cases ahead : t < leap
        · exact if_pos ahead
        · have same : t = leap := UInt64.le_antisymm le (UInt64.not_lt.1 ahead)
          have stays : ¬ (hit = false ∨ leap < t) := by
            rintro (no | no)
            · rw [met.2 (same ▸ List.mem_cons_self)] at no
              cases no
            · exact reached no
          rw [if_neg ahead, if_neg stays]
          exact addLeaps_of_le hit later

/-! ## The leap seconds taken out -/

/-- Whether a label is a leap second, as it is counted. -/
def hit (leapsecs : List UInt64) (t : UInt64) : UInt64 := if t ∈ leapsecs then 1 else 0

/-- What the loop of `leapsecs_sub` takes out: the leap seconds before the label, and a leap
second is the second before it once more. -/
theorem passLeapsecs_eq (table : LeapTable leapsecs) (t s : UInt64) :
    passLeapsecs t leapsecs s =
      (t - (s + UInt64.ofNat (before leapsecs t)) - hit leapsecs t,
        if t ∈ leapsecs then 1 else 0) := by
  induction leapsecs generalizing s with
  | nil =>
      rw [passLeapsecs, hit, if_neg List.not_mem_nil, if_neg List.not_mem_nil]
      exact congrArg (·, 0) (by rw [before_nil]; grind)
  | cons leap leaps ih =>
      by_cases reached : leap < t
      · have other : t ∈ leap :: leaps ↔ t ∈ leaps :=
          ⟨fun member => (List.mem_cons.1 member).resolve_left (UInt64.ne_of_lt reached).symm,
            List.mem_cons_of_mem leap⟩
        have same : hit (leap :: leaps) t = hit leaps t := by
          rw [hit, hit]
          simp only [other]
        have count : UInt64.ofNat (before leaps t + 1) = UInt64.ofNat (before leaps t) + 1 :=
          UInt64.ofNat_add _ 1
        rw [passLeapsecs, if_neg (UInt64.not_lt.2 (UInt64.le_of_lt reached)),
          if_neg (UInt64.ne_of_lt reached).symm, ih table.tail, before_cons_of_lt reached, same, count]
        simp only [other]
        refine congrArg (·, _) ?_
        grind
      · have le := UInt64.not_lt.1 reached
        have none_ : before (leap :: leaps) t = 0 := by
          rw [before_cons_of_le le]
          exact before_eq_zero fun next member => UInt64.le_of_lt
            (UInt64.lt_of_le_of_lt le (table.head_lt next member))
        rw [passLeapsecs, none_, hit]
        by_cases ahead : t < leap
        · have absent : t ∉ leap :: leaps := by
            rw [List.mem_cons, not_or]
            exact ⟨UInt64.ne_of_lt ahead, fun member =>
              absurd (table.head_lt t member) (UInt64.not_lt.2 le)⟩
          rw [if_pos ahead, if_neg absent, if_neg absent]
          exact congrArg (·, 0) (by grind)
        · have same : t = leap := UInt64.le_antisymm le (UInt64.not_lt.1 ahead)
          have member : t ∈ leap :: leaps := same ▸ List.mem_cons_self
          rw [if_neg ahead, if_pos same, if_pos member, if_pos member]
          exact congrArg (·, 1) (by grind)

theorem leapsecsSub_eq (table : LeapTable leapsecs) (t : UInt64) :
    leapsecsSub leapsecs t =
      (t - UInt64.ofNat (before leapsecs t) - hit leapsecs t, if t ∈ leapsecs then 1 else 0) := by
  rw [leapsecsSub, passLeapsecs_eq table, UInt64.zero_add]

end Table

/-! ## There and back -/

theorem ofInt_natCast (n : Nat) : UInt64.ofInt n = UInt64.ofNat n := by
  apply UInt64.toNat_inj.1
  rw [UInt64.ofInt, UInt64.toNat_ofNat', UInt64.toNat_ofNat']
  omega

/-- Each leap second ends a day: without those before it, its label is at midnight. -/
structure EndsDays (leapsecs : List UInt64) : Prop where
  table : LeapTable leapsecs
  small : ∀ leap ∈ leapsecs, leap.toNat < 2 ^ 63
  midnight : ∀ leap ∈ leapsecs, 86400 ∣ leap.toNat + 58486 - before leapsecs leap

section Back

variable {leapsecs : List UInt64}

/-- The seconds of the day are put together again. -/
theorem seconds_eq (s leap : Int) :
    (s / 60 / 60 * 60 + s / 60 % 60 - 0) * 60 + (s % 60 + leap) = s + leap := by
  omega

/-- The label of a calendar time, before leap seconds are put in. -/
def label (ct : Caltime) : UInt64 :=
  UInt64.ofInt (caldateMjd ct.date * 86400 + 4611686014920671114 +
    ((ct.hour * 60 + ct.minute - ct.offset) * 60 + ct.second))

theorem caltimeTai_eq (leapsecs : List UInt64) (ct : Caltime) :
    caltimeTai leapsecs ct = addLeaps (ct.second = 60) leapsecs (label ct) := rfl

/-- The days and the seconds of the day are those since label 0. -/
theorem label_sum (v : UInt64) (leap : Int) :
    UInt64.ofInt (((v.toNat / 86400 : Nat) - 53375995543064) * 86400 + 4611686014920671114 +
      (((v.toNat % 86400 : Nat) : Int) + leap)) = v - 58486 + UInt64.ofInt leap := by
  have sum : (((v.toNat / 86400 : Nat) : Int) - 53375995543064) * 86400 + 4611686014920671114 +
      (((v.toNat % 86400 : Nat) : Int) + leap) = (v.toNat : Int) + (-58486) + leap := by omega
  have offset : UInt64.ofInt (-58486) = -58486 := rfl
  rw [sum, UInt64.ofInt_add, UInt64.ofInt_add, ofInt_natCast, UInt64.ofNat_toNat, offset]
  grind

theorem label_caltimeUtc (table : LeapTable leapsecs) (t : UInt64) :
    label (caltimeUtc leapsecs t) = t - UInt64.ofNat (before leapsecs t) := by
  have leap : UInt64.ofInt (if t ∈ leapsecs then 1 else 0) = hit leapsecs t := by
    rw [hit]
    split <;> rfl
  have rest (v : UInt64) : ((v % 86400).toNat : Int) = (v.toNat % 86400 : Nat) := by
    rw [UInt64.toNat_mod]
    rfl
  rw [caltimeUtc, leapsecsSub_eq table]
  simp only [label, caldateMjd_frommjd, utcDay_eq, rest]
  rw [seconds_eq, label_sum, leap]
  grind

theorem before_le_toNat (table : LeapTable leapsecs) (t : UInt64) :
    before leapsecs t ≤ t.toNat := by
  cases leapsecs with
  | nil => exact Nat.zero_le _
  | cons leap leaps =>
      by_cases reached : leap < t
      · have far := (table.before_le reached).1
        rw [before_cons_of_lt reached]
        omega
      · have le := UInt64.not_lt.1 reached
        rw [before_cons_of_le le, before_eq_zero fun next member => UInt64.le_of_lt
          (UInt64.lt_of_le_of_lt le (table.head_lt next member))]
        exact Nat.zero_le _

/-- A leap second is the last second of its day once more. -/
theorem toNat_leap (ends : EndsDays leapsecs) {t : UInt64} (member : t ∈ leapsecs) :
    (t - UInt64.ofNat (before leapsecs t) - hit leapsecs t + 58486).toNat % 86400 = 86399 := by
  have few := before_le_toNat ends.table t
  have small := ends.small t member
  obtain ⟨days, whole⟩ := ends.midnight t member
  have less := toNat_sub_ofNat few
  have one : (1 : UInt64).toNat = 1 := rfl
  have offset : (58486 : UInt64).toNat = 58486 := rfl
  rw [hit, if_pos member, UInt64.toNat_add, UInt64.toNat_sub_of_le, less, one, offset]
  · have fits : t.toNat - before leapsecs t - 1 + 58486 < 2 ^ 64 := by omega
    rw [Nat.mod_eq_of_lt fits]
    omega
  · rw [UInt64.le_iff_toNat_le, less, one]
    omega

/-- The second is the sixtieth exactly in a leap second. -/
theorem second_caltimeUtc (ends : EndsDays leapsecs) (t : UInt64) :
    (caltimeUtc leapsecs t).second = 60 ↔ t ∈ leapsecs := by
  have second : (caltimeUtc leapsecs t).second =
      (((t - UInt64.ofNat (before leapsecs t) - hit leapsecs t + 58486).toNat % 86400 : Nat) : Int)
        % 60 + if t ∈ leapsecs then 1 else 0 := by
    rw [caltimeUtc, leapsecsSub_eq ends.table]
    simp only [UInt64.toNat_mod]
    rfl
  rw [second]
  by_cases member : t ∈ leapsecs
  · rw [toNat_leap ends member, if_pos member]
    exact iff_of_true rfl member
  · rw [if_neg member]
    refine iff_of_false ?_ member
    omega

/-- **Every label comes back.** -/
theorem caltimeTai_caltimeUtc (ends : EndsDays leapsecs) (t : UInt64) :
    caltimeTai leapsecs (caltimeUtc leapsecs t) = t := by
  rw [caltimeTai_eq, label_caltimeUtc ends.table]
  exact addLeaps_sub_before ends.table (by
    rw [decide_eq_true_iff]
    exact second_caltimeUtc ends t)

/-! ## Calendar times that exist -/

/-- A calendar time is one of UTC: a sixtieth second is there only where the table has a
leap second. -/
structure Caltime.Exists (leapsecs : List UInt64) (ct : Caltime) : Prop where
  date : ct.date.IsDate
  hour : 0 ≤ ct.hour ∧ ct.hour < 24
  minute : 0 ≤ ct.minute ∧ ct.minute < 60
  second : 0 ≤ ct.second ∧ ct.second < 60 ∨ ct.second = 60 ∧
    ∃ leap ∈ leapsecs, label ct = leap - UInt64.ofNat (before leapsecs leap)
  offset : ct.offset = 0

/-- The dates whose labels have 63 bits. -/
structure Caldate.Labelled (cd : Caldate) : Prop where
  low : -53375995543064 < caldateMjd cd
  high : caldateMjd cd < 53375995543064

/-- What follows from the seconds that leap seconds have been taken out of. -/
def utcParts (u : UInt64) (leap : Int) : Caltime :=
  let s : Int := ((u + 58486) % 86400).toNat
  { date := caldateFrommjd (utcDay u)
    hour := s / 60 / 60
    minute := s / 60 % 60
    second := s % 60 + leap
    offset := 0 }

theorem caltimeUtc_eq (leapsecs : List UInt64) (t : UInt64) :
    caltimeUtc leapsecs t = utcParts (leapsecsSub leapsecs t).1 (leapsecsSub leapsecs t).2 := rfl

theorem utcParts_bounds (u : UInt64) (leap : Int) :
    (0 ≤ (utcParts u leap).hour ∧ (utcParts u leap).hour < 24) ∧
      (0 ≤ (utcParts u leap).minute ∧ (utcParts u leap).minute < 60) ∧
      (utcParts u leap).second = (utcParts u 0).second + leap ∧
      0 ≤ (utcParts u 0).second ∧ (utcParts u 0).second < 60 := by
  have rest : ((u + 58486) % 86400).toNat < 86400 := by
    rw [UInt64.toNat_mod]
    exact Nat.mod_lt _ (by decide)
  simp only [utcParts]
  omega

theorem exists_caltimeUtc (ends : EndsDays leapsecs) (t : UInt64) :
    (caltimeUtc leapsecs t).Exists leapsecs := by
  have sixty := second_caltimeUtc ends t
  have label_ := label_caltimeUtc ends.table t
  rw [caltimeUtc_eq, leapsecsSub_eq ends.table] at sixty label_ ⊢
  obtain ⟨hour, minute, second, low, high⟩ := utcParts_bounds
    (t - UInt64.ofNat (before leapsecs t) - hit leapsecs t) (if t ∈ leapsecs then 1 else 0)
  refine ⟨isDate_caldateFrommjd _, hour, minute, ?_, rfl⟩
  by_cases member : t ∈ leapsecs
  · exact .inr ⟨sixty.2 member, t, member, label_⟩
  · left
    dsimp only at second ⊢
    rw [second, if_neg member, Int.add_zero]
    exact ⟨low, high⟩

/-- Labels of those dates are counted from the midnight before label 0. -/
theorem toNat_label {ct : Caltime} (labelled : ct.date.Labelled)
    (hour : 0 ≤ ct.hour ∧ ct.hour < 24) (minute : 0 ≤ ct.minute ∧ ct.minute < 60)
    (second : 0 ≤ ct.second ∧ ct.second < 60) (offset : ct.offset = 0) :
    ((label ct).toNat : Int) = (caldateMjd ct.date + 53375995543064) * 86400 +
      ((ct.hour * 60 + ct.minute) * 60 + ct.second) - 58486 := by
  have low := labelled.low
  have high := labelled.high
  rw [label, offset, Int.sub_zero, UInt64.ofInt, UInt64.toNat_ofNat']
  omega

theorem utcParts_label {ct : Caltime} (date : ct.date.IsDate) (labelled : ct.date.Labelled)
    (hour : 0 ≤ ct.hour ∧ ct.hour < 24) (minute : 0 ≤ ct.minute ∧ ct.minute < 60)
    (second : 0 ≤ ct.second ∧ ct.second < 60) (offset : ct.offset = 0) (leap : Int) :
    utcParts (label ct) leap = { ct with second := ct.second + leap } := by
  have size := toNat_label labelled hour minute second offset
  have high := labelled.high
  have whole : (label ct + 58486).toNat = (label ct).toNat + 58486 := by
    have offset' : (58486 : UInt64).toNat = 58486 := rfl
    rw [UInt64.toNat_add, offset', Nat.mod_eq_of_lt (by omega)]
  have day : utcDay (label ct) = caldateMjd ct.date := by
    rw [utcDay_eq]
    omega
  have rest : (((label ct + 58486) % 86400).toNat : Int) =
      (ct.hour * 60 + ct.minute) * 60 + ct.second := by
    have divisor : (86400 : UInt64).toNat = 86400 := rfl
    rw [UInt64.toNat_mod, divisor]
    omega
  obtain ⟨date_, hour_, minute_, second_, offset_⟩ := ct
  simp only [utcParts, day, caldateFrommjd_mjd date, rest, Caltime.mk.injEq, true_and]
  dsimp only at hour minute second offset
  omega

theorem addLeaps_false {leaps : List UInt64} (table : LeapTable leaps) {x : UInt64}
    (fits : x.toNat + leaps.length < 2 ^ 64) :
    addLeaps false leaps x ∉ leaps ∧ x ≤ addLeaps false leaps x ∧
      addLeaps false leaps x - UInt64.ofNat (before leaps (addLeaps false leaps x)) = x := by
  induction leaps generalizing x with
  | nil => exact ⟨List.not_mem_nil, UInt64.le_refl x, UInt64.sub_zero x⟩
  | cons leap leaps ih =>
      rw [List.length_cons] at fits
      by_cases ahead : x < leap
      · rw [addLeaps, if_pos ahead]
        have later : ∀ next ∈ leap :: leaps, x < next := by
          rw [List.forall_mem_cons]
          exact ⟨ahead, fun next member => UInt64.lt_trans ahead (table.head_lt next member)⟩
        refine ⟨fun member => UInt64.lt_irrefl x (later x member), UInt64.le_refl x, ?_⟩
        rw [before_eq_zero fun next member => UInt64.le_of_lt (later next member)]
        exact UInt64.sub_zero x
      · have next_ : (x + 1).toNat = x.toNat + 1 := by
          have one : (1 : UInt64).toNat = 1 := rfl
          rw [UInt64.toNat_add, one, Nat.mod_eq_of_lt (by omega)]
        obtain ⟨absent, grows, back⟩ := ih table.tail (x := x + 1) (by omega)
        rw [addLeaps, if_neg ahead, if_pos (.inl rfl)]
        generalize addLeaps false leaps (x + 1) = t at absent grows back ⊢
        rw [UInt64.le_iff_toNat_le, next_] at grows
        have passed_ : leap < t := by
          rw [UInt64.lt_iff_toNat_lt]
          have le := UInt64.le_iff_toNat_le.1 (UInt64.not_lt.1 ahead)
          omega
        refine ⟨?_, ?_, ?_⟩
        · rw [List.mem_cons, not_or]
          exact ⟨(UInt64.ne_of_lt passed_).symm, absent⟩
        · rw [UInt64.le_iff_toNat_le]
          omega
        · have one := sub_ofNat_succ_add_one t (before leaps t)
          rw [back] at one
          rw [before_cons_of_lt passed_]
          grind

/-- There are fewer leap seconds than labels. -/
theorem EndsDays.length_le (ends : EndsDays leapsecs) : leapsecs.length ≤ 2 ^ 63 := by
  have all : before leapsecs 0x8000000000000000 = leapsecs.length := by
    rw [before, List.countP_eq_length]
    intro leap member
    rw [decide_eq_true_iff, UInt64.lt_iff_toNat_lt]
    exact ends.small leap member
  rw [← all]
  exact before_le_toNat ends.table _

/-- **A calendar time comes back exactly if it exists.** -/
theorem caltimeUtc_caltimeTai_iff (ends : EndsDays leapsecs) {ct : Caltime}
    (labelled : ct.date.Labelled) :
    caltimeUtc leapsecs (caltimeTai leapsecs ct) = ct ↔ ct.Exists leapsecs := by
  constructor
  · intro back
    rw [← back]
    exact exists_caltimeUtc ends _
  · intro exists_
    rw [caltimeTai_eq, caltimeUtc_eq, leapsecsSub_eq ends.table]
    rcases exists_.second with second | ⟨sixty, leap, member, label_⟩
    · have notSixty : ¬ ct.second = 60 := by omega
      have size := toNat_label labelled exists_.hour exists_.minute second exists_.offset
      have high := labelled.high
      have hour := exists_.hour
      have minute := exists_.minute
      have small : (label ct).toNat < 2 ^ 63 := by omega
      have few := ends.length_le
      obtain ⟨absent, -, back⟩ := addLeaps_false ends.table (x := label ct) (by omega)
      rw [decide_eq_false notSixty, hit, if_neg absent, if_neg absent, back, UInt64.sub_zero,
        utcParts_label exists_.date labelled exists_.hour exists_.minute second exists_.offset,
        Int.add_zero]
    · have comes : addLeaps true leapsecs (label ct) = leap := by
        rw [label_]
        exact addLeaps_sub_before ends.table (iff_of_true rfl member)
      -- the second before it
      have earlier : label ct - 1 = label { ct with second := 59 } := by
        have one : (1 : UInt64) = UInt64.ofInt 1 := rfl
        have later : label ct = label { ct with second := 59 } + 1 := by
          rw [label, label, one, ← UInt64.ofInt_add, sixty]
          exact congrArg UInt64.ofInt (by dsimp only; omega)
        rw [later, UInt64.add_sub_cancel]
      have parts := @utcParts_label { ct with second := 59 } exists_.date labelled exists_.hour
        exists_.minute ⟨by norm_num, by norm_num⟩ exists_.offset 1
      rw [decide_eq_true sixty, comes, hit, if_pos member, if_pos member, ← label_, earlier, parts]
      obtain ⟨date, hour, minute, second, offset⟩ := ct
      obtain rfl : second = 60 := sixty
      rfl

end Back

/-! ## The tables -/

/-- The label that `leapsecs` gives to the leap second that ends a date, behind so many. -/
def leapLabel (cd : Caldate) (leaps : Nat) : UInt64 :=
  UInt64.ofInt ((caldateMjd cd + 1) * 86400 + 4611686014920671114 + leaps)

/-- The table that `leapsecs` makes of dates, behind so many leap seconds. -/
def leapTable : List Caldate → Nat → List UInt64
  | [], _ => []
  | cd :: cds, leaps => leapLabel cd leaps :: leapTable cds (leaps + 1)

/-- Dates one after the other, as far as labels go. -/
structure Ascending (cds : List Caldate) : Prop where
  sorted : cds.Pairwise fun a b => caldateMjd a < caldateMjd b
  low : ∀ cd ∈ cds, -53375995543064 < caldateMjd cd
  high : ∀ cd ∈ cds, caldateMjd cd < 2 ^ 45

section Tables

variable {cd : Caldate} {cds : List Caldate} {leaps : Nat}

theorem Ascending.tail (ascending : Ascending (cd :: cds)) : Ascending cds where
  sorted := (List.pairwise_cons.1 ascending.sorted).2
  low next member := ascending.low next (List.mem_cons_of_mem cd member)
  high next member := ascending.high next (List.mem_cons_of_mem cd member)

theorem toNat_leapLabel (low : -53375995543064 < caldateMjd cd) (high : caldateMjd cd < 2 ^ 45)
    (few : (leaps : Int) ≤ caldateMjd cd + 53375995543064) :
    ((leapLabel cd leaps).toNat : Int) =
      (caldateMjd cd + 1 + 53375995543064) * 86400 + leaps - 58486 := by
  rw [leapLabel, UInt64.ofInt, UInt64.toNat_ofNat']
  omega

theorem Ascending.few_tail (ascending : Ascending (cd :: cds))
    (few : ∀ next ∈ cd :: cds, (leaps : Int) ≤ caldateMjd next + 53375995543064) :
    ∀ next ∈ cds, ((leaps + 1 : Nat) : Int) ≤ caldateMjd next + 53375995543064 := by
  intro next member
  have first := few cd List.mem_cons_self
  have later := (List.pairwise_cons.1 ascending.sorted).1 next member
  omega

/-- Each label is of one of the dates, and some leap seconds are before it. -/
theorem mem_leapTable (ascending : Ascending cds)
    (few : ∀ cd ∈ cds, (leaps : Int) ≤ caldateMjd cd + 53375995543064) :
    ∀ leap ∈ leapTable cds leaps, ∃ cd ∈ cds, ∃ n ≥ leaps,
      (leap.toNat : Int) = (caldateMjd cd + 1 + 53375995543064) * 86400 + n - 58486 ∧
        leap.toNat < 2 ^ 63 := by
  induction cds generalizing leaps with
  | nil => exact fun leap no => nomatch no
  | cons cd cds ih =>
      have low := ascending.low cd List.mem_cons_self
      have high := ascending.high cd List.mem_cons_self
      have few_ := few cd List.mem_cons_self
      have size := toNat_leapLabel low high few_
      rw [leapTable, List.forall_mem_cons]
      refine ⟨⟨cd, List.mem_cons_self, leaps, le_refl _, size, by omega⟩, fun leap member => ?_⟩
      have few' := ascending.few_tail few
      obtain ⟨next, member', n, more, size', small⟩ := ih ascending.tail few' leap member
      exact ⟨next, List.mem_cons_of_mem cd member', n, Nat.le_of_succ_le more, size', small⟩

theorem leapTable_table (ascending : Ascending cds)
    (few : ∀ cd ∈ cds, (leaps : Int) ≤ caldateMjd cd + 53375995543064) :
    LeapTable (leapTable cds leaps) := by
  induction cds generalizing leaps with
  | nil => exact .nil
  | cons cd cds ih =>
      have size := toNat_leapLabel (ascending.low cd List.mem_cons_self)
        (ascending.high cd List.mem_cons_self) (few cd List.mem_cons_self)
      have few' := ascending.few_tail few
      refine List.pairwise_cons.2 ⟨fun leap member => ?_, ih ascending.tail few'⟩
      obtain ⟨next, member', n, more, size', -⟩ := mem_leapTable ascending.tail few' leap member
      have later := (List.pairwise_cons.1 ascending.sorted).1 next member'
      omega

/-- Without those before it, the label of a leap second is at midnight. -/
theorem leapTable_midnight (ascending : Ascending cds)
    (few : ∀ cd ∈ cds, (leaps : Int) ≤ caldateMjd cd + 53375995543064) :
    ∀ leap ∈ leapTable cds leaps,
      ∃ days, leap.toNat + 58486 = 86400 * days + (before (leapTable cds leaps) leap + leaps) := by
  induction cds generalizing leaps with
  | nil => exact fun leap no => nomatch no
  | cons cd cds ih =>
      have low := ascending.low cd List.mem_cons_self
      have size := toNat_leapLabel low (ascending.high cd List.mem_cons_self)
        (few cd List.mem_cons_self)
      have table := leapTable_table ascending few
      rw [leapTable] at table ⊢
      rw [List.forall_mem_cons]
      constructor
      · have first : before (leapLabel cd leaps :: leapTable cds (leaps + 1)) (leapLabel cd leaps) = 0 := by
          rw [before_cons_of_le (UInt64.le_refl _)]
          exact before_eq_zero fun next member => UInt64.le_of_lt (table.head_lt next member)
        refine ⟨(caldateMjd cd + 1 + 53375995543064).toNat, ?_⟩
        rw [first]
        omega
      · intro leap member
        obtain ⟨days, whole⟩ := ih ascending.tail (ascending.few_tail few) leap member
        refine ⟨days, ?_⟩
        rw [before_cons_of_lt (table.head_lt leap member)]
        omega

end Tables

/-- **The tables that `leapsecs` makes end days.** -/
theorem leapTable_endsDays {cds : List Caldate} (ascending : Ascending cds) :
    EndsDays (leapTable cds 0) := by
  have few : ∀ cd ∈ cds, ((0 : Nat) : Int) ≤ caldateMjd cd + 53375995543064 := by
    intro cd member
    have low := ascending.low cd member
    omega
  refine ⟨leapTable_table ascending few, fun leap member => ?_, fun leap member => ?_⟩
  · obtain ⟨-, -, -, -, -, small⟩ := mem_leapTable ascending few leap member
    exact small
  · obtain ⟨days, whole⟩ := leapTable_midnight ascending few leap member
    exact ⟨days, by omega⟩

/-- The dates of a table of one leap second. -/
theorem ascending_june : Ascending [⟨1972, 6, 30⟩] := by
  refine ⟨List.pairwise_singleton _ _, ?_, ?_⟩ <;> decide

/-- The leap second at the end of June 1972 is a calendar time. -/
theorem caltimeUtc_caltimeTai_june :
    caltimeUtc (leapTable [⟨1972, 6, 30⟩] 0)
        (caltimeTai (leapTable [⟨1972, 6, 30⟩] 0) ⟨⟨1972, 6, 30⟩, 23, 59, 60, 0⟩) =
      ⟨⟨1972, 6, 30⟩, 23, 59, 60, 0⟩ := by
  have isDate : (⟨1972, 6, 30⟩ : Caldate).IsDate := ⟨by decide, by decide, by decide, by decide⟩
  refine (caltimeUtc_caltimeTai_iff (leapTable_endsDays ascending_june) ⟨by decide, by decide⟩).2
    ⟨isDate, by decide, by decide, .inr ⟨rfl, firstLeapsec, ?_, ?_⟩, rfl⟩
  · decide +kernel
  · decide +kernel

end Bagunceiro
