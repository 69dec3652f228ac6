/-
# LeapDays -- going back day by day under a table of leap seconds

`fetch_entries_days` takes 86400 seconds from a stamp to get to the day before.
A day that ends in a leap second is one longer, so the time of day moves on by a
second for each leap second gone back over (`utcSeconds_subDays`).  As long as
it stays within the day, the stamps fall on one day after the other; when it
runs over midnight, a day is met twice (`consecutive_days_iff`).
-/
import Mathlib.Data.List.Perm.Subperm
import Bagunceiro.Entry
import Bagunceiro.Libowfat.Mjd

namespace Bagunceiro

set_option autoImplicit false

/-! ## Leap seconds passed -/

/-- A table as `leapsecs_read` leaves it: the labels grow, each more than a day
after the one before it. -/
def LeapTable (leapsecs : List UInt64) : Prop :=
  leapsecs.Pairwise fun a b => a.toNat + 86400 < b.toNat

/-- The leap seconds up to a label, the one at the label included. -/
def passed (leapsecs : List UInt64) (t : UInt64) : Nat := leapsecs.countP (· ≤ t)

theorem LeapTable.lt {leapsecs : List UInt64} (table : LeapTable leapsecs) :
    leapsecs.Pairwise (· < ·) := by
  apply List.Pairwise.imp _ table
  intro a b apart
  rw [UInt64.lt_iff_toNat_lt]
  omega

/-- The loop stops at the first label that is still to come. -/
theorem passLeapsecs_fst {leapsecs : List UInt64} (sorted : leapsecs.Pairwise (· < ·)) (t s : UInt64) :
    (passLeapsecs t leapsecs s).1 = t - (s + UInt64.ofNat (passed leapsecs t)) := by
  induction leapsecs generalizing s with
  | nil => simp [passLeapsecs, passed]
  | cons leap leaps ih =>
      rw [List.pairwise_cons] at sorted
      obtain ⟨later, sorted⟩ := sorted
      have noneAfter {u : UInt64} (le : u ≤ leap) : passed leaps u = 0 := by
        rw [passed, List.countP_eq_zero]
        intro other member
        rw [decide_eq_true_eq, UInt64.not_le]
        exact UInt64.lt_of_le_of_lt le (later other member)
      rw [passLeapsecs]
      split
      · rename_i ahead
        have none_ : passed (leap :: leaps) t = 0 := by
          rw [passed, List.countP_cons_of_neg (by simpa using ahead)]
          exact noneAfter (UInt64.le_of_lt ahead)
        simp [none_]
      · rename_i reached
        have counted : passed (leap :: leaps) t = passed leaps t + 1 := by
          rw [passed, List.countP_cons_of_pos (by simpa using reached), passed]
        split
        · rename_i hit
          rw [counted, hit, noneAfter (UInt64.le_refl _)]
          rfl
        · have one : UInt64.ofNat 1 = 1 := rfl
          rw [ih sorted, counted, UInt64.ofNat_add, one]
          congr 1
          ac_rfl

theorem passed_mono (leapsecs : List UInt64) {t u : UInt64} (le : t ≤ u) :
    passed leapsecs t ≤ passed leapsecs u := by
  apply List.countP_mono_left
  intro leap _ before
  rw [decide_eq_true_eq] at before ⊢
  exact UInt64.le_trans before le

/-- There are no more labels than numbers for them. -/
theorem passed_le {leapsecs : List UInt64} (sorted : leapsecs.Pairwise (· < ·)) (t : UInt64) :
    passed leapsecs t ≤ t.toNat + 1 := by
  have labels : ((leapsecs.filter (· ≤ t)).map UInt64.toNat).Pairwise (· < ·) := by
    rw [List.pairwise_map]
    apply List.Pairwise.imp _ (sorted.filter _)
    intro a b lt
    exact UInt64.lt_iff_toNat_lt.1 lt
  have inside : (leapsecs.filter (· ≤ t)).map UInt64.toNat ⊆ List.range (t.toNat + 1) := by
    intro n member
    obtain ⟨leap, kept, rfl⟩ := List.mem_map.1 member
    have le := (List.mem_filter.1 kept).2
    rw [decide_eq_true_eq, UInt64.le_iff_toNat_le] at le
    rw [List.mem_range]
    omega
  have distinct : ((leapsecs.filter (· ≤ t)).map UInt64.toNat).Nodup :=
    labels.imp fun lt => ne_of_lt lt
  have short := (List.subperm_of_subset distinct inside).length_le
  rw [List.length_map, List.length_range, ← List.countP_eq_length_filter] at short
  exact short

/-! ## The time of day -/

section Table

variable (leapsecs : List UInt64) (t : Taia)

/-- The seconds up to a stamp from the midnight before label 0, leap seconds
taken out. -/
def utcSeconds : Nat := t.sec.toNat + 58486 - passed leapsecs t.sec

/-- The second of the day; a leap second shares the one before it. -/
def secondOfDay : Nat := utcSeconds leapsecs t % 86400

/-- The leap seconds gone back over in some days. -/
def leapsBack (days : Nat) : Nat :=
  leapsecs.countP fun leap => (subDays t days).sec < leap ∧ leap ≤ t.sec

end Table

theorem passed_eq_add_leapsBack (leapsecs : List UInt64) {t : Taia} {days : Nat}
    (left : 86400 * days ≤ t.sec.toNat) :
    passed leapsecs t.sec = passed leapsecs (subDays t days).sec + leapsBack leapsecs t days := by
  have back : (subDays t days).sec ≤ t.sec := by
    rw [UInt64.le_iff_toNat_le, toNat_sec_subDays left]
    omega
  unfold passed leapsBack
  induction leapsecs with
  | nil => rfl
  | cons leap leaps ih =>
      rw [List.countP_cons, List.countP_cons, List.countP_cons, ih]
      by_cases before : leap ≤ (subDays t days).sec
      · have both := UInt64.le_trans before back
        have notBetween : ¬ (subDays t days).sec < leap := UInt64.not_lt.2 before
        simp only [before, both, notBetween, decide_true, decide_false, false_and, if_true,
          Bool.false_eq_true, if_false]
        omega
      · have after := UInt64.not_le.1 before
        by_cases reached : leap ≤ t.sec
        · simp only [before, reached, after, decide_true, decide_false, and_self, if_true,
            Bool.false_eq_true, if_false]
          omega
        · simp [before, reached]

theorem leapsBack_mono (leapsecs : List UInt64) {t : Taia} {i j : Nat} (le : i ≤ j)
    (left : 86400 * j ≤ t.sec.toNat) : leapsBack leapsecs t i ≤ leapsBack leapsecs t j := by
  have atI := passed_eq_add_leapsBack leapsecs (show 86400 * i ≤ t.sec.toNat by omega)
  have atJ := passed_eq_add_leapsBack leapsecs left
  have earlier : passed leapsecs (subDays t j).sec ≤ passed leapsecs (subDays t i).sec := by
    apply passed_mono
    rw [UInt64.le_iff_toNat_le, toNat_sec_subDays left, toNat_sec_subDays (by omega)]
    omega
  omega

/-- The date of a stamp. -/
theorem dayOf_eq {leapsecs : List UInt64} (sorted : leapsecs.Pairwise (· < ·)) {t : Taia}
    (label : t.sec.toNat < 2 ^ 63) :
    dayOf leapsecs t = caldateFrommjd ((utcSeconds leapsecs t / 86400 : Nat) - 53375995543064) := by
  have few := passed_le sorted t.sec
  have seconds : (t.sec - UInt64.ofNat (passed leapsecs t.sec) + 58486).toNat =
      utcSeconds leapsecs t := by
    have count : (UInt64.ofNat (passed leapsecs t.sec)).toNat = passed leapsecs t.sec := by
      rw [UInt64.toNat_ofNat', Nat.mod_eq_of_lt (by omega)]
    have offset : (58486 : UInt64).toNat = 58486 := rfl
    rw [utcSeconds]
    rw [UInt64.toNat_add, UInt64.toNat_sub, count, offset]
    omega
  show caldateFrommjd (utcDay (passLeapsecs t.sec leapsecs 0).1) = _
  rw [passLeapsecs_fst sorted, UInt64.zero_add, utcDay_eq, seconds]

/-- Days of 86400 seconds, and a second for each leap second gone back over. -/
theorem utcSeconds_subDays {leapsecs : List UInt64} (sorted : leapsecs.Pairwise (· < ·)) {t : Taia}
    {days : Nat} (left : 86400 * days ≤ t.sec.toNat) :
    utcSeconds leapsecs (subDays t days) + 86400 * days =
      utcSeconds leapsecs t + leapsBack leapsecs t days := by
  have back := passed_eq_add_leapsBack leapsecs left
  have few := passed_le sorted (subDays t days).sec
  have few' := passed_le sorted t.sec
  have seconds := toNat_sec_subDays left
  unfold utcSeconds
  omega

/-! ## One day after the other -/

/-- The `n` stamps fall on one date and the dates before it, one after the other. -/
def ConsecutiveDays (leapsecs : List UInt64) (t : Taia) (n : Nat) : Prop :=
  ∀ i < n, dayOf leapsecs (subDays t i) = Caldate.dayBefore^[i] (dayOf leapsecs t)

theorem dayOf_subDays_iff {leapsecs : List UInt64} (sorted : leapsecs.Pairwise (· < ·)) {t : Taia}
    (label : t.sec.toNat < 2 ^ 63) {i : Nat} (left : 86400 * i ≤ t.sec.toNat) :
    dayOf leapsecs (subDays t i) = Caldate.dayBefore^[i] (dayOf leapsecs t) ↔
      secondOfDay leapsecs t + leapsBack leapsecs t i < 86400 := by
  have seconds := utcSeconds_subDays sorted left
  have earlier := toNat_sec_subDays left
  rw [dayOf_eq sorted label, dayOf_eq sorted (by omega), ← caldateFrommjd_sub,
    caldateFrommjd_injective.eq_iff]
  rw [secondOfDay]
  omega

/-- **The days are consecutive exactly when the time of day stays within the
day**: its second, moved on by the leap seconds gone back over. -/
theorem consecutive_days_iff (leapsecs : List UInt64) (table : LeapTable leapsecs) (t : Taia)
    (label : t.sec.toNat < 2 ^ 63) (n : Nat) (left : 86400 * (n - 1) ≤ t.sec.toNat) :
    ConsecutiveDays leapsecs t n ↔
      secondOfDay leapsecs t + leapsBack leapsecs t (n - 1) < 86400 := by
  have sorted := table.lt
  constructor
  · intro consecutive
    cases n with
    | zero =>
        have none_ := passed_eq_add_leapsBack leapsecs (show 86400 * 0 ≤ t.sec.toNat by omega)
        have same : passed leapsecs (subDays t 0).sec = passed leapsecs t.sec := rfl
        have within : secondOfDay leapsecs t < 86400 := Nat.mod_lt _ (by norm_num)
        rw [same] at none_
        rw [Nat.zero_sub]
        omega
    | succ n => exact (dayOf_subDays_iff sorted label left).1 (consecutive n (by omega))
  · intro within i lt
    apply (dayOf_subDays_iff sorted label (by omega)).2
    have fewer := leapsBack_mono leapsecs (show i ≤ n - 1 by omega) left
    omega

/-- The end of June 1972. -/
def firstLeapsec : UInt64 := 0x4000000004b2580a

/-- Thirty days back from an hour into 11 July 1972. -/
theorem consecutive_days_sample : ConsecutiveDays [firstLeapsec] ⟨firstLeapsec + 867601, 0, 0⟩ 30 :=
  (consecutive_days_iff [firstLeapsec] (List.pairwise_singleton _ _) _ (by decide +kernel) 30
    (by decide +kernel)).2 (by decide +kernel)

/-- From the last second of 1 July 1972 one gets to the leap second, and from
there to the first second of the same day. -/
theorem day_met_twice :
    let t : Taia := ⟨firstLeapsec + 86400, 0, 0⟩
    LeapTable [firstLeapsec] ∧ 2 ^ 62 ≤ t.sec.toNat ∧
      dayOf [firstLeapsec] (subDays t 1) = ⟨1972, 6, 30⟩ ∧
      dayOf [firstLeapsec] (subDays t 2) = ⟨1972, 6, 30⟩ ∧
      ¬ ConsecutiveDays [firstLeapsec] t 3 := by
  intro t
  have once : dayOf [firstLeapsec] (subDays t 1) = ⟨1972, 6, 30⟩ := by decide +kernel
  have twice : dayOf [firstLeapsec] (subDays t 2) = ⟨1972, 6, 30⟩ := by decide +kernel
  refine ⟨List.pairwise_singleton _ _, by decide +kernel, once, twice, fun consecutive => ?_⟩
  have before := consecutive 2 (by decide)
  rw [twice] at before
  exact absurd before (by decide +kernel)

end Bagunceiro
