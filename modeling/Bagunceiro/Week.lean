/-
# Week -- the default page (`handle_query`, `QRY_WEEK`)

The default page starts with eight days and goes on a week at a time until it has
six days to show, or has tried 101 windows.  A window begins the day after the
one before it ended, so what is shown is every day with entries back to the end
of the last window, the latest first (`week_shows_every_day`).
-/
import Bagunceiro.Fetch

namespace Bagunceiro

open Effect

set_option autoImplicit false

/-- The loop of `QRY_WEEK`; `i` counts the rounds that may follow.  The count is
compared as an `unsigned int`. -/
def fetchWeek (leapsecs : List UInt64) : Nat → Int → Blog → Result → M (Int × Blog × Result)
  | 0, err, conf, res => do
      let (num, res) ← fetchEntriesDays leapsecs conf res
      let err := err + num
      if conf.qry.doff ≤ ((err + 1) % 2 ^ 32).toNat then return (err, conf, res)
      else return (err, conf.withWindow ((conf.qry.start + conf.qry.doff) % 2 ^ 32) 7, res)
  | i + 1, err, conf, res => do
      let (num, res) ← fetchEntriesDays leapsecs conf res
      let err := err + num
      if conf.qry.doff ≤ ((err + 1) % 2 ^ 32).toNat then return (err, conf, res)
      else
        fetchWeek leapsecs i err
          (conf.withWindow ((conf.qry.start + conf.qry.doff) % 2 ^ 32) 7) res

/-- `QA_SHOW` with `QRY_WEEK`; `print` is `print_show`. -/
def showWeek {β : Type} (leapsecs : List UInt64) (print : Result → Blog → β) (conf : Blog) : M β := do
  let (_, conf, res) ← fetchWeek leapsecs 100 0 conf []
  return print res conf

/-! ## Days with entries -/

/-- The keys the index has for a date. -/
def indexOf (recs : List Record) (date : Caldate) : List Bytes :=
  findAll (some recs) (caldateFmt date ++ str "@")

/-- Every key in the index of a date is one of a stored entry. -/
def Indexed (recs : List Record) : Prop :=
  ∀ date, ∀ i < (indexOf recs date).flatten.length / taiaPackSize,
    findAll (some recs) (((indexOf recs date).flatten.drop (taiaPackSize * i)).take taiaPackSize) ≠ []

/-- When every key is one of an entry, the last one read counts something. -/
theorem fetchKeys_pos {r : Inode} {fs : Fs} {keys : Bytes} {i : Nat} {err err' : Int}
    {entries entries' : List Nentry} (pos : 0 < err)
    (stored : ∀ j < i,
      findAll (fs.records r) ((keys.drop (taiaPackSize * j)).take taiaPackSize) ≠ [])
    (ran : exec (fetchKeys r keys i err entries) fs = (.ok (err', entries'), fs)) : 0 < err' := by
  induction i generalizing err entries with
  | zero =>
      simp only [exec, fetchKeys, Prog.pure_eq, Prog.run_ret, Prod.mk.injEq, Except.ok.injEq,
        and_true] at ran
      omega
  | succ i ih =>
      have some_ := List.length_pos_of_ne_nil (stored i (Nat.lt_succ_self i))
      rw [exec, fetchKeys] at ran
      simp only at ran
      rw [Prog.run_bind_ok handle (exec_cdbbReadNentry r _ ⟨[], []⟩ fs)] at ran
      exact ih (by simpa using some_) (fun j lt => stored j (by omega)) ran

section File

variable {fs : Fs} {r : Inode} {recs : List Record}

/-- A date that is in the index is shown, and no other one. -/
theorem shownDay_spec (file : fs.records r = some recs) (indexed : Indexed recs)
    (leapsecs : List UInt64) (t : Taia) :
    (shownDay leapsecs fs r t).map (·.time.date) =
      if indexOf recs (dayOf leapsecs t) ≠ [] then some (dayOf leapsecs t) else none := by
  obtain ⟨err, es, ran⟩ := exec_cdbbFetchDay_returns leapsecs r t fs
  have shown : shownDay leapsecs fs r t =
      if err ≤ 0 then none else some { time := caltimeUtc leapsecs t.sec, es } := by
    rw [shownDay, ran]
  suffices counted : 0 < err ↔ indexOf recs (dayOf leapsecs t) ≠ [] by
    rw [shown]
    by_cases none_ : err ≤ 0
    · rw [if_pos none_, if_neg (fun there => absurd (counted.2 there) (by omega))]
      rfl
    · rw [if_neg none_, if_pos (counted.1 (by omega))]
      rfl
  have index : findAll (fs.records r) (fmtTimeStr leapsecs t ++ str "@") =
      indexOf recs (dayOf leapsecs t) := by
    rw [file]
    rfl
  rw [exec, cdbbFetchDay] at ran
  simp only at ran
  rw [Prog.run_bind_ok handle (exec_cdbbReadNentry r _ ⟨[], []⟩ fs), index] at ran
  simp only [List.nil_append] at ran
  by_cases empty : indexOf recs (dayOf leapsecs t) = []
  · rw [empty] at ran ⊢
    simp only [List.length_nil, Nat.cast_zero, Int.le_refl, if_true, Prog.pure_eq, Prog.run_ret,
      Prod.mk.injEq, Except.ok.injEq, and_true] at ran
    simp only [ne_eq, not_true_eq_false, iff_false]
    omega
  · have some_ := List.length_pos_of_ne_nil empty
    rw [if_neg (by omega)] at ran
    refine iff_of_true (fetchKeys_pos (by omega) ?_ ran) empty
    rw [file]
    exact indexed (dayOf leapsecs t)

/-- **The dates a window shows** are those it asks for that are in the index. -/
theorem dates_shown (file : fs.records r = some recs) (indexed : Indexed recs)
    (leapsecs : List UInt64) (stamps : List Taia) :
    (stamps.filterMap (shownDay leapsecs fs r)).map (·.time.date) =
      (stamps.map (dayOf leapsecs)).filter fun date => indexOf recs date ≠ [] := by
  induction stamps with
  | nil => rfl
  | cons t stamps ih =>
      have day := shownDay_spec file indexed leapsecs t
      cases shown : shownDay leapsecs fs r t with
      | none =>
          rw [shown, Option.map_none] at day
          split at day
          · cases day
          · rename_i absent
            rw [List.filterMap_cons_none shown, ih, List.map_cons,
              List.filter_cons_of_neg (by simpa using absent)]
      | some d =>
          rw [shown, Option.map_some] at day
          split at day
          · rename_i there
            rw [List.filterMap_cons_some shown, List.map_cons, ih, List.map_cons,
              List.filter_cons_of_pos (by simpa using there), Option.some.inj day]
          · cases day

/-! ## The windows -/

/-- The dates of some days back from a stamp. -/
def daysBack (leapsecs : List UInt64) (now : Taia) (days : Nat) : List Caldate :=
  (List.range days).map fun i => dayOf leapsecs (subDays now i)

theorem length_daysBack (leapsecs : List UInt64) (now : Taia) (days : Nat) :
    (daysBack leapsecs now days).length = days := by
  rw [daysBack, List.length_map, List.length_range]

/-- The next window begins where the days so far end. -/
theorem daysBack_append (leapsecs : List UInt64) (conf : Blog) :
    daysBack leapsecs conf.now (conf.qry.start + conf.qry.doff) =
      daysBack leapsecs conf.now conf.qry.start ++ asked leapsecs conf := by
  rw [daysBack, List.range_add, List.map_append, List.map_map, asked, lookedUp, List.map_map]
  rfl

/-- What the rounds have collected: every date in the index back to the start of
the next window. -/
structure Collected (leapsecs : List UInt64) (recs : List Record) (conf : Blog) (err : Int)
    (res : Result) : Prop where
  dates : res.map (·.time.date) =
    (daysBack leapsecs conf.now conf.qry.start).filter fun date => indexOf recs date ≠ []
  count : err = res.length

theorem Collected.window {leapsecs : List UInt64} {conf : Blog} {err : Int} {res : Result}
    (collected : Collected leapsecs recs conf err res) (file : fs.records r = some recs)
    (indexed : Indexed recs) :
    let days := (lookedUp conf).filterMap (shownDay leapsecs fs r)
    (res ++ days).map (·.time.date) =
        (daysBack leapsecs conf.now (conf.qry.start + conf.qry.doff)).filter
          (fun date => indexOf recs date ≠ []) ∧
      err + days.length = (res ++ days).length := by
  intro days
  constructor
  · rw [List.map_append, collected.dates, dates_shown file indexed, daysBack_append,
      List.filter_append, asked]
  · rw [collected.count, List.length_append, Nat.cast_add]

/-- The stop test is about at least six days. -/
theorem six_of_stop {n doff : Nat} (wide : 7 ≤ doff) (small : n < 2 ^ 32 - 1)
    (stop : doff ≤ (((n : Int) + 1) % 2 ^ 32).toNat) : 6 ≤ n := by
  rw [Int.emod_eq_of_lt (by omega) (by omega)] at stop
  omega

/-- **The rounds collect every day back to the end of the last window.** -/
theorem exec_fetchWeek {leapsecs : List UInt64} (named : fs.dir dbFile = some r)
    (file : fs.records r = some recs) (indexed : Indexed recs) (i : Nat) (err : Int) (conf : Blog)
    (res : Result) (collected : Collected leapsecs recs conf err res) (wide : 7 ≤ conf.qry.doff)
    (small : conf.qry.start + conf.qry.doff + 7 * i < 2 ^ 32 - 1) :
    ∃ k err' conf' res', k ≤ i ∧
      exec (fetchWeek leapsecs i err conf res) fs = (.ok (err', conf', res'), fs) ∧
      res'.map (·.time.date) =
        (daysBack leapsecs conf.now (conf.qry.start + conf.qry.doff + 7 * k)).filter
          (fun date => indexOf recs date ≠ []) ∧
      (6 ≤ res'.length ∨ k = i) := by
  induction i generalizing err conf res with
  | zero =>
      obtain ⟨dates, count⟩ := collected.window file indexed
      rw [exec, fetchWeek]
      rw [Prog.run_bind_ok handle (exec_fetchEntriesDays named conf res)]
      simp only
      split
      · exact ⟨0, _, _, _, le_refl _, rfl, dates, .inr rfl⟩
      · exact ⟨0, _, _, _, le_refl _, rfl, dates, .inr rfl⟩
  | succ i ih =>
      obtain ⟨dates, count⟩ := collected.window file indexed
      have few : (res ++ (lookedUp conf).filterMap (shownDay leapsecs fs r)).length ≤
          conf.qry.start + conf.qry.doff := by
        rw [← List.length_map (·.time.date), dates]
        exact le_trans (List.length_filter_le _ _) (le_of_eq (length_daysBack _ _ _))
      rw [exec, fetchWeek]
      rw [Prog.run_bind_ok handle (exec_fetchEntriesDays named conf res)]
      simp only
      rw [count]
      split
      · rename_i stop
        exact ⟨0, _, _, _, Nat.zero_le _, rfl, dates, .inl (six_of_stop wide (by omega) stop)⟩
      · have next : (conf.qry.start + conf.qry.doff) % 2 ^ 32 = conf.qry.start + conf.qry.doff :=
          Nat.mod_eq_of_lt (by omega)
        rw [next]
        obtain ⟨k, err', conf', res', rounds, ran, dates', ends⟩ := ih _
          (conf.withWindow (conf.qry.start + conf.qry.doff) 7) _ ⟨dates, rfl⟩ (le_refl _)
          (by simp only [withWindow_start, withWindow_doff]; omega)
        refine ⟨k + 1, err', conf', res', Nat.succ_le_succ rounds, ran, ?_, ?_⟩
        · rw [dates', withWindow_now, withWindow_start, withWindow_doff]
          congr 2
          omega
        · rcases ends with six | last
          · exact .inl six
          · exact .inr (by rw [last])

end File

/-! ## The page -/

/-- Without leap seconds the days back are the days before. -/
theorem daysBack_eq {now : Taia} {days : Nat} (left : 86400 * (days - 1) ≤ (now.sec + 58486).toNat) :
    daysBack [] now days =
      (List.range days).map fun i => Caldate.dayBefore^[i] (dayOf [] now) := by
  apply List.map_congr_left
  intro i member
  rw [List.mem_range] at member
  rw [dayOf_subDays (by omega), caldateFrommjd_sub, dayOf_nil]

theorem descending_dayBefore (now : Taia) (days : Nat) :
    ((List.range days).map fun i => Caldate.dayBefore^[i] (dayOf [] now)).Pairwise
      fun a b => b.Before a := by
  rw [List.pairwise_map]
  refine List.pairwise_lt_range.imp fun lt => ?_
  rw [dayOf_nil, ← caldateFrommjd_sub, ← caldateFrommjd_sub]
  exact before_caldateFrommjd (by omega)

/-- The page shows every day with entries from today back through `width` days, the
latest first, and nothing else. -/
structure ShowsDays (recs : List Record) (now : Taia) (width : Nat) (res : Result) : Prop where
  descending : res.Pairwise fun a b => b.time.date.Before a.time.date
  every : ∀ date, date ∈ res.map (·.time.date) ↔
    (∃ i < width, date = Caldate.dayBefore^[i] (dayOf [] now)) ∧ indexOf recs date ≠ []

/-- **The default page shows every day with entries** back to the end of the last
window it has looked at, and it has looked until it had six days, or 101 times;
then it is printed. -/
theorem week_shows_every_day {β : Type} (print : Result → Blog → β) (conf : Blog) (fs : Fs)
    (recs : List Record) (holds : fs.content dbFile = some (.finished recs))
    (indexed : Indexed recs) (start : conf.qry.start = 0) (doff : conf.qry.doff = 8)
    (left : 86400 * 707 ≤ (conf.now.sec + 58486).toNat) :
    ∃ windows conf' res, exec (showWeek [] print conf) fs = (.ok (print res conf'), fs) ∧
      1 ≤ windows ∧ windows ≤ 101 ∧ (6 ≤ res.length ∨ windows = 101) ∧
      ShowsDays recs conf.now (8 + 7 * (windows - 1)) res := by
  obtain ⟨r, named, node⟩ := Fs.dir_of_content holds
  have file : fs.records r = some recs := Fs.records_of_finished fs node
  have nothing : Collected [] recs conf 0 [] := ⟨by rw [start]; rfl, rfl⟩
  obtain ⟨k, err, conf', res, rounds, ran, dates, ends⟩ := exec_fetchWeek named file indexed 100 0
    conf [] nothing (by omega) (by omega)
  rw [start, doff, Nat.zero_add, daysBack_eq (by omega)] at dates
  refine ⟨k + 1, conf', res, ?_, by omega, by omega, ?_, ?_, ?_⟩
  · rw [exec, showWeek]
    rw [Prog.run_bind_ok handle ran]
    rfl
  · rcases ends with six | last
    · exact .inl six
    · exact .inr (by omega)
  · have descending := (descending_dayBefore conf.now (8 + 7 * k)).filter
      fun date => indexOf recs date ≠ []
    rw [← dates, List.pairwise_map] at descending
    exact descending
  · intro date
    rw [dates, List.mem_filter, List.mem_map, decide_eq_true_eq, Nat.add_sub_cancel]
    simp only [List.mem_range, eq_comm]

/-- One entry, of noon on 1 May 2010. -/
def mayEntry : Taia := ⟨4611686019700100000, 0, 0⟩

def mayBlog : List Record := [⟨taiaPack mayEntry, str "text"⟩, ⟨str "2010-05-01@", taiaPack mayEntry⟩]

theorem mayBlog_indexed : Indexed mayBlog := by
  intro date i lt
  by_cases may : caldateFmt date ++ str "@" = str "2010-05-01@"
  · have index : indexOf mayBlog date = [taiaPack mayEntry] := by
      rw [indexOf, may]
      decide
    rw [index] at lt ⊢
    have first : i = 0 := by
      have one : [taiaPack mayEntry].flatten.length / taiaPackSize = 1 := by decide
      omega
    subst first
    decide
  · have none_ : indexOf mayBlog date = [] := by
      have entry : ¬ taiaPack mayEntry = caldateFmt date ++ str "@" := by
        intro same
        have last := congrArg List.getLast? same
        rw [show str "@" = [64] from rfl, List.getLast?_concat] at last
        exact absurd last (by decide)
      simp [indexOf, findAll, mayBlog, entry, Ne.symm may]
    rw [none_] at lt
    simp at lt

/-- A week later the only entry is shown, after a hundred more windows. -/
theorem week_shows_every_day_sample :
    let conf := { blogInit.withWindow 0 8 with now := ⟨4611686019700100000 + 86400 * 7, 0, 0⟩ }
    let fs := Fs.empty.install dbFile (.finished mayBlog)
    ∃ windows conf' res, exec (showWeek [] (fun res conf => (res, conf)) conf) fs =
        (.ok (res, conf'), fs) ∧
      1 ≤ windows ∧ windows ≤ 101 ∧ (6 ≤ res.length ∨ windows = 101) ∧
      ShowsDays mayBlog conf.now (8 + 7 * (windows - 1)) res := by
  intro conf fs
  have holds : fs.content dbFile = some (.finished mayBlog) := by
    simp [fs, Fs.content, Fs.install, Fs.create, Fs.setNode]
  exact week_shows_every_day (fun res conf => (res, conf)) conf fs mayBlog holds mayBlog_indexed rfl
    rfl (by decide +kernel)

end Bagunceiro
