/-
# MonthView -- the days of a month (`fetch_entries_month`)

The month a request selects is turned into a window of `fetch_entries_days` by
the day numbers of its first and its last day, the latter taken as the day 0 of
the month after.  A month that is over is covered whole, one that is to come not
at all, and the current one up to today -- unless today is its first day, which
the test for months to come takes for one (`month_window_iff`).
-/
import Bagunceiro.Fetch
import Bagunceiro.Months

namespace Bagunceiro

open Effect Gregorian

set_option autoImplicit false

/-- `fetch_entries_month` up to its call of `fetch_entries_days`; a `long` that is
stored in an `unsigned int` is cut to 32 bits. -/
def monthWindow (leapsecs : List UInt64) (conf : Blog) : Blog :=
  let jnow := caldateMjd (caltimeUtc leapsecs conf.now.sec).date
  let ct := conf.qry.mon.date
  -- the last day of the selected month
  let ct := { ct with month := ct.month + 1, day := ct.day - 1 }
  let start := jnow - caldateMjd ct
  let start := if start ≤ 0 then 0 else start
  let ct := { ct with month := ct.month - 1, day := 1 }
  let offset := jnow - caldateMjd ct - start
  let offset := if offset ≤ 0 then -1 else offset
  conf.withWindow (start % 2 ^ 32).toNat ((offset + 1) % 2 ^ 32).toNat

def fetchEntriesMonth (leapsecs : List UInt64) (conf : Blog) (res : Result) :
    M (Int × Blog × Result) := do
  let conf := monthWindow leapsecs conf
  let (num, res) ← fetchEntriesDays leapsecs conf res
  return (num, conf, res)

theorem monthWindow_now (leapsecs : List UInt64) (conf : Blog) :
    (monthWindow leapsecs conf).now = conf.now := withWindow_now conf _ _

/-! ## The months of the calendar -/

theorem mjd_of_month (year month day : Int) :
    caldateMjd ⟨year, month, day⟩ = caldateMjd ⟨year, month, 1⟩ + (day - 1) := by
  rw [caldateMjd_eq, caldateMjd_eq]
  simp only
  rw [show day = 1 + (day - 1) by omega, dayNumber_add]
  omega

/-- The day 0 of the month after is the last day. -/
theorem mjd_next_month {year month : Int} (low : 1 ≤ month) (high : month ≤ 12) (day : Int) :
    caldateMjd ⟨year, month + 1, day⟩ =
      caldateMjd ⟨year, month, 1⟩ + monthLength year month + (day - 1) := by
  rw [mjd_of_month, caldateMjd_eq, caldateMjd_eq]
  simp only
  rw [dayNumber_next_month _ low high]
  omega

theorem caldateMjd_inj {a b : Caldate} (date : a.IsDate) (date' : b.IsDate)
    (same : caldateMjd a = caldateMjd b) : a = b := by
  rw [← caldateFrommjd_mjd date, same, caldateFrommjd_mjd date']

theorem not_before_iff {a b : Caldate} (date : a.IsDate) (date' : b.IsDate) :
    ¬ a.Before b ↔ caldateMjd b ≤ caldateMjd a := by
  rw [← caldateFrommjd_mjd date, ← caldateFrommjd_mjd date']
  simp only [caldateMjd_frommjd]
  constructor
  · intro notBefore
    by_contra lt
    exact notBefore (before_caldateFrommjd (by omega))
  · intro le before
    have lt := dayNumber_lt (isDate_caldateFrommjd _) (isDate_caldateFrommjd _) before
    have number := caldateMjd_eq (caldateFrommjd (caldateMjd a))
    have number' := caldateMjd_eq (caldateFrommjd (caldateMjd b))
    rw [caldateMjd_frommjd] at number number'
    omega

/-- The dates of a month by their day numbers. -/
theorem mem_month_iff {year month : Int} (low : 1 ≤ month) (high : month ≤ 12) {date : Caldate}
    (isDate : date.IsDate) :
    date.year = year ∧ date.month = month ↔
      caldateMjd ⟨year, month, 1⟩ ≤ caldateMjd date ∧
        caldateMjd date < caldateMjd ⟨year, month, 1⟩ + monthLength year month := by
  constructor
  · obtain ⟨y, m, d⟩ := date
    rintro ⟨rfl, rfl⟩
    have dayLow : 1 ≤ d := isDate.day_pos
    have dayHigh : d ≤ monthLength y m := isDate.day_le
    rw [mjd_of_month y m d]
    simp only
    omega
  · rintro ⟨first, last⟩
    have inside : Caldate.IsDate
        ⟨year, month, caldateMjd date - caldateMjd ⟨year, month, 1⟩ + 1⟩ :=
      ⟨low, high, by simp only; omega, by simp only; omega⟩
    have same := caldateMjd_inj isDate inside (by rw [mjd_of_month year month]; omega)
    rw [same]
    exact ⟨rfl, rfl⟩

/-! ## The window -/

/-- The window covers the days of a month up to today, each once. -/
structure Covers (leapsecs : List UInt64) (conf : Blog) (year month : Int) : Prop where
  exactly : ∀ date, date ∈ asked leapsecs conf ↔
    date.IsDate ∧ date.year = year ∧ date.month = month ∧
      ¬ (dayOf leapsecs conf.now).Before date
  once : (asked leapsecs conf).Nodup

/-- The start and the width of the window, in day numbers. -/
structure Spans (conf : Blog) (first last : Int) : Prop where
  start : (conf.qry.start : Int) = utcDay conf.now.sec - last
  doff : (conf.qry.doff : Int) = last - first + 1

/-- A window that does not reach back behind the calendar. -/
theorem asked_of_spans {conf : Blog} {first last : Int} (spans : Spans conf first last)
    (left : -53375995543064 ≤ first) :
    asked [] conf = (List.range conf.qry.doff).map fun i : Nat => caldateFrommjd (last - i) := by
  have start := spans.start
  have doff := spans.doff
  rw [asked, lookedUp]
  rw [List.map_map]
  apply List.map_congr_left
  intro i member
  rw [List.mem_range] at member
  have day := utcDay_eq conf.now.sec
  have back : 86400 * (conf.qry.start + i) ≤ (conf.now.sec + 58486).toNat := by
    generalize (conf.now.sec + 58486).toNat = u at day
    omega
  rw [Function.comp_apply, dayOf_subDays back]
  congr 1
  push_cast
  omega

theorem mem_asked_of_spans {conf : Blog} {first last : Int} (spans : Spans conf first last)
    (left : -53375995543064 ≤ first) (date : Caldate) :
    date ∈ asked [] conf ↔ date.IsDate ∧ first ≤ caldateMjd date ∧ caldateMjd date ≤ last := by
  have doff := spans.doff
  rw [asked_of_spans spans left, List.mem_map]
  constructor
  · rintro ⟨i, member, rfl⟩
    rw [List.mem_range] at member
    rw [caldateMjd_frommjd]
    exact ⟨isDate_caldateFrommjd _, by omega, by omega⟩
  · rintro ⟨isDate, low, high⟩
    refine ⟨(last - caldateMjd date).toNat, ?_, ?_⟩
    · rw [List.mem_range]
      omega
    · rw [Int.toNat_of_nonneg (by omega), Int.sub_sub_self, caldateFrommjd_mjd isDate]

theorem nodup_asked_of_spans {conf : Blog} {first last : Int} (spans : Spans conf first last)
    (left : -53375995543064 ≤ first) : (asked [] conf).Nodup := by
  rw [asked_of_spans spans left]
  refine List.Nodup.map ?_ List.nodup_range
  intro i j same
  have days := caldateFrommjd_injective same
  omega

/-- **A window covers its month exactly when it ends with the month or today.** -/
theorem covers_of_spans {conf : Blog} {year month last : Int} (low : 1 ≤ month) (high : month ≤ 12)
    (early : 0 ≤ year) (ends : last = min (caldateMjd ⟨year, month, 1⟩ + monthLength year month - 1)
      (utcDay conf.now.sec)) (spans : Spans conf (caldateMjd ⟨year, month, 1⟩) last) :
    Covers [] conf year month := by
  have left : -53375995543064 ≤ caldateMjd ⟨year, month, 1⟩ := by
    rw [caldateMjd_eq]
    rw [dayNumber, daysToYear, daysToMonth]
    simp only
    omega
  constructor
  · intro date
    rw [mem_asked_of_spans spans left, dayOf_nil]
    constructor
    · rintro ⟨isDate, first, last_⟩
      obtain ⟨sameYear, sameMonth⟩ := (mem_month_iff low high isDate).2 ⟨first, by omega⟩
      refine ⟨isDate, sameYear, sameMonth, (not_before_iff (isDate_caldateFrommjd _) isDate).2 ?_⟩
      rw [caldateMjd_frommjd]
      omega
    · rintro ⟨isDate, sameYear, sameMonth, notAfter⟩
      obtain ⟨first, last_⟩ := (mem_month_iff low high isDate).1 ⟨sameYear, sameMonth⟩
      have past := (not_before_iff (isDate_caldateFrommjd _) isDate).1 notAfter
      rw [caldateMjd_frommjd] at past
      exact ⟨isDate, first, by omega⟩
  · exact nodup_asked_of_spans spans left

/-! ## The two clamps -/

/-- How far back the window starts, and how far it reaches from there. -/
def clampStart (today last : Int) : Int := if today - last ≤ 0 then 0 else today - last
def clampOffset (today first start : Int) : Int :=
  if today - first - start ≤ 0 then -1 else today - first - start

theorem toNat_emod {x : Int} (low : 0 ≤ x) (high : x < 2 ^ 32) : ((x % 2 ^ 32).toNat : Int) = x := by
  rw [Int.emod_eq_of_lt low high, Int.toNat_of_nonneg low]

/-- Once the month has begun, the window ends with it or with today. -/
theorem clamped_begun {today first last : Int} (begun : first < today) (order : first < last)
    (short : last ≤ first + 30) (fits : today - first < 2 ^ 32) :
    ((clampStart today last % 2 ^ 32).toNat : Int) = today - min last today ∧
      (((clampOffset today first (clampStart today last) + 1) % 2 ^ 32).toNat : Int) =
        min last today - first + 1 := by
  have start : clampStart today last = today - min last today := by
    rw [clampStart]
    split <;> omega
  have offset : clampOffset today first (today - min last today) = min last today - first := by
    rw [clampOffset]
    split <;> omega
  rw [start, offset]
  exact ⟨toNat_emod (by omega) (by omega), toNat_emod (by omega) (by omega)⟩

/-- Until the first day is over, there is no window. -/
theorem clamped_future {today first last : Int} (future : today ≤ first) (order : first ≤ last) :
    ((clampOffset today first (clampStart today last) + 1) % 2 ^ 32).toNat = 0 := by
  rw [clampOffset, clampStart]
  split_ifs <;> omega

section Selected

variable {conf : Blog} {year month : Int}

theorem monthWindow_qry (selected : conf.qry.mon.date = ⟨year, month, 1⟩) (low : 1 ≤ month)
    (high : month ≤ 12) {today first last : Int} (now : utcDay conf.now.sec = today)
    (begins : caldateMjd ⟨year, month, 1⟩ = first) (ends : first + monthLength year month - 1 = last) :
    (monthWindow [] conf).qry.start = (clampStart today last % 2 ^ 32).toNat ∧
      (monthWindow [] conf).qry.doff =
        ((clampOffset today first (clampStart today last) + 1) % 2 ^ 32).toNat := by
  have jnow : caldateMjd (caltimeUtc [] conf.now.sec).date = today := by
    show caldateMjd (dayOf [] conf.now) = _
    rw [dayOf_nil, caldateMjd_frommjd, now]
  have dayZero : caldateMjd ⟨year, month + 1, 1 - 1⟩ = last := by
    rw [mjd_next_month low high, begins, ← ends]
    omega
  have back : caldateMjd ⟨year, month + 1 - 1, 1⟩ = first := by
    rw [Int.add_sub_cancel, begins]
  rw [monthWindow, clampOffset, clampStart]
  simp only [selected, jnow, dayZero, back, withWindow_start, withWindow_doff, and_self]

/-- Unless today is its first day, the window ends with the month or today. -/
theorem covers_monthWindow (selected : conf.qry.mon.date = ⟨year, month, 1⟩) (low : 1 ≤ month)
    (high : month ≤ 12) (early : 0 ≤ year) {today first : Int} (now : utcDay conf.now.sec = today)
    (begins : caldateMjd ⟨year, month, 1⟩ = first) (fits : today - first < 2 ^ 32)
    (notFirst : today ≠ first) : Covers [] (monthWindow [] conf) year month := by
  obtain ⟨start, doff⟩ := monthWindow_qry selected low high now begins rfl
  have long := monthLength_bounds year month
  have kept := monthWindow_now [] conf
  by_cases future : today < first
  · -- nothing is asked for, and nothing is there to be shown
    rw [clamped_future (by omega) (by omega)] at doff
    have empty : asked [] (monthWindow [] conf) = [] := by
      rw [asked, lookedUp, doff]
      rfl
    constructor
    · intro date
      rw [empty, kept, dayOf_nil, now]
      constructor
      · intro member
        cases member
      · rintro ⟨isDate, sameYear, sameMonth, notAfter⟩
        have inside := (mem_month_iff low high isDate).1 ⟨sameYear, sameMonth⟩
        have past := (not_before_iff (isDate_caldateFrommjd _) isDate).1 notAfter
        rw [caldateMjd_frommjd] at past
        rw [begins] at inside
        omega
    · rw [empty]
      exact List.nodup_nil
  · obtain ⟨clampedStart, clampedDoff⟩ := clamped_begun (show first < today by omega)
      (show first < first + monthLength year month - 1 by omega) (by omega) fits
    refine covers_of_spans low high early rfl ⟨?_, ?_⟩
    · rw [start, clampedStart, kept, begins, now]
    · rw [doff, clampedDoff, kept, begins, now]

/-- On the first day of a month nothing is asked for. -/
theorem asked_on_first (selected : conf.qry.mon.date = ⟨year, month, 1⟩) (low : 1 ≤ month)
    (high : month ≤ 12) {first : Int} (now : utcDay conf.now.sec = first)
    (begins : caldateMjd ⟨year, month, 1⟩ = first) : asked [] (monthWindow [] conf) = [] := by
  obtain ⟨-, doff⟩ := monthWindow_qry selected low high now begins rfl
  have long := monthLength_bounds year month
  rw [clamped_future (le_refl _) (by omega)] at doff
  rw [asked, lookedUp, doff]
  rfl

end Selected

theorem exec_fetchEntriesMonth {leapsecs : List UInt64} {r : Inode} {fs : Fs}
    (named : fs.dir dbFile = some r) (conf : Blog) (res : Result) :
    let window := monthWindow leapsecs conf
    let days := (lookedUp window).filterMap (shownDay leapsecs fs r)
    exec (fetchEntriesMonth leapsecs conf res) fs = (.ok (days.length, window, res ++ days), fs) := by
  intro window days
  rw [exec, fetchEntriesMonth]
  rw [Prog.run_bind_ok handle (exec_fetchEntriesDays named window res)]
  rfl

/-- **A month is shown as far as it has come, unless today is its first day.**
The days that are looked up for a selected month are those of the month up to
today, on every day but the first of that very month. -/
theorem month_window_iff (req : HttpRequest) (s s' : Server) (fs fs' : Fs) (text : Bytes)
    (year month : Nat) (parsed : exec (parseRequest req s) fs = (.ok s', fs'))
    (given : queryMonth.value req = some text) (is : MonthText text year month) (low : 1 ≤ month)
    (high : month ≤ 12) (noTable : req.leapsecs = [])
    (fits : caldateMjd (dayOf [] req.now) - caldateMjd ⟨year, month, 1⟩ < 2 ^ 32) :
    let window := monthWindow req.leapsecs s'.conf
    (∀ (t : Fs) (r : Inode) (res : Result), t.dir dbFile = some r →
      ∃ num, exec (fetchEntriesMonth req.leapsecs s'.conf res) t =
        (.ok (num, window, res ++ (lookedUp window).filterMap (shownDay req.leapsecs t r)), t)) ∧
      (Covers req.leapsecs window year month ↔ dayOf req.leapsecs req.now ≠ ⟨year, month, 1⟩) := by
  intro window
  have shows := parseRequest_month parsed
  have selected := shows.selected text year month given is
  have now := shows.now
  refine ⟨fun t r res named => ⟨_, exec_fetchEntriesMonth named s'.conf res⟩, ?_⟩
  have isDate : Caldate.IsDate ⟨year, month, 1⟩ := by
    have long := monthLength_bounds year month
    exact ⟨by simp only; omega, by simp only; omega, le_refl _, by simp only; omega⟩
  rw [noTable, show window = monthWindow [] s'.conf from congrArg (monthWindow · s'.conf) noTable]
  rw [dayOf_nil, caldateMjd_frommjd, ← now] at fits
  rw [dayOf_nil, ← now]
  constructor
  · rintro covers first
    have today : utcDay s'.conf.now.sec = caldateMjd ⟨year, month, 1⟩ := by
      rw [← first, caldateMjd_frommjd]
    have member := (covers.exactly ⟨year, month, 1⟩).2 ⟨isDate, rfl, rfl, ?_⟩
    · rw [asked_on_first selected (by omega) (by omega) today rfl] at member
      cases member
    · rw [monthWindow_now, dayOf_nil, first]
      exact (not_before_iff isDate isDate).2 (le_refl _)
  · intro notFirst
    apply covers_monthWindow selected (by omega) (by omega) (by omega) rfl rfl fits
    intro same
    rw [same, caldateFrommjd_mjd isDate] at notFirst
    exact notFirst rfl

/-- May 2010, asked for at noon of a given day (counted from 1 May). -/
def askMay (days : UInt64) : HttpRequest :=
  { HttpRequest.blank with
    now := ⟨4611686019700100000 + 86400 * days, 0, 0⟩
    queryString := some (str "mn=2010-05") }

theorem mayText : MonthText (str "2010-05") 2010 5 where
  written := ⟨str "2010", str "05", rfl, by decide, by decide, rfl, by decide, by decide, by decide⟩
  short := by decide

/-- On 2 May. -/
theorem month_window_sample : ∃ s' fs',
    exec (parseRequest (askMay 1) freshServer) Fs.empty = (.ok s', fs') ∧
      Covers [] (monthWindow [] s'.conf) 2010 5 := by
  obtain ⟨s', fs', parsed⟩ := Prog.exists_of_run_ok handle
    (show (exec (parseRequest (askMay 1) freshServer) Fs.empty).1.isOk = true by decide +kernel)
  refine ⟨s', fs', parsed, ?_⟩
  apply (month_window_iff (askMay 1) freshServer s' Fs.empty fs' (str "2010-05") 2010 5 parsed
    (by decide +kernel) mayText (by decide) (by decide) rfl (by decide +kernel)).2.2
  decide +kernel

/-- On 1 May the page of May is empty. -/
theorem first_day_is_missing : ¬ ∀ (req : HttpRequest) (s s' : Server) (fs fs' : Fs) (text : Bytes)
    (year month : Nat), exec (parseRequest req s) fs = (.ok s', fs') →
    queryMonth.value req = some text → MonthText text year month → 1 ≤ month → month ≤ 12 →
    req.leapsecs = [] → caldateMjd (dayOf [] req.now) - caldateMjd ⟨year, month, 1⟩ < 2 ^ 32 →
    Covers req.leapsecs (monthWindow req.leapsecs s'.conf) year month := by
  intro claim
  obtain ⟨s', fs', parsed⟩ := Prog.exists_of_run_ok handle
    (show (exec (parseRequest (askMay 0) freshServer) Fs.empty).1.isOk = true by decide +kernel)
  have shows := parseRequest_month parsed
  have selected := shows.selected (str "2010-05") 2010 5 (by decide +kernel) mayText
  have covers := claim (askMay 0) freshServer s' Fs.empty fs' (str "2010-05") 2010 5 parsed
    (by decide +kernel) mayText (by decide) (by decide) rfl (by decide +kernel)
  have today : utcDay s'.conf.now.sec = caldateMjd ⟨2010, 5, 1⟩ := by
    rw [shows.now]
    decide +kernel
  have date : dayOf [] s'.conf.now = ⟨2010, 5, 1⟩ := by
    rw [shows.now]
    decide +kernel
  have member := (covers.exactly ⟨2010, 5, 1⟩).2 ⟨?_, rfl, rfl, ?_⟩
  · rw [show asked (askMay 0).leapsecs (monthWindow (askMay 0).leapsecs s'.conf) = [] from
      asked_on_first selected (by decide) (by decide) today rfl] at member
    cases member
  · exact ⟨by decide, by decide, by decide, by decide⟩
  · rw [monthWindow_now, show (askMay 0).leapsecs = [] from rfl, date]
    rw [Caldate.Before, Before]
    decide

end Bagunceiro
