/-
# Fetch -- the days a page is made of (`z_blog.c`, `z_result.c`)

`fetch_entries_days` goes back from today, first to the start of a window, then
through it day by day; the days that have entries are added to the result.
`lookedUp` is the list of stamps it goes through, and `exec_fetchEntriesDays`
says that the result is what is found under them, in that order.  The database
is opened for each window and never changed.
-/
import Mathlib.Data.List.Range
import Bagunceiro.Entry
import Bagunceiro.Libowfat.Mjd

namespace Bagunceiro

open Effect

set_option autoImplicit false

/-- `struct day` -/
structure Day where
  time : Caltime
  es : List Nentry
  deriving DecidableEq, Repr

/-- `struct result` -/
abbrev Result := List Day

/-! ## Windows -/

def Blog.withWindow (conf : Blog) (start doff : Nat) : Blog :=
  { conf with qry := { conf.qry with start, doff } }

section Window

variable (conf : Blog) (start doff : Nat)

@[simp] theorem withWindow_now : (conf.withWindow start doff).now = conf.now := rfl
@[simp] theorem withWindow_start : (conf.withWindow start doff).qry.start = start := rfl
@[simp] theorem withWindow_doff : (conf.withWindow start doff).qry.doff = doff := rfl

end Window

/-- The loop of `fetch_entries_days`, with the rounds that are left. -/
def fetchDays (leapsecs : List UInt64) (a : Inode) : Nat → Taia → Int → Result → M (Int × Result)
  | 0, _, num, res => return (num, res)
  | rounds + 1, tday, num, res => do
      let (err, es) ← cdbbFetchDay leapsecs a [] tday
      if err ≤ 0 then fetchDays leapsecs a rounds (subDays tday 1) num res
      else
        fetchDays leapsecs a rounds (subDays tday 1) (num + 1)
          (res ++ [{ time := caltimeUtc leapsecs tday.sec, es }])

def fetchEntriesDays (leapsecs : List UInt64) (conf : Blog) (res : Result) : M (Int × Result) := do
  match ← cdbbOpenRead dbFile with
  | none => return (-1, res)
  | some a => fetchDays leapsecs a conf.qry.doff (subDays conf.now conf.qry.start) 0 res

/-- The stamps a window is made of. -/
def lookedUp (conf : Blog) : List Taia :=
  (List.range conf.qry.doff).map fun i => subDays conf.now (conf.qry.start + i)

/-- The dates a window is made of. -/
def asked (leapsecs : List UInt64) (conf : Blog) : List Caldate :=
  (lookedUp conf).map (dayOf leapsecs)

/-! ## What a day shows -/

/-- Reading keys changes nothing and ends. -/
theorem exec_fetchKeys_returns (r : Inode) (keys : Bytes) (fs : Fs) (i : Nat) (err : Int)
    (entries : List Nentry) :
    ∃ err' entries', exec (fetchKeys r keys i err entries) fs = (.ok (err', entries'), fs) := by
  induction i generalizing err entries with
  | zero => exact ⟨err, entries, rfl⟩
  | succ i ih =>
      obtain ⟨err', entries', ran⟩ := ih
        (findAll (fs.records r) ((keys.drop (taiaPackSize * i)).take taiaPackSize)).length
        _
      refine ⟨err', entries', ?_⟩
      rw [exec, fetchKeys]
      simp only
      rw [Prog.run_bind_ok handle (exec_cdbbReadNentry r _ ⟨[], []⟩ fs)]
      exact ran

theorem exec_cdbbFetchDay_returns (leapsecs : List UInt64) (r : Inode) (t : Taia) (fs : Fs) :
    ∃ err es, exec (cdbbFetchDay leapsecs r [] t) fs = (.ok (err, es), fs) := by
  rw [exec, cdbbFetchDay]
  simp only
  rw [Prog.run_bind_ok handle (exec_cdbbReadNentry r _ ⟨[], []⟩ fs)]
  simp only
  split
  · exact ⟨_, _, rfl⟩
  · exact exec_fetchKeys_returns r _ fs _ _ _

/-- What is added to the result for a stamp. -/
def shownDay (leapsecs : List UInt64) (fs : Fs) (r : Inode) (t : Taia) : Option Day :=
  match (exec (cdbbFetchDay leapsecs r [] t) fs).1 with
  | .ok (err, es) => if err ≤ 0 then none else some { time := caltimeUtc leapsecs t.sec, es }
  | .error _ => none

/-- **The days of a window are looked up one after the other.** -/
theorem exec_fetchDays (leapsecs : List UInt64) (r : Inode) (fs : Fs) (rounds : Nat) (t : Taia)
    (num : Int) (res : Result) :
    let days := ((List.range rounds).map (subDays t)).filterMap (shownDay leapsecs fs r)
    exec (fetchDays leapsecs r rounds t num res) fs = (.ok (num + days.length, res ++ days), fs) := by
  intro days
  subst days
  induction rounds generalizing t num res with
  | zero => simp [fetchDays]
  | succ rounds ih =>
      obtain ⟨err, es, ran⟩ := exec_cdbbFetchDay_returns leapsecs r t fs
      have start : subDays t 0 = t := rfl
      have later : (List.range (rounds + 1)).map (subDays t) =
          t :: (List.range rounds).map (subDays (subDays t 1)) := by
        rw [List.range_succ_eq_map, List.map_cons, List.map_map, start]
        rfl
      rw [exec, fetchDays]
      rw [Prog.run_bind_ok handle ran, later]
      simp only
      by_cases none_ : err ≤ 0
      · have nothing : shownDay leapsecs fs r t = none := by simp [shownDay, ran, none_]
        rw [if_pos none_, List.filterMap_cons_none nothing]
        exact ih (subDays t 1) num res
      · have there : shownDay leapsecs fs r t =
            some { time := caltimeUtc leapsecs t.sec, es } := by
          simp [shownDay, ran, none_]
        rw [if_neg none_, List.filterMap_cons_some there]
        apply (ih (subDays t 1) (num + 1) _).trans
        rw [List.length_cons, List.append_assoc, List.singleton_append, Nat.cast_add, Nat.cast_one]
        simp only [Prod.mk.injEq, Except.ok.injEq, and_true]
        omega

/-- **A window adds what is found under its stamps.** -/
theorem exec_fetchEntriesDays {leapsecs : List UInt64} {r : Inode} {fs : Fs}
    (named : fs.dir dbFile = some r) (conf : Blog) (res : Result) :
    exec (fetchEntriesDays leapsecs conf res) fs =
      (.ok (((lookedUp conf).filterMap (shownDay leapsecs fs r)).length,
        res ++ (lookedUp conf).filterMap (shownDay leapsecs fs r)), fs) := by
  have stamps : lookedUp conf =
      (List.range conf.qry.doff).map (subDays (subDays conf.now conf.qry.start)) := by
    apply List.map_congr_left
    intro i _
    exact subDays_add conf.now conf.qry.start i
  rw [exec, fetchEntriesDays]
  rw [Prog.run_bind_ok handle (exec_openRead named), stamps]
  apply (exec_fetchDays leapsecs r fs conf.qry.doff _ 0 res).trans
  rw [Int.zero_add]

/-! ## Going back without leap seconds -/

theorem sec_subDays (t : Taia) (days : Nat) :
    (subDays t days).sec = t.sec - UInt64.ofNat (86400 * days) := by
  induction days with
  | zero => exact (UInt64.sub_zero _).symm
  | succ days ih =>
      have day : daysSecs = UInt64.ofNat 86400 := rfl
      rw [subDays_succ, subDays, subDays, taiaSub_taiaUint]
      show (subDays t days).sec - daysSecs = _
      rw [ih, Nat.mul_add, Nat.mul_one, UInt64.ofNat_add, day, UInt64.sub_eq_add_neg,
        UInt64.sub_eq_add_neg, UInt64.sub_eq_add_neg, UInt64.neg_add, UInt64.add_assoc,
        ← UInt64.sub_eq_add_neg]

theorem dayOf_nil (t : Taia) : dayOf [] t = caldateFrommjd (utcDay t.sec) := by
  show caldateFrommjd (utcDay (t.sec - 0)) = _
  rw [UInt64.sub_zero]

/-- As long as the calendar goes back that far, a day back is the day before. -/
theorem dayOf_subDays {t : Taia} {days : Nat} (left : 86400 * days ≤ (t.sec + 58486).toNat) :
    dayOf [] (subDays t days) = caldateFrommjd (utcDay t.sec - days) := by
  have bound := (t.sec + 58486).toNat_lt
  have count : (UInt64.ofNat (86400 * days)).toNat = 86400 * days := by
    rw [UInt64.toNat_ofNat', Nat.mod_eq_of_lt (by omega)]
  have seconds : ((subDays t days).sec + 58486).toNat = (t.sec + 58486).toNat - 86400 * days := by
    have swap : (subDays t days).sec + 58486 = t.sec + 58486 - UInt64.ofNat (86400 * days) := by
      rw [sec_subDays, UInt64.sub_eq_add_neg, UInt64.sub_eq_add_neg]
      ac_rfl
    have enough : UInt64.ofNat (86400 * days) ≤ t.sec + 58486 := by
      rw [UInt64.le_iff_toNat_le, count]
      exact left
    rw [swap, UInt64.toNat_sub_of_le _ _ enough, count]
  have quotient : (((t.sec + 58486).toNat - 86400 * days) / 86400 : Nat) =
      ((t.sec + 58486).toNat / 86400 : Nat) - (days : Int) := by
    generalize (t.sec + 58486).toNat = u at left
    omega
  rw [dayOf_nil, utcDay_eq, utcDay_eq, seconds, quotient, Int.sub_sub, Int.sub_sub,
    Int.add_comm (days : Int)]

end Bagunceiro
