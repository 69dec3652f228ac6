/-
# Sorting -- what `qsort` is given to compare the days of a search with

A result is an array of pointers to days.  `qsort` hands the comparator the
addresses of two slots of that array, and `datecomp` takes each for the address
of a day: the date it reads is in the words behind the slot.  What stands there
has nothing to do with the two days, and a result is sorted for sure only when
there is nothing to sort (`fetchFound_sorted_iff`).
-/
import Mathlib.Data.List.Perm.Subperm
import Bagunceiro.Lib.Words
import Bagunceiro.Tags

namespace Bagunceiro

open Effect Words Gregorian

set_option autoImplicit false

/-! ## The comparator -/

section Datecomp

variable (memory : Memory) (a b : Nat)

/-- `time.date.year` of a `struct day`, which is behind the array `es`. -/
def yearAt : Int := long (memory (a + 3))

def monthAt : Int := low (memory (a + 4))

def dayAt : Int := high (memory (a + 4))

def datecomp : Int :=
  let l := narrow (yearAt memory b - yearAt memory a)
  if l ≠ 0 then l
  else
    let l := narrow (monthAt memory b - monthAt memory a)
    if l ≠ 0 then l
    else narrow (dayAt memory b - dayAt memory a)

end Datecomp

/-- A `struct day` with the date of this day. -/
structure DayAt (memory : Memory) (a : Nat) (day : Day) : Prop where
  year : yearAt memory a = day.time.date.year
  month : monthAt memory a = day.time.date.month
  day : dayAt memory a = day.time.date.day

/-- From the slot `base` on, there are pointers to the days of a result. -/
def Holds (memory : Memory) (base : Nat) (res : Result) : Prop :=
  ∀ i day, res[i]? = some day → ∃ a, (memory (base + i)).toNat = 8 * a ∧ DayAt memory a day

/-- For any two slots, the comparator has the order of the dates of the days they
point to, the newest first. -/
structure NewestFirst (memory : Memory) (base : Nat) (res : Result) : Prop where
  newer : ∀ i j x y, res[i]? = some x → res[j]? = some y →
    (datecomp memory (base + i) (base + j) < 0 ↔ y.time.date.Before x.time.date)
  same : ∀ i j x y, res[i]? = some x → res[j]? = some y →
    (datecomp memory (base + i) (base + j) = 0 ↔ x.time.date = y.time.date)

/-- What `qsort` leaves, as the comparator has it. -/
def InOrder (memory : Memory) (base : Nat) (res : Result) : Prop :=
  ∀ i j, i < j → j < res.length → datecomp memory (base + i) (base + j) ≤ 0

/-- Wherever the days of a result are, and in whatever order the slots: the
comparator has the order of the dates, and slots in its order are in descending
order. -/
def Sorts (res : Result) : Prop :=
  ∀ sorted : Result, sorted.Perm res → ∀ memory base, Holds memory base sorted →
    NewestFirst memory base sorted ∧
      (InOrder memory base sorted →
        sorted.Pairwise fun x y => y.time.date.Before x.time.date)

section Compare

variable {memory : Memory} {base : Nat} {res : Result} {x y : Day}

@[simp] theorem datecomp_self (a : Nat) : datecomp memory a a = 0 := by
  simp [datecomp]

theorem not_before_self (cd : Caldate) : ¬ cd.Before cd := by
  unfold Caldate.Before Gregorian.Before
  omega

/-- On days, and for years that are not too far apart, it would be right. -/
theorem datecomp_of_days {a b : Nat} (left : DayAt memory a x) (right : DayAt memory b y)
    (past : -2 ^ 31 ≤ y.time.date.year - x.time.date.year)
    (future : y.time.date.year - x.time.date.year < 2 ^ 31) (date : x.time.date.IsDate)
    (date' : y.time.date.IsDate) :
    (datecomp memory a b < 0 ↔ y.time.date.Before x.time.date) ∧
      (datecomp memory a b = 0 ↔ x.time.date = y.time.date) := by
  obtain ⟨monthLow, monthHigh, dayLow, dayHigh⟩ := date
  obtain ⟨monthLow', monthHigh', dayLow', dayHigh'⟩ := date'
  have length := monthLength_bounds x.time.date.year x.time.date.month
  have length' := monthLength_bounds y.time.date.year y.time.date.month
  unfold datecomp
  rw [left.year, left.month, left.day, right.year, right.month, right.day,
    narrow_of_lt past future, narrow_of_lt (by omega) (by omega), narrow_of_lt (by omega) (by omega)]
  dsimp only
  have dates : x.time.date = y.time.date ↔ x.time.date.year = y.time.date.year ∧
      x.time.date.month = y.time.date.month ∧ x.time.date.day = y.time.date.day := by
    generalize x.time.date = cd, y.time.date = cd'
    cases cd
    cases cd'
    simp
  rw [dates]
  unfold Caldate.Before Gregorian.Before
  split_ifs <;> constructor <;> omega

end Compare

/-! ## A result with two days -/

/-- The words of a `struct day`, as far as its date. -/
def cellOf (day : Day) : Cell := fun
  | 3 => ofLong day.time.date.year
  | 4 => pair day.time.date.month.toNat day.time.date.day.toNat
  | _ => 0

/-- The array, with zeros for what is left of it, and the days. -/
def layout (res : Result) : Memory := table 512 4 8 (res.map cellOf)

/-- The dates of a result are those of day numbers. -/
theorem dates_addAll (leapsecs : List UInt64) (calls : List ((Nat → UInt8) × Nentry)) :
    ∀ day ∈ addAll leapsecs calls [], ∃ u, day.time.date = caldateFrommjd (utcDay u) := by
  intro day member
  have label := ((filed_addAll leapsecs calls).labels day.time.date).1
    (List.mem_map_of_mem (List.mem_map_of_mem member))
  obtain ⟨x, inside, same⟩ := List.mem_map.1 label
  obtain ⟨call, -, rfl⟩ := List.mem_map.1 inside
  exact ⟨_, same.symm⟩

section Layout

variable {res : Result} (dates : ∀ day ∈ res, ∃ u, day.time.date = caldateFrommjd (utcDay u))

include dates

/-- There are not more dates than day numbers. -/
theorem length_le_of_nodup (distinct : (res.map (·.time.date)).Nodup) : res.length ≤ 2 ^ 48 := by
  have inside : res.map (·.time.date) ⊆
      (List.range (2 ^ 48)).map fun n : Nat => caldateFrommjd ((n : Int) - 53375995543064) := by
    intro cd member
    obtain ⟨day, inside, rfl⟩ := List.mem_map.1 member
    obtain ⟨u, date⟩ := dates day inside
    obtain ⟨low, high⟩ := utcDay_bounds u
    refine List.mem_map.2 ⟨(utcDay u + 53375995543064).toNat, List.mem_range.2 (by omega), ?_⟩
    rw [date, Int.toNat_of_nonneg (by omega), Int.add_sub_cancel]
  have fits := (List.Nodup.subperm distinct inside).length_le
  rwa [List.length_map, List.length_map, List.length_range] at fits

theorem holds_layout (few : res.length ≤ 2 ^ 48) : Holds (layout res) 512 res := by
  intro i day here
  have inside : i < (res.map cellOf).length := by
    rw [List.length_map]
    exact (List.getElem?_eq_some_iff.1 here).1
  have cell : (res.map cellOf)[i]? = some (cellOf day) := by rw [List.getElem?_map, here]; rfl
  obtain ⟨u, date⟩ := dates day (List.mem_of_getElem? here)
  obtain ⟨low, high⟩ := utcDay_bounds u
  obtain ⟨yearLow, yearHigh⟩ := caldateFrommjd_year (n := utcDay u) (by omega) (by omega)
  obtain ⟨⟨monthLow, monthHigh⟩, dayLow, dayHigh⟩ := caldateFrommjd_bounds (utcDay u)
  rw [← date] at yearLow yearHigh monthLow monthHigh dayLow dayHigh
  refine ⟨_, toNat_table_slot inside ?_, ?_, ?_, ?_⟩
  · unfold start
    rw [List.length_map]
    omega
  · rw [yearAt, layout, table_cell cell (by norm_num)]
    exact long_ofLong (by omega) (by omega)
  · rw [monthAt, layout, table_cell cell (by norm_num)]
    apply (low_pair (by omega) _).trans
    omega
  · rw [dayAt, layout, table_cell cell (by norm_num)]
    apply (high_pair (by omega) (by omega)).trans
    omega

end Layout

/-- Behind the last three slots there are zeros, whatever the dates are. -/
theorem datecomp_layout {res : Result} {i j : Nat} (first : i < res.length)
    (second : j < res.length) (last : res.length ≤ i + 3) (last' : res.length ≤ j + 3) :
    datecomp (layout res) (512 + i) (512 + j) = 0 := by
  have zero {k r : Nat} (inside : k < res.length) (near : res.length ≤ k + 3) (low : 3 ≤ r)
      (high : r ≤ 4) : layout res (512 + k + r) = 0 := by
    apply table_slack
    · rw [List.length_map]
      omega
    · unfold start
      rw [List.length_map]
      omega
  unfold datecomp yearAt monthAt dayAt
  rw [zero first last (by norm_num) (by norm_num), zero first last (by norm_num) (by norm_num),
    zero second last' (by norm_num) (by norm_num), zero second last' (by norm_num) (by norm_num)]
  simp

theorem not_sorts_of_two {res : Result}
    (dates : ∀ day ∈ res, ∃ u, day.time.date = caldateFrommjd (utcDay u))
    (distinct : (res.map (·.time.date)).Nodup) (two : 2 ≤ res.length) : ¬ Sorts res := by
  intro sorts
  obtain ⟨⟨-, same⟩, -⟩ := sorts res (.refl _) _ _
    (holds_layout dates (length_le_of_nodup dates distinct))
  have here : res[res.length - 2]? = some (res.get ⟨res.length - 2, by omega⟩) :=
    List.getElem?_eq_getElem (by omega)
  have there : res[res.length - 1]? = some (res.get ⟨res.length - 1, by omega⟩) :=
    List.getElem?_eq_getElem (by omega)
  have equal := (same _ _ _ _ here there).1
    (datecomp_layout (by omega) (by omega) (by omega) (by omega))
  have days := List.inj_on_of_nodup_map distinct (List.get_mem _ _) (List.get_mem _ _) equal
  have slots := (List.Nodup.of_map _ distinct).get_inj_iff.1 days
  rw [Fin.mk.injEq] at slots
  omega

/-- A slot is compared to itself. -/
theorem sorts_of_one {res : Result} (one : res.length ≤ 1) : Sorts res := by
  intro sorted perm memory base holds
  have length : sorted.length ≤ 1 := perm.length_eq ▸ one
  have only {i j : Nat} {x y : Day} (here : sorted[i]? = some x) (there : sorted[j]? = some y) :
      i = j ∧ x = y := by
    have first := (List.getElem?_eq_some_iff.1 here).1
    have second := (List.getElem?_eq_some_iff.1 there).1
    obtain rfl : i = j := by omega
    rw [here] at there
    exact ⟨rfl, Option.some.inj there⟩
  refine ⟨⟨?_, ?_⟩, fun _ => ?_⟩
  · intro i j x y here there
    obtain ⟨rfl, rfl⟩ := only here there
    rw [datecomp_self]
    exact iff_of_false (lt_irrefl 0) (not_before_self _)
  · intro i j x y here there
    obtain ⟨rfl, rfl⟩ := only here there
    rw [datecomp_self]
    exact iff_of_true rfl rfl
  · cases sorted with
    | nil => exact .nil
    | cons x rest =>
        have none_ : rest = [] := by
          apply List.eq_nil_of_length_eq_zero
          rw [List.length_cons] at length
          omega
        rw [none_]
        exact List.pairwise_singleton _ _

/-! ## Searches -/

section Found

variable (leapsecs : List UInt64) (behind : Nat → Beyond)

theorem fetchEntryFind_result (conf : Blog) (ignorecase : Bool) :
    Prog.Ensures handle (fun _ => True) (fetchEntryFind leapsecs behind conf ignorecase [])
      (fun r _ => ∃ calls, r.2 = addAll leapsecs calls []) (fun _ => True) := by
  refine (Prog.Ensures.any _).bind fun a => ?_
  cases a with
  | none => exact .fail fun _ _ => True.intro
  | some a =>
      refine (Prog.Ensures.any _).bind fun keys => ?_
      match keys with
      | .torn => exact .fail fun _ _ => True.intro
      | .failed => exact .ret fun _ _ => ⟨[], rfl⟩
      | .records [] => exact .ret fun _ _ => ⟨[], rfl⟩
      | .records (r :: ahead) =>
          refine .ret fun _ _ => ⟨hits behind (cstr conf.qry.find) ignorecase 0 ahead, ?_⟩
          rw [findLoop_eq]

variable {leapsecs behind}

/-- A result is made by `add_to_result`. -/
theorem exists_calls {s : Server} {db db' : Fs} {res : Result}
    (found : exec (fetchFound leapsecs behind s) db = (.ok (some res), db')) :
    ∃ calls, res = addAll leapsecs calls [] := by
  have result : Prog.Ensures handle (fun _ => True) (fetchFound leapsecs behind s)
      (fun r _ => ∀ res, r = some res → ∃ calls, res = addAll leapsecs calls [])
      (fun _ => True) := by
    unfold fetchFound
    split
    · refine Prog.Ensures.bind (fetchEntryFind_result leapsecs behind s.conf false) fun r => ?_
      exact .ret fun _ made res same => Option.some.inj same ▸ made
    · refine Prog.Ensures.bind (fetchEntryFind_result leapsecs behind s.conf true) fun r => ?_
      exact .ret fun _ made res same => Option.some.inj same ▸ made
    · exact .ret fun _ _ res same => nomatch same
  exact result.of_ok True.intro found res rfl

end Found

/-- **Which results are sorted.**  Those with one day at most. -/
theorem fetchFound_sorted_iff (leapsecs : List UInt64) (behind : Nat → Beyond) (s : Server)
    (db db' : Fs) (res : Result)
    (found : exec (fetchFound leapsecs behind s) db = (.ok (some res), db')) :
    Sorts res ↔ res.length ≤ 1 := by
  obtain ⟨calls, rfl⟩ := exists_calls found
  constructor
  · intro sorts
    by_contra more
    exact not_sorts_of_two (dates_addAll leapsecs calls) (nodup_addAll leapsecs calls)
      (by omega) sorts
  · exact sorts_of_one

/-- The first request of a server, for a tag, which hits every entry behind the
first record. -/
theorem asksForGo_found (recs : List Record) : ∃ s' fs',
    exec (parseRequest asksForGo freshServer) Fs.empty = (.ok s', fs') ∧
      exec (fetchFound [] nothingBehind (accessGate s'))
        (Fs.empty.install dbFile (.finished recs)) =
          (.ok (some (addAll [] (hits nothingBehind [] true 0 recs.tail) [])),
            Fs.empty.install dbFile (.finished recs)) := by
  obtain ⟨s', fs', parsed, action, type, find⟩ := asksForGo_parsed
  have found := exec_fetchFound [] nothingBehind action type
    (Fs.content_install_self Fs.empty dbFile (.finished recs))
  rw [find] at found
  exact ⟨s', fs', parsed, found⟩

/-- The only entry there is. -/
theorem fetchFound_sorted_iff_sample : ∃ s' fs' res,
    exec (parseRequest asksForGo freshServer) Fs.empty = (.ok s', fs') ∧
      exec (fetchFound [] nothingBehind (accessGate s'))
        (Fs.empty.install dbFile (.finished (secondEntry (str "Go north")))) =
          (.ok (some res), Fs.empty.install dbFile (.finished (secondEntry (str "Go north")))) ∧
      res.length = 1 ∧ Sorts res := by
  obtain ⟨s', fs', parsed, found⟩ := asksForGo_found (secondEntry (str "Go north"))
  have one : (addAll [] (hits nothingBehind [] true 0
      (secondEntry (str "Go north")).tail) []).length = 1 := by
    decide +kernel
  exact ⟨s', fs', _, parsed, found, one,
    (fetchFound_sorted_iff [] _ _ _ _ _ found).2 (le_of_eq one)⟩

/-- An entry, and one of the day after. -/
def twoDays : List Record :=
  secondEntry (str "Go north") ++ [⟨taiaPack ⟨4611686019700186400, 0, 0⟩, str "Go on" ++ [0]⟩]

/-- To the comparator, two days can look like one. -/
theorem two_days_are_equal : ¬ ∀ (leapsecs : List UInt64) (behind : Nat → Beyond) (s : Server)
    (db db' : Fs) (res : Result),
    exec (fetchFound leapsecs behind s) db = (.ok (some res), db') → Sorts res := by
  intro claim
  obtain ⟨s', fs', -, found⟩ := asksForGo_found twoDays
  have two : 2 ≤ (addAll [] (hits nothingBehind [] true 0 twoDays.tail) []).length := by
    decide +kernel
  exact not_sorts_of_two (dates_addAll _ _) (nodup_addAll _ _) two (claim [] _ _ _ _ _ found)

end Bagunceiro
