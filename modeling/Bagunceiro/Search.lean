/-
# Search -- searching the entries (`z_cdbb.c`, `z_blog.c`)

A search goes from record to record (`cdbb_firstkey`, `__cdbb_findnext`), looks
for the string in each value, and hands what it hits to `add_to_result`, which
files it under its date.  `cdb_nextkey` comes before the first test, so that the
record `cdb_firstkey` has moved to is never looked at: `exec_fetchEntryFind` says
that the hits are those of the records behind it.

The copies of key and value on the stack have no terminator, and the key is read
as a packed stamp whatever its length; `Beyond` is what memory holds there.
-/
import Bagunceiro.Lib.Occurs
import Bagunceiro.Lib.Grouping
import Bagunceiro.Fetch

namespace Bagunceiro

open Effect

set_option autoImplicit false

/-! ## Strings -/

/-- `toupper` of the C locale -/
def toupper (c : UInt8) : UInt8 := if 97 ≤ c ∧ c ≤ 122 then c - 32 else c

/-- The string from the place `strstr` returns. -/
def strstr (big little : Bytes) : Option Bytes := Occurs.search id big little

/-- The inner loop of `strcasestr`: what is left of `psz_cur2` when the strings
differ or one of them ends. -/
def caseRest : Bytes → Bytes → Bytes
  | c :: cur1, d :: cur2 => if toupper c = toupper d then caseRest cur1 cur2 else d :: cur2
  | _, cur2 => cur2

/-- The outer loop, for a string that starts with `d`. -/
def strcasestrFrom (d : UInt8) (little : Bytes) : Bytes → Option Bytes
  | [] => none
  | c :: pos =>
      if toupper c = toupper d ∧ caseRest pos little = [] then some (c :: pos)
      else strcasestrFrom d little pos

def strcasestr (big little : Bytes) : Option Bytes :=
  match little with
  | [] => some big
  | d :: little => strcasestrFrom d little big

theorem caseRest_eq_nil_iff (cur1 cur2 : Bytes) :
    caseRest cur1 cur2 = [] ↔ Occurs.startsWith toupper cur1 cur2 = true := by
  induction cur1 generalizing cur2 with
  | nil => cases cur2 <;> simp [caseRest, Occurs.startsWith]
  | cons c cur1 ih =>
      cases cur2 with
      | nil => simp [caseRest, Occurs.startsWith]
      | cons d cur2 =>
          rw [caseRest, Occurs.startsWith]
          split
          · rename_i same
            simp [ih, same]
          · rename_i other
            simp [other]

/-- `strcasestr` is the search that ignores case. -/
theorem strcasestr_eq (big little : Bytes) :
    strcasestr big little = Occurs.search toupper big little := by
  cases little with
  | nil =>
      cases big <;> rfl
  | cons d little =>
      rw [strcasestr]
      induction big with
      | nil => rfl
      | cons c pos ih =>
          rw [strcasestrFrom, Occurs.search, Occurs.startsWith, ih]
          simp only [caseRest_eq_nil_iff, Bool.and_eq_true, decide_eq_true_eq]

/-- Whether a value contains the string, for a search of this kind. -/
def Contains (ignorecase : Bool) (big little : Bytes) : Prop :=
  if ignorecase then little.map toupper <:+: big.map toupper else little <:+: big

/-- What is contained in a text is contained in a longer one. -/
theorem Contains.of_prefix {ignorecase : Bool} {big longer little : Bytes}
    (holds : Contains ignorecase big little) (starts : big <+: longer) :
    Contains ignorecase longer little := by
  cases ignorecase with
  | true => exact List.IsInfix.trans holds (starts.map toupper).isInfix
  | false => exact List.IsInfix.trans holds starts.isInfix

/-! ## The result -/

/-- What memory holds behind the copies of a record. -/
structure Beyond where
  /-- behind `v`, up to wherever the string that starts there ends -/
  value : Bytes
  /-- behind `n->k` -/
  key : Nat → UInt8

/-- Zeros behind every copy. -/
def nothingBehind : Nat → Beyond := fun _ => ⟨[], fun _ => 0⟩

/-- The loop of `add_to_result`; the day it finds takes the time of the entry. -/
def addToDays (ttime : Caltime) (n : Nentry) : Result → Result
  | [] => [⟨ttime, [n]⟩]
  | day :: res =>
      if day.time.date.day = ttime.date.day ∧ day.time.date.month = ttime.date.month ∧
          day.time.date.year = ttime.date.year then
        ⟨ttime, day.es ++ [n]⟩ :: res
      else day :: addToDays ttime n res

def addToResult (leapsecs : List UInt64) (past : Nat → UInt8) (res : Result) (n : Nentry) : Result :=
  let tday := taiaUnpack (readMemory n.k past taiaPackSize)
  addToDays (caltimeUtc leapsecs tday.sec) n res

/-- A day of the result as a group. -/
def Day.group (day : Day) : Caldate × List Nentry := (day.time.date, day.es)

theorem addToDays_group (ttime : Caltime) (n : Nentry) (res : Result) :
    (addToDays ttime n res).map Day.group = Grouping.file ttime.date n (res.map Day.group) := by
  induction res with
  | nil => rfl
  | cons day res ih =>
      have dates : (day.time.date.day = ttime.date.day ∧ day.time.date.month = ttime.date.month ∧
          day.time.date.year = ttime.date.year) ↔ day.group.1 = ttime.date := by
        change _ ↔ day.time.date = ttime.date
        constructor
        · rintro ⟨dayEq, monthEq, yearEq⟩
          calc day.time.date = ⟨day.time.date.year, day.time.date.month, day.time.date.day⟩ := rfl
            _ = ttime.date := by rw [dayEq, monthEq, yearEq]
        · intro same
          rw [same]
          exact ⟨rfl, rfl, rfl⟩
      rw [addToDays, List.map_cons, Grouping.file]
      by_cases same : day.group.1 = ttime.date
      · rw [if_pos (dates.2 same), if_pos same, List.map_cons, same]
        rfl
      · rw [if_neg (mt dates.1 same), if_neg same, List.map_cons, ih]

/-- The date `add_to_result` files an entry under. -/
def dateRead (leapsecs : List UInt64) (past : Nat → UInt8) (n : Nentry) : Caldate :=
  dayOf leapsecs (taiaUnpack (readMemory n.k past taiaPackSize))

/-- `add_to_result` for one entry after the other, each with the memory behind
its key. -/
def addAll (leapsecs : List UInt64) (calls : List ((Nat → UInt8) × Nentry)) (res : Result) :
    Result :=
  calls.foldl (fun res call => addToResult leapsecs call.1 res call.2) res

/-- **The days of a result are the groups of what was added.** -/
theorem filed_addAll (leapsecs : List UInt64) (calls : List ((Nat → UInt8) × Nentry)) :
    Grouping.Filed (calls.map fun call => (dateRead leapsecs call.1 call.2, call.2))
      ((addAll leapsecs calls []).map Day.group) := by
  suffices each : ∀ res : Result, (addAll leapsecs calls res).map Day.group =
      (calls.map fun call => (dateRead leapsecs call.1 call.2, call.2)).foldl
        (fun gs x => Grouping.file x.1 x.2 gs) (res.map Day.group) by
    rw [each []]
    exact Grouping.filed_foldl _
  induction calls with
  | nil => exact fun _ => rfl
  | cons call calls ih =>
      intro res
      have one : (addToResult leapsecs call.1 res call.2).map Day.group =
          Grouping.file (dateRead leapsecs call.1 call.2) call.2 (res.map Day.group) :=
        addToDays_group _ _ _
      rw [addAll, List.foldl_cons, List.map_cons, List.foldl_cons, ← one]
      exact ih _

theorem perm_addAll (leapsecs : List UInt64) (calls : List ((Nat → UInt8) × Nentry)) :
    ((addAll leapsecs calls []).flatMap Day.es).Perm (calls.map Prod.snd) := by
  have all := (filed_addAll leapsecs calls).all
  rw [List.flatMap_map, List.map_map] at all
  exact all

theorem nodup_addAll (leapsecs : List UInt64) (calls : List ((Nat → UInt8) × Nentry)) :
    ((addAll leapsecs calls []).map (·.time.date)).Nodup := by
  have distinct := (filed_addAll leapsecs calls).distinct
  rw [List.map_map] at distinct
  exact distinct

/-- Whole keys are read without what is behind them. -/
theorem dateRead_of_length {n : Nentry} (whole : n.k.length = taiaPackSize) (leapsecs : List UInt64)
    (past : Nat → UInt8) : dateRead leapsecs past n = dayOf leapsecs (taiaUnpack n.k) := by
  rw [dateRead]
  rw [readMemory_within (le_of_eq whole.symm), ← whole, List.take_length]

/-- **A result has the entries by their dates.**  The dates of its days differ;
each day has, in the order in which they were added, all the entries of its date
and no others; so every entry is in one day, and none is lost or doubled. -/
theorem addAll_by_date (leapsecs : List UInt64) (calls : List ((Nat → UInt8) × Nentry))
    (keys : ∀ call ∈ calls, call.2.k.length = taiaPackSize) :
    let ns := calls.map Prod.snd
    let res := addAll leapsecs calls []
    let date : Nentry → Caldate := fun n => dayOf leapsecs (taiaUnpack n.k)
    (res.map (·.time.date)).Nodup ∧
      (∀ day ∈ res, day.es = ns.filter fun n => date n = day.time.date) ∧
      (∀ day ∈ res, ∀ n ∈ day.es, day.time.date = date n) ∧
      (∀ n ∈ ns, ∃ day ∈ res, n ∈ day.es ∧ ∀ other ∈ res, n ∈ other.es → other = day) ∧
      (res.flatMap Day.es).Perm ns := by
  intro ns res date
  have filed := filed_addAll leapsecs calls
  have distinct : (res.map (·.time.date)).Nodup := nodup_addAll leapsecs calls
  have perm : (res.flatMap Day.es).Perm ns := perm_addAll leapsecs calls
  have labels : (calls.map fun call => (dateRead leapsecs call.1 call.2, call.2)) =
      ns.map fun n => (date n, n) := by
    rw [List.map_map]
    refine List.map_congr_left fun call member => ?_
    rw [dateRead_of_length (keys call member)]
    rfl
  have whole : ∀ day ∈ res, day.es = ns.filter fun n => date n = day.time.date := by
    intro day member
    have group := filed.whole _ (List.mem_map_of_mem member)
    rw [labels] at group
    apply group.trans
    rw [Grouping.under]
    rw [List.filter_map, List.map_map]
    exact List.map_id _
  have dates : ∀ day ∈ res, ∀ n ∈ day.es, day.time.date = date n := by
    intro day member n inside
    rw [whole day member, List.mem_filter, decide_eq_true_eq] at inside
    exact inside.2.symm
  refine ⟨distinct, whole, dates, fun n member => ?_, perm⟩
  obtain ⟨day, inside, here⟩ := List.mem_flatMap.1 (perm.mem_iff.2 member)
  refine ⟨day, inside, here, fun other there here' => ?_⟩
  exact List.inj_on_of_nodup_map distinct there inside
    ((dates other there n here').trans (dates day inside n here).symm)

/-- Two entries of one date, with one of the day before between them. -/
theorem addAll_by_date_sample :
    let eve : Nentry := ⟨str "eve", taiaPack ⟨4611686019700000000, 0, 0⟩⟩
    let noon : Nentry := ⟨str "noon", taiaPack ⟨4611686019700100000, 0, 0⟩⟩
    let later : Nentry := ⟨str "later", taiaPack ⟨4611686019700100060, 0, 0⟩⟩
    let res := addAll [] [(fun _ => 0, noon), (fun _ => 1, eve), (fun _ => 2, later)] []
    (res.map (·.time.date)).Nodup ∧ (res.flatMap Day.es).Perm [noon, eve, later] ∧
      ∀ day ∈ res, ∀ n ∈ day.es, day.time.date = dayOf [] (taiaUnpack n.k) := by
  intro eve noon later res
  have keys : ∀ call ∈ [((fun _ => 0 : Nat → UInt8), noon), (fun _ => 1, eve), (fun _ => 2, later)],
      call.2.k.length = taiaPackSize := by
    simp only [List.mem_cons, List.not_mem_nil, or_false]
    rintro call (rfl | rfl | rfl) <;> exact length_taiaPack _
  obtain ⟨distinct, -, dates, -, perm⟩ := addAll_by_date [] _ keys
  exact ⟨distinct, perm, dates⟩

/-! ## The scan -/

/-- The string that starts at the copy of a value. -/
def textAt (behind : Bytes) (r : Record) : Bytes := cstr (r.value ++ behind)

/-- Where the needle is found in a value. -/
def place (ignorecase : Bool) (v needle : Bytes) : Option Bytes :=
  if ignorecase then strcasestr v needle else strstr v needle

/-- `__cdbb_findnext`, once `cdb_nextkey` has moved to the record. -/
def cdbbFindnext (behind : Bytes) (needle : Bytes) (ignorecase : Bool) (r : Record) :
    Option Nentry :=
  if place ignorecase (textAt behind r) needle = none then none
  else some { e := r.value, k := r.key }

section Scan

variable (leapsecs : List UInt64) (memory : Nat → Beyond) (needle : Bytes) (ignorecase : Bool)

/-- The loop of `__fetch_entry_find`, with the records that `cdb_nextkey` has
still to move to. -/
def findLoop : Nat → List Record → Int → Result → Int × Result
  | _, [], num, res => (num, res)
  | i, r :: ahead, num, res =>
      match cdbbFindnext (memory i).value needle ignorecase r with
      | none => findLoop (i + 1) ahead num res
      | some n => findLoop (i + 1) ahead (num + 1) (addToResult leapsecs (memory i).key res n)

end Scan

/-- `__fetch_entry_find`; whether the file could be opened is not asked. -/
def fetchEntryFind (leapsecs : List UInt64) (memory : Nat → Beyond) (conf : Blog)
    (ignorecase : Bool) (res : Result) : M (Int × Result) := do
  match ← cdbbOpenRead dbFile with
  | none => .fail .uninitialised
  | some a =>
      match ← cdbKeys a with
      | .torn => .fail .tornFile
      -- -1 passes for a key, and the scan ends with the first look
      | .failed => return (0, res)
      | .records [] => return (-1, res)
      | .records (_ :: ahead) =>
          return findLoop leapsecs memory (cstr conf.qry.find) ignorecase 0 ahead 0 res

def fetchEntryQuery (leapsecs : List UInt64) (memory : Nat → Beyond) (conf : Blog) (res : Result) :
    M (Int × Result) := fetchEntryFind leapsecs memory conf false res

def fetchEntryTag (leapsecs : List UInt64) (memory : Nat → Beyond) (conf : Blog) (res : Result) :
    M (Int × Result) := fetchEntryFind leapsecs memory conf true res

/-! ## What a scan hits -/

theorem place_isSome_iff {ignorecase : Bool} {v needle : Bytes} :
    (place ignorecase v needle).isSome = true ↔ Contains ignorecase v needle := by
  cases ignorecase with
  | true =>
      change (strcasestr v needle).isSome = true ↔ _
      rw [strcasestr_eq, Occurs.search_isSome_iff]
      rfl
  | false =>
      change (Occurs.search id v needle).isSome = true ↔ _
      rw [Occurs.search_isSome_iff, List.map_id, List.map_id]
      rfl

section Findnext

variable {behind needle : Bytes} {ignorecase : Bool} {r : Record}

theorem cdbbFindnext_of_contains (holds : Contains ignorecase (textAt behind r) needle) :
    cdbbFindnext behind needle ignorecase r = some ⟨r.value, r.key⟩ := by
  have found := place_isSome_iff.2 holds
  refine if_neg fun nothing => ?_
  rw [nothing] at found
  cases found

theorem cdbbFindnext_of_not_contains (lacks : ¬ Contains ignorecase (textAt behind r) needle) :
    cdbbFindnext behind needle ignorecase r = none := by
  apply if_pos
  rw [← Option.not_isSome_iff_eq_none, place_isSome_iff]
  exact lacks

end Findnext

section Hits

variable (leapsecs : List UInt64) (memory : Nat → Beyond) (needle : Bytes) (ignorecase : Bool)

/-- The hits among the records from the `i`-th look on, with the memory behind
their keys. -/
def hits : Nat → List Record → List ((Nat → UInt8) × Nentry)
  | _, [] => []
  | i, r :: ahead =>
      match cdbbFindnext (memory i).value needle ignorecase r with
      | none => hits (i + 1) ahead
      | some n => ((memory i).key, n) :: hits (i + 1) ahead

theorem findLoop_eq (i : Nat) (ahead : List Record) (num : Int) (res : Result) :
    findLoop leapsecs memory needle ignorecase i ahead num res =
      (num + (hits memory needle ignorecase i ahead).length,
        addAll leapsecs (hits memory needle ignorecase i ahead) res) := by
  induction ahead generalizing i num res with
  | nil => simp [findLoop, hits, addAll]
  | cons r ahead ih =>
      rw [findLoop, hits]
      cases cdbbFindnext (memory i).value needle ignorecase r with
      | none => exact ih (i + 1) num res
      | some n =>
          apply (ih (i + 1) (num + 1) _).trans
          rw [List.length_cons, Nat.cast_add, Nat.cast_one, Int.add_right_comm, Int.add_assoc]
          rfl

variable {memory needle ignorecase}

theorem mem_hits {i : Nat} {ahead : List Record} {n : Nentry} :
    n ∈ (hits memory needle ignorecase i ahead).map Prod.snd ↔
      ∃ (j : Nat) (r : Record), ahead[j]? = some r ∧
        Contains ignorecase (textAt (memory (i + j)).value r) needle ∧ n = ⟨r.value, r.key⟩ := by
  induction ahead generalizing i with
  | nil => simp [hits]
  | cons r ahead ih =>
      have later : (∃ (j : Nat) (s : Record), (r :: ahead)[j]? = some s ∧
            Contains ignorecase (textAt (memory (i + j)).value s) needle ∧ n = ⟨s.value, s.key⟩) ↔
          (Contains ignorecase (textAt (memory i).value r) needle ∧ n = ⟨r.value, r.key⟩) ∨
            n ∈ (hits memory needle ignorecase (i + 1) ahead).map Prod.snd := by
        rw [ih]
        constructor
        · rintro ⟨j, s, there, holds, rfl⟩
          cases j with
          | zero =>
              cases there
              exact .inl ⟨holds, rfl⟩
          | succ j => exact .inr ⟨j, s, there, by rwa [Nat.add_right_comm, Nat.add_assoc], rfl⟩
        · rintro (⟨holds, rfl⟩ | ⟨j, s, there, holds, rfl⟩)
          · exact ⟨0, r, rfl, holds, rfl⟩
          · exact ⟨j + 1, s, there, by rwa [Nat.add_right_comm, Nat.add_assoc] at holds, rfl⟩
      rw [later, hits]
      by_cases holds : Contains ignorecase (textAt (memory i).value r) needle
      · rw [cdbbFindnext_of_contains holds]
        simp [holds]
      · rw [cdbbFindnext_of_not_contains holds]
        simp [holds]

/-- What a search lists are the records it hits. -/
theorem forall_listed_iff {ahead : List Record} {keeps : Nentry → Prop} :
    (∀ day ∈ addAll leapsecs (hits memory needle ignorecase 0 ahead) [], ∀ n ∈ day.es, keeps n) ↔
      ∀ i r, ahead[i]? = some r → Contains ignorecase (textAt (memory i).value r) needle →
        keeps ⟨r.value, r.key⟩ := by
  have listed (n : Nentry) :
      (∃ day ∈ addAll leapsecs (hits memory needle ignorecase 0 ahead) [], n ∈ day.es) ↔
        ∃ (j : Nat) (r : Record), ahead[j]? = some r ∧
          Contains ignorecase (textAt (memory (0 + j)).value r) needle ∧ n = ⟨r.value, r.key⟩ := by
    rw [← mem_hits, ← (perm_addAll leapsecs _).mem_iff, List.mem_flatMap]
  constructor
  · intro all i r there contains
    obtain ⟨day, inside, here⟩ := (listed ⟨r.value, r.key⟩).2
      ⟨i, r, there, by rwa [Nat.zero_add], rfl⟩
    exact all day inside _ here
  · intro each day inside n here
    obtain ⟨i, r, there, contains, rfl⟩ := (listed n).1 ⟨day, inside, here⟩
    rw [Nat.zero_add] at contains
    exact each i r there contains

/-- A record whose own text contains the string is hit wherever it stands. -/
theorem count_hits {r : Record}
    (holds : ∀ behind, Contains ignorecase (textAt behind r) needle) (i : Nat)
    (ahead : List Record) :
    ((hits memory needle ignorecase i ahead).map Prod.snd).count ⟨r.value, r.key⟩ =
      ahead.count r := by
  induction ahead generalizing i with
  | nil => rfl
  | cons s ahead ih =>
      rw [hits]
      by_cases same : s = r
      · subst same
        rw [cdbbFindnext_of_contains (holds _), List.count_cons_self, List.map_cons,
          List.count_cons_self, ih]
      · have other : (⟨s.value, s.key⟩ : Nentry) ≠ ⟨r.value, r.key⟩ := by
          intro equal
          apply same
          cases s
          cases r
          simp_all
        rw [List.count_cons_of_ne same]
        by_cases hit : Contains ignorecase (textAt (memory i).value s) needle
        · rw [cdbbFindnext_of_contains hit, List.map_cons, List.count_cons_of_ne other, ih]
        · rw [cdbbFindnext_of_not_contains hit, ih]

end Hits

/-- **A search adds what it hits behind the first record.** -/
theorem exec_fetchEntryFind (leapsecs : List UInt64) (memory : Nat → Beyond) (conf : Blog)
    (ignorecase : Bool) {fs : Fs} {recs : List Record}
    (holds : fs.content dbFile = some (.finished recs)) (res : Result) :
    exec (fetchEntryFind leapsecs memory conf ignorecase res) fs =
      (.ok (if recs = [] then -1
          else (hits memory (cstr conf.qry.find) ignorecase 0 recs.tail).length,
        addAll leapsecs (hits memory (cstr conf.qry.find) ignorecase 0 recs.tail) res), fs) := by
  obtain ⟨a, named, node⟩ := Fs.dir_of_content holds
  have read : exec (cdbKeys a) fs = (.ok (.records recs), fs) := by
    change (Except.ok (fs.node a).keys, fs) = _
    rw [node]
    rfl
  rw [exec, fetchEntryFind]
  rw [Prog.run_bind_ok handle (exec_openRead named)]
  simp only
  rw [Prog.run_bind_ok handle read]
  cases recs with
  | nil => rfl
  | cons r ahead =>
      simp only
      rw [findLoop_eq, Int.zero_add]
      rfl

end Bagunceiro
