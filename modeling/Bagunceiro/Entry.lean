/-
# Entry -- entries and the index of days (`z_entry.c`, `z_day.c`)

An entry is two records: its text under its packed time stamp, and the packed
stamp under its date.  The functions that change entries queue what they change
into an open batch (`addEntryNow_eq` and its siblings list it);
`cdbbFetchDay` reads the entries of a date, the last one added first.
-/
import Bagunceiro.Batch
import Bagunceiro.Time

namespace Bagunceiro

open Effect

set_option autoImplicit false

/-- `DB_LAST_MODIFIED` -/
def dbLastModified : Bytes := str "!lastmodified"

/-! ## Changing entries -/

def fmtDayIdx (leapsecs : List UInt64) (l : Taia) : Bytes := fmtTimeStr leapsecs l ++ str "@"

/-- `show_entry` -/
def showEntry (r : Inode) (k : Taia) (n : Nentry) : M (Int × Nentry) :=
  cdbbReadNentry r (taiaPack k) n

/-- `now` is the clock when the function is called. -/
def blogModified (now : Taia) (a : Cdbb) : Cdbb := cdbbRep a dbLastModified (taiaPack now)

section Changes

variable (leapsecs : List UInt64) (modifiedAt : Taia)

def addEntry (a : Cdbb) (k : Taia) (v : Bytes) : Cdbb :=
  let dayidx := fmtDayIdx leapsecs k
  let pk := taiaPack k
  let a := cdbbAdd a pk v
  let a := cdbbAdd a dayidx pk
  blogModified modifiedAt a

def addEntryNow (now : Taia) (a : Cdbb) (v : Bytes) : Cdbb := addEntry leapsecs modifiedAt a now v

def modifyEntry (a : Cdbb) (k : Taia) (v : Bytes) : Cdbb :=
  blogModified modifiedAt (cdbbMod a (taiaPack k) v)

def deleteEntry (a : Cdbb) (k : Taia) : Cdbb :=
  let dayidx := fmtDayIdx leapsecs k
  let pk := taiaPack k
  let a := cdbbDel a pk
  let a := cdbbDelVal a dayidx pk
  blogModified modifiedAt a

/-- The record every change leaves. -/
def modifiedChange : Change := .rep dbLastModified (taiaPack modifiedAt)

theorem key_modifiedChange : (modifiedChange modifiedAt).key = dbLastModified := key_rep _ _

def addChanges (k : Taia) (v : Bytes) : List Change :=
  [.add (taiaPack k) v, .add (fmtDayIdx leapsecs k) (taiaPack k), modifiedChange modifiedAt]

def modifyChanges (k : Taia) (v : Bytes) : List Change :=
  [.mod (taiaPack k) v, modifiedChange modifiedAt]

def deleteChanges (k : Taia) : List Change :=
  [.del (taiaPack k), .delVal (fmtDayIdx leapsecs k) (taiaPack k), modifiedChange modifiedAt]

theorem keys_addChanges (k : Taia) (v : Bytes) :
    (addChanges leapsecs modifiedAt k v).map Change.key =
      [taiaPack k, fmtDayIdx leapsecs k, dbLastModified] := by
  rw [addChanges, List.map_cons, List.map_cons, List.map_cons, List.map_nil, key_add, key_add,
    key_modifiedChange]

theorem keys_modifyChanges (k : Taia) (v : Bytes) :
    (modifyChanges modifiedAt k v).map Change.key = [taiaPack k, dbLastModified] := by
  rw [modifyChanges, List.map_cons, List.map_cons, List.map_nil, key_mod, key_modifiedChange]

theorem keys_deleteChanges (k : Taia) :
    (deleteChanges leapsecs modifiedAt k).map Change.key =
      [taiaPack k, fmtDayIdx leapsecs k, dbLastModified] := by
  rw [deleteChanges, List.map_cons, List.map_cons, List.map_cons, List.map_nil, key_del, key_delVal,
    key_modifiedChange]

theorem room_addChanges (k : Taia) (v : Bytes) : Room (addChanges leapsecs modifiedAt k v) [] := by
  simp [Room, addChanges, numOp]

theorem room_modifyChanges (k : Taia) (v : Bytes) : Room (modifyChanges modifiedAt k v) [] := by
  simp [Room, modifyChanges, numOp]

theorem room_deleteChanges (k : Taia) : Room (deleteChanges leapsecs modifiedAt k) [] := by
  simp [Room, deleteChanges, numOp]

theorem addEntry_eq (a : Cdbb) (k : Taia) (v : Bytes) :
    addEntry leapsecs modifiedAt a k v = queueAll (addChanges leapsecs modifiedAt k v) [] a := rfl

theorem addEntryNow_eq (now : Taia) (a : Cdbb) (v : Bytes) :
    addEntryNow leapsecs modifiedAt now a v = queueAll (addChanges leapsecs modifiedAt now v) [] a :=
  addEntry_eq leapsecs modifiedAt a now v

theorem modifyEntry_eq (a : Cdbb) (k : Taia) (v : Bytes) :
    modifyEntry modifiedAt a k v = queueAll (modifyChanges modifiedAt k v) [] a := rfl

theorem deleteEntry_eq (a : Cdbb) (k : Taia) :
    deleteEntry leapsecs modifiedAt a k = queueAll (deleteChanges leapsecs modifiedAt k) [] a := rfl

end Changes

/-! ## Reading a day -/

/-- The loop of `cdbb_fetch_day` over the keys below `i`, the last one first. -/
def fetchKeys (r : Inode) (keys : Bytes) : Nat → Int → List Nentry → M (Int × List Nentry)
  | 0, err, entries => return (err, entries)
  | i + 1, _, entries => do
      let key := (keys.drop (taiaPackSize * i)).take taiaPackSize
      let (err, entry) ← cdbbReadNentry r key ⟨[], []⟩
      fetchKeys r keys i err (if err < 0 then entries else entries ++ [entry])

/-- The result and the entries of the caller's day, behind those it had. -/
def cdbbFetchDay (leapsecs : List UInt64) (r : Inode) (entries : List Nentry) (day : Taia) :
    M (Int × List Nentry) := do
  let buf := fmtTimeStr leapsecs day ++ str "@"
  let (err, dentry) ← cdbbReadNentry r buf ⟨[], []⟩
  if err ≤ 0 then return (err, entries)
  fetchKeys r dentry.e (dentry.e.length / taiaPackSize) err entries

/-! ## The three kinds of keys -/

/-- The date a stamp falls on. -/
def dayOf (leapsecs : List UInt64) (t : Taia) : Caldate := (caltimeUtc leapsecs t.sec).date

/-- Two stamps have the same index record exactly when they have the same date. -/
theorem fmtDayIdx_eq_iff (leapsecs : List UInt64) (t u : Taia) :
    fmtDayIdx leapsecs t = fmtDayIdx leapsecs u ↔ dayOf leapsecs t = dayOf leapsecs u := by
  constructor
  · intro same
    exact caldateFmt_injective (List.append_cancel_right same)
  · intro same
    show caldateFmt (dayOf leapsecs t) ++ _ = caldateFmt (dayOf leapsecs u) ++ _
    rw [same]

/-- The packed form of a clock's stamp is the string `@` and its terminator, and
what is behind them. -/
theorem front_taiaPack {t : Taia} (clocked : Clocked t) : ∃ rest, taiaPack t = 64 :: 0 :: rest := by
  have high : t.sec.toNat / 256 ^ 6 = 64 * 256 := by
    have := clocked.low
    have := clocked.high
    omega
  have front : Radix.toBytesBE 8 t.sec.toNat = [64, 0] ++ Radix.toBytesBE 6 t.sec.toNat := by
    rw [show 8 = 2 + 6 from rfl, Radix.toBytesBE_add, high]
    rfl
  refine ⟨Radix.toBytesBE 6 t.sec.toNat ++ (Radix.toBytesBE 4 t.nano.toNat ++
    Radix.toBytesBE 4 t.atto.toNat), ?_⟩
  rw [taiaPack, front, List.append_assoc, List.append_assoc]
  rfl

/-- Dates start with a digit or a sign. -/
theorem head_fmtDayIdx (leapsecs : List UInt64) (t : Taia) :
    ∃ c, (fmtDayIdx leapsecs t).head? = some c ∧ (c = 45 ∨ 48 ≤ c.toNat ∧ c.toNat ≤ 57) := by
  have digits (n : Nat) : ∃ c cs, Radix.decimal n = c :: cs ∧ 48 ≤ c.toNat ∧ c.toNat ≤ 57 := by
    cases written : Radix.decimal n with
    | nil => simp [Radix.decimal, Radix.decimalFrom] at written
    | cons c cs =>
        exact ⟨c, cs, rfl, Radix.digit_of_mem_decimal (written ▸ List.mem_cons_self)⟩
  have date : fmtDayIdx leapsecs t = caldateFmt (dayOf leapsecs t) ++ str "@" := rfl
  rw [date, caldateFmt, fmtYear]
  split
  · exact ⟨45, rfl, .inl rfl⟩
  · obtain ⟨c, cs, written, digit⟩ := digits (dayOf leapsecs t).year.natAbs
    rw [written]
    exact ⟨c, rfl, .inr digit⟩

theorem taiaPack_ne_fmtDayIdx {t : Taia} (clocked : Clocked t) (leapsecs : List UInt64) (u : Taia) :
    taiaPack t ≠ fmtDayIdx leapsecs u := by
  intro same
  obtain ⟨rest, packed⟩ := front_taiaPack clocked
  obtain ⟨c, head, digit⟩ := head_fmtDayIdx leapsecs u
  rw [← same, packed] at head
  cases head
  revert digit
  decide

theorem taiaPack_ne_dbLastModified (t : Taia) : taiaPack t ≠ dbLastModified := by
  intro same
  have length := congrArg List.length same
  rw [length_taiaPack] at length
  exact absurd length (by decide)

theorem fmtDayIdx_ne_dbLastModified (leapsecs : List UInt64) (t : Taia) :
    fmtDayIdx leapsecs t ≠ dbLastModified := by
  intro same
  obtain ⟨c, head, digit⟩ := head_fmtDayIdx leapsecs t
  rw [same] at head
  cases head
  revert digit
  decide

end Bagunceiro
