/-
# Dangling -- a day's index and the entries it names (`z_day.c`)

The keys of a day stand one behind the other in its index record, and
`cdbb_fetch_day` looks each of them up, the last one first.  A key without a
record is not an error to it: the lookup returns 0 and leaves an entry without
text, and the result of the whole day is that of the last lookup, the first key's.

`cdbbFetchDay_existing_iff` says when a day comes out right all the same, and
when a window does.
-/
import Bagunceiro.Fetch

namespace Bagunceiro

open Effect

set_option autoImplicit false

/-! ## The keys of a day -/

/-- The `i`-th of the keys in an index record. -/
def keyAt (keys : Bytes) (i : Nat) : Bytes := (keys.drop (taiaPackSize * i)).take taiaPackSize

/-- The first `n` keys. -/
def keysBelow (keys : Bytes) (n : Nat) : List Bytes := (List.range n).map (keyAt keys)

/-- What `cdbb_read_nentry` makes of a key, there or not. -/
def readEntry (file : Option (List Record)) (k : Bytes) : Nentry := ⟨(findAll file k).flatten, k⟩

/-- The entry of a key that has one. -/
def existing (file : Option (List Record)) (k : Bytes) : Option Nentry :=
  if findAll file k = [] then none else some (readEntry file k)

/-- The loop returns what the last lookup found. -/
theorem exec_fetchKeys_eq (r : Inode) (keys : Bytes) (fs : Fs) (n : Nat) (err : Int)
    (entries : List Nentry) :
    exec (fetchKeys r keys n err entries) fs =
      (.ok (if n = 0 then err else (findAll (fs.records r) (keyAt keys 0)).length,
        entries ++ (keysBelow keys n).reverse.map (readEntry (fs.records r))), fs) := by
  induction n generalizing err entries with
  | zero => simp [fetchKeys, keysBelow]
  | succ n ih =>
      rw [exec, fetchKeys]
      simp only
      rw [← keyAt, Prog.run_bind_ok handle (exec_cdbbReadNentry_fresh r (keyAt keys n) fs)]
      simp only
      rw [if_neg (by omega)]
      apply (ih _ _).trans
      have keysEq : (keysBelow keys (n + 1)).reverse = keyAt keys n :: (keysBelow keys n).reverse := by
        rw [keysBelow]
        rw [List.range_succ, List.map_append, List.reverse_append]
        rfl
      rw [keysEq, List.map_cons, List.append_assoc, List.singleton_append, if_neg (Nat.succ_ne_zero n)]
      cases n with
      | zero => rfl
      | succ n => rw [if_neg (Nat.succ_ne_zero n)]; rfl

section Day

variable (leapsecs : List UInt64) (file : Option (List Record)) (day : Taia)

/-- All the index holds under the date. -/
def indexBytes : Bytes := (findAll file (fmtDayIdx leapsecs day)).flatten

def indexKeys : List Bytes :=
  keysBelow (indexBytes leapsecs file day) ((indexBytes leapsecs file day).length / taiaPackSize)

/-- The entries of a date that have a record, the last one first. -/
def existingEntries : List Nentry := (indexKeys leapsecs file day).reverse.filterMap (existing file)

/-- What `cdbb_fetch_day` returns. -/
def fetchDayErr : Int :=
  if findAll file (fmtDayIdx leapsecs day) = [] then 0
  else match indexKeys leapsecs file day with
    | [] => (findAll file (fmtDayIdx leapsecs day)).length
    | k :: _ => (findAll file k).length

/-- The date has no index, or its index has a key and each key a record. -/
def Intact : Prop :=
  findAll file (fmtDayIdx leapsecs day) = [] ∨
    indexKeys leapsecs file day ≠ [] ∧ ∀ k ∈ indexKeys leapsecs file day, findAll file k ≠ []

/-- No key of the date's index has a record. -/
def Emptied : Prop :=
  indexKeys leapsecs file day ≠ [] ∧ ∀ k ∈ indexKeys leapsecs file day, findAll file k = []

instance : Decidable (Intact leapsecs file day) := inferInstanceAs (Decidable (_ ∨ _ ∧ _))

instance : Decidable (Emptied leapsecs file day) := inferInstanceAs (Decidable (_ ∧ _))

variable {leapsecs file day}

theorem indexBytes_absent (absent : findAll file (fmtDayIdx leapsecs day) = []) :
    indexKeys leapsecs file day = [] := by
  rw [indexKeys, indexBytes]
  rw [absent]
  rfl

/-- `cdbb_fetch_day`, whatever the index names. -/
theorem exec_cdbbFetchDay_eq (leapsecs : List UInt64) (r : Inode) (entries : List Nentry)
    (day : Taia) (fs : Fs) :
    exec (cdbbFetchDay leapsecs r entries day) fs =
      (.ok (fetchDayErr leapsecs (fs.records r) day,
        entries ++ (indexKeys leapsecs (fs.records r) day).reverse.map (readEntry (fs.records r))),
        fs) := by
  rw [exec, cdbbFetchDay]
  simp only
  rw [← fmtDayIdx, Prog.run_bind_ok handle (exec_cdbbReadNentry_fresh r _ fs), fetchDayErr]
  simp only
  by_cases absent : findAll (fs.records r) (fmtDayIdx leapsecs day) = []
  · rw [if_pos absent, indexBytes_absent absent, absent]
    simp
  · have some_ : ¬ ((findAll (fs.records r) (fmtDayIdx leapsecs day)).length : Int) ≤ 0 := by
      have := List.length_pos_of_ne_nil absent
      omega
    rw [if_neg some_, if_neg absent]
    apply (exec_fetchKeys_eq r _ fs _ _ entries).trans
    rw [indexKeys, indexBytes]
    cases ((findAll (fs.records r) (fmtDayIdx leapsecs day)).flatten).length / taiaPackSize with
    | zero => rfl
    | succ n =>
        rw [keysBelow]
        rw [if_neg (Nat.succ_ne_zero n), List.range_succ_eq_map, List.map_cons]

/-! ## When a day comes out right -/

theorem map_readEntry_eq_iff (keys : List Bytes) :
    keys.map (readEntry file) = keys.filterMap (existing file) ↔
      ∀ k ∈ keys, findAll file k ≠ [] := by
  induction keys with
  | nil => simp
  | cons k keys ih =>
      rw [List.forall_mem_cons, List.map_cons]
      by_cases absent : findAll file k = []
      · have dropped : existing file k = none := if_pos absent
        rw [List.filterMap_cons_none dropped]
        have shorter := List.length_filterMap_le (existing file) keys
        constructor
        · intro same
          have lengths := congrArg List.length same
          rw [List.length_cons, List.length_map] at lengths
          omega
        · exact fun both => absurd absent both.1
      · have kept : existing file k = some (readEntry file k) := if_neg absent
        rw [List.filterMap_cons_some kept, List.cons.injEq, ih]
        simp [absent]

theorem existingEntries_eq_nil_iff :
    existingEntries leapsecs file day = [] ↔
      ∀ k ∈ indexKeys leapsecs file day, findAll file k = [] := by
  rw [existingEntries]
  rw [List.filterMap_eq_nil_iff]
  simp only [List.mem_reverse, existing]
  refine forall₂_congr fun k _ => ?_
  split <;> simp_all

theorem map_readEntry_eq_existingEntries_iff :
    (indexKeys leapsecs file day).reverse.map (readEntry file) =
      existingEntries leapsecs file day ↔
        ∀ k ∈ indexKeys leapsecs file day, findAll file k ≠ [] := by
  rw [existingEntries]
  rw [map_readEntry_eq_iff]
  simp only [List.mem_reverse]

/-- The result tells of the index while it has no key, and of its first key's
record afterwards. -/
theorem fetchDayErr_le_iff :
    fetchDayErr leapsecs file day ≤ 0 ↔ findAll file (fmtDayIdx leapsecs day) = [] ∨
      ∃ k keys, indexKeys leapsecs file day = k :: keys ∧ findAll file k = [] := by
  rw [fetchDayErr]
  by_cases absent : findAll file (fmtDayIdx leapsecs day) = []
  · simp [absent]
  · rw [if_neg absent]
    cases indexKeys leapsecs file day with
    | nil => simp [absent]
    | cons k keys => simp [absent]

theorem fetchDay_right_iff :
    ((indexKeys leapsecs file day).reverse.map (readEntry file) = existingEntries leapsecs file day ∧
      (0 < fetchDayErr leapsecs file day ↔ existingEntries leapsecs file day ≠ [])) ↔
    Intact leapsecs file day := by
  rw [map_readEntry_eq_existingEntries_iff, ← not_le, not_iff_not, fetchDayErr_le_iff,
    existingEntries_eq_nil_iff]
  constructor
  · rintro ⟨whole, found⟩
    by_cases absent : findAll file (fmtDayIdx leapsecs day) = []
    · exact .inl absent
    · refine .inr ⟨fun empty => ?_, whole⟩
      -- an index without a key: the result is positive, and nothing is appended
      have nothing := found.2 fun k member => absurd (empty ▸ member) List.not_mem_nil
      rcases nothing with gone | ⟨k, keys, cons, -⟩
      · exact absent gone
      · rw [empty] at cons
        cases cons
  · rintro (absent | ⟨some_, whole⟩)
    · have noKeys := indexBytes_absent absent
      rw [noKeys]
      refine ⟨?_, fun _ => ?_, fun _ => .inl absent⟩
      · intro k member
        cases member
      · intro k member
        cases member
    · obtain ⟨k, keys, cons⟩ := List.exists_cons_of_ne_nil some_
      have first : findAll file k ≠ [] := whole k (cons ▸ List.mem_cons_self)
      refine ⟨whole, ?_, fun none_ => ?_⟩
      · rintro (absent | ⟨k', keys', cons', gone⟩)
        · exact absurd (indexBytes_absent absent) some_
        · rw [cons] at cons'
          cases cons'
          exact absurd gone first
      · exact absurd (none_ k (cons ▸ List.mem_cons_self)) first

end Day

/-! ## Windows -/

section Window

variable (leapsecs : List UInt64) (file : Option (List Record)) (t : Taia)

/-- What a window is meant to show of a stamp's date. -/
def existingDay : Option Day :=
  if existingEntries leapsecs file t = [] then none
  else some ⟨caltimeUtc leapsecs t.sec, existingEntries leapsecs file t⟩

variable {leapsecs t}

theorem shownDay_eq (fs : Fs) (r : Inode) :
    shownDay leapsecs fs r t =
      if fetchDayErr leapsecs (fs.records r) t ≤ 0 then none
      else some ⟨caltimeUtc leapsecs t.sec,
        (indexKeys leapsecs (fs.records r) t).reverse.map (readEntry (fs.records r))⟩ := by
  rw [shownDay]
  rw [exec_cdbbFetchDay_eq]
  rfl

/-- A day without any entry is hidden all the same. -/
theorem shownDay_right_iff (fs : Fs) (r : Inode) :
    shownDay leapsecs fs r t = existingDay leapsecs (fs.records r) t ↔
      Intact leapsecs (fs.records r) t ∨ Emptied leapsecs (fs.records r) t := by
  rw [shownDay_eq]
  generalize fs.records r = file
  rw [existingDay]
  constructor
  · intro same
    split at same
    · rename_i hidden
      split at same
      · rename_i none_
        rcases fetchDayErr_le_iff.1 hidden with absent | ⟨k, keys, cons, -⟩
        · exact .inl (.inl absent)
        · refine .inr ⟨?_, existingEntries_eq_nil_iff.1 none_⟩
          rw [cons]
          exact List.cons_ne_nil k keys
      · cases same
    · rename_i found
      split at same
      · cases same
      · rename_i some_
        have entries := congrArg Day.es (Option.some.inj same)
        exact .inl (fetchDay_right_iff.1 ⟨entries, fun _ => some_, fun _ => not_le.1 found⟩)
  · rintro (indexed | ⟨some_, gone⟩)
    · obtain ⟨entries, found⟩ := fetchDay_right_iff.2 indexed
      rw [entries]
      by_cases none_ : existingEntries leapsecs file t = []
      · rw [if_pos none_, if_pos (not_lt.1 fun positive => found.1 positive none_)]
      · rw [if_neg none_, if_neg (not_le.2 (found.2 none_))]
    · obtain ⟨k, keys, cons⟩ := List.exists_cons_of_ne_nil some_
      have first : findAll file k = [] := gone k (cons ▸ List.mem_cons_self)
      rw [if_pos (fetchDayErr_le_iff.2 (.inr ⟨k, keys, cons, first⟩)),
        if_pos (existingEntries_eq_nil_iff.2 gone)]

/-- Functions that read off the same label as they put on what they return agree
on a list as soon as they make the same list of it. -/
theorem filterMap_eq_iff_of_label {α β γ : Type} {f g : α → Option β} (label : α → γ)
    (mark : β → γ) (markF : ∀ a b, f a = some b → mark b = label a)
    (markG : ∀ a b, g a = some b → mark b = label a)
    (congrF : ∀ a a', label a = label a' → f a = f a')
    (congrG : ∀ a a', label a = label a' → g a = g a') (l : List α) :
    l.filterMap f = l.filterMap g ↔ ∀ a ∈ l, f a = g a := by
  constructor
  · intro same a member
    cases left : f a with
    | some b =>
        have inside : b ∈ l.filterMap g := same ▸ List.mem_filterMap.2 ⟨a, member, left⟩
        obtain ⟨a', -, right⟩ := List.mem_filterMap.1 inside
        have labels : label a = label a' := (markF a b left).symm.trans (markG a' b right)
        rw [congrG a a' labels, right]
    | none =>
        cases right : g a with
        | none => rfl
        | some b =>
            have inside : b ∈ l.filterMap f := same ▸ List.mem_filterMap.2 ⟨a, member, right⟩
            obtain ⟨a', -, left'⟩ := List.mem_filterMap.1 inside
            have labels : label a = label a' := (markG a b right).symm.trans (markF a' b left')
            rw [congrF a a' labels, left'] at left
            cases left
  · exact List.filterMap_congr

/-- The index is all a date is looked up by. -/
theorem fetchDay_congr {t' : Taia} (same : fmtDayIdx leapsecs t = fmtDayIdx leapsecs t') :
    indexKeys leapsecs file t = indexKeys leapsecs file t' ∧
      fetchDayErr leapsecs file t = fetchDayErr leapsecs file t' := by
  rw [fetchDayErr, indexKeys, indexBytes]
  rw [same]
  exact ⟨rfl, rfl⟩

theorem filterMap_shownDay_iff (fs : Fs) (r : Inode) (stamps : List Taia) :
    stamps.filterMap (shownDay leapsecs fs r) =
        stamps.filterMap (existingDay leapsecs (fs.records r)) ↔
      ∀ t ∈ stamps, Intact leapsecs (fs.records r) t ∨ Emptied leapsecs (fs.records r) t := by
  have days : stamps.filterMap (shownDay leapsecs fs r) =
        stamps.filterMap (existingDay leapsecs (fs.records r)) ↔
      ∀ t ∈ stamps, shownDay leapsecs fs r t = existingDay leapsecs (fs.records r) t := by
    refine filterMap_eq_iff_of_label (fun t => caltimeUtc leapsecs t.sec) Day.time ?_ ?_ ?_ ?_ stamps
    · intro t day shows
      rw [shownDay_eq] at shows
      split at shows <;> cases shows
      rfl
    · intro t day shows
      unfold existingDay at shows
      split at shows <;> cases shows
      rfl
    · intro t t' same
      obtain ⟨keys, err⟩ := fetchDay_congr (fs.records r)
        ((fmtDayIdx_eq_iff leapsecs t t').2 (congrArg Caltime.date same))
      rw [shownDay_eq, shownDay_eq, keys, err, same]
    · intro t t' same
      obtain ⟨keys, -⟩ := fetchDay_congr (fs.records r)
        ((fmtDayIdx_eq_iff leapsecs t t').2 (congrArg Caltime.date same))
      unfold existingDay existingEntries
      rw [keys, same]
  rw [days]
  exact forall₂_congr fun t _ => shownDay_right_iff fs r

end Window

/-! ## The condition -/

/-- **When dangling keys do no harm.**  A day comes out right, and its result
with it, exactly when its index has no dangling key (and some key, if there is
one); a window, when that holds for each of its dates or no key of the date has
a record at all. -/
theorem cdbbFetchDay_existing_iff (leapsecs : List UInt64) (r : Inode) (fs : Fs) :
    (∀ (entries : List Nentry) (day : Taia),
      (∃ err es, exec (cdbbFetchDay leapsecs r entries day) fs = (.ok (err, entries ++ es), fs) ∧
        es = existingEntries leapsecs (fs.records r) day ∧ (0 < err ↔ es ≠ [])) ↔
      Intact leapsecs (fs.records r) day) ∧
    ∀ (conf : Blog) (res : Result), fs.dir dbFile = some r →
      ((∃ num, exec (fetchEntriesDays leapsecs conf res) fs =
          (.ok (num, res ++ (lookedUp conf).filterMap (existingDay leapsecs (fs.records r))), fs)) ↔
        ∀ t ∈ lookedUp conf,
          Intact leapsecs (fs.records r) t ∨ Emptied leapsecs (fs.records r) t) := by
  refine ⟨fun entries day => ?_, fun conf res named => ?_⟩
  · rw [exec_cdbbFetchDay_eq, ← fetchDay_right_iff]
    constructor
    · rintro ⟨err, es, ran, rfl, found⟩
      simp only [Prod.mk.injEq, Except.ok.injEq, List.append_cancel_left_eq, and_true] at ran
      obtain ⟨rfl, appended⟩ := ran
      exact ⟨appended, found⟩
    · rintro ⟨appended, found⟩
      exact ⟨_, _, by rw [appended], rfl, found⟩
  · rw [exec_fetchEntriesDays named, ← filterMap_shownDay_iff fs r]
    constructor
    · rintro ⟨num, ran⟩
      simp only [Prod.mk.injEq, Except.ok.injEq, List.append_cancel_left_eq, and_true] at ran
      exact ran.2
    · intro same
      exact ⟨_, by rw [same]⟩

/-- A window over two days: one without an index, and one that is intact. -/
theorem cdbbFetchDay_existing_iff_window :
    let old : Taia := ⟨4611686019700100000, 0, 0⟩
    let fs := Fs.empty.install dbFile
      (.finished [⟨fmtDayIdx [] old, taiaPack old⟩, ⟨taiaPack old, str "text"⟩])
    let conf := { blogInit with
      now := ⟨4611686019700186400, 0, 0⟩
      qry := { blogInit.qry with doff := 2 } }
    ∃ num, exec (fetchEntriesDays [] conf []) fs =
      (.ok (num, [⟨caltimeUtc [] old.sec, [⟨str "text", taiaPack old⟩]⟩]), fs) := by
  intro old fs conf
  have intact : ∀ t ∈ lookedUp conf,
      Intact [] (fs.records 0) t ∨ Emptied [] (fs.records 0) t := by
    decide +kernel
  have shows : [] ++ (lookedUp conf).filterMap (existingDay [] (fs.records 0)) =
      [⟨caltimeUtc [] old.sec, [⟨str "text", taiaPack old⟩]⟩] := by
    decide +kernel
  obtain ⟨num, ran⟩ := ((cdbbFetchDay_existing_iff [] 0 fs).2 conf [] rfl).2 intact
  rw [shows] at ran
  exact ⟨num, ran⟩

/-- The older of two entries has no record: its day is shown with an entry
without text, in front of it the other one, and hidden from every window. -/
theorem hides_its_day :
    let old : Taia := ⟨4611686019700100000, 0, 0⟩
    let new : Taia := ⟨4611686019700100060, 0, 0⟩
    let recs : List Record := [⟨fmtDayIdx [] old, taiaPack old⟩, ⟨fmtDayIdx [] old, taiaPack new⟩,
      ⟨taiaPack new, str "text"⟩]
    let fs := Fs.empty.install dbFile (.finished recs)
    exec (cdbbFetchDay [] 0 [] old) fs =
        (.ok (0, [⟨str "text", taiaPack new⟩, ⟨[], taiaPack old⟩]), fs) ∧
      shownDay [] fs 0 old = none ∧
      ¬ ∃ err es, exec (cdbbFetchDay [] 0 [] old) fs = (.ok (err, [] ++ es), fs) ∧
        es = existingEntries [] (fs.records 0) old ∧ (0 < err ↔ es ≠ []) := by
  intro old new recs fs
  have ran : (exec (cdbbFetchDay [] 0 [] old) fs).1 =
      .ok (0, [⟨str "text", taiaPack new⟩, ⟨[], taiaPack old⟩]) := by
    decide +kernel
  have some_ : existingEntries [] (fs.records 0) old ≠ [] := by
    decide +kernel
  refine ⟨Prod.ext ran (by rw [exec_cdbbFetchDay_eq]), by decide +kernel, ?_⟩
  rintro ⟨err, es, ran', rfl, found⟩
  have result := congrArg Prod.fst ran'
  rw [ran, Except.ok.injEq, Prod.mk.injEq] at result
  obtain ⟨rfl, -⟩ := result
  exact absurd (found.2 some_) (by decide)

end Bagunceiro
