/-
# Findings -- what a search of the blog's database lists

A search that starts behind the first record lists every other entry that
contains the string, once for each record it has, and the first record never
(`fetchEntryQuery_finds_iff`).

What else it lists is a matter of the string alone.  Day index and last
modification are packed stamps, and to a search a packed stamp is the string
`@`: its second byte is 0 (`search_shows_entries_iff`).
-/
import Bagunceiro.Verdict
import Bagunceiro.BlogStore
import Bagunceiro.Search

namespace Bagunceiro

open Effect

set_option autoImplicit false

/-! ## Runs -/

/-- The records after some events. -/
def recordsAfter (leapsecs : List UInt64) (start : List Record) (events : List BlogEvent) :
    List Record := events.foldl (fun recs e => e.after leapsecs recs) start

theorem recordsAfter_concat (leapsecs : List UInt64) (start : List Record)
    (events : List BlogEvent) (e : BlogEvent) :
    recordsAfter leapsecs start (events ++ [e]) =
      e.after leapsecs (recordsAfter leapsecs start events) := by
  simp [recordsAfter]

/-- A whole database stays one, whatever happens to it. -/
theorem exec_serveAll (leapsecs : List UInt64) (events : List BlogEvent) {fs : Fs}
    {start : List Record} (holds : fs.content dbFile = some (.finished start)) :
    ∃ fs', exec (Prog.serveAll (BlogEvent.serve leapsecs) events) fs = (.ok (), fs') ∧
      fs'.content dbFile = some (.finished (recordsAfter leapsecs start events)) := by
  induction events generalizing fs start with
  | nil => exact ⟨fs, rfl, holds⟩
  | cons e events ih =>
      obtain ⟨fs₁, ran, left⟩ := e.exec_serve leapsecs holds
      obtain ⟨fs₂, rest, last⟩ := ih left
      refine ⟨fs₂, ?_, last⟩
      rw [exec, Prog.serveAll]
      rw [Prog.run_bind_ok handle ran]
      exact rest

/-! ## Every entry but the first -/

/-- The record of an entry. -/
def entryRecord (e : Taia × Bytes) : Record := ⟨taiaPack e.1, e.2⟩

theorem cstr_starts (s rest : Bytes) : cstr s <+: cstr (s ++ rest) := by
  unfold cstr
  induction s with
  | nil => exact List.nil_prefix
  | cons c s ih =>
      rw [List.cons_append, List.takeWhile_cons, List.takeWhile_cons]
      split
      · exact List.cons_prefix_cons.2 ⟨rfl, ih⟩
      · exact List.nil_prefix

/-- An entry is listed once for each of its records behind the first one. -/
theorem count_listed (leapsecs : List UInt64) (memory : Nat → Beyond) {needle : Bytes}
    {ignorecase : Bool} {e : Taia × Bytes} (holds : Contains ignorecase (cstr e.2) needle)
    (ahead : List Record) {sorted : Result}
    (perm : sorted.Perm (addAll leapsecs (hits memory needle ignorecase 0 ahead) [])) :
    (sorted.flatMap Day.es).count (shown e) = ahead.count (entryRecord e) := by
  have whole := (perm.flatMap_right Day.es).trans
    (perm_addAll leapsecs (hits memory needle ignorecase 0 ahead))
  rw [whole.count_eq]
  exact count_hits (r := entryRecord e) (fun behind => holds.of_prefix (cstr_starts e.2 behind)) 0
    ahead

theorem count_findAll (recs : List Record) (k v : Bytes) :
    (findAll (some recs) k).count v = recs.count ⟨k, v⟩ := by
  unfold findAll
  induction recs with
  | nil => rfl
  | cons r recs ih =>
      simp only at ih ⊢
      rw [List.filter_cons, List.count_cons, ← ih]
      by_cases onKey : r.key = k
      · rw [if_pos (decide_eq_true onKey), List.map_cons, List.count_cons]
        subst onKey
        cases r
        simp
      · have other : r ≠ ⟨k, v⟩ := by
          rintro rfl
          exact onKey rfl
        simp [onKey, other]

/-- As long as the clock goes on, an entry has one record. -/
theorem count_entry (leapsecs : List UInt64) {start : List Record} {events : List BlogEvent}
    (noEntries : ∀ t, Dated t → findAll (some start) (taiaPack t) = [])
    (noIndex : ∀ t, findAll (some start) (fmtDayIdx leapsecs t) = [])
    (chronicle : Chronicle events) {e : Taia × Bytes} (member : e ∈ journal events) :
    (recordsAfter leapsecs start events).count (entryRecord e) = 1 := by
  have holds : (Fs.empty.install dbFile (.finished start)).content dbFile =
      some (.finished start) := Fs.content_install_self _ _ _
  obtain ⟨fs', ran, recs, content, stored⟩ := Prog.serveAll_induction handle
    (fun _ _ => Chronicle.of_append) BlogStored.serve events [] _ chronicle
    (BlogStored.start holds noEntries noIndex)
  obtain ⟨fs'', ran', content'⟩ := exec_serveAll leapsecs events holds
  have same : fs' = fs'' := congrArg Prod.snd (ran.symm.trans ran')
  rw [← same, content] at content'
  cases content'
  rw [List.nil_append] at stored
  rw [entryRecord]
  rw [← count_findAll, stored.entries e.1 (stored.dated e member), stored.filter_eq member]
  simp

/-- **Which entries a search lists.**  Every entry that contains the string, as
often as it is stored (once, as long as the clock goes on), exactly when the
first record of the file is none of them. -/
theorem fetchEntryQuery_finds_iff (leapsecs : List UInt64) (start : List Record)
    (events : List BlogEvent) (fs : Fs) (memory : Nat → Beyond) (conf : Blog)
    (holds : fs.content dbFile = some (.finished start)) :
    let recs := recordsAfter leapsecs start events
    let needle := cstr conf.qry.find
    ∃ fs' num res, exec (Prog.serveAll (BlogEvent.serve leapsecs) events) fs = (.ok (), fs') ∧
      fs'.content dbFile = some (.finished recs) ∧
      exec (fetchEntryQuery leapsecs memory conf []) fs' = (.ok (num, res), fs') ∧
      ((∀ e ∈ journal events, needle <:+: cstr e.2 → ∀ sorted : Result, sorted.Perm res →
          (sorted.flatMap Day.es).count (shown e) = recs.count (entryRecord e)) ↔
        ∀ e ∈ journal events, needle <:+: cstr e.2 → recs.head? ≠ some (entryRecord e)) ∧
      ((∀ t, Dated t → findAll (some start) (taiaPack t) = []) →
        (∀ t, findAll (some start) (fmtDayIdx leapsecs t) = []) → Chronicle events →
          ∀ e ∈ journal events, recs.count (entryRecord e) = 1) := by
  intro recs needle
  obtain ⟨fs', ran, content⟩ := exec_serveAll leapsecs events holds
  refine ⟨fs', _, _, ran, content, exec_fetchEntryFind leapsecs memory conf false content [], ?_,
    fun noEntries noIndex chronicle e => count_entry leapsecs noEntries noIndex chronicle⟩
  refine forall₃_congr fun e _ inside => ?_
  have contains : Contains false (cstr e.2) needle := inside
  constructor
  · intro every first
    have once := every _ (List.Perm.refl _)
    rw [count_listed leapsecs memory contains recs.tail (List.Perm.refl _)] at once
    obtain ⟨ahead, front⟩ := List.head?_eq_some_iff.1 first
    rw [front, List.tail_cons, List.count_cons_self] at once
    omega
  · intro other sorted perm
    rw [count_listed leapsecs memory contains recs.tail perm]
    cases front : recs with
    | nil => rfl
    | cons r ahead =>
        have ne : r ≠ entryRecord e := fun same => other (by rw [front, same]; rfl)
        rw [List.tail_cons, List.count_cons_of_ne ne]

/-- A blog that has been asked for a string. -/
def asksFor (s : Bytes) : Blog := { blogInit with qry := { blogInit.qry with find := s ++ [0] } }

/-- An entry of the first of May 2010, added in zeroed memory. -/
def addsAt (seconds : UInt64) (v : Bytes) : BlogEvent :=
  let now : Taia := ⟨4611686019700100000 + seconds, 0, 0⟩
  ⟨.add now v, fun _ => ⟨0, 0, fun _ => 0⟩, fun _ => now, now⟩

/-- The second one of two entries is found. -/
theorem fetchEntryQuery_finds_iff_sample :
    let events := [addsAt 0 (str "first"), addsAt 60 (str "second")]
    let needle := str "sec"
    ∃ fs' num res, exec (Prog.serveAll (BlogEvent.serve []) events)
        (Fs.empty.install dbFile (.finished [])) = (.ok (), fs') ∧
      exec (fetchEntryQuery [] nothingBehind (asksFor needle) []) fs' = (.ok (num, res), fs') ∧
      ∀ e ∈ journal events, needle <:+: cstr e.2 →
        (res.flatMap Day.es).count (shown e) = (recordsAfter [] [] events).count (entryRecord e) := by
  intro events needle
  obtain ⟨fs', num, res, ran, -, found, finds, -⟩ := fetchEntryQuery_finds_iff [] [] events
    (Fs.empty.install dbFile (.finished [])) nothingBehind (asksFor needle)
    (Fs.content_install_self _ _ _)
  refine ⟨fs', num, res, ran, found, fun e member inside => ?_⟩
  refine finds.2 (fun e' member' inside' => ?_) e member inside res (List.Perm.refl _)
  have notFirst : ∀ e' ∈ journal events, cstr (asksFor needle).qry.find <:+: cstr e'.2 →
      (recordsAfter [] [] events).head? ≠ some (entryRecord e') := by
    decide +kernel
  exact notFirst e' member' inside'

/-- The only entry of a blog contains the string, and the search lists nothing. -/
theorem first_entry_is_not_found :
    let events := [addsAt 0 (str "first")]
    let e : Taia × Bytes := (⟨4611686019700100000, 0, 0⟩, str "first")
    let fs := (exec (Prog.serveAll (BlogEvent.serve []) events)
      (Fs.empty.install dbFile (.finished []))).2
    journal events = [e] ∧ str "first" <:+: cstr e.2 ∧
      (recordsAfter [] [] events).count (entryRecord e) = 1 ∧
      (exec (fetchEntryQuery [] nothingBehind (asksFor (str "first")) []) fs).1 = .ok (0, []) ∧
      ¬ ∀ num res, (exec (fetchEntryQuery [] nothingBehind (asksFor (str "first")) []) fs).1 =
          .ok (num, res) → ∀ e ∈ journal events, str "first" <:+: cstr e.2 →
            (res.flatMap Day.es).count (shown e) =
              (recordsAfter [] [] events).count (entryRecord e) := by
  intro events e fs
  have inside : str "first" <:+: cstr e.2 := by decide
  have stored : (recordsAfter [] [] events).count (entryRecord e) = 1 := by decide +kernel
  have found : (exec (fetchEntryQuery [] nothingBehind (asksFor (str "first")) []) fs).1 =
      .ok (0, []) := by
    decide +kernel
  refine ⟨by decide +kernel, inside, stored, found, fun every => ?_⟩
  have listed := every 0 [] found e (by decide +kernel) inside
  rw [stored] at listed
  exact absurd listed (by decide)

/-! ## The kinds of records -/

/-- A record of the blog's: an entry's, a day's index, or the last
modification's, both of which have a stamp of the clock's for a value. -/
inductive Kind (leapsecs : List UInt64) (j : Journal) : Record → Prop
  | entry (e : Taia × Bytes) (member : e ∈ j) : Kind leapsecs j (entryRecord e)
  | index (day t : Taia) (clocked : Clocked t) :
      Kind leapsecs j ⟨fmtDayIdx leapsecs day, taiaPack t⟩
  | modified (t : Taia) (clocked : Clocked t) : Kind leapsecs j ⟨dbLastModified, taiaPack t⟩

structure Kinds (leapsecs : List UInt64) (j : Journal) (recs : List Record) : Prop where
  each : ∀ r ∈ recs, Kind leapsecs j r
  clocked : ∀ e ∈ j, Clocked e.1

/-- New stamps come from a clock, and a modification finds its entry, or a slot that
says it has not found it: under a key of a clock's, which is no day's. -/
structure BlogEvent.Sound (j : Journal) (e : BlogEvent) : Prop where
  stamp : ∀ now v, e.op = .add now v → Clocked now
  modifiedAt : Clocked e.modifiedAt
  live : ∀ k v, e.op = .modify k v → (∃ x ∈ j, x.1 = k) ∨ (e.memory 0).kf = 0 ∧ Clocked k

/-- What an event leaves it has found and not withheld, or one of its operations
has appended it. -/
theorem mem_after {leapsecs : List UInt64} {e : BlogEvent} {recs : List Record} {r : Record}
    (member : r ∈ e.after leapsecs recs) :
    (r ∈ recs ∧ ¬ Upheld (e.changes leapsecs) r) ∨
      ∃ (j : Nat) (c : Change), (e.changes leapsecs)[j]? = some c ∧ c.request.record = r ∧
        (c.request.op (e.memory j)).Appends recs := by
  rcases List.mem_append.1 member with copied | added
  · rw [copyRecords_snd_eq, List.mem_filter] at copied
    refine .inl ⟨copied.1, fun upheld => ?_⟩
    have kept := copied.2
    rw [upheld.withholds e.memory] at kept
    cases kept
  · obtain ⟨t, queued, appends, rfl⟩ := mem_addedRecords_iff.1 added
    obtain ⟨j, c, there, rfl⟩ := mem_queuedOps.1 queued
    rw [Nat.zero_add] at appends
    exact .inr ⟨j, c, there, rfl, appends⟩

section Steps

variable {leapsecs : List UInt64} {j : Journal} {recs : List Record}

theorem Kind.key_taiaPack {k : Taia} (clocked : Clocked k) {r : Record} (kind : Kind leapsecs j r)
    (onKey : r.key = taiaPack k) : ∃ e ∈ j, e.1 = k ∧ r = entryRecord e := by
  cases kind with
  | entry e member => exact ⟨e, member, taiaPack_injective onKey, rfl⟩
  | index day t _ => exact absurd onKey.symm (taiaPack_ne_fmtDayIdx clocked leapsecs day)
  | modified t _ => exact absurd onKey.symm (taiaPack_ne_dbLastModified k)

theorem Kind.of_subset {j' : Journal} {r : Record} (kind : Kind leapsecs j r)
    (keeps : ∀ e ∈ j, r = entryRecord e → e ∈ j') : Kind leapsecs j' r := by
  cases kind with
  | entry e member => exact .entry e (keeps e member rfl)
  | index day t clocked => exact .index day t clocked
  | modified t clocked => exact .modified t clocked

/-- The last change of a batch is of no other key. -/
theorem kind_of_modifiedChange {t : Taia} (clocked : Clocked t) {r : Record}
    (same : (modifiedChange t).request.record = r) : Kind leapsecs j r := by
  subst same
  exact .modified t clocked

theorem Kinds.add (kinds : Kinds leapsecs j recs) {e : BlogEvent} {now : Taia} {v : Bytes}
    (op : e.op = .add now v) (sound : e.Sound j) :
    Kinds leapsecs (j ++ [(now, v)]) (e.after leapsecs recs) := by
  have stamp : Clocked now := sound.stamp now v op
  constructor
  · intro r member
    rcases mem_after member with ⟨old, -⟩ | ⟨i, c, there, written, -⟩
    · exact (kinds.each r old).of_subset fun x inside _ => List.mem_append_left _ inside
    · rw [changes_add op, addChanges] at there
      rcases first_or_later there with ⟨rfl, rfl⟩ | later
      · subst written
        exact .entry (now, v) (List.mem_append_right _ (List.mem_singleton.2 rfl))
      · rcases List.mem_pair.1 later with rfl | rfl
        · subst written
          exact .index now now stamp
        · exact kind_of_modifiedChange sound.modifiedAt written
  · intro x member
    rcases List.mem_append.1 member with old | new
    · exact kinds.clocked x old
    · rw [List.mem_singleton.1 new]
      exact stamp

theorem Kinds.modify (kinds : Kinds leapsecs j recs) {e : BlogEvent} {k : Taia} {v : Bytes}
    (op : e.op = .modify k v) (sound : e.Sound j) :
    Kinds leapsecs (j.map (BlogOp.rewrite k v)) (e.after leapsecs recs) := by
  have key : taiaPack k ≠ [] := List.ne_nil_of_length_eq_add_one (length_taiaPack k)
  constructor
  · intro r member
    rcases mem_after member with ⟨old, stays⟩ | ⟨i, c, there, written, appends⟩
    · refine (kinds.each r old).of_subset fun x inside same => ?_
      have other : x.1 ≠ k := by
        rintro rfl
        subst same
        rw [changes_modify op] at stays
        refine stays ⟨[], .mod (taiaPack x.1) v, [modifiedChange e.modifiedAt], rfl, ⟨rfl, key⟩, ?_⟩
        intro d last
        rw [List.mem_singleton.1 last]
        exact id
      rw [← BlogOp.rewrite_of_ne v other]
      exact List.mem_map_of_mem inside
    · rw [changes_modify op, modifyChanges] at there
      rcases first_or_later there with ⟨rfl, rfl⟩ | later
      · subst written
        have live : ∃ x ∈ j, x.1 = k := by
          rcases sound.live k v op with there | ⟨unset, clocked⟩
          · exact there
          · rcases appends with isAdd | isRep | ⟨-, set | ⟨-, u, inside, onKey⟩⟩
            · cases isAdd
            · cases isRep
            · exact absurd unset set
            · obtain ⟨x, inside, same, -⟩ := (kinds.each u inside).key_taiaPack clocked onKey
              exact ⟨x, inside, same⟩
        obtain ⟨x, inside, rfl⟩ := live
        refine .entry (x.1, v) (List.mem_map.2 ⟨x, inside, ?_⟩)
        exact if_pos rfl
      · rw [List.mem_singleton.1 later] at written
        exact kind_of_modifiedChange sound.modifiedAt written
  · intro x member
    obtain ⟨y, inside, rfl⟩ := List.mem_map.1 member
    rw [BlogOp.rewrite_fst]
    exact kinds.clocked y inside

theorem Kinds.delete (kinds : Kinds leapsecs j recs) {e : BlogEvent} {k : Taia}
    (op : e.op = .delete k) (sound : e.Sound j) :
    Kinds leapsecs (j.filter (·.1 ≠ k)) (e.after leapsecs recs) := by
  have key : taiaPack k ≠ [] := List.ne_nil_of_length_eq_add_one (length_taiaPack k)
  constructor
  · intro r member
    rcases mem_after member with ⟨old, stays⟩ | ⟨i, c, there, written, appends⟩
    · refine (kinds.each r old).of_subset fun x inside same => ?_
      rw [List.mem_filter, decide_eq_true_eq]
      refine ⟨inside, ?_⟩
      rintro rfl
      subst same
      rw [changes_delete op] at stays
      refine stays ⟨[], .del (taiaPack x.1), [.delVal (fmtDayIdx leapsecs x.1) (taiaPack x.1),
        modifiedChange e.modifiedAt], rfl, ⟨rfl, key⟩, ?_⟩
      -- the index has another key
      intro d later
      rcases List.mem_pair.1 later with rfl | rfl
      · exact fun may => taiaPack_ne_fmtDayIdx (kinds.clocked x inside) leapsecs x.1 may.1.1.symm
      · exact id
    · rw [changes_delete op, deleteChanges] at there
      rcases first_or_later there with ⟨rfl, rfl⟩ | later
      · rcases appends with isAdd | isRep | ⟨isMod, -⟩ <;> contradiction
      · rcases List.mem_pair.1 later with rfl | rfl
        · rcases appends with isAdd | isRep | ⟨isMod, -⟩ <;> contradiction
        · exact kind_of_modifiedChange sound.modifiedAt written
  · intro x member
    exact kinds.clocked x (List.mem_filter.1 member).1

/-- **One event keeps the kinds.** -/
theorem Kinds.after (kinds : Kinds leapsecs j recs) {e : BlogEvent} (sound : e.Sound j) :
    Kinds leapsecs (e.op.apply j) (e.after leapsecs recs) := by
  cases op : e.op with
  | add now v => exact kinds.add op sound
  | modify k v => exact kinds.modify op sound
  | delete k => exact kinds.delete op sound

end Steps

/-- Every event of the run is sound when its turn comes. -/
def Sound (events : List BlogEvent) : Prop :=
  ∀ past e later, events = past ++ e :: later → e.Sound (journal past)

/-- The records after a sound run are of the three kinds. -/
theorem kinds_recordsAfter (leapsecs : List UInt64) {events : List BlogEvent}
    (sound : Sound events) : Kinds leapsecs (journal events) (recordsAfter leapsecs [] events) := by
  induction events using List.reverseRecOn with
  | nil =>
      constructor
      · exact fun _ member => absurd member List.not_mem_nil
      · exact fun _ member => absurd member List.not_mem_nil
  | append_singleton past e ih =>
      have before : Sound past := fun past' e' later split =>
        sound past' e' (later ++ [e]) (by rw [split]; simp)
      rw [journal_append, recordsAfter_concat]
      exact (ih before).after (sound past e [] rfl)

/-! ## What a packed stamp is to a search -/

theorem textAt_taiaPack {t : Taia} (clocked : Clocked t) (behind k : Bytes) :
    textAt behind ⟨k, taiaPack t⟩ = str "@" := by
  obtain ⟨rest, packed⟩ := front_taiaPack clocked
  rw [textAt, cstr]
  rw [packed]
  rfl

theorem toupper_eq_at_iff (c : UInt8) : toupper c = 64 ↔ c = 64 := by
  rw [toupper]
  grind

/-- Two strings are contained in `@`. -/
theorem contains_at_iff (ignorecase : Bool) (needle : Bytes) :
    Contains ignorecase (str "@") needle ↔ needle = [] ∨ needle = str "@" := by
  have at_ : str "@" = [64] := rfl
  have single (s : Bytes) : s <:+: [64] ↔ s = [] ∨ s = [64] := by
    rw [List.infix_cons_iff, List.prefix_cons_iff]
    simp only [List.prefix_nil, List.infix_nil]
    constructor
    · rintro ((rfl | ⟨rest, rfl, rfl⟩) | rfl)
      · exact .inl rfl
      · exact .inr rfl
      · exact .inl rfl
    · rintro (rfl | rfl)
      · exact .inr rfl
      · exact .inl (.inr ⟨[], rfl, rfl⟩)
  cases ignorecase with
  | false =>
      rw [at_]
      exact single needle
  | true =>
      have upper : (str "@").map toupper = [64] := by decide
      change needle.map toupper <:+: (str "@").map toupper ↔ _
      rw [upper, single, List.map_eq_nil_iff, at_, List.map_eq_singleton_iff]
      simp only [toupper_eq_at_iff]
      aesop

/-- The last record is that of the last modification. -/
theorem recordsAfter_last (leapsecs : List UInt64) {events : List BlogEvent} (sound : Sound events)
    (some_ : recordsAfter leapsecs [] events ≠ []) :
    ∃ front t, Clocked t ∧
      recordsAfter leapsecs [] events = front ++ [⟨dbLastModified, taiaPack t⟩] := by
  cases events using List.reverseRecOn with
  | nil => exact absurd rfl some_
  | append_singleton past e =>
      have batch : ∃ before, e.changes leapsecs =
          before ++ [.rep dbLastModified (taiaPack e.modifiedAt)] := by
        cases op : e.op with
        | add now v => exact ⟨[_, _], changes_add op⟩
        | modify k v => exact ⟨[_], changes_modify op⟩
        | delete k => exact ⟨[_, _], changes_delete op⟩
      obtain ⟨before, batch⟩ := batch
      rw [recordsAfter_concat, BlogEvent.after, batch]
      obtain ⟨front, last⟩ := newRecords_concat_rep e.memory [] e.clk before dbLastModified
        (taiaPack e.modifiedAt) (recordsAfter leapsecs [] past)
      exact ⟨front, e.modifiedAt, (sound past e [] rfl).modifiedAt, last⟩

/-- With a record in front of it, it is one a search looks at. -/
theorem recordsAfter_tail (leapsecs : List UInt64) {events : List BlogEvent} (sound : Sound events)
    (several : 1 < (recordsAfter leapsecs [] events).length) :
    ∃ (i : Nat) (t : Taia), Clocked t ∧
      (recordsAfter leapsecs [] events).tail[i]? = some ⟨dbLastModified, taiaPack t⟩ := by
  have some_ : recordsAfter leapsecs [] events ≠ [] := by
    rintro empty
    rw [empty] at several
    cases several
  obtain ⟨front, t, clocked, last⟩ := recordsAfter_last leapsecs sound some_
  rw [last] at several ⊢
  cases front with
  | nil => exact absurd several (Nat.lt_irrefl 1)
  | cons first middle => exact ⟨middle.length, t, clocked, by simp⟩

/-- What a usual string hits is an entry. -/
theorem Kinds.entry_of_contains {leapsecs : List UInt64} {j : Journal}
    {recs : List Record} (kinds : Kinds leapsecs j recs) {ignorecase : Bool} {needle : Bytes}
    (usual : ¬ Contains ignorecase (str "@") needle) {r : Record} (member : r ∈ recs)
    {behind : Bytes} (holds : Contains ignorecase (textAt behind r) needle) :
    ∃ e ∈ j, (⟨r.value, r.key⟩ : Nentry) = shown e := by
  cases kinds.each r member with
  | entry e inside => exact ⟨e, inside, rfl⟩
  | index day t clocked =>
      rw [textAt_taiaPack clocked] at holds
      exact absurd holds usual
  | modified t clocked =>
      rw [textAt_taiaPack clocked] at holds
      exact absurd holds usual

/-- **When a search lists entries only.**  Of all strings two hit other records
as well, the empty one and `@`, and they do as soon as there is a second
record. -/
theorem search_shows_entries_iff (leapsecs : List UInt64) (events : List BlogEvent) (fs : Fs)
    (memory : Nat → Beyond) (conf : Blog) (ignorecase : Bool)
    (holds : fs.content dbFile = some (.finished [])) (sound : Sound events) :
    let recs := recordsAfter leapsecs [] events
    let needle := cstr conf.qry.find
    ∃ fs' num res, exec (Prog.serveAll (BlogEvent.serve leapsecs) events) fs = (.ok (), fs') ∧
      fs'.content dbFile = some (.finished recs) ∧
      exec (fetchEntryFind leapsecs memory conf ignorecase []) fs' = (.ok (num, res), fs') ∧
      ((∀ day ∈ res, ∀ n ∈ day.es, ∃ e ∈ journal events, n = shown e) ↔
        (needle ≠ [] ∧ needle ≠ str "@") ∨ recs.length ≤ 1) := by
  intro recs needle
  obtain ⟨fs', ran, content⟩ := exec_serveAll leapsecs events holds
  refine ⟨fs', _, _, ran, content, exec_fetchEntryFind leapsecs memory conf ignorecase content [],
    ?_⟩
  have kinds : Kinds leapsecs (journal events) recs := kinds_recordsAfter leapsecs sound
  rw [forall_listed_iff]
  constructor
  · intro entries
    by_contra other
    rw [not_or, not_and_or, not_not, not_not, not_le, ← contains_at_iff ignorecase] at other
    obtain ⟨special, several⟩ := other
    obtain ⟨i, t, clocked, there⟩ := recordsAfter_tail leapsecs sound several
    obtain ⟨e, -, same⟩ := entries i _ there (by rwa [textAt_taiaPack clocked])
    exact taiaPack_ne_dbLastModified e.1 (congrArg Nentry.k same).symm
  · rintro (usual | short) i r there contains
    · rw [← not_or, ← contains_at_iff ignorecase] at usual
      exact kinds.entry_of_contains usual (List.mem_of_mem_tail (List.mem_of_getElem? there)) contains
    · have none_ : recs.tail = [] := by
        apply List.eq_nil_of_length_eq_zero
        rw [List.length_tail]
        omega
      rw [none_] at there
      cases there

/-- A string of the usual kind. -/
theorem search_shows_entries_iff_sample :
    let events := [addsAt 0 (str "first"), addsAt 60 (str "second")]
    ∃ fs' num res, exec (Prog.serveAll (BlogEvent.serve []) events)
        (Fs.empty.install dbFile (.finished [])) = (.ok (), fs') ∧
      exec (fetchEntryFind [] nothingBehind (asksFor (str "SEC")) true []) fs' = (.ok (num, res), fs') ∧
      ∀ day ∈ res, ∀ n ∈ day.es, ∃ e ∈ journal events, n = shown e := by
  intro events
  have sound : Sound events := by
    rintro past e later split_
    have member : e ∈ events := split_ ▸ List.mem_append_right _ List.mem_cons_self
    rcases List.mem_pair.1 member with rfl | rfl
    · refine ⟨fun now v op => ?_, ⟨by decide, by decide⟩, fun k v op => by cases op⟩
      cases op
      exact ⟨by decide, by decide⟩
    · refine ⟨fun now v op => ?_, ⟨by decide, by decide⟩, fun k v op => by cases op⟩
      cases op
      exact ⟨by decide, by decide⟩
  obtain ⟨fs', num, res, ran, -, found, shows⟩ := search_shows_entries_iff [] events
    (Fs.empty.install dbFile (.finished [])) nothingBehind (asksFor (str "SEC")) true
    (Fs.content_install_self _ _ _) sound
  exact ⟨fs', num, res, ran, found, shows.2 (.inl (by decide))⟩

/-- A search for `@` lists the index of a day and the last modification. -/
theorem at_hits_stamps :
    let events := [addsAt 0 (str "first")]
    let k : Taia := ⟨4611686019700100000, 0, 0⟩
    let fs := (exec (Prog.serveAll (BlogEvent.serve []) events)
      (Fs.empty.install dbFile (.finished []))).2
    ∃ res, (exec (fetchEntryQuery [] nothingBehind (asksFor (str "@")) []) fs).1 = .ok (2, res) ∧
      res.flatMap Day.es = [⟨taiaPack k, fmtDayIdx [] k⟩, ⟨taiaPack k, dbLastModified⟩] ∧
      ¬ ∀ day ∈ res, ∀ n ∈ day.es, ∃ e ∈ journal events, n = shown e := by
  intro events k fs
  refine ⟨addAll [] (hits nothingBehind (str "@") false 0 (recordsAfter [] [] events).tail) [],
    by decide +kernel, by decide +kernel, fun entries => ?_⟩
  have listed : (⟨taiaPack k, dbLastModified⟩ : Nentry) ∈
      (addAll [] (hits nothingBehind (str "@") false 0 (recordsAfter [] [] events).tail) []).flatMap
        Day.es := by
    decide +kernel
  obtain ⟨day, inside, here⟩ := List.mem_flatMap.1 listed
  obtain ⟨e, -, same⟩ := entries day inside _ here
  exact taiaPack_ne_dbLastModified e.1 (congrArg Nentry.k same).symm

end Bagunceiro
