/-
# BlogStore -- the database is a journal of entries

A blog is a list of stamped texts, oldest first (`Journal`): adding appends,
modifying replaces a text, deleting takes an entry away.  The database keeps
that list in two kinds of records which every change has to keep in step
(`Stored`); one event preserves the relation (`Stored.serve`), and so does a run.

`cdbbFetchDay_shows_journal` reads the journal back: the day's entries, the
newest first.
-/
import Mathlib.Data.List.Induction
import Bagunceiro.Lib.Runs
import Bagunceiro.Entry

namespace Bagunceiro

open Effect

set_option autoImplicit false

/-! ## What the blog is for -/

/-- The entries of a blog, oldest first. -/
abbrev Journal := List (Taia × Bytes)

inductive BlogOp
  | add (now : Taia) (v : Bytes)
  | modify (k : Taia) (v : Bytes)
  | delete (k : Taia)
  deriving DecidableEq, Repr

namespace BlogOp

/-- An entry with this stamp gets the new text. -/
def rewrite (k : Taia) (v : Bytes) (e : Taia × Bytes) : Taia × Bytes :=
  if e.1 = k then (k, v) else e

def apply (j : Journal) : BlogOp → Journal
  | .add now v => j ++ [(now, v)]
  | .modify k v => j.map (rewrite k v)
  | .delete k => j.filter (·.1 ≠ k)

def stamp : BlogOp → Taia
  | .add now _ => now
  | .modify k _ => k
  | .delete k => k

/-- The operation adds an entry with this stamp. -/
def Adds (t : Taia) : BlogOp → Prop
  | .add now _ => t = now
  | .modify _ _ => False
  | .delete _ => False

theorem rewrite_fst (k : Taia) (v : Bytes) (e : Taia × Bytes) : (rewrite k v e).1 = e.1 := by
  rw [rewrite]
  split
  · rename_i onKey
    exact onKey.symm
  · rfl

theorem rewrite_of_ne {k : Taia} (v : Bytes) {e : Taia × Bytes} (ne : e.1 ≠ k) :
    rewrite k v e = e := if_neg ne

end BlogOp

/-- The entries of a date, newest first. -/
def Journal.onDay (leapsecs : List UInt64) (day : Taia) (j : Journal) : Journal :=
  (j.filter fun e => dayOf leapsecs e.1 = dayOf leapsecs day).reverse

/-! ## Events -/

/-- An operation in a batch of its own, with what the batch finds outside. -/
structure BlogEvent where
  op : BlogOp
  memory : Nat → Slot
  clk : Nat → Taia
  modifiedAt : Taia

namespace BlogEvent

variable (leapsecs : List UInt64)

def queue (e : BlogEvent) (a : Cdbb) : Cdbb :=
  match e.op with
  | .add now v => addEntryNow leapsecs e.modifiedAt now a v
  | .modify k v => modifyEntry e.modifiedAt a k v
  | .delete k => deleteEntry leapsecs e.modifiedAt a k

def serve (e : BlogEvent) : M Unit := do
  match ← cdbbStartMod e.memory dbFile with
  | none => return ()
  | some a =>
      let _ ← cdbbApply e.clk (e.queue leapsecs a)

/-- The batch of an event. -/
def changes (e : BlogEvent) : List Change :=
  match e.op with
  | .add now v => addChanges leapsecs e.modifiedAt now v
  | .modify k v => modifyChanges e.modifiedAt k v
  | .delete k => deleteChanges leapsecs e.modifiedAt k

theorem queue_eq (e : BlogEvent) (a : Cdbb) :
    e.queue leapsecs a = queueAll (e.changes leapsecs) [] a := by
  rw [queue, changes]
  split
  · exact addEntryNow_eq _ _ _ _ _
  · exact modifyEntry_eq _ _ _ _
  · exact deleteEntry_eq _ _ _ _

theorem modifiedChange_mem (e : BlogEvent) : modifiedChange e.modifiedAt ∈ e.changes leapsecs := by
  unfold changes addChanges modifyChanges deleteChanges
  split <;> simp

theorem room_changes (e : BlogEvent) : Room (e.changes leapsecs) [] := by
  unfold changes
  split
  · exact room_addChanges _ _ _ _
  · exact room_modifyChanges _ _ _
  · exact room_deleteChanges _ _ _

/-- The records an event makes of the ones it finds. -/
def after (e : BlogEvent) (recs : List Record) : List Record :=
  newRecords [] e.clk (queuedOps e.memory 0 (e.changes leapsecs)) recs

/-- An event on a whole database leaves one: there is always the record of the
last modification. -/
theorem exec_serve (e : BlogEvent) {fs : Fs} {recs : List Record}
    (holds : fs.content dbFile = some (.finished recs)) :
    ∃ fs', exec (e.serve leapsecs) fs = (.ok (), fs') ∧
      fs'.content dbFile = some (.finished (e.after leapsecs recs)) := by
  obtain ⟨r, named, node⟩ := Fs.dir_of_content holds
  obtain ⟨fs', ran, content, -⟩ := exec_cdbbApply_started e.memory e.clk
    (e.room_changes leapsecs) named (Fs.records_of_finished fs node)
  rw [if_neg (newRecords_ne_nil e.memory [] e.clk (e.modifiedChange_mem leapsecs) recs)] at content
  refine ⟨fs', ?_, content⟩
  rw [exec, serve]
  rw [Prog.run_bind_ok handle (exec_cdbbStartMod e.memory dbFile fs), named]
  simp only [Option.map_some, queue_eq]
  rw [Prog.run_bind_ok handle ran]
  rfl

end BlogEvent

/-- The blog after some events. -/
def journal (events : List BlogEvent) : Journal := events.foldl (fun j e => e.op.apply j) []

theorem journal_append (past : List BlogEvent) (e : BlogEvent) :
    journal (past ++ [e]) = e.op.apply (journal past) := by
  simp [journal]

/-- The entries' clock strictly increases and stays between 1970 and 2106, and
what is modified is there. -/
structure Chronicle (events : List BlogEvent) : Prop where
  dated : ∀ e ∈ events, Dated e.op.stamp
  increasing : events.Pairwise fun e e' => ∀ t t', e.op.Adds t → e'.op.Adds t' → t.value < t'.value
  live : ∀ past e later, events = past ++ e :: later → ∀ k v, e.op = .modify k v →
    ∃ x ∈ journal past, x.1 = k

theorem Chronicle.of_append {past later : List BlogEvent} (chronicle : Chronicle (past ++ later)) :
    Chronicle past where
  dated := fun e member => chronicle.dated e (List.mem_append_left _ member)
  increasing := (List.pairwise_append.1 chronicle.increasing).1
  live := fun before e after split k v modify =>
    chronicle.live before e (after ++ later) (by rw [split]; simp) k v modify

/-- An entry of the journal was added by an event. -/
theorem added_of_mem_journal {events : List BlogEvent} {x : Taia × Bytes}
    (member : x ∈ journal events) : ∃ e ∈ events, e.op.Adds x.1 := by
  induction events using List.reverseRecOn generalizing x with
  | nil => cases member
  | append_singleton past e ih =>
      have earlier {y : Taia × Bytes} (inside : y ∈ journal past) :
          ∃ e' ∈ past ++ [e], e'.op.Adds y.1 := by
        obtain ⟨e', before, adds⟩ := ih inside
        exact ⟨e', List.mem_append_left _ before, adds⟩
      rw [journal_append] at member
      cases op : e.op with
      | add now v =>
          rw [op, BlogOp.apply, List.mem_append, List.mem_singleton] at member
          rcases member with inside | rfl
          · exact earlier inside
          · refine ⟨e, List.mem_append_right _ (List.mem_singleton.2 rfl), ?_⟩
            rw [op]
            rfl
      | modify k v =>
          rw [op, BlogOp.apply, List.mem_map] at member
          obtain ⟨y, inside, rfl⟩ := member
          rw [BlogOp.rewrite_fst]
          exact earlier inside
      | delete k =>
          rw [op, BlogOp.apply, List.mem_filter] at member
          exact earlier member.1

/-! ## The relation between journal and database -/

structure Stored (leapsecs : List UInt64) (j : Journal) (recs : List Record) : Prop where
  entries : ∀ t, Dated t →
    findAll (some recs) (taiaPack t) = (j.filter (·.1 = t)).map (·.2)
  index : ∀ day, findAll (some recs) (fmtDayIdx leapsecs day) =
    (j.filter fun e => dayOf leapsecs e.1 = dayOf leapsecs day).map fun e => taiaPack e.1
  dated : ∀ e ∈ j, Dated e.1
  ordered : j.Pairwise fun a b => a.1.value < b.1.value

section Steps

variable {leapsecs : List UInt64} {j : Journal} {recs : List Record}

theorem Stored.nodup (stored : Stored leapsecs j recs) : (j.map (·.1)).Nodup := by
  rw [List.Nodup, List.pairwise_map]
  refine stored.ordered.imp fun before same => ?_
  rw [same] at before
  exact Nat.lt_irrefl _ before

/-- A stamp has at most one entry. -/
theorem Stored.filter_eq (stored : Stored leapsecs j recs) {x : Taia × Bytes} (member : x ∈ j) :
    j.filter (·.1 = x.1) = [x] := by
  obtain ⟨before, after, rfl⟩ := List.append_of_mem member
  have distinct := stored.nodup
  rw [List.map_append, List.map_cons, List.nodup_append, List.nodup_cons] at distinct
  obtain ⟨-, ⟨notAfter, -⟩, apart⟩ := distinct
  have noBefore : before.filter (·.1 = x.1) = [] := by
    rw [List.filter_eq_nil_iff]
    intro y inside
    simpa using apart y.1 (List.mem_map_of_mem inside) x.1 List.mem_cons_self
  have noAfter : after.filter (·.1 = x.1) = [] := by
    rw [List.filter_eq_nil_iff]
    intro y inside
    have ne : y.1 ≠ x.1 := fun same => notAfter (same ▸ List.mem_map_of_mem inside)
    simpa using ne
  rw [List.filter_append, List.filter_cons, noBefore, noAfter]
  simp

/-- Rewriting a text keeps the stamps, so it keeps what is selected by stamp. -/
theorem filter_map_rewrite (p : Taia → Bool) (k : Taia) (v : Bytes) (j : Journal) :
    (j.map (BlogOp.rewrite k v)).filter (fun e => p e.1) =
      (j.filter fun e => p e.1).map (BlogOp.rewrite k v) := by
  rw [List.filter_map]
  congr 1
  refine List.filter_congr fun e _ => ?_
  show p (BlogOp.rewrite k v e).1 = p e.1
  rw [BlogOp.rewrite_fst]

/-! ## The keys of a batch -/

theorem changes_add {e : BlogEvent} {now : Taia} {v : Bytes} (op : e.op = .add now v) :
    e.changes leapsecs = addChanges leapsecs e.modifiedAt now v := by
  rw [BlogEvent.changes, op]

theorem changes_modify {e : BlogEvent} {k : Taia} {v : Bytes} (op : e.op = .modify k v) :
    e.changes leapsecs = modifyChanges e.modifiedAt k v := by
  rw [BlogEvent.changes, op]

theorem changes_delete {e : BlogEvent} {k : Taia} (op : e.op = .delete k) :
    e.changes leapsecs = deleteChanges leapsecs e.modifiedAt k := by
  rw [BlogEvent.changes, op]

/-- The keys of any event's batch are among those of an addition, in their order. -/
theorem keys_changes (e : BlogEvent) :
    ((e.changes leapsecs).map Change.key).Sublist
      [taiaPack e.op.stamp, fmtDayIdx leapsecs e.op.stamp, dbLastModified] := by
  cases op : e.op with
  | add now v =>
      rw [changes_add op, keys_addChanges]
      exact List.Sublist.refl _
  | modify k v =>
      rw [changes_modify op, keys_modifyChanges]
      exact (List.sublist_cons_self _ _).cons_cons _
  | delete k =>
      rw [changes_delete op, keys_deleteChanges]
      exact List.Sublist.refl _

theorem changes_key (e : BlogEvent) {c : Change} (member : c ∈ e.changes leapsecs) :
    c.key = taiaPack e.op.stamp ∨ c.key = fmtDayIdx leapsecs e.op.stamp ∨
      c.key = dbLastModified := by
  have inside := (keys_changes e).subset (List.mem_map_of_mem member)
  rw [List.mem_cons, List.mem_pair] at inside
  exact inside

theorem changes_distinct {e : BlogEvent} (dated : Dated e.op.stamp) :
    ((e.changes leapsecs).map Change.key).Nodup := by
  apply (keys_changes e).nodup
  rw [List.nodup_cons, List.nodup_cons, List.mem_pair, List.mem_singleton]
  refine ⟨?_, fmtDayIdx_ne_dbLastModified leapsecs _, List.nodup_singleton _⟩
  rintro (index | modified)
  · exact taiaPack_ne_fmtDayIdx dated.clocked leapsecs _ index
  · exact taiaPack_ne_dbLastModified _ modified

/-- Another stamp's entry is on none of the keys. -/
theorem entry_notMem {e : BlogEvent} {t : Taia} (dated : Dated t) (ne : e.op.stamp ≠ t) :
    ∀ c ∈ e.changes leapsecs, c.key ≠ taiaPack t := by
  intro c member same
  rcases changes_key e member with entry | index | modified
  · exact ne (taiaPack_injective (entry.symm.trans same))
  · exact taiaPack_ne_fmtDayIdx dated.clocked leapsecs _ (same.symm.trans index)
  · exact taiaPack_ne_dbLastModified t (same.symm.trans modified)

/-- Another date's index is on none of the keys. -/
theorem index_notMem {e : BlogEvent} (dated : Dated e.op.stamp) {day : Taia}
    (ne : dayOf leapsecs e.op.stamp ≠ dayOf leapsecs day) :
    ∀ c ∈ e.changes leapsecs, c.key ≠ fmtDayIdx leapsecs day := by
  intro c member same
  rcases changes_key e member with entry | index | modified
  · exact taiaPack_ne_fmtDayIdx dated.clocked leapsecs day (entry.symm.trans same)
  · exact ne ((fmtDayIdx_eq_iff leapsecs _ _).1 (index.symm.trans same))
  · exact fmtDayIdx_ne_dbLastModified leapsecs day (same.symm.trans modified)

/-! ## One event -/

/-- A change to an entry leaves the entries of the other stamps. -/
theorem Stored.other_entries (stored : Stored leapsecs j recs) (clk : Nat → Taia) {e : BlogEvent}
    {t : Taia} (dated : Dated t) (ne : e.op.stamp ≠ t) :
    findAll (some (batchResult [] clk (e.changes leapsecs) recs)) (taiaPack t) =
      (j.filter (·.1 = t)).map (·.2) := by
  rw [findAll_batchResult_of_notMem clk (entry_notMem dated ne), stored.entries t dated]

theorem Stored.other_index (stored : Stored leapsecs j recs) (clk : Nat → Taia) {e : BlogEvent}
    (dated : Dated e.op.stamp) {day : Taia}
    (ne : dayOf leapsecs e.op.stamp ≠ dayOf leapsecs day) :
    findAll (some (batchResult [] clk (e.changes leapsecs) recs)) (fmtDayIdx leapsecs day) =
      (j.filter fun x => dayOf leapsecs x.1 = dayOf leapsecs day).map fun x => taiaPack x.1 := by
  rw [findAll_batchResult_of_notMem clk (index_notMem dated ne), stored.index day]

theorem Stored.add (stored : Stored leapsecs j recs) (clk : Nat → Taia) {e : BlogEvent} {now : Taia}
    {v : Bytes} (op : e.op = .add now v) (dated : Dated now)
    (later : ∀ x ∈ j, x.1.value < now.value) :
    Stored leapsecs (e.op.apply j) (batchResult [] clk (e.changes leapsecs) recs) := by
  have stamp : e.op.stamp = now := by rw [op]; rfl
  have distinct : ((e.changes leapsecs).map Change.key).Nodup :=
    changes_distinct (by rw [stamp]; exact dated)
  have batch : e.changes leapsecs = addChanges leapsecs e.modifiedAt now v := changes_add op
  have journal : e.op.apply j = j ++ [(now, v)] := by rw [op]; rfl
  rw [journal]
  constructor
  · intro t dated'
    by_cases same : now = t
    · subst same
      have member : Change.add (taiaPack now) v ∈ e.changes leapsecs := by
        rw [batch, addChanges]
        exact List.mem_cons_self
      have values := findAll_batchResult_of_mem clk member distinct recs
      rw [key_add, stored.entries now dated] at values
      rw [values, List.filter_append, List.map_append]
      simp [Change.onValues, Change.keepsValue, Change.adds]
    · rw [stored.other_entries clk dated' (by rw [stamp]; exact same), List.filter_append]
      simp [same]
  · intro day
    by_cases same : dayOf leapsecs now = dayOf leapsecs day
    · have member : Change.add (fmtDayIdx leapsecs now) (taiaPack now) ∈ e.changes leapsecs := by
        rw [batch, addChanges]
        exact List.mem_cons_of_mem _ List.mem_cons_self
      have values := findAll_batchResult_of_mem clk member distinct recs
      rw [key_add, (fmtDayIdx_eq_iff leapsecs _ _).2 same, stored.index day] at values
      rw [values, List.filter_append, List.map_append]
      simp [Change.onValues, Change.keepsValue, Change.adds, same]
    · rw [stored.other_index clk (by rw [stamp]; exact dated) (by rw [stamp]; exact same),
        List.filter_append]
      simp [same]
  · intro x member
    rcases List.mem_append.1 member with old | new
    · exact stored.dated x old
    · rw [List.mem_singleton.1 new]
      exact dated
  · rw [List.pairwise_append]
    refine ⟨stored.ordered, List.pairwise_singleton _ _, fun x inside y last => ?_⟩
    rw [List.mem_singleton.1 last]
    exact later x inside

theorem Stored.modify (stored : Stored leapsecs j recs) (clk : Nat → Taia) {e : BlogEvent}
    {k : Taia} {v : Bytes} (op : e.op = .modify k v) (dated : Dated k)
    (live : ∃ x ∈ j, x.1 = k) :
    Stored leapsecs (e.op.apply j) (batchResult [] clk (e.changes leapsecs) recs) := by
  have stamp : e.op.stamp = k := by rw [op]; rfl
  have batch : e.changes leapsecs = modifyChanges e.modifiedAt k v := changes_modify op
  have journal : e.op.apply j = j.map (BlogOp.rewrite k v) := by rw [op]; rfl
  rw [journal]
  constructor
  · intro t dated'
    rw [filter_map_rewrite (fun s => s = t)]
    by_cases same : k = t
    · subst same
      have member : Change.mod (taiaPack k) v ∈ e.changes leapsecs := by
        rw [batch, modifyChanges]
        exact List.mem_cons_self
      have values := findAll_batchResult_of_mem clk member
        (changes_distinct (by rw [stamp]; exact dated)) recs
      obtain ⟨x, inside, rfl⟩ := live
      rw [stored.filter_eq inside]
      apply values.trans
      simp [Change.onValues, Change.keepsValue, Change.adds, BlogOp.rewrite]
    · rw [stored.other_entries clk dated' (by rw [stamp]; exact same), List.map_map]
      refine List.map_congr_left fun x inside => ?_
      have onT : x.1 = t := by simpa using (List.mem_filter.1 inside).2
      show x.2 = (BlogOp.rewrite k v x).2
      rw [BlogOp.rewrite_of_ne v (onT ▸ Ne.symm same)]
  · intro day
    have notMem : ∀ c ∈ e.changes leapsecs, c.key ≠ fmtDayIdx leapsecs day := by
      intro c member same
      rw [batch, modifyChanges] at member
      rcases List.mem_pair.1 member with rfl | rfl
      · exact taiaPack_ne_fmtDayIdx dated.clocked leapsecs day same
      · exact fmtDayIdx_ne_dbLastModified leapsecs day same.symm
    rw [findAll_batchResult_of_notMem clk notMem, stored.index day,
      filter_map_rewrite (fun s => dayOf leapsecs s = dayOf leapsecs day), List.map_map]
    refine List.map_congr_left fun x _ => ?_
    show taiaPack x.1 = taiaPack (BlogOp.rewrite k v x).1
    rw [BlogOp.rewrite_fst]
  · intro x member
    obtain ⟨y, inside, rfl⟩ := List.mem_map.1 member
    rw [BlogOp.rewrite_fst]
    exact stored.dated y inside
  · rw [List.pairwise_map]
    refine stored.ordered.imp fun before => ?_
    rw [BlogOp.rewrite_fst, BlogOp.rewrite_fst]
    exact before

theorem Stored.delete (stored : Stored leapsecs j recs) (clk : Nat → Taia) {e : BlogEvent}
    {k : Taia} (op : e.op = .delete k) (dated : Dated k) :
    Stored leapsecs (e.op.apply j) (batchResult [] clk (e.changes leapsecs) recs) := by
  have stamp : e.op.stamp = k := by rw [op]; rfl
  have distinct : ((e.changes leapsecs).map Change.key).Nodup :=
    changes_distinct (by rw [stamp]; exact dated)
  have batch : e.changes leapsecs = deleteChanges leapsecs e.modifiedAt k := changes_delete op
  have journal : e.op.apply j = j.filter (·.1 ≠ k) := by rw [op]; rfl
  rw [journal]
  constructor
  · intro t dated'
    rw [List.filter_filter]
    by_cases same : k = t
    · subst same
      have member : Change.del (taiaPack k) ∈ e.changes leapsecs := by
        rw [batch, deleteChanges]
        exact List.mem_cons_self
      have values := findAll_batchResult_of_mem clk member distinct recs
      apply values.trans
      simp [Change.onValues, Change.keepsValue, Change.adds]
    · rw [stored.other_entries clk dated' (by rw [stamp]; exact same)]
      refine congrArg (List.map _) (List.filter_congr fun x _ => ?_)
      by_cases onT : x.1 = t
      · simp [onT, Ne.symm same]
      · simp [onT]
  · intro day
    rw [List.filter_filter]
    by_cases same : dayOf leapsecs k = dayOf leapsecs day
    · have member : Change.delVal (fmtDayIdx leapsecs k) (taiaPack k) ∈ e.changes leapsecs := by
        rw [batch, deleteChanges]
        exact List.mem_cons_of_mem _ List.mem_cons_self
      have values := findAll_batchResult_of_mem clk member distinct recs
      rw [key_delVal, (fmtDayIdx_eq_iff leapsecs _ _).2 same, stored.index day] at values
      have some_ : taiaPack k ≠ [] := List.ne_nil_of_length_eq_add_one (length_taiaPack k)
      rw [values]
      simp only [Change.onValues, Change.adds, Option.toList_none, List.map_nil, List.append_nil,
        List.filter_map, List.filter_filter]
      refine congrArg (List.map _) (List.filter_congr fun x _ => ?_)
      simp [Change.keepsValue, some_, Bool.and_comm]
    · rw [stored.other_index clk (by rw [stamp]; exact dated) (by rw [stamp]; exact same)]
      refine congrArg (List.map _) (List.filter_congr fun x _ => ?_)
      by_cases onDay : dayOf leapsecs x.1 = dayOf leapsecs day
      · have ne : x.1 ≠ k := by
          rintro rfl
          exact same onDay
        simp [onDay, ne]
      · simp [onDay]
  · intro x member
    exact stored.dated x (List.mem_filter.1 member).1
  · exact stored.ordered.filter _

/-- The batch of an event is one the engine carries out as it is meant. -/
theorem Stored.posed (stored : Stored leapsecs j recs) {e : BlogEvent} (dated : Dated e.op.stamp)
    (live : ∀ k v, e.op = .modify k v → ∃ x ∈ j, x.1 = k) : Posed (e.changes leapsecs) recs := by
  constructor
  · intro c member
    rcases changes_key e member with key | key | key
    · rw [key]
      exact List.ne_nil_of_length_eq_add_one (length_taiaPack _)
    · obtain ⟨b, head, -⟩ := head_fmtDayIdx leapsecs e.op.stamp
      rw [key]
      rintro empty
      rw [empty] at head
      cases head
    · rw [key]
      decide
  · exact changes_distinct dated
  · intro k v member
    cases op : e.op with
    | modify k' v' =>
        rw [BlogEvent.changes, op] at member
        rcases List.mem_pair.1 member with same | same
        · cases same
          rw [op] at dated
          have values := stored.entries k' dated
          obtain ⟨x, inside, rfl⟩ := live _ _ op
          rw [stored.filter_eq inside] at values
          have found : x.2 ∈ findAll (some recs) (taiaPack x.1) := by
            rw [values]
            exact List.mem_singleton.2 rfl
          obtain ⟨r, onKey, -⟩ := List.mem_map.1 found
          rw [List.mem_filter, decide_eq_true_eq] at onKey
          exact ⟨r, onKey⟩
        · cases same
    | _ =>
        rw [BlogEvent.changes, op] at member
        simp [addChanges, deleteChanges, modifiedChange] at member
  · intro k v member _ r inside onKey
    cases op : e.op with
    | delete k' =>
        rw [BlogEvent.changes, op] at member
        simp only [deleteChanges, modifiedChange, List.mem_cons, reduceCtorEq, Change.delVal.injEq,
          List.not_mem_nil, or_false, false_or] at member
        obtain ⟨rfl, rfl⟩ := member
        have value : r.value ∈ findAll (some recs) (fmtDayIdx leapsecs k') :=
          List.mem_map.2 ⟨r, List.mem_filter.2 ⟨inside, by simpa using onKey⟩, rfl⟩
        rw [stored.index k'] at value
        obtain ⟨x, -, packed⟩ := List.mem_map.1 value
        rw [← packed, length_taiaPack, length_taiaPack]
    | _ =>
        rw [BlogEvent.changes, op] at member
        simp [addChanges, modifyChanges, modifiedChange] at member

end Steps

/-! ## Runs -/

/-- The database file keeps the journal of the events so far. -/
def BlogStored (leapsecs : List UInt64) (events : List BlogEvent) (fs : Fs) : Prop :=
  ∃ recs, fs.content dbFile = some (.finished recs) ∧ Stored leapsecs (journal events) recs

theorem BlogStored.start {leapsecs : List UInt64} {fs : Fs} {recs : List Record}
    (holds : fs.content dbFile = some (.finished recs))
    (noEntries : ∀ t, Dated t → findAll (some recs) (taiaPack t) = [])
    (noIndex : ∀ day, findAll (some recs) (fmtDayIdx leapsecs day) = []) :
    BlogStored leapsecs [] fs := by
  refine ⟨recs, holds, ?_⟩
  constructor
  · exact noEntries
  · exact noIndex
  · intro x member
    cases member
  · exact List.Pairwise.nil

/-- One event, served. -/
theorem BlogStored.serve {leapsecs : List UInt64} (past : List BlogEvent) (e : BlogEvent) (fs : Fs)
    (chronicle : Chronicle (past ++ [e])) (stored : BlogStored leapsecs past fs) :
    ∃ b fs', exec (e.serve leapsecs) fs = (.ok b, fs') ∧
      BlogStored leapsecs (past ++ [e]) fs' := by
  obtain ⟨recs, holds, stored⟩ := stored
  have dated : Dated e.op.stamp := chronicle.dated e (List.mem_append_right _ (List.mem_singleton.2 rfl))
  have live : ∀ k v, e.op = .modify k v → ∃ x ∈ journal past, x.1 = k :=
    fun k v => chronicle.live past e [] rfl k v
  have next : Stored leapsecs (journal (past ++ [e]))
      (batchResult [] e.clk (e.changes leapsecs) recs) := by
    rw [journal_append]
    cases op : e.op with
    | add now v =>
        rw [op] at dated
        rw [← op]
        refine stored.add e.clk op dated fun x inside => ?_
        obtain ⟨e', before, adds⟩ := added_of_mem_journal inside
        refine (List.pairwise_append.1 chronicle.increasing).2.2 e' before e
          (List.mem_singleton.2 rfl) x.1 now adds ?_
        rw [op]
        rfl
    | modify k v =>
        rw [op] at dated
        rw [← op]
        exact stored.modify e.clk op dated (live k v op)
    | delete k =>
        rw [op] at dated
        rw [← op]
        exact stored.delete e.clk op dated
  obtain ⟨fs', ran, content⟩ := e.exec_serve leapsecs holds
  rw [BlogEvent.after, newRecords_eq e.memory [] e.clk (stored.posed dated live)] at content
  exact ⟨(), fs', ran, _, content, next⟩

/-! ## Reading a day back -/

/-- The `i`-th of the keys that stand one behind the other. -/
theorem take_drop_flatten (ks : List Bytes) (i : Nat) (size : Nat)
    (each : ∀ k ∈ ks, k.length = size) (inside : i < ks.length) :
    ((ks.flatten).drop (size * i)).take size = ks[i] := by
  induction ks generalizing i with
  | nil => cases inside
  | cons k ks ih =>
      have length := each k List.mem_cons_self
      cases i with
      | zero => rw [List.flatten_cons, Nat.mul_zero, List.drop_zero, ← length, List.take_left]; rfl
      | succ i =>
          rw [List.flatten_cons, Nat.mul_succ, Nat.add_comm, ← List.drop_drop]
          have front : (k ++ ks.flatten).drop size = ks.flatten := by
            rw [← length, List.drop_left]
          rw [front]
          exact ih i (fun k' member => each k' (List.mem_cons_of_mem _ member))
            (Nat.lt_of_succ_lt_succ inside)

theorem length_flatten_keys (j : Journal) :
    ((j.map fun e => taiaPack e.1).flatten).length = taiaPackSize * j.length := by
  induction j with
  | nil => rfl
  | cons e j ih =>
      rw [List.map_cons, List.flatten_cons, List.length_append, ih, length_taiaPack,
        List.length_cons, taiaPackSize]
      omega

/-- What a reader sees of an entry. -/
def shown (e : Taia × Bytes) : Nentry := ⟨e.2, taiaPack e.1⟩

/-- The loop walks the keys of a date backwards. -/
theorem exec_fetchKeys {r : Inode} {fs : Fs} {day : Journal}
    (entries : ∀ e ∈ day, findAll (fs.records r) (taiaPack e.1) = [e.2]) (i : Nat)
    (inside : i ≤ day.length) (err : Int) (before : List Nentry) :
    exec (fetchKeys r (day.map fun e => taiaPack e.1).flatten i err before) fs =
      (.ok (if i = 0 then err else 1, before ++ ((day.take i).reverse.map shown)), fs) := by
  induction i generalizing err before with
  | zero => simp [fetchKeys]
  | succ i ih =>
      have there : i < day.length := inside
      have key : ((day.map fun e => taiaPack e.1).flatten.drop (taiaPackSize * i)).take
          taiaPackSize = taiaPack day[i].1 := by
        rw [take_drop_flatten _ i taiaPackSize _ (by simpa using there)]
        · simp
        · intro k member
          obtain ⟨e, -, rfl⟩ := List.mem_map.1 member
          exact length_taiaPack e.1
      have value := entries day[i] (List.getElem_mem there)
      have read := exec_cdbbReadNentry r (taiaPack day[i].1) ⟨[], []⟩ fs
      rw [value] at read
      rw [exec, fetchKeys]
      simp only [key]
      rw [Prog.run_bind_ok handle read]
      simp only [List.length_singleton, Nat.cast_one, List.flatten_cons, List.flatten_nil,
        List.append_nil, List.nil_append]
      rw [if_neg (by decide)]
      apply (ih (Nat.le_of_lt there) 1 _).trans
      have last : day.take (i + 1) = day.take i ++ [day[i]] := by
        rw [List.take_succ_eq_append_getElem there]
      rw [last, List.reverse_append, List.map_append]
      simp [shown]

/-- A date whose index and entries are in step is read in full. -/
theorem exec_cdbbFetchDay {leapsecs : List UInt64} {r : Inode} {fs : Fs} {day : Taia}
    {ofDay : Journal}
    (index : findAll (fs.records r) (fmtDayIdx leapsecs day) = ofDay.map fun e => taiaPack e.1)
    (single : ∀ e ∈ ofDay, findAll (fs.records r) (taiaPack e.1) = [e.2]) (entries : List Nentry) :
    exec (cdbbFetchDay leapsecs r entries day) fs =
      (.ok (if ofDay.length = 0 then 0 else 1, entries ++ ofDay.reverse.map shown), fs) := by
  have read := exec_cdbbReadNentry r (fmtDayIdx leapsecs day) ⟨[], []⟩ fs
  rw [index, List.length_map] at read
  have keys : ((ofDay.map fun e => taiaPack e.1).flatten).length / taiaPackSize = ofDay.length := by
    rw [length_flatten_keys, Nat.mul_div_cancel_left _ (by decide)]
  rw [exec, cdbbFetchDay]
  simp only
  rw [← fmtDayIdx, Prog.run_bind_ok handle read]
  simp only [List.nil_append, keys]
  by_cases empty : ofDay.length = 0
  · have nothing : ofDay = [] := List.length_eq_zero_iff.1 empty
    simp [nothing]
  · have some_ : ¬ ((ofDay.length : Int) ≤ 0) := by omega
    rw [if_neg some_, if_neg empty]
    apply (exec_fetchKeys single ofDay.length (Nat.le_refl _) _ entries).trans
    rw [if_neg empty, List.take_length]

/-- **The database shows the journal.**  After any chronicle of changes, each in
a batch of its own, the entries of a date are read back exactly: what was added
on that date and not deleted since, with its latest text, the newest first. -/
theorem cdbbFetchDay_shows_journal (leapsecs : List UInt64) (events : List BlogEvent) (fs : Fs)
    (recs : List Record) (day : Taia) (entries : List Nentry)
    (holds : fs.content dbFile = some (.finished recs))
    (noEntries : ∀ t, Dated t → findAll (some recs) (taiaPack t) = [])
    (noIndex : ∀ t, findAll (some recs) (fmtDayIdx leapsecs t) = [])
    (chronicle : Chronicle events) :
    let shownDay := (journal events).onDay leapsecs day
    ∃ fs' r err, exec (Prog.serveAll (BlogEvent.serve leapsecs) events) fs = (.ok (), fs') ∧
      exec (cdbbOpenRead dbFile) fs' = (.ok (some r), fs') ∧
      exec (cdbbFetchDay leapsecs r entries day) fs' =
        (.ok (err, entries ++ shownDay.map shown), fs') ∧
      (0 < err ↔ shownDay ≠ []) ∧ shownDay.Pairwise fun a b => b.1.value < a.1.value := by
  intro shownDay
  obtain ⟨fs', ran, recs', content, stored⟩ := Prog.serveAll_induction handle
    (fun _ _ => Chronicle.of_append) BlogStored.serve events [] fs chronicle
    (BlogStored.start holds noEntries noIndex)
  rw [List.nil_append] at stored
  obtain ⟨r, named, node⟩ := Fs.dir_of_content content
  have file : fs'.records r = some recs' := Fs.records_of_finished fs' node
  -- the entries of the date in the order of the index
  let ofDay := (journal events).filter fun e => dayOf leapsecs e.1 = dayOf leapsecs day
  have single : ∀ e ∈ ofDay, findAll (fs'.records r) (taiaPack e.1) = [e.2] := by
    intro e member
    have inside := (List.mem_filter.1 member).1
    rw [file, stored.entries e.1 (stored.dated e inside), stored.filter_eq inside]
    rfl
  have index : findAll (fs'.records r) (fmtDayIdx leapsecs day) =
      ofDay.map fun e => taiaPack e.1 := by
    rw [file]
    exact stored.index day
  refine ⟨fs', r, _, ran, exec_openRead named, exec_cdbbFetchDay index single entries, ?_, ?_⟩
  · rw [show shownDay = ofDay.reverse from rfl, ne_eq, List.reverse_eq_nil_iff,
      ← List.length_eq_zero_iff]
    split_ifs with empty
    · simp [empty]
    · simp [empty]
  · rw [show shownDay = ofDay.reverse from rfl, List.pairwise_reverse]
    exact stored.ordered.filter _

/-- Two entries on the first of May 2010, the older one modified, and one on the
day before, deleted again. -/
theorem cdbbFetchDay_shows_journal_sample :
    let leapsecs : List UInt64 := []
    let eve : Taia := ⟨4611686019700000000, 0, 0⟩
    let noon : Taia := ⟨4611686019700100000, 0, 0⟩
    let later : Taia := ⟨4611686019700100060, 0, 7⟩
    let event (op : BlogOp) : BlogEvent := ⟨op, fun _ => ⟨3, 3, fun _ => 0⟩, fun _ => later, later⟩
    let events := [event (.add eve (str "old")), event (.add noon (str "tpyo")),
      event (.add later (str "second")), event (.modify noon (str "typo")), event (.delete eve)]
    let fs := Fs.empty.install dbFile (.finished [⟨dbLastModified, taiaPack eve⟩])
    ∃ fs' r err, exec (Prog.serveAll (BlogEvent.serve leapsecs) events) fs = (.ok (), fs') ∧
      exec (cdbbOpenRead dbFile) fs' = (.ok (some r), fs') ∧
      exec (cdbbFetchDay leapsecs r [] noon) fs' =
        (.ok (err, [⟨str "second", taiaPack later⟩, ⟨str "typo", taiaPack noon⟩]), fs') ∧
      0 < err := by
  intro leapsecs eve noon later event events fs
  have eveDated : Dated eve := ⟨by decide, by decide⟩
  have noonDated : Dated noon := ⟨by decide, by decide⟩
  have laterDated : Dated later := ⟨by decide, by decide⟩
  have start (k : Bytes) (ne : k ≠ dbLastModified) :
      findAll (some [⟨dbLastModified, taiaPack eve⟩]) k = [] := by
    simp [findAll, ne.symm]
  have chronicle : Chronicle events := by
    constructor
    · simp only [events, List.mem_cons, List.not_mem_nil, or_false]
      rintro e (rfl | rfl | rfl | rfl | rfl)
      · exact eveDated
      · exact noonDated
      · exact laterDated
      · exact noonDated
      · exact eveDated
    · have first : eve.value < noon.value := by decide
      have second_ : noon.value < later.value := by decide
      simp only [events, event, List.pairwise_cons, List.mem_cons, List.not_mem_nil, or_false,
        forall_eq_or_imp, forall_eq, BlogOp.Adds, IsEmpty.forall_iff, implies_true, and_true,
        List.Pairwise.nil]
      refine ⟨⟨?_, ?_⟩, ?_⟩
      · rintro t t' rfl rfl
        exact first
      · rintro t t' rfl rfl
        exact first.trans second_
      · rintro t t' rfl rfl
        exact second_
    · intro past e after split_ k v modify
      rcases past with _ | ⟨_, _ | ⟨_, _ | ⟨_, _ | ⟨_, past⟩⟩⟩⟩ <;>
        simp only [events, List.cons_append, List.nil_append, List.cons.injEq] at split_
      · rw [← split_.1] at modify
        cases modify
      · rw [← split_.2.1] at modify
        cases modify
      · rw [← split_.2.2.1] at modify
        cases modify
      · obtain ⟨rfl, rfl, rfl, rfl, -⟩ := split_
        cases modify
        exact ⟨(noon, str "tpyo"), by decide, rfl⟩
      · obtain ⟨-, -, -, -, last⟩ := split_
        rcases past with _ | ⟨_, past⟩ <;> simp at last
        rw [← last.1] at modify
        cases modify
  obtain ⟨fs', r, err, ran, opened, fetched, found, -⟩ := cdbbFetchDay_shows_journal leapsecs
    events fs _ noon [] (Fs.content_install_self _ _ _)
    (fun t _ => start _ (taiaPack_ne_dbLastModified t))
    (fun t => start _ (fmtDayIdx_ne_dbLastModified leapsecs t)) chronicle
  have day : (journal events).onDay leapsecs noon = [(later, str "second"), (noon, str "typo")] := by
    decide
  rw [day] at fetched found
  exact ⟨fs', r, err, ran, opened, fetched, found.2 (by decide)⟩

end Bagunceiro
