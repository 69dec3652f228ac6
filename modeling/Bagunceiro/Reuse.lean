/-
# Reuse -- one batch after the other on the same store

A batch starts from the file the batch before it has put in place.  A batch that
leaves no record puts nothing in place: `cdbb_apply` unlinks the file, and the
next `cdbb_start_mod` finds nothing to open, although `scripts/setup.sh` starts
from a removed file and `expire_all_sessions` makes a new one at once.

`leavesSome_iff` reads off a batch and the records it meets whether it leaves
one; as long as every batch of a run does, and none has more operations or
filters than `struct cdbb` has room for, the store can be used again after each of
them (`usable_throughout_iff`).  The store may start without a byte, as
`init/session.inc` does.
-/
import Mathlib.Data.List.Infix
import Bagunceiro.Batch

namespace Bagunceiro

open Effect

set_option autoImplicit false

/-! ## Batches that leave a record -/

/-- The verdict on a record does not look at the flags. -/
theorem checkOp_snd_congr {k v : Bytes} {t u : Op} (same : t.toRequest = u.toRequest)
    (past : t.past = u.past) (f : Bool) : (checkOp k v t f).2 = (checkOp k v u f).2 := by
  simp only [checkOp, same, past]
  split_ifs <;> rfl

theorem markOp_past (k v : Bytes) (t : Op) : (markOp k v t).past = t.past := by
  simp only [markOp, checkOp]
  split_ifs <;> rfl

theorem cdbbCheckOps_snd_markOp (k v k' v' : Bytes) (ops : List Op) (f : Bool) :
    (cdbbCheckOps k v (ops.map (markOp k' v')) f).2 = (cdbbCheckOps k v ops f).2 := by
  induction ops generalizing f with
  | nil => rfl
  | cons t ts ih =>
      rw [List.map_cons, cdbbCheckOps, cdbbCheckOps,
        checkOp_snd_congr (markOp_toRequest k' v' t) (markOp_past k' v' t)]
      exact ih _

/-- Neither the operations nor, at this moment, the filters stop the record. -/
def Passes (fil : List Filter) (ops : List Op) (now : Taia) (r : Record) : Prop :=
  (cdbbCheckOps r.key r.value ops false).2 = false ∧ cdbbCheckFilter fil now r = false

/-- The operation appends its record: it adds, or the key it modifies is there,
or the memory it was queued in says so. -/
def Op.Appends (old : List Record) (t : Op) : Prop :=
  t.t = .add ∨ t.t = .addMod ∨
    t.t = .mod ∧ (t.kf ≠ 0 ∨ t.n ≠ [] ∧ ∃ r ∈ old, r.key = t.n)

/-- Some old record passes, or some operation appends one. -/
def LeavesSome (fil : List Filter) (clk : Nat → Taia) (ops : List Op) (old : List Record) : Prop :=
  (∃ i r, old[i]? = some r ∧ Passes fil ops (clk i) r) ∨ ∃ t ∈ ops, t.Appends old

theorem copyRecords_snd_ne_nil_iff (fil : List Filter) (clk : Nat → Taia) (old : List Record)
    (i : Nat) (ops : List Op) :
    (copyRecords fil clk i ops old).2 ≠ [] ↔
      ∃ j r, old[j]? = some r ∧ Passes fil ops (clk (i + j)) r := by
  induction old generalizing i ops with
  | nil => simp [copyRecords]
  | cons r old ih =>
      have rest : (copyRecords fil clk (i + 1) (ops.map (markOp r.key r.value)) old).2 ≠ [] ↔
          ∃ j s, old[j]? = some s ∧ Passes fil ops (clk (i + (j + 1))) s := by
        rw [ih]
        simp only [Passes, cdbbCheckOps_snd_markOp, Nat.add_assoc, Nat.add_comm 1]
      simp only [copyRecords, cdbbCheckOps_fst]
      by_cases passes : Passes fil ops (clk i) r
      · rw [passes.1, passes.2]
        simp only [Bool.not_false, Bool.and_self, if_true, ne_eq, reduceCtorEq, not_false_eq_true,
          true_iff]
        exact ⟨0, r, rfl, passes⟩
      · have stopped : (!(cdbbCheckOps r.key r.value ops false).2 &&
            !cdbbCheckFilter fil (clk i) r) = false := by
          rw [Bool.and_eq_false_iff, Bool.not_eq_false', Bool.not_eq_false']
          by_contra both
          rw [not_or] at both
          exact passes ⟨by simpa using both.1, by simpa using both.2⟩
        rw [stopped]
        simp only [Bool.false_eq_true, if_false]
        rw [rest]
        constructor
        · rintro ⟨j, s, found, ok⟩
          exact ⟨j + 1, s, found, ok⟩
        · rintro ⟨j, s, found, ok⟩
          cases j with
          | zero =>
              cases found
              exact absurd ok passes
          | succ j => exact ⟨j, s, found, ok⟩

/-- A flag is set exactly when a record has the key. -/
theorem copyRecords_fst (fil : List Filter) (clk : Nat → Taia) (old : List Record) (i : Nat)
    (ops : List Op) :
    (copyRecords fil clk i ops old).1 =
      ops.map fun t => old.foldl (fun t r => markOp r.key r.value t) t := by
  induction old generalizing i ops with
  | nil => simp [copyRecords]
  | cons r old ih =>
      simp only [copyRecords, ih, cdbbCheckOps_fst, List.map_map, List.foldl_cons]
      rfl

theorem foldl_markOp_toRequest (old : List Record) (t : Op) :
    (old.foldl (fun t r => markOp r.key r.value t) t).toRequest = t.toRequest := by
  induction old generalizing t with
  | nil => rfl
  | cons r old ih => rw [List.foldl_cons, ih, markOp_toRequest]

theorem foldl_markOp_kf_iff (old : List Record) (t : Op) :
    (old.foldl (fun t r => markOp r.key r.value t) t).kf ≠ 0 ↔
      t.kf ≠ 0 ∨ t.n ≠ [] ∧ ∃ r ∈ old, r.key = t.n := by
  induction old generalizing t with
  | nil => simp
  | cons r old ih =>
      have name : (markOp r.key r.value t).n = t.n := by rw [markOp_toRequest]
      rw [List.foldl_cons, ih, name, markOp_kf]
      by_cases here : t.n = r.key ∧ r.key ≠ []
      · obtain ⟨same, some_⟩ := here
        simp [same, some_]
      · have other : t.n ≠ [] → r.key ≠ t.n := fun some_ same => here ⟨same.symm, same ▸ some_⟩
        rw [if_neg here]
        simp only [List.exists_mem_cons_iff]
        constructor
        · rintro (set | ⟨some_, later⟩)
          · exact .inl set
          · exact .inr ⟨some_, .inr later⟩
        · rintro (set | ⟨some_, here | later⟩)
          · exact .inl set
          · exact absurd here (other some_)
          · exact .inr ⟨some_, later⟩

theorem writes_foldl_markOp_iff (old : List Record) (t : Op) :
    (old.foldl (fun t r => markOp r.key r.value t) t).writes = true ↔ t.Appends old := by
  have kind := congrArg Request.t (foldl_markOp_toRequest old t)
  rw [Op.writes, Op.Appends]
  rw [kind, ← foldl_markOp_kf_iff old t]
  cases t.t <;> simp

/-- The appended records, each with its operation. -/
theorem mem_addedRecords_iff {fil : List Filter} {clk : Nat → Taia} {ops : List Op}
    {old : List Record} {r : Record} :
    r ∈ addedRecords (copyRecords fil clk 0 ops old).1 ↔
      ∃ t ∈ ops, t.Appends old ∧ t.record = r := by
  have same (t : Op) : (old.foldl (fun t r => markOp r.key r.value t) t).record = t.record := by
    rw [foldl_markOp_toRequest]
  rw [addedRecords]
  rw [copyRecords_fst]
  constructor
  · intro member
    obtain ⟨u, written, rfl⟩ := List.mem_map.1 member
    obtain ⟨marked, writes⟩ := List.mem_filter.1 written
    obtain ⟨t, inside, rfl⟩ := List.mem_map.1 marked
    exact ⟨t, inside, (writes_foldl_markOp_iff old t).1 writes, (same t).symm⟩
  · rintro ⟨t, inside, appends, rfl⟩
    rw [← same t]
    exact List.mem_map_of_mem (List.mem_filter.2 ⟨List.mem_map_of_mem inside,
      (writes_foldl_markOp_iff old t).2 appends⟩)

/-- **Whether a batch leaves a record**, before it is applied. -/
theorem leavesSome_iff (fil : List Filter) (clk : Nat → Taia) (ops : List Op) (old : List Record) :
    newRecords fil clk ops old ≠ [] ↔ LeavesSome fil clk ops old := by
  have copied := copyRecords_snd_ne_nil_iff fil clk old 0 ops
  simp only [Nat.zero_add] at copied
  have added : addedRecords (copyRecords fil clk 0 ops old).1 ≠ [] ↔ ∃ t ∈ ops, t.Appends old := by
    simp only [copyRecords_fst, addedRecords, ne_eq, List.map_eq_nil_iff, List.filter_eq_nil_iff,
      List.mem_map, forall_exists_index, and_imp, forall_apply_eq_imp_iff₂,
      writes_foldl_markOp_iff, not_forall, not_not, exists_prop]
  rw [newRecords, LeavesSome]
  rw [← copied, ← added]
  simp only [ne_eq, List.append_eq_nil_iff, not_and_or]

/-! ## Runs of batches -/

/-- One batch of a run, with the memory and the clock it meets. -/
structure Applied where
  memory : Nat → Slot
  clk : Nat → Taia
  batch : List Change
  fil : List Filter

namespace Applied

def ops (b : Applied) : List Op := queuedOps b.memory 0 b.batch

/-- `cdbb_start_mod`, the queueing and `cdbb_apply` on the files. -/
def apply (f : Path) (fs : Fs) (b : Applied) : Fs :=
  (exec (cdbbModify b.memory b.clk f b.batch b.fil) fs).2

/-- The batch comes to an end. -/
def Ends (f : Path) (fs : Fs) (b : Applied) : Prop :=
  ∃ n, (exec (cdbbModify b.memory b.clk f b.batch b.fil) fs).1 = .ok (some n)

/-- The records the batch writes. -/
def leaves (recs : List Record) (b : Applied) : List Record := newRecords b.fil b.clk b.ops recs

end Applied

/-- The next `cdbb_start_mod` succeeds, and what it copies from are these records. -/
def Usable (f : Path) (recs : List Record) (fs : Fs) : Prop :=
  ∀ memory, ∃ a fs', exec (cdbbStartMod memory f) fs = (.ok (some a), fs') ∧
    fs'.records a.r = some recs

theorem usable_iff (f : Path) (recs : List Record) (fs : Fs) :
    Usable f recs fs ↔ recordsAt fs f = some recs := by
  constructor
  · intro usable
    obtain ⟨a, fs', ran, copied⟩ := usable fun _ => ⟨0, 0, fun _ => 0⟩
    rw [exec_cdbbStartMod, Prod.mk.injEq, Except.ok.injEq, Option.map_eq_some_iff] at ran
    obtain ⟨⟨i, named, rfl⟩, rfl⟩ := ran
    have node : (fs.started f).records i = some recs := copied
    rw [Fs.records_eq (Fs.node_started_ne fs (Fs.ne_next_of_dir fs named))] at node
    rw [recordsAt, Fs.content, named]
    exact node
  · intro file memory
    obtain ⟨i, named, found⟩ := dir_of_recordsAt file
    refine ⟨started memory f fs.next i, fs.started f, ?_, ?_⟩
    · rw [exec_cdbbStartMod, named]
      rfl
    · show (fs.started f).records i = some recs
      rw [Fs.records_eq (Fs.node_started_ne fs (Fs.ne_next_of_dir fs named))]
      exact found

/-- Every batch of the run comes to an end, and after each of them, as before the
first, the store can be used. -/
def UsableThroughout (f : Path) (old : List Record) (run : List Applied) (fs : Fs) : Prop :=
  (∀ done b, done ++ [b] <+: run → b.Ends f (done.foldl (Applied.apply f) fs)) ∧
    ∀ done, done <+: run → Usable f (done.foldl Applied.leaves old) (done.foldl (Applied.apply f) fs)

/-- Every batch of the run has at most `NUM_OP` operations and filters, and leaves
a record of those it meets, or adds one. -/
def LeavesSomeThroughout (old : List Record) (run : List Applied) : Prop :=
  ∀ done b, done ++ [b] <+: run → Room b.batch b.fil ∧
    LeavesSome b.fil b.clk b.ops (done.foldl Applied.leaves old)

section Apply

variable {f : Path} {old : List Record} {fs : Fs}

/-- One batch: what it finds, and what it puts in place. -/
theorem content_apply (file : recordsAt fs f = some old) {b : Applied} (room : Room b.batch b.fil) :
    b.Ends f fs ∧ (b.apply f fs).content f =
      if b.leaves old = [] then none else some (.finished (b.leaves old)) := by
  obtain ⟨c, holds, found⟩ := content_of_recordsAt file
  have outcome := (exec_cdbbModify b.memory b.clk f b.batch b.fil fs).1
  rw [holds, modifyOutcome_of_records b.memory b.clk room found] at outcome
  exact ⟨⟨_, congrArg Prod.fst outcome⟩, congrArg Prod.snd outcome⟩

theorem Applied.Ends.room {b : Applied} (ends : b.Ends f fs) : Room b.batch b.fil := by
  obtain ⟨n, ended⟩ := ends
  rcases modifyOutcome_cases b.memory b.clk b.batch b.fil (fs.content f) with
    ⟨old, -, room, -⟩ | ⟨-, absent⟩ | ⟨e, stopped⟩
  · exact room
  · rw [← (exec_cdbbModify b.memory b.clk f b.batch b.fil fs).1] at absent
    cases ended.symm.trans (Prod.mk.inj absent).1
  · rw [← (exec_cdbbModify b.memory b.clk f b.batch b.fil fs).1] at stopped
    cases ended.symm.trans (Prod.mk.inj stopped).1

end Apply

/-- **A store stays usable exactly as long as no batch overruns `struct cdbb` or
empties it.** -/
theorem usable_throughout_iff (f : Path) (old : List Record) (run : List Applied) (fs : Fs)
    (holds : recordsAt fs f = some old) :
    UsableThroughout f old run fs ↔ LeavesSomeThroughout old run := by
  constructor
  · rintro ⟨ends, usable⟩ done b within
    have room := (ends done b within).room
    have before := usable done ((List.prefix_append done [b]).trans within)
    have after := usable (done ++ [b]) within
    rw [usable_iff] at before after
    rw [List.foldl_append, List.foldl_append, List.foldl_cons, List.foldl_cons, List.foldl_nil,
      List.foldl_nil, recordsAt, (content_apply before room).2] at after
    have some_ : b.leaves (done.foldl Applied.leaves old) ≠ [] := by
      intro none_
      rw [if_pos none_] at after
      cases after
    exact ⟨room, (leavesSome_iff _ _ _ _).1 some_⟩
  · intro leaves
    have usable : ∀ done, done <+: run →
        recordsAt (done.foldl (Applied.apply f) fs) f = some (done.foldl Applied.leaves old) := by
      intro done
      induction done using List.reverseRecOn with
      | nil => exact fun _ => holds
      | append_singleton done b ih =>
          intro within
          have before := ih ((List.prefix_append done [b]).trans within)
          obtain ⟨room, left⟩ := leaves done b within
          have some_ : b.leaves (done.foldl Applied.leaves old) ≠ [] :=
            (leavesSome_iff _ _ _ _).2 left
          rw [List.foldl_append, List.foldl_append, List.foldl_cons, List.foldl_cons, List.foldl_nil,
            List.foldl_nil, recordsAt, (content_apply before room).2, if_neg some_]
          rfl
    refine ⟨fun done b within => ?_, fun done within => (usable_iff f _ _).2 (usable done within)⟩
    have before := usable done ((List.prefix_append done [b]).trans within)
    exact (content_apply before (leaves done b within).1).1

/-- A batch in zeroed memory, at the start of the clock. -/
def Applied.plain (batch : List Change) : Applied where
  memory _ := ⟨0, 0, fun _ => 0⟩
  clk _ := ⟨0, 0, 0⟩
  batch := batch
  fil := []

/-- A session is added to the file `make install` puts there, a second one is
added, and the first one deleted. -/
theorem usable_throughout_sample :
    UsableThroughout (str "db") [] [.plain [.add [1] [10]], .plain [.add [2] [20], .del [1]]]
      (Fs.empty.install (str "db") .empty) := by
  apply (usable_throughout_iff _ [] _ _ (recordsAt_of_content (Fs.content_install_self _ _ _))).2
  intro done b within
  rcases done with _ | ⟨first, _ | ⟨second, rest⟩⟩
  · obtain ⟨rfl, -⟩ := List.cons_prefix_cons.1 within
    exact ⟨⟨by decide, by decide⟩, .inr ⟨_, List.mem_cons_self, .inl rfl⟩⟩
  · obtain ⟨-, within⟩ := List.cons_prefix_cons.1 within
    obtain ⟨rfl, -⟩ := List.cons_prefix_cons.1 within
    exact ⟨⟨by decide, by decide⟩, .inr ⟨_, List.mem_cons_self, .inl rfl⟩⟩
  · have short := within.length_le
    simp at short

/-- The last record is deleted, and the next batch finds no file. -/
theorem emptied_store_is_gone :
    let old : List Record := [⟨[1], [10]⟩]
    let fs := Fs.empty.install (str "db") (.finished old)
    recordsAt fs (str "db") = some old ∧
      ¬ UsableThroughout (str "db") old [.plain [.del [1]]] fs := by
  intro old fs
  have holds : recordsAt fs (str "db") = some old :=
    recordsAt_of_content (Fs.content_install_self _ _ _)
  refine ⟨holds, fun usable => ?_⟩
  have after := (usable_iff _ _ _).1 (usable.2 [.plain [.del [1]]] (List.prefix_refl _))
  have none_ : (Applied.plain [.del [1]]).leaves old = [] := by decide
  have room : Room (Applied.plain [.del [1]]).batch (Applied.plain [.del [1]]).fil := by decide
  rw [List.foldl_cons, List.foldl_nil, recordsAt, (content_apply holds room).2, if_pos none_] at after
  cases after

end Bagunceiro
