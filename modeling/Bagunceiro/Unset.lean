/-
# Unset -- the flag nobody clears (`cdbb_add_op`)

`cdbb_handle_ops` asks an operation's flag whether the copy loop met its key.
The loop only ever sets it, and `cdbb_add_op` leaves it as the caller's memory
had it, so that a modification of a key the database has not is written when its
slot happens to hold something else than 0 (`mod_absent_iff`).
-/
import Bagunceiro.Reuse
import Bagunceiro.BlogStore

namespace Bagunceiro

open Effect

set_option autoImplicit false

/-- Queued in this slot, the operation writes nothing for a key the database has
not. -/
def Change.Silent (slot : Slot) : Change → Prop
  | .add _ _ | .rep _ _ => False
  | .mod _ _ => slot.kf = 0
  | .del _ | .delVal _ _ => True

theorem copyRecords_sublist (fil : List Filter) (clk : Nat → Taia) (i : Nat) (ops : List Op)
    (old : List Record) : (copyRecords fil clk i ops old).2.Sublist old := by
  induction old generalizing i ops with
  | nil => exact List.Sublist.refl _
  | cons r old ih =>
      simp only [copyRecords]
      split
      · exact (ih _ _).cons_cons r
      · exact (ih _ _).cons r

/-- A key without a record is left without one when no operation appends one. -/
theorem newRecords_absent_iff (fil : List Filter) (clk : Nat → Taia) (ops : List Op)
    {old : List Record} {k : Bytes} (absent : ∀ r ∈ old, r.key ≠ k) :
    (∀ r ∈ newRecords fil clk ops old, r.key ≠ k) ↔ ∀ t ∈ ops, t.n = k → ¬ t.Appends old := by
  constructor
  · intro none_ t inside onKey appends
    exact none_ t.record (List.mem_append_right _ (mem_addedRecords_iff.2 ⟨t, inside, appends, rfl⟩))
      onKey
  · intro silent r member onKey
    rcases List.mem_append.1 member with kept | new
    · exact absent r ((copyRecords_sublist fil clk 0 ops old).subset kept) onKey
    · obtain ⟨t, inside, appends, rfl⟩ := mem_addedRecords_iff.1 new
      exact silent t inside onKey appends

theorem silent_iff {c : Change} (slot : Slot) {old : List Record}
    (absent : ∀ r ∈ old, r.key ≠ c.key) : c.Silent slot ↔ ¬ (c.request.op slot).Appends old := by
  have notFound : ¬ ∃ r ∈ old, r.key = c.key := by
    rintro ⟨r, member, onKey⟩
    exact absent r member onKey
  have name : (c.request.op slot).n = c.key := request_n c
  unfold Op.Appends
  rw [name]
  cases c <;> simp_all [Change.Silent, Change.request, Request.op]

section Modify

variable (memory : Nat → Slot) (clk : Nat → Taia) (batch : List Change) (fil : List Filter)

theorem newRecords_queued_absent_iff {old : List Record} {k : Bytes}
    (absent : ∀ r ∈ old, r.key ≠ k) :
    (∀ r ∈ newRecords fil clk (queuedOps memory 0 batch) old, r.key ≠ k) ↔
      ∀ (j : Nat) (c : Change), batch[j]? = some c → c.key = k → c.Silent (memory j) := by
  rw [newRecords_absent_iff fil clk _ absent]
  constructor
  · rintro silent j c there rfl
    rw [silent_iff (memory j) absent]
    refine silent _ (mem_queuedOps.2 ⟨j, c, there, ?_⟩) (request_n c)
    rw [Nat.zero_add]
  · intro silent t member onKey
    obtain ⟨j, c, there, rfl⟩ := mem_queuedOps.1 member
    rw [Nat.zero_add] at onKey ⊢
    have name : c.key = k := (request_n c).symm.trans onKey
    exact (silent_iff (memory j) (name ▸ absent)).1 (silent j c there name)

/-- The records a change leaves at its path, if it comes to an end. -/
theorem left_finished_iff {f : Path} {fs : Fs} {old : List Record}
    (holds : fs.content f = some (.finished old)) (p : Record → Prop) :
    ((∃ n, (exec (cdbbModify memory clk f batch fil) fs).1 = .ok n) ∧
        ∀ recs, (exec (cdbbModify memory clk f batch fil) fs).2.content f = some (.finished recs) →
          ∀ r ∈ recs, p r) ↔
      Room batch fil ∧ ∀ r ∈ newRecords fil clk (queuedOps memory 0 batch) old, p r := by
  obtain ⟨r, named, -⟩ := Fs.dir_of_content holds
  by_cases room : Room batch fil
  · have outcome := (exec_cdbbModify memory clk f batch fil fs).1
    rw [holds, modifyOutcome_of_records memory clk room rfl] at outcome
    obtain ⟨ended, left⟩ := Prod.mk.inj outcome
    rw [ended, left]
    simp only [room, true_and, Except.ok.injEq, exists_eq']
    constructor
    · intro every r member
      rw [if_neg (List.ne_nil_of_mem member)] at every
      exact every _ rfl r member
    · intro every recs left
      split at left
      · cases left
      · cases left
        exact every
  · rw [exec_cdbbModify_overrun memory clk room named]
    simp [room]

end Modify

/-- **When a modification of what is not there leaves it so**: in a batch of at most
`NUM_OP` operations and filters, when nothing else in it adds the key, and each
slot that modifies it held a 0 where `cdbb_add_op` sets nothing.  An entry is
modified from the first slot. -/
theorem mod_absent_iff (leapsecs : List UInt64) (memory : Nat → Slot) (clk : Nat → Taia) (f : Path)
    (batch : List Change) (fil : List Filter) (fs : Fs) (old : List Record) (k v : Bytes)
    (holds : fs.content f = some (.finished old)) (absent : ∀ r ∈ old, r.key ≠ k)
    (member : Change.mod k v ∈ batch) :
    ((∃ n, (exec (cdbbModify memory clk f batch fil) fs).1 = .ok n) ∧
        (∀ recs, (exec (cdbbModify memory clk f batch fil) fs).2.content f = some (.finished recs) →
          ∀ r ∈ recs, r.key ≠ k) ↔
      (batch.length ≤ numOp ∧ fil.length ≤ numOp) ∧
        ∀ (j : Nat) (c : Change), batch[j]? = some c → c.key = k → c.Silent (memory j)) ∧
    ∀ (e : BlogEvent) (t : Taia) (text : Bytes), e.op = .modify t text → taiaPack t = k →
      f = dbFile →
      ((∀ recs, (exec (e.serve leapsecs) fs).2.content f = some (.finished recs) →
          ∀ r ∈ recs, r.key ≠ k) ↔
        (e.memory 0).kf = 0) := by
  refine ⟨?_, ?_⟩
  · rw [left_finished_iff memory clk batch fil holds,
      newRecords_queued_absent_iff memory clk batch fil absent]
    rfl
  · rintro e t text op rfl rfl
    obtain ⟨fs', ran, left⟩ := e.exec_serve leapsecs holds
    rw [ran]
    simp only [left, Option.some.injEq, Content.finished.injEq, forall_eq']
    rw [BlogEvent.after, newRecords_queued_absent_iff e.memory e.clk _ [] absent,
      changes_modify op, modifyChanges]
    constructor
    · exact fun silent => silent 0 _ rfl rfl
    · intro clear j c there onKey
      rcases first_or_later there with ⟨rfl, rfl⟩ | later
      · exact clear
      · -- the last modification has a key of another length
        rw [List.mem_singleton.1 later] at onKey
        have length := congrArg List.length onKey
        rw [key_modifiedChange, length_taiaPack] at length
        exact absurd length (by decide)

/-- An entry that is not there, modified from a slot that held a 0. -/
theorem mod_absent_iff_sample :
    let k : Taia := ⟨4611686019700100000, 0, 0⟩
    let memory : Nat → Slot := fun _ => ⟨0, 5, fun _ => 0⟩
    let old : List Record := [⟨dbLastModified, taiaPack k⟩]
    let batch := modifyChanges k k (str "new")
    let fs := Fs.empty.install dbFile (.finished old)
    ∀ recs, (exec (cdbbModify memory (fun _ => k) dbFile batch []) fs).2.content dbFile =
      some (.finished recs) → ∀ r ∈ recs, r.key ≠ taiaPack k := by
  intro k memory old batch fs
  have absent : ∀ r ∈ old, r.key ≠ taiaPack k := by
    intro r member
    rw [List.mem_singleton.1 member]
    decide
  refine (mod_absent_iff [] memory (fun _ => k) dbFile batch [] fs old (taiaPack k) (str "new")
    (Fs.content_install_self _ _ _) absent List.mem_cons_self).1.2
    ⟨⟨by decide, by decide⟩, fun j c there onKey => ?_⟩ |>.2
  rcases first_or_later there with ⟨rfl, rfl⟩ | later
  · rfl
  · rw [List.mem_singleton.1 later] at onKey
    exact absurd onKey (by decide)

/-- The slot held a 1: modifying an entry that is not there creates it, without
a record in its day's index. -/
theorem creates_absent :
    let k : Taia := ⟨4611686019700100000, 0, 0⟩
    let old : List Record := [⟨dbLastModified, taiaPack k⟩]
    let e : BlogEvent := ⟨.modify k (str "new"), fun _ => ⟨1, 0, fun _ => 0⟩, fun _ => k, k⟩
    (∀ r ∈ old, r.key ≠ taiaPack k) ∧
      (exec (e.serve []) (Fs.empty.install dbFile (.finished old))).2.content dbFile =
        some (.finished [⟨taiaPack k, str "new"⟩, ⟨dbLastModified, taiaPack k⟩]) ∧
      ¬ ∀ recs, (exec (e.serve []) (Fs.empty.install dbFile (.finished old))).2.content dbFile =
        some (.finished recs) → ∀ r ∈ recs, r.key ≠ taiaPack k := by
  intro k old e
  have left : (exec (e.serve []) (Fs.empty.install dbFile (.finished old))).2.content dbFile =
      some (.finished [⟨taiaPack k, str "new"⟩, ⟨dbLastModified, taiaPack k⟩]) := by
    decide +kernel
  refine ⟨by decide, left, fun none_ => ?_⟩
  exact none_ _ left _ List.mem_cons_self rfl

end Bagunceiro
