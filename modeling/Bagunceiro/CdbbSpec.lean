/-
# CdbbSpec -- what a batch makes of a database

`newRecords` is the new file a batch computes, flags and reads past the end of a
value included; `exec_cdbbModify` says that a run of the engine leaves exactly
that file under the database's name, and touches nothing else but the temporary
name.

On a well-posed batch (`Posed`) the flags and the over-reads cancel out:
`newRecords_eq` reduces the engine to `batchResult`, the old records that nothing
drops followed by the added ones.
-/
import Mathlib.Data.List.Nodup
import Mathlib.Data.List.Lemmas
import Bagunceiro.Cdbb

namespace Bagunceiro

open Effect

set_option autoImplicit false

/-! ## One record against the queued operations -/

/-- The flags a record sets in one operation. -/
def markOp (k v : Bytes) (t : Op) : Op := (checkOp k v t false).1

theorem checkOp_fst (k v : Bytes) (t : Op) (f : Bool) : (checkOp k v t f).1 = markOp k v t := by
  simp only [markOp, checkOp]
  split_ifs <;> rfl

theorem markOp_toRequest (k v : Bytes) (t : Op) : (markOp k v t).toRequest = t.toRequest := by
  simp only [markOp, checkOp]
  split_ifs <;> rfl

theorem markOp_kf (k v : Bytes) (t : Op) :
    (markOp k v t).kf = if t.n = k ∧ k ≠ [] then 1 else t.kf := by
  simp only [markOp, checkOp]
  split_ifs <;> rfl

theorem cdbbCheckOps_fst (k v : Bytes) (ops : List Op) (f : Bool) :
    (cdbbCheckOps k v ops f).1 = ops.map (markOp k v) := by
  induction ops generalizing f with
  | nil => rfl
  | cons t ts ih => simp only [cdbbCheckOps, checkOp_fst, ih, List.map_cons]

/-- What the operation on a record's key does to the record. -/
def Op.stops (k v : Bytes) (t : Op) : Bool :=
  t.n = k && k ≠ [] && t.t ≠ .add &&
    (t.v = [] || t.t = .mod || t.t = .addMod || memEqual t.v t.past v)

theorem checkOp_snd_of_ne {k : Bytes} {t : Op} (v : Bytes) (ne : t.n ≠ k) (f : Bool) :
    (checkOp k v t f).2 = f := by
  simp [checkOp, ne]

theorem checkOp_snd (k v : Bytes) (t : Op) : (checkOp k v t false).2 = t.stops k v := by
  simp only [checkOp, Op.stops]
  split_ifs <;> simp_all

theorem cdbbCheckOps_of_notMem {k : Bytes} {ops : List Op} (v : Bytes)
    (absent : ∀ t ∈ ops, t.n ≠ k) (f : Bool) : (cdbbCheckOps k v ops f).2 = f := by
  induction ops generalizing f with
  | nil => rfl
  | cons t ts ih =>
      rw [cdbbCheckOps, ih fun u member => absent u (List.mem_cons_of_mem _ member)]
      exact checkOp_snd_of_ne v (absent t List.mem_cons_self) f

/-- With one operation for each key, the shared flag is that operation's verdict. -/
theorem cdbbCheckOps_snd {ops : List Op} (distinct : (ops.map (·.n)).Nodup) (k v : Bytes) :
    (cdbbCheckOps k v ops false).2 = ops.any (Op.stops k v) := by
  induction ops with
  | nil => rfl
  | cons t ts ih =>
      rw [List.map_cons, List.nodup_cons] at distinct
      obtain ⟨fresh, distinct⟩ := distinct
      rw [cdbbCheckOps, List.any_cons]
      by_cases same : t.n = k
      · have absent : ∀ u ∈ ts, u.n ≠ k := by
          rintro u member rfl
          exact fresh (same ▸ List.mem_map_of_mem member)
        have none_ : ts.any (Op.stops k v) = false := by
          rw [List.any_eq_false]
          intro u member
          simp [Op.stops, absent u member]
        rw [cdbbCheckOps_of_notMem v absent, checkOp_snd, none_, Bool.or_false]
      · rw [checkOp_snd_of_ne v same, ih distinct]
        simp [Op.stops, same]

/-! ## The new file -/

/-- The flags and the copied records after the loop of `cdbb_copy`. -/
def copyRecords (fil : List Filter) (clk : Nat → Taia) :
    Nat → List Op → List Record → List Op × List Record
  | _, ops, [] => (ops, [])
  | i, ops, r :: rs =>
      let checked := cdbbCheckOps r.key r.value ops false
      let rest := copyRecords fil clk (i + 1) checked.1 rs
      (rest.1,
        if !checked.2 && !cdbbCheckFilter fil (clk i) r then r :: rest.2 else rest.2)

/-- The records `cdbb_handle_ops` appends. -/
def addedRecords (ops : List Op) : List Record :=
  (ops.filter Op.writes).map fun t => t.record

/-- The file a batch writes. -/
def newRecords (fil : List Filter) (clk : Nat → Taia) (ops : List Op) (old : List Record) :
    List Record :=
  let copied := copyRecords fil clk 0 ops old
  copied.2 ++ addedRecords copied.1

/-! ## Running the engine -/

theorem Fs.setNode_self {fs : Fs} {i : Inode} {c : Content} (holds : fs.node i = c) :
    fs.setNode i c = fs := by
  subst holds
  simp [Fs.setNode]

theorem exec_cdbMakeAdd {fs : Fs} {i : Inode} {rs : List Record}
    (writing : fs.node i = .unfinished rs) (r : Record) :
    exec (cdbMakeAdd i r) fs = (.ok (), fs.setNode i (.unfinished (rs ++ [r]))) := by
  change (Except.ok (), fs.makeAdd i r) = _
  rw [fs.makeAdd_of_unfinished writing]

theorem exec_cdbbCopyRecord (a : Cdbb) (now : Taia) (r : Record) {fs : Fs} {rs : List Record}
    (writing : fs.node a.w = .unfinished rs) :
    let checked := cdbbCheckOps r.key r.value a.ops false
    let keep := !checked.2 && !cdbbCheckFilter a.fil now r
    exec (cdbbCopyRecord a now true r) fs =
      (.ok ({ a with ops := checked.1 }, if keep then 1 else 0),
        fs.setNode a.w (.unfinished (rs ++ if keep then [r] else []))) := by
  intro checked keep
  rw [cdbbCopyRecord]
  cases h : keep with
  | true =>
      simp only [keep, checked] at h
      simp only [h, Bool.and_true, if_true]
      exact Prog.run_bind_ok handle (exec_cdbMakeAdd writing r)
  | false =>
      simp only [keep, checked] at h
      simp only [h, Bool.and_true, Bool.false_eq_true, if_false, List.append_nil,
        Fs.setNode_self writing]
      rfl

/-- Without a key no operation is meant. -/
theorem cdbbCheckOps_no_key (v : Bytes) (ops : List Op) (f : Bool) :
    cdbbCheckOps [] v ops f = (ops, f) := by
  induction ops generalizing f with
  | nil => rfl
  | cons t ts ih =>
      have unmarked : checkOp [] v t f = (t, f) := if_neg fun both => both.2 rfl
      rw [cdbbCheckOps, unmarked, ih]

/-- In a file without a byte there is nothing to copy. -/
theorem cdbbCopyRecord_no_key (a : Cdbb) (now : Taia) :
    cdbbCopyRecord a now false ⟨[], []⟩ = .ret (a, 0) := by
  rw [cdbbCopyRecord]
  simp only [cdbbCheckOps_no_key, Bool.and_false, Bool.false_eq_true, if_false]
  rfl

/-- The copy loop appends the kept records and counts them. -/
theorem exec_cdbbCopyFrom (clk : Nat → Taia) (old : List Record) (a : Cdbb) (i : Nat) {fs : Fs}
    {rs : List Record} (writing : fs.node a.w = .unfinished rs) :
    let copied := copyRecords a.fil clk i a.ops old
    exec (cdbbCopyFrom clk a i old) fs =
      (.ok ({ a with ops := copied.1 }, (copied.2.length : Int)),
        fs.setNode a.w (.unfinished (rs ++ copied.2))) := by
  induction old generalizing a i fs rs with
  | nil => simp [cdbbCopyFrom, copyRecords, Fs.setNode_self writing]
  | cons r old ih =>
      intro copied
      have step := exec_cdbbCopyRecord a (clk i) r writing
      simp only at step
      rw [exec, cdbbCopyFrom]
      rw [Prog.run_bind_ok handle step,
        Prog.run_bind_ok handle (ih _ (i + 1) (Fs.node_setNode_self _ _ _))]
      simp only [Prog.pure_eq, Prog.run_ret, Fs.setNode_setNode, List.append_assoc]
      cases keep : !(cdbbCheckOps r.key r.value a.ops false).2 && !cdbbCheckFilter a.fil (clk i) r <;>
        simp [copied, copyRecords, keep, Int.add_comm]

theorem exec_cdbbHandleOps (w : Inode) (ops : List Op) {fs : Fs} {rs : List Record}
    (writing : fs.node w = .unfinished rs) :
    exec (cdbbHandleOps w ops) fs =
      (.ok ((addedRecords ops).length : Int),
        fs.setNode w (.unfinished (rs ++ addedRecords ops))) := by
  induction ops generalizing fs rs with
  | nil => simp [cdbbHandleOps, addedRecords, Fs.setNode_self writing]
  | cons t ts ih =>
      cases writes : t.writes with
      | true =>
          rw [exec, cdbbHandleOps]
          simp only [writes, if_true]
          rw [Prog.run_bind_ok handle (exec_cdbMakeAdd writing t.record),
            Prog.run_bind_ok handle (ih (Fs.node_setNode_self _ _ _))]
          simp [addedRecords, writes, Fs.setNode_setNode, Int.add_comm]
      | false =>
          rw [cdbbHandleOps]
          simp only [writes, Bool.false_eq_true, if_false, ih writing]
          simp [addedRecords, writes]

theorem tmpName_ne (f : Path) : tmpName f ≠ f := by
  intro same
  have := congrArg List.length same
  simp [tmpName, str] at this

/-- The files once the temporary file has been opened. -/
def Fs.started (fs : Fs) (f : Path) : Fs := (fs.unlink (tmpName f)).create (tmpName f)

@[simp] theorem Fs.dir_started_tmp (fs : Fs) (f : Path) :
    (fs.started f).dir (tmpName f) = some fs.next := Fs.dir_create_self _ _

theorem Fs.dir_started_ne (fs : Fs) {f p : Path} (ne : p ≠ tmpName f) :
    (fs.started f).dir p = fs.dir p := by
  rw [started, Fs.dir_create_ne _ ne, Fs.dir_unlink_ne _ ne]

@[simp] theorem Fs.node_started_next (fs : Fs) (f : Path) :
    (fs.started f).node fs.next = .unfinished [] := Fs.node_create_next _ _

theorem Fs.node_started_ne (fs : Fs) {f : Path} {i : Inode} (ne : i ≠ fs.next) :
    (fs.started f).node i = fs.node i := Fs.node_create_ne _ ne

/-- What `cdbb_start_mod` leaves in the caller's structure. -/
def started (memory : Nat → Slot) (f : Path) (w r : Inode) : Cdbb :=
  { w, r, f, t := tmpName f, ops := [], slots := memory, fil := [] }

theorem exec_cdbbStartMod (memory : Nat → Slot) (f : Path) (fs : Fs) :
    exec (cdbbStartMod memory f) fs =
      (.ok ((fs.dir f).map (started memory f fs.next)), fs.started f) := by
  have opened : exec (cdbbOpenWrite (tmpName f)) fs = (.ok (some fs.next), fs.started f) := by
    change (Except.ok ((fs.unlink (tmpName f)).openWrite (tmpName f)).1,
      ((fs.unlink (tmpName f)).openWrite (tmpName f)).2) = _
    rw [Fs.openWrite_of_none _ (Fs.dir_unlink_self fs _)]
    rfl
  rw [exec, cdbbStartMod]
  rw [Prog.run_bind_ok handle opened]
  have reading : exec (cdbbOpenRead f) (fs.started f) = (.ok (fs.dir f), fs.started f) := by
    change (Except.ok ((fs.started f).dir f), fs.started f) = _
    rw [Fs.dir_started_ne fs (tmpName_ne f).symm]
  simp only
  rw [Prog.run_bind_ok handle reading]
  cases fs.dir f <;> rfl

/-- An open batch: the database is read, the temporary file is being written, and
what is queued has room. -/
structure Cdbb.Open (a : Cdbb) (old : List Record) (fs : Fs) : Prop where
  writing : fs.node a.w = .unfinished []
  reading : fs.records a.r = some old
  temporary : fs.dir a.t = some a.w
  names : a.t ≠ a.f
  fits : a.Fits

theorem Content.records_eq_some {c : Content} {recs : List Record} (file : c.records = some recs) :
    c.keys = .records recs ∨ c.keys = .failed ∧ recs = [] := by
  cases c with
  | empty =>
      cases file
      exact .inr ⟨rfl, rfl⟩
  | finished recs =>
      cases file
      exact .inl rfl
  | unfinished recs => cases file
  | clobbered => cases file

theorem Content.records_eq_none {c : Content} (torn : c.records = none) : c.keys = .torn := by
  cases c with
  | empty => cases torn
  | finished recs => cases torn
  | unfinished recs => rfl
  | clobbered => rfl

/-- What a batch copies from a file whose records can be looked up. -/
theorem run_cdbbCopy {S : Type} (h : Handler Call Answer S) (clk : Nat → Taia) (a : Cdbb) {s : S}
    {c : Content} {old : List Record} (keys : Prog.run h (cdbKeys a.r) s = (.ok c.keys, s))
    (file : c.records = some old) :
    Prog.run h (cdbbCopy clk a) s = Prog.run h (cdbbCopyFrom clk a 0 old) s := by
  rw [cdbbCopy]
  rw [Prog.run_bind_ok h keys]
  rcases Content.records_eq_some file with enumerated | ⟨failed, rfl⟩
  · rw [enumerated]
  · rw [failed]
    simp only
    rw [cdbbCopyRecord_no_key]
    rfl

theorem exec_cdbbCopy (clk : Nat → Taia) {a : Cdbb} {old : List Record} {fs : Fs}
    (opened : a.Open old fs) :
    let copied := copyRecords a.fil clk 0 a.ops old
    exec (cdbbCopy clk a) fs =
      (.ok ({ a with ops := copied.1 }, (copied.2.length : Int)),
        fs.setNode a.w (.unfinished copied.2)) := by
  intro copied
  have keys : exec (cdbKeys a.r) fs = (.ok (fs.node a.r).keys, fs) := rfl
  have := exec_cdbbCopyFrom clk old a 0 opened.writing
  rw [exec, run_cdbbCopy handle clk a keys opened.reading]
  simpa using this

theorem exec_cdbbHandleOps_copied (clk : Nat → Taia) (a : Cdbb) (old : List Record) (fs : Fs) :
    let copied := copyRecords a.fil clk 0 a.ops old
    exec (cdbbHandleOps a.w copied.1) (fs.setNode a.w (.unfinished copied.2)) =
      (.ok ((addedRecords copied.1).length : Int),
        fs.setNode a.w (.unfinished (newRecords a.fil clk a.ops old))) := by
  intro copied
  rw [exec_cdbbHandleOps a.w copied.1 (Fs.node_setNode_self fs a.w _), Fs.setNode_setNode]
  rfl

theorem run_unharmed {S : Type} (h : Handler Call Answer S) {a : Cdbb} (fits : a.Fits) (s : S) :
    Prog.run h a.unharmed s = (.ok (), s) := by
  rw [Cdbb.unharmed, if_pos fits]
  rfl

theorem cdbbApply_overrun (clk : Nat → Taia) {a : Cdbb} (overrun : ¬ a.Fits) :
    cdbbApply clk a = .fail .overflow := by
  rw [cdbbApply, Cdbb.unharmed, if_neg overrun]
  rfl

/-- The new file is what `newRecords` computes, and its length is returned. -/
theorem exec_cdbbApply (clk : Nat → Taia) {a : Cdbb} {old : List Record} {fs : Fs}
    (opened : a.Open old fs) :
    ∃ fs', exec (cdbbApply clk a) fs = (.ok ((newRecords a.fil clk a.ops old).length : Int), fs') ∧
      fs'.dir a.f = (if newRecords a.fil clk a.ops old = [] then none else some a.w) ∧
      fs'.dir a.t = none ∧ (∀ p, p ≠ a.f → p ≠ a.t → fs'.dir p = fs.dir p) ∧
      fs'.node a.w = .finished (newRecords a.fil clk a.ops old) ∧
      ∀ i, i ≠ a.w → fs'.node i = fs.node i := by
  set copied := copyRecords a.fil clk 0 a.ops old with hcopied
  set new := newRecords a.fil clk a.ops old with hnew
  have newEq : new = copied.2 ++ addedRecords copied.1 := rfl
  have copy := exec_cdbbCopy clk opened
  simp only [← hcopied] at copy
  have add := exec_cdbbHandleOps_copied clk a old fs
  simp only [← hcopied, ← hnew] at add
  have named : (fs.setNode a.w (.unfinished new)).dir a.t = some a.w := opened.temporary
  obtain ⟨-, dir, node, -⟩ := Fs.rename_of_some _ named a.f
  set fs₁ := (Fs.rename (fs.setNode a.w (.unfinished new)) a.t a.f).2 with hfs₁
  have tail : exec (cdbbApply clk a) fs =
      if new = [] then (.ok (new.length : Int), (fs₁.unlink a.f).makeFinish a.w)
      else (.ok (new.length : Int), fs₁.makeFinish a.w) := by
    rw [exec, cdbbApply]
    rw [Prog.run_bind_ok handle (run_unharmed handle opened.fits fs)]
    rw [Prog.run_bind_ok handle copy]
    simp only
    rw [Prog.run_bind_ok handle add]
    have count : (copied.2.length : Int) + (addedRecords copied.1).length = new.length := by
      simp [newEq]
    rw [count]
    by_cases empty : new = []
    · simp only [empty, List.length_nil, Nat.cast_zero, if_true]
      rw [hfs₁, empty]
      rfl
    · have : ¬ ((new.length : Int) = 0) := by simpa using empty
      simp only [this, empty, if_false]
      rfl
  have finish : ∀ fs₂ : Fs, fs₂.node = fs₁.node →
      (fs₂.makeFinish a.w).node a.w = .finished new ∧
        (∀ i, i ≠ a.w → (fs₂.makeFinish a.w).node i = fs.node i) ∧
        (fs₂.makeFinish a.w).dir = fs₂.dir := by
    intro fs₂ same
    have writing : fs₂.node a.w = .unfinished new := by
      rw [same, node]
      simp
    rw [Fs.makeFinish_of_unfinished _ writing]
    refine ⟨by simp, fun i ne => ?_, rfl⟩
    rw [Fs.node_setNode_ne _ ne, same, node, Fs.node_setNode_ne _ ne]
  by_cases empty : new = []
  · rw [if_pos empty] at tail
    obtain ⟨atW, elsewhere, sameDir⟩ := finish (fs₁.unlink a.f) rfl
    refine ⟨_, tail, ?_, ?_, ?_, atW, elsewhere⟩
    · rw [sameDir, if_pos empty, Fs.dir_unlink_self]
    · rw [sameDir, Fs.dir_unlink_ne _ opened.names, dir, Function.update_of_ne opened.names,
        Function.update_self]
    · intro p notF notT
      rw [sameDir, Fs.dir_unlink_ne _ notF, dir, Function.update_of_ne notF,
        Function.update_of_ne notT]
      rfl
  · rw [if_neg empty] at tail
    obtain ⟨atW, elsewhere, sameDir⟩ := finish fs₁ rfl
    refine ⟨_, tail, ?_, ?_, ?_, atW, elsewhere⟩
    · rw [sameDir, if_neg empty, dir, Function.update_self]
    · rw [sameDir, dir, Function.update_of_ne opened.names, Function.update_self]
    · intro p notF notT
      rw [sameDir, dir, Function.update_of_ne notF, Function.update_of_ne notT]
      rfl

/-! ## Reading -/

theorem exec_openRead {fs : Fs} {p : Path} {i : Inode} (named : fs.dir p = some i) :
    exec (cdbbOpenRead p) fs = (.ok (some i), fs) := by
  show (Except.ok (fs.dir p), fs) = _
  rw [named]

theorem exec_cdbbReadNentry (r : Inode) (k : Bytes) (n : Nentry) (fs : Fs) :
    exec (cdbbReadNentry r k n) fs =
      (.ok (((findAll (fs.records r) k).length : Int),
        { e := n.e ++ (findAll (fs.records r) k).flatten, k := n.k ++ k }), fs) := rfl

theorem exec_cdbbReadNentry_fresh (r : Inode) (k : Bytes) (fs : Fs) :
    exec (cdbbReadNentry r k ⟨[], []⟩) fs =
      (.ok (((findAll (fs.records r) k).length : Int), ⟨(findAll (fs.records r) k).flatten, k⟩),
        fs) := rfl

/-! ## Whole changes -/

def Change.request : Change → Request
  | .add k v => ⟨.add, k, v⟩
  | .mod k v => ⟨.mod, k, v⟩
  | .rep k v => ⟨.addMod, k, v⟩
  | .del k => ⟨.del, k, []⟩
  | .delVal k v => ⟨.del, k, v⟩

/-- A request in the slot it is queued in: the flags are what the slot held. -/
def Request.op (q : Request) (slot : Slot) : Op :=
  { toRequest := q, past := slot.past, kf := slot.kf, vf := slot.vf }

def queuedOps (memory : Nat → Slot) : Nat → List Change → List Op
  | _, [] => []
  | i, c :: cs => c.request.op (memory i) :: queuedOps memory (i + 1) cs

theorem queuedOps_toRequest (memory : Nat → Slot) (i : Nat) (batch : List Change) :
    (queuedOps memory i batch).map (·.toRequest) = batch.map Change.request := by
  induction batch generalizing i with
  | nil => rfl
  | cons c cs ih => simp only [queuedOps, List.map_cons, ih]; rfl

/-- A change of a batch is the first one, in the first slot, or a later one. -/
theorem first_or_later {c d : Change} {batch : List Change} {i : Nat}
    (there : (c :: batch)[i]? = some d) : (i = 0 ∧ d = c) ∨ d ∈ batch := by
  cases i with
  | zero => exact .inl ⟨rfl, (Option.some.inj there).symm⟩
  | succ i => exact .inr (List.mem_of_getElem? there)

/-- The operations in the slots from `i` on, each with its change. -/
theorem mem_queuedOps {memory : Nat → Slot} {i : Nat} {batch : List Change} {t : Op} :
    t ∈ queuedOps memory i batch ↔
      ∃ (j : Nat) (c : Change), batch[j]? = some c ∧ t = c.request.op (memory (i + j)) := by
  induction batch generalizing i with
  | nil => simp [queuedOps]
  | cons c batch ih =>
      rw [queuedOps, List.mem_cons, ih]
      constructor
      · rintro (rfl | ⟨j, d, there, rfl⟩)
        · exact ⟨0, c, rfl, rfl⟩
        · exact ⟨j + 1, d, there, by rw [Nat.add_right_comm, Nat.add_assoc i]⟩
      · rintro ⟨j, d, there, rfl⟩
        cases j with
        | zero =>
            cases there
            exact .inl rfl
        | succ j => exact .inr ⟨j, d, there, by rw [Nat.add_right_comm, Nat.add_assoc i]⟩

theorem queue_eq (a : Cdbb) (c : Change) :
    c.queue a = { a with ops := a.ops ++ [c.request.op (a.slots a.ops.length)] } := by
  cases c <;> rfl

theorem foldl_queue (batch : List Change) (a : Cdbb) :
    batch.foldl Change.queue a =
      { a with ops := a.ops ++ queuedOps a.slots a.ops.length batch } := by
  induction batch generalizing a with
  | nil => simp [queuedOps]
  | cons c cs ih =>
      rw [List.foldl_cons, queue_eq, ih]
      simp [queuedOps]

theorem foldl_cdbbAddFilter (fil : List Filter) (a : Cdbb) :
    fil.foldl cdbbAddFilter a = { a with fil := a.fil ++ fil } := by
  induction fil generalizing a with
  | nil => simp
  | cons cb fil ih =>
      rw [List.foldl_cons, ih]
      simp [cdbbAddFilter]

theorem queueAll_started (memory : Nat → Slot) (f : Path) (w r : Inode) (batch : List Change)
    (fil : List Filter) :
    queueAll batch fil (started memory f w r) =
      { w, r, f, t := tmpName f, ops := queuedOps memory 0 batch, slots := memory, fil } := by
  simp [queueAll, foldl_queue, foldl_cdbbAddFilter, started]

theorem length_queuedOps (memory : Nat → Slot) (i : Nat) (batch : List Change) :
    (queuedOps memory i batch).length = batch.length := by
  induction batch generalizing i with
  | nil => rfl
  | cons c cs ih => simp only [queuedOps, List.length_cons, ih]

/-- The arrays of `struct cdbb` hold the batch and its filters. -/
def Room (batch : List Change) (fil : List Filter) : Prop :=
  batch.length ≤ numOp ∧ fil.length ≤ numOp

instance (batch : List Change) (fil : List Filter) : Decidable (Room batch fil) :=
  inferInstanceAs (Decidable (_ ∧ _))

theorem fits_iff_room (memory : Nat → Slot) (f : Path) (w r : Inode) (batch : List Change)
    (fil : List Filter) :
    (queueAll batch fil (started memory f w r)).Fits ↔ Room batch fil := by
  rw [queueAll_started]
  simp only [Cdbb.Fits, Room, length_queuedOps]

theorem Fs.dir_of_content {fs : Fs} {p : Path} {c : Content} (holds : fs.content p = some c) :
    ∃ i, fs.dir p = some i ∧ fs.node i = c := by
  simpa [Fs.content] using holds

/-- The records under a name. -/
def recordsAt (fs : Fs) (p : Path) : Option (List Record) := (fs.content p).bind Content.records

theorem recordsAt_of_content {fs : Fs} {p : Path} {c : Content} (holds : fs.content p = some c) :
    recordsAt fs p = c.records := by
  rw [recordsAt, holds]
  rfl

theorem recordsAt_congr {fs t : Fs} {p : Path} (same : t.content p = fs.content p) :
    recordsAt t p = recordsAt fs p := by
  rw [recordsAt, same, recordsAt]

theorem content_of_recordsAt {fs : Fs} {p : Path} {recs : List Record}
    (file : recordsAt fs p = some recs) : ∃ c, fs.content p = some c ∧ c.records = some recs :=
  Option.bind_eq_some_iff.1 file

/-- What holds of the records of a finished file holds of all that are found. -/
theorem mem_of_recordsAt {fs : Fs} {p : Path} {kind : Record → Prop}
    (each : ∀ recs, fs.content p = some (.finished recs) → ∀ r ∈ recs, kind r)
    {recs : List Record} (file : recordsAt fs p = some recs) {r : Record} (member : r ∈ recs) :
    kind r := by
  obtain ⟨c, holds, found⟩ := content_of_recordsAt file
  cases c with
  | empty =>
      cases found
      cases member
  | finished recs =>
      cases found
      exact each recs holds r member
  | unfinished recs => cases found
  | clobbered => cases found

theorem dir_of_recordsAt {fs : Fs} {p : Path} {recs : List Record}
    (file : recordsAt fs p = some recs) : ∃ r, fs.dir p = some r ∧ fs.records r = some recs := by
  obtain ⟨c, holds, found⟩ := content_of_recordsAt file
  obtain ⟨r, named, node⟩ := Fs.dir_of_content holds
  exact ⟨r, named, (Fs.records_eq node).trans found⟩

/-- Starting a batch on a database opens it. -/
theorem open_started (memory : Nat → Slot) {f : Path} {fs : Fs} {r : Inode} {old : List Record}
    (named : fs.dir f = some r) (file : fs.records r = some old) {batch : List Change}
    {fil : List Filter} (room : Room batch fil) :
    (queueAll batch fil (started memory f fs.next r)).Open old (fs.started f) := by
  have fits := (fits_iff_room memory f fs.next r batch fil).2 room
  rw [queueAll_started] at fits ⊢
  refine ⟨Fs.node_started_next fs f, ?_, Fs.dir_started_tmp fs f, tmpName_ne f, fits⟩
  rw [Fs.records_eq (Fs.node_started_ne fs (Fs.ne_next_of_dir fs named))]
  exact file

/-- **A batch replaces the database's file and nothing else.**  An empty result
is not put in place: the name is gone. -/
theorem exec_cdbbApply_started (memory : Nat → Slot) (clk : Nat → Taia) {f : Path}
    {batch : List Change} {fil : List Filter} (room : Room batch fil) {fs : Fs} {r : Inode}
    {old : List Record} (named : fs.dir f = some r) (file : fs.records r = some old) :
    ∃ fs', exec (cdbbApply clk (queueAll batch fil (started memory f fs.next r))) (fs.started f) =
        (.ok ((newRecords fil clk (queuedOps memory 0 batch) old).length : Int), fs') ∧
      fs'.content f =
        (if newRecords fil clk (queuedOps memory 0 batch) old = [] then none
          else some (.finished (newRecords fil clk (queuedOps memory 0 batch) old))) ∧
      ∀ p, p ≠ f → p ≠ tmpName f → fs'.content p = fs.content p := by
  have opened := open_started memory named file room
  obtain ⟨fs', ran, atF, -, dir, written, nodes⟩ := exec_cdbbApply clk opened
  rw [queueAll_started] at ran atF dir written nodes
  simp only at ran atF dir written nodes
  refine ⟨fs', ?_, ?_, ?_⟩
  · rw [queueAll_started]
    exact ran
  · simp only [Fs.content, atF]
    split_ifs
    · rfl
    · simp [written]
  · intro p notF notT
    simp only [Fs.content, dir p notF notT, Fs.dir_started_ne fs notT]
    cases found : fs.dir p with
    | none => rfl
    | some i =>
        have old_ := Fs.ne_next_of_dir fs found
        simp only [Option.map_some, nodes i old_, Fs.node_started_ne fs old_]

theorem Fs.content_started_ne {fs : Fs} {f p : Path} (ne : p ≠ tmpName f) :
    (fs.started f).content p = fs.content p := by
  rw [started, Fs.content_create_ne _ ne, Fs.content_unlink_ne _ ne]

/-- What a change makes of the content of its path, and what it returns. -/
def modifyOutcome (memory : Nat → Slot) (clk : Nat → Taia) (batch : List Change)
    (fil : List Filter) : Option Content → Except Fault (Option Int) × Option Content
  | none => (.ok none, none)
  | some c =>
      if Room batch fil then
        match c.records with
        | some old =>
            let new := newRecords fil clk (queuedOps memory 0 batch) old
            (.ok (some new.length), if new = [] then none else some (.finished new))
        | none => (.error .tornFile, some c)
      else (.error .overflow, some c)

section Modify

variable (memory : Nat → Slot) (clk : Nat → Taia) {f : Path} {batch : List Change}
  {fil : List Filter} {fs : Fs} {r : Inode}

theorem modifyOutcome_of_records (room : Room batch fil) {c : Content} {old : List Record}
    (file : c.records = some old) :
    modifyOutcome memory clk batch fil (some c) =
      (.ok (some ((newRecords fil clk (queuedOps memory 0 batch) old).length : Int)),
        if newRecords fil clk (queuedOps memory 0 batch) old = [] then none
        else some (.finished (newRecords fil clk (queuedOps memory 0 batch) old))) := by
  simp only [modifyOutcome, if_pos room, file]

theorem modifyOutcome_torn (room : Room batch fil) {c : Content} (torn : c.records = none) :
    modifyOutcome memory clk batch fil (some c) = (.error .tornFile, some c) := by
  simp only [modifyOutcome, if_pos room, torn]

theorem modifyOutcome_overrun (overrun : ¬ Room batch fil) (c : Content) :
    modifyOutcome memory clk batch fil (some c) = (.error .overflow, some c) := by
  simp only [modifyOutcome, if_neg overrun]

/-- A change writes a new file, finds none, or does not come to an end. -/
theorem modifyOutcome_cases (batch : List Change) (fil : List Filter) (c : Option Content) :
    (∃ old, c.bind Content.records = some old ∧ Room batch fil ∧
      modifyOutcome memory clk batch fil c =
        (.ok (some ((newRecords fil clk (queuedOps memory 0 batch) old).length : Int)),
          if newRecords fil clk (queuedOps memory 0 batch) old = [] then none
          else some (.finished (newRecords fil clk (queuedOps memory 0 batch) old)))) ∨
      (c = none ∧ modifyOutcome memory clk batch fil c = (.ok none, c)) ∨
        ∃ e, modifyOutcome memory clk batch fil c = (.error e, c) := by
  cases c with
  | none => exact .inr (.inl ⟨rfl, rfl⟩)
  | some c =>
      by_cases room : Room batch fil
      · cases file : c.records with
        | none => exact .inr (.inr ⟨_, modifyOutcome_torn memory clk room file⟩)
        | some old => exact .inl ⟨old, file, room, modifyOutcome_of_records memory clk room file⟩
      · exact .inr (.inr ⟨_, modifyOutcome_overrun memory clk room c⟩)

theorem exec_cdbbModify_absent (absent : fs.dir f = none) :
    exec (cdbbModify memory clk f batch fil) fs = (.ok none, fs.started f) := by
  rw [exec, cdbbModify]
  rw [Prog.run_bind_ok handle (exec_cdbbStartMod memory f fs), absent]
  rfl

theorem exec_cdbbModify_named (named : fs.dir f = some r) :
    exec (cdbbModify memory clk f batch fil) fs =
      exec (cdbbApply clk (queueAll batch fil (started memory f fs.next r)) >>= fun err =>
        .ret (some err)) (fs.started f) := by
  rw [exec, cdbbModify]
  rw [Prog.run_bind_ok handle (exec_cdbbStartMod memory f fs), named]
  rfl

/-- Without its tables the old file cannot be copied. -/
theorem exec_cdbbModify_torn (room : Room batch fil) (named : fs.dir f = some r)
    (noTables : fs.records r = none) :
    exec (cdbbModify memory clk f batch fil) fs = (.error .tornFile, fs.started f) := by
  have fits := (fits_iff_room memory f fs.next r batch fil).2 room
  have unread : exec (cdbKeys r) (fs.started f) = (.ok .torn, fs.started f) := by
    show (Except.ok ((fs.started f).node r).keys, fs.started f) = _
    rw [Fs.node_started_ne fs (f := f) (Fs.ne_next_of_dir fs named), Content.records_eq_none noTables]
  rw [exec_cdbbModify_named memory clk named]
  refine Prog.run_bind_error handle ?_
  rw [cdbbApply]
  rw [Prog.run_bind_ok handle (run_unharmed handle fits _), queueAll_started]
  refine Prog.run_bind_error handle ?_
  rw [cdbbCopy]
  rw [Prog.run_bind_ok handle unread]
  rfl

/-- What is queued behind the end of an array is never applied. -/
theorem exec_cdbbModify_overrun (overrun : ¬ Room batch fil) (named : fs.dir f = some r) :
    exec (cdbbModify memory clk f batch fil) fs = (.error .overflow, fs.started f) := by
  rw [exec_cdbbModify_named memory clk named,
    cdbbApply_overrun clk (mt (fits_iff_room memory f fs.next r batch fil).1 overrun)]
  rfl

end Modify

/-- **A change, whatever it finds.**  It concerns its own path and the temporary
name, and without the tables of the old file, or without room for what is queued,
it does not come to an end. -/
theorem exec_cdbbModify (memory : Nat → Slot) (clk : Nat → Taia) (f : Path) (batch : List Change)
    (fil : List Filter) (fs : Fs) :
    let run := exec (cdbbModify memory clk f batch fil) fs
    (run.1, run.2.content f) = modifyOutcome memory clk batch fil (fs.content f) ∧
      ∀ p, p ≠ f → p ≠ tmpName f → run.2.content p = fs.content p := by
  intro run
  have untouched : (fs.started f).content f = fs.content f :=
    Fs.content_started_ne (tmpName_ne f).symm
  have others : ∀ p, p ≠ f → p ≠ tmpName f → (fs.started f).content p = fs.content p :=
    fun p _ notT => Fs.content_started_ne notT
  cases holds : fs.content f with
  | none =>
      have absent : fs.dir f = none := by simpa [Fs.content] using holds
      have ran : run = (.ok none, fs.started f) := exec_cdbbModify_absent memory clk absent
      rw [ran, untouched, holds]
      exact ⟨rfl, others⟩
  | some c =>
      obtain ⟨r, named, node⟩ := Fs.dir_of_content holds
      have file : fs.records r = c.records := Fs.records_eq node
      by_cases room : Room batch fil
      · cases found : c.records with
        | none =>
            have ran : run = (.error .tornFile, fs.started f) :=
              exec_cdbbModify_torn memory clk room named (file.trans found)
            rw [ran, untouched, holds, modifyOutcome_torn memory clk room found]
            exact ⟨rfl, others⟩
        | some old =>
            obtain ⟨fs', applied, content, others⟩ :=
              exec_cdbbApply_started memory clk room named (file.trans found)
            have ran : run = (.ok (some
                ((newRecords fil clk (queuedOps memory 0 batch) old).length : Int)), fs') :=
              (exec_cdbbModify_named memory clk named).trans (Prog.run_bind_ok handle applied)
            rw [ran, content, modifyOutcome_of_records memory clk room found]
            exact ⟨rfl, others⟩
      · have ran : run = (.error .overflow, fs.started f) :=
          exec_cdbbModify_overrun memory clk room named
        rw [ran, untouched, holds, modifyOutcome_overrun memory clk room c]
        exact ⟨rfl, others⟩

end Bagunceiro
