/-
# AddOne -- a process that adds one record

The shortest change there is: `cdbb_start_mod`, one `cdbb_add`, `cdbb_apply`.
`addOne_eq` cuts it where another process can make a difference: before the
temporary file is opened, while it is filled (`writing`), and from the rename on
(`publish`).  Each part comes with what it does when nobody else moves.
-/
import Bagunceiro.CdbbSpec

namespace Bagunceiro

open Effect

set_option autoImplicit false

/-! ## One process -/

/-- `cdbb_start_mod`, one `cdbb_add` and `cdbb_apply`. -/
def addOne (memory : Nat → Slot) (clk : Nat → Taia) (f : Path) (r : Record) : M (Option Int) :=
  cdbbModify memory clk f [.add r.key r.value] []

section Process

variable (memory : Nat → Slot) (clk : Nat → Taia) (f : Path) (r : Record)

/-- The batch of `addOne` between its opening and its application. -/
def addBatch (w i : Inode) : Cdbb := queueAll [.add r.key r.value] [] (started memory f w i)

/-- What `cdbb_apply` does up to the rename. -/
def fill (a : Cdbb) : M Int := do
  let copied ← cdbbCopy clk a
  let added ← cdbbHandleOps copied.1.w copied.1.ops
  return copied.2 + added

/-- What `cdbb_apply` does from the rename on. -/
def publish (w : Inode) (err : Int) : M (Option Int) := do
  let _ ← rename (tmpName f) f
  if err = 0 then
    unlink f
  cdbMakeFinish w
  return some err

/-- Everything between the two files' opening and the rename. -/
def writing (w : Inode) : M (Option Int) := do
  match ← openRead f with
  | none => return none
  | some i => return some (← fill clk (addBatch memory f r w i))

def publishing (w : Inode) : Option Int → M (Option Int)
  | none => return none
  | some err => publish f w err

/-- The process once it has asked for the temporary file. -/
def opening : Option Inode → M (Option Int)
  | none => return none
  | some w => writing memory clk f r w >>= publishing f w

/-- One operation fits. -/
theorem addBatch_fits (w i : Inode) : (addBatch memory f r w i).Fits :=
  (fits_iff_room memory f w i _ _).2 (by simp [Room, numOp])

theorem cdbbApply_eq (a : Cdbb) (temporary : a.t = tmpName a.f) (fits : a.Fits) :
    (do return some (← cdbbApply clk a) : M (Option Int)) = fill clk a >>= publish a.f a.w := by
  unfold cdbbApply fill publish Cdbb.unharmed
  rw [if_pos fits]
  show (cdbbCopy clk a >>= _) >>= _ = _
  rw [Prog.bind_assoc, Prog.bind_assoc, temporary]
  congr 1
  funext copied
  rw [Prog.bind_assoc, Prog.bind_assoc]
  congr 1
  funext added
  show Prog.call _ _ = Prog.call _ _
  congr 1
  funext _
  by_cases empty : copied.2 + added = 0
  · simp only [empty, if_true]
    rfl
  · simp only [empty, if_false]
    rfl

/-- The process once it has unlinked the temporary name. -/
def unlinked : M (Option Int) := .call (.openWrite (tmpName f)) (opening memory clk f r)

theorem addOne_eq : addOne memory clk f r =
    .call (.unlink (tmpName f)) fun _ => unlinked memory clk f r := by
  show Prog.call _ _ = Prog.call _ _
  congr 1
  funext _
  show Prog.call _ _ = Prog.call _ _
  congr 1
  funext w
  cases w with
  | none => rfl
  | some w =>
      show Prog.call _ _ = Prog.call _ _
      congr 1
      funext i
      cases i with
      | none => rfl
      | some i =>
          show (do return some (← cdbbApply clk (addBatch memory f r w i)) : M (Option Int)) =
            (fill clk (addBatch memory f r w i) >>= fun n => .ret (some n)) >>= publishing f w
          rw [cdbbApply_eq clk _ rfl (addBatch_fits memory f r w i), Prog.bind_assoc]
          rfl

theorem publish_eq (w : Inode) {n : Int} (some_ : n ≠ 0) : publish f w n =
    .call (.rename (tmpName f) f) fun _ => .call (.makeFinish w) fun _ => .ret (some n) := by
  rw [publish]
  simp only [some_, if_false]
  rfl

end Process

/-! ## What one process does when it is alone -/

/-- The calls a process makes while it fills the new file. -/
def Copying : Call → Prop
  | .openRead _ | .keys _ | .makeAdd _ _ => True
  | _ => False

theorem makes_cdbbCopyRecord (a : Cdbb) (now : Taia) (placed : Bool) (r : Record) :
    (cdbbCopyRecord a now placed r).Makes Copying := by
  rw [cdbbCopyRecord]
  simp only
  split
  · exact ⟨True.intro, fun _ => True.intro⟩
  · exact True.intro

theorem makes_cdbbCopyFrom (clk : Nat → Taia) (a : Cdbb) (i : Nat) (rs : List Record) :
    (cdbbCopyFrom clk a i rs).Makes Copying := by
  induction rs generalizing a i with
  | nil => exact True.intro
  | cons r rs ih =>
      exact (makes_cdbbCopyRecord a (clk i) true r).bind fun copied =>
        (ih copied.1 (i + 1)).bind fun _ => True.intro

theorem makes_cdbbHandleOps (w : Inode) (ops : List Op) :
    (cdbbHandleOps w ops).Makes Copying := by
  induction ops with
  | nil => exact True.intro
  | cons t ts ih =>
      rw [cdbbHandleOps]
      split
      · exact ⟨True.intro, fun _ => ih.bind fun _ => True.intro⟩
      · exact ih

theorem makes_writing (memory : Nat → Slot) (clk : Nat → Taia) (f : Path) (r : Record)
    (w : Inode) : (writing memory clk f r w).Makes Copying := by
  refine ⟨True.intro, fun found => ?_⟩
  cases found with
  | none => exact True.intro
  | some i =>
      have copy : (cdbbCopy clk (addBatch memory f r w i)).Makes Copying := by
        refine ⟨True.intro, fun keys => ?_⟩
        cases keys with
        | records rs => exact makes_cdbbCopyFrom clk _ 0 rs
        | failed => exact makes_cdbbCopyRecord _ _ false _
        | torn => exact True.intro
      have filling : (fill clk (addBatch memory f r w i)).Makes Copying :=
        copy.bind fun copied => (makes_cdbbHandleOps _ _).bind fun _ => True.intro
      show (fill clk (addBatch memory f r w i) >>= fun n => .ret (some n)).Makes Copying
      exact filling.bind fun _ => True.intro

/-- Adding one record, whatever its slot held: the old records stay. -/
theorem newRecords_addOne (memory : Nat → Slot) (clk : Nat → Taia) (r : Record)
    (old : List Record) :
    newRecords [] clk (queuedOps memory 0 [.add r.key r.value]) old = old ++ [r] := by
  have stays (k v : Bytes) (t : Op) (add : t.t = .add) : (cdbbCheckOps k v [t] false).2 = false := by
    show (checkOp k v t false).2 = false
    rw [checkOp_snd]
    simp [Op.stops, add]
  have loop (i : Nat) (t : Op) (add : t.t = .add) :
      (copyRecords [] clk i [t] old).2 = old ∧
        ∃ u, (copyRecords [] clk i [t] old).1 = [u] ∧ u.toRequest = t.toRequest := by
    induction old generalizing i t with
    | nil => exact ⟨rfl, t, rfl, rfl⟩
    | cons s old ih =>
        have marked : (markOp s.key s.value t).t = .add := by rw [markOp_toRequest, add]
        obtain ⟨kept, u, ops, same⟩ := ih (i + 1) (markOp s.key s.value t) marked
        have checked : (cdbbCheckOps s.key s.value [t] false).1 = [markOp s.key s.value t] := by
          rw [cdbbCheckOps_fst]
          rfl
        refine ⟨?_, u, ?_, ?_⟩
        · simp only [copyRecords, checked, kept, stays s.key s.value t add]
          rfl
        · simp only [copyRecords, checked, ops]
        · rw [same, markOp_toRequest]
  obtain ⟨kept, u, ops, same⟩ := loop 0 (Request.op ⟨.add, r.key, r.value⟩ (memory 0)) rfl
  have writes : u.writes = true := by
    have add : u.t = .add := by rw [same]; rfl
    simp [Op.writes, add]
  show (copyRecords [] clk 0 _ old).2 ++ addedRecords (copyRecords [] clk 0 _ old).1 = _
  show (copyRecords [] clk 0 [Request.op ⟨.add, r.key, r.value⟩ (memory 0)] old).2 ++
    addedRecords (copyRecords [] clk 0 [Request.op ⟨.add, r.key, r.value⟩ (memory 0)] old).1 = _
  rw [kept, ops]
  simp only [addedRecords, List.filter_cons, writes, if_true, List.filter_nil, List.map_cons,
    List.map_nil, same]
  rfl

/-- The state in which a process is about to open the database. -/
structure Ready (f : Path) (w : Inode) (old : List Record) (fs : Fs) : Prop where
  temporary : fs.dir (tmpName f) = some w
  blank : fs.node w = .unfinished []
  database : fs.content f = some (.finished old)

/-- The new file, complete but for its tables, under the temporary name. -/
structure Filled (f : Path) (w : Inode) (new : List Record) (fs : Fs) : Prop where
  temporary : fs.dir (tmpName f) = some w
  filled : fs.node w = .unfinished new

theorem exec_writing (memory : Nat → Slot) (clk : Nat → Taia) {f : Path} (r : Record) {w : Inode}
    {old : List Record} {fs : Fs} (ready : Ready f w old fs) :
    ∃ fs', exec (writing memory clk f r w) fs =
        (.ok (some ((old.length : Int) + 1)), fs') ∧ Filled f w (old ++ [r]) fs' := by
  obtain ⟨i, named, node⟩ := Fs.dir_of_content ready.database
  set a := addBatch memory f r w i with ha
  have opened : a.Open old fs := by
    have fits := addBatch_fits memory f r w i
    rw [← ha] at fits
    rw [ha, addBatch, queueAll_started] at fits ⊢
    exact ⟨ready.blank, Fs.records_of_finished fs node, ready.temporary, tmpName_ne f, fits⟩
  have copy := exec_cdbbCopy clk opened
  have add := exec_cdbbHandleOps_copied clk a old fs
  have new : newRecords a.fil clk a.ops old = old ++ [r] := by
    rw [ha, addBatch, queueAll_started]
    exact newRecords_addOne memory clk r old
  have count : ((copyRecords a.fil clk 0 a.ops old).2.length : Int) +
      (addedRecords (copyRecords a.fil clk 0 a.ops old).1).length = (old.length : Int) + 1 := by
    have := congrArg List.length new
    simp only [newRecords, List.length_append, List.length_cons, List.length_nil] at this
    omega
  have filled : exec (fill clk a) fs =
      (.ok ((old.length : Int) + 1), fs.setNode a.w (.unfinished (old ++ [r]))) := by
    rw [exec, fill]
    rw [Prog.run_bind_ok handle copy]
    simp only
    rw [Prog.run_bind_ok handle add, new, count]
    rfl
  refine ⟨fs.setNode w (.unfinished (old ++ [r])), ?_, ready.temporary, Fs.node_setNode_self _ _ _⟩
  rw [exec, writing]
  have reading : exec (openRead f) fs = (.ok (some i), fs) := by
    show (Except.ok (fs.dir f), fs) = _
    rw [named]
  rw [Prog.run_bind_ok handle reading]
  show Prog.run handle (fill clk a >>= fun n => .ret (some n)) fs = _
  rw [Prog.run_bind_ok handle filled]
  rfl

/-- From the rename on, alone. -/
theorem exec_publish {f : Path} {w : Inode} {new : List Record} {fs : Fs} {n : Int}
    (filled : Filled f w new fs) (some_ : n ≠ 0) :
    ∃ fs', exec (publish f w n) fs = (.ok (some n), fs') ∧
      fs'.content f = some (.finished new) := by
  obtain ⟨-, dir, node, -⟩ := fs.rename_of_some filled.temporary f
  have writing : (fs.rename (tmpName f) f).2.node w = .unfinished new := by
    rw [node, filled.filled]
  refine ⟨(fs.rename (tmpName f) f).2.makeFinish w, ?_, ?_⟩
  · rw [publish_eq f w some_]
    rfl
  · rw [Fs.makeFinish_of_unfinished _ writing]
    simp [Fs.content, dir]

/-- The whole rest of a process, alone, once it holds the temporary file. -/
theorem exec_opening (memory : Nat → Slot) (clk : Nat → Taia) {f : Path} (r : Record) {w : Inode}
    {old : List Record} {fs : Fs} (ready : Ready f w old fs) :
    ∃ fs', exec (opening memory clk f r (some w)) fs =
        (.ok (some ((old.length : Int) + 1)), fs') ∧
      fs'.content f = some (.finished (old ++ [r])) := by
  obtain ⟨fs₁, wrote, filled⟩ := exec_writing memory clk r ready
  obtain ⟨fs₂, published, content⟩ := exec_publish filled (by omega : (old.length : Int) + 1 ≠ 0)
  refine ⟨fs₂, ?_, content⟩
  show Prog.run handle (writing memory clk f r w >>= publishing f w) fs = _
  rw [Prog.run_bind_ok handle wrote]
  exact published

theorem ready_create {f : Path} {old : List Record} {fs : Fs}
    (database : fs.content f = some (.finished old)) :
    Ready f fs.next old (fs.create (tmpName f)) where
  temporary := Fs.dir_create_self _ _
  blank := Fs.node_create_next _ _
  database := by rw [Fs.content_create_ne fs (tmpName_ne f).symm, database]

theorem exec_unlinked (memory : Nat → Slot) (clk : Nat → Taia) {f : Path} (r : Record)
    {old : List Record} {fs : Fs} (absent : fs.dir (tmpName f) = none)
    (database : fs.content f = some (.finished old)) :
    ∃ fs', exec (unlinked memory clk f r) fs = (.ok (some ((old.length : Int) + 1)), fs') ∧
      fs'.content f = some (.finished (old ++ [r])) := by
  obtain ⟨fs', ran, content⟩ := exec_opening memory clk r (ready_create database)
  refine ⟨fs', ?_, content⟩
  show exec (opening memory clk f r (fs.openWrite (tmpName f)).1)
    (fs.openWrite (tmpName f)).2 = _
  rw [Fs.openWrite_of_none fs absent]
  exact ran

theorem exec_addOne (memory : Nat → Slot) (clk : Nat → Taia) {f : Path} (r : Record)
    {old : List Record} {fs : Fs} (database : fs.content f = some (.finished old)) :
    ∃ fs', exec (addOne memory clk f r) fs = (.ok (some ((old.length : Int) + 1)), fs') ∧
      fs'.content f = some (.finished (old ++ [r])) := by
  rw [addOne_eq]
  have database' : (fs.unlink (tmpName f)).content f = some (.finished old) := by
    rw [Fs.content_unlink_ne fs (tmpName_ne f).symm, database]
  exact exec_unlinked memory clk r (Fs.dir_unlink_self fs _) database'

end Bagunceiro
