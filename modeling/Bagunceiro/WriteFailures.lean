/-
# WriteFailures -- a batch whose write steps fail

`cdb_make_add`, `rename` and `cdb_make_finish` say when they fail, and
`cdbb_apply` does not listen: it goes on to the next step, and returns the
number of records it meant to write.  `failing` is the system on which chosen
write steps fail; `run_cdbbApply` says what a batch makes of it.

`handle_query` takes a negative result for a failure (`QA_DELETE`), and there is
none (`cdbbApply_never_reports`).  Nor does the old database stay: unless it is
the rename that fails, the path leads to the file that was not written, or
nowhere.
-/
import Bagunceiro.CdbbSpec

namespace Bagunceiro

open Effect

set_option autoImplicit false

/-! ## A system that fails -/

/-- Which of the write steps of a run fail, first to last.  A step that fails
while it writes leaves the new file in whatever state. -/
abbrev Failures := Nat → Option Content

/-- A write step that fails changes the file it was to write, or nothing. -/
def failing (fails : Failures) : Handler Call Answer (Nat × Fs)
  | .makeAdd i r, (n, fs) =>
      match fails n with
      | none => ((), n + 1, fs.makeAdd i r)
      | some left => ((), n + 1, fs.setNode i left)
  | .rename src dst, (n, fs) =>
      match fails n with
      | none => ((fs.rename src dst).1, n + 1, (fs.rename src dst).2)
      | some _ => (false, n + 1, fs)
  | .makeFinish i, (n, fs) =>
      match fails n with
      | none => ((), n + 1, fs.makeFinish i)
      | some left => ((), n + 1, fs.setNode i left)
  | .unlink p, (n, fs) => ((), n, fs.unlink p)
  | .openWrite p, (n, fs) => ((fs.openWrite p).1, n, (fs.openWrite p).2)
  | .openRead p, (n, fs) => (fs.dir p, n, fs)
  | .openFile p, (n, fs) => ((fs.openFile p).1, n, (fs.openFile p).2)
  | .records i, (n, fs) => (fs.records i, n, fs)
  | .keys i, (n, fs) => ((fs.node i).keys, n, fs)

/-- The names and the other files are as before. -/
structure OnlyFile (i : Inode) (fs fs' : Fs) : Prop where
  dir : fs'.dir = fs.dir
  node : ∀ j, j ≠ i → fs'.node j = fs.node j

namespace OnlyFile

theorem refl (i : Inode) (fs : Fs) : OnlyFile i fs fs := ⟨rfl, fun _ _ => rfl⟩

theorem trans {i : Inode} {fs fs' fs'' : Fs} (first : OnlyFile i fs fs')
    (second : OnlyFile i fs' fs'') : OnlyFile i fs fs'' where
  dir := second.dir.trans first.dir
  node j ne := (second.node j ne).trans (first.node j ne)

theorem setNode (i : Inode) (fs : Fs) (c : Content) : OnlyFile i fs (fs.setNode i c) :=
  ⟨rfl, fun _ ne => Fs.node_setNode_ne fs ne c⟩

theorem makeAdd (i : Inode) (r : Record) (fs : Fs) : OnlyFile i fs (fs.makeAdd i r) := by
  rw [Fs.makeAdd]
  split
  · exact setNode i fs _
  · exact refl i fs

theorem makeFinish (i : Inode) (fs : Fs) : OnlyFile i fs (fs.makeFinish i) := by
  rw [Fs.makeFinish]
  split
  · exact setNode i fs _
  · exact refl i fs

end OnlyFile

/-! ## The steps of a batch -/

section Steps

variable (fails : Failures)

/-- Whether a record was appended or not, the batch goes on. -/
theorem run_cdbMakeAdd (i : Inode) (r : Record) (n : Nat) (fs : Fs) :
    ∃ fs', Prog.run (failing fails) (cdbMakeAdd i r) (n, fs) = (.ok (), n + 1, fs') ∧
      OnlyFile i fs fs' := by
  cases failed : fails n with
  | none =>
      refine ⟨fs.makeAdd i r, ?_, OnlyFile.makeAdd i r fs⟩
      simp [cdbMakeAdd, Prog.perform, Prog.run, failing, failed]
  | some left =>
      refine ⟨fs.setNode i left, ?_, OnlyFile.setNode i fs left⟩
      simp [cdbMakeAdd, Prog.perform, Prog.run, failing, failed]

theorem run_cdbbCopyRecord (a : Cdbb) (now : Taia) (r : Record) (n : Nat) (fs : Fs) :
    let checked := cdbbCheckOps r.key r.value a.ops false
    let kept := if !checked.2 && !cdbbCheckFilter a.fil now r then 1 else 0
    ∃ fs', Prog.run (failing fails) (cdbbCopyRecord a now true r) (n, fs) =
        (.ok ({ a with ops := checked.1 }, (kept : Nat)), n + kept, fs') ∧ OnlyFile a.w fs fs' := by
  intro checked kept
  rw [cdbbCopyRecord]
  simp only
  cases keep : !checked.2 && !cdbbCheckFilter a.fil now r with
  | true =>
      obtain ⟨fs', ran, only⟩ := run_cdbMakeAdd fails a.w r n fs
      refine ⟨fs', ?_, only⟩
      simp only [checked] at keep
      simp only [keep, kept, checked, Bool.and_true, if_true]
      rw [Prog.run_bind_ok _ ran]
      rfl
  | false =>
      refine ⟨fs, ?_, OnlyFile.refl a.w fs⟩
      simp only [checked] at keep
      simp only [keep, kept, checked, Bool.and_true, Bool.false_eq_true, if_false]
      rfl

theorem run_cdbbCopyFrom (clk : Nat → Taia) (old : List Record) (a : Cdbb) (i n : Nat) (fs : Fs) :
    let copied := copyRecords a.fil clk i a.ops old
    ∃ fs', Prog.run (failing fails) (cdbbCopyFrom clk a i old) (n, fs) =
        (.ok ({ a with ops := copied.1 }, (copied.2.length : Int)), n + copied.2.length, fs') ∧
      OnlyFile a.w fs fs' := by
  induction old generalizing a i n fs with
  | nil => exact ⟨fs, rfl, OnlyFile.refl a.w fs⟩
  | cons r old ih =>
      intro copied
      obtain ⟨fs₁, first, only₁⟩ := run_cdbbCopyRecord fails a (clk i) r n fs
      obtain ⟨fs₂, rest, only₂⟩ := ih { a with ops := (cdbbCheckOps r.key r.value a.ops false).1 }
        (i + 1) (n + if !(cdbbCheckOps r.key r.value a.ops false).2 &&
          !cdbbCheckFilter a.fil (clk i) r then 1 else 0) fs₁
      refine ⟨fs₂, ?_, only₁.trans only₂⟩
      rw [cdbbCopyFrom]
      rw [Prog.run_bind_ok _ first, Prog.run_bind_ok _ rest]
      simp only [Prog.pure_eq, Prog.run_ret, copied, copyRecords]
      cases !(cdbbCheckOps r.key r.value a.ops false).2 && !cdbbCheckFilter a.fil (clk i) r with
      | true =>
          simp [Int.add_comm]
          omega
      | false => simp

theorem run_cdbbHandleOps (w : Inode) (ops : List Op) (n : Nat) (fs : Fs) :
    ∃ fs', Prog.run (failing fails) (cdbbHandleOps w ops) (n, fs) =
        (.ok ((addedRecords ops).length : Int), n + (addedRecords ops).length, fs') ∧
      OnlyFile w fs fs' := by
  induction ops generalizing n fs with
  | nil => exact ⟨fs, rfl, OnlyFile.refl w fs⟩
  | cons t ts ih =>
      cases writes : t.writes with
      | true =>
          obtain ⟨fs₁, first, only₁⟩ := run_cdbMakeAdd fails w t.record n fs
          obtain ⟨fs₂, rest, only₂⟩ := ih (n + 1) fs₁
          refine ⟨fs₂, ?_, only₁.trans only₂⟩
          rw [cdbbHandleOps]
          simp only [writes, if_true]
          rw [Prog.run_bind_ok _ first, Prog.run_bind_ok _ rest]
          simp [addedRecords, writes, Int.add_comm]
          omega
      | false =>
          obtain ⟨fs₁, rest, only⟩ := ih n fs
          refine ⟨fs₁, ?_, only⟩
          rw [cdbbHandleOps]
          simp only [writes, Bool.false_eq_true, if_false, rest]
          simp [addedRecords, writes]

theorem run_cdbMakeFinish (i : Inode) (n : Nat) (fs : Fs) :
    ∃ fs', Prog.run (failing fails) (cdbMakeFinish i) (n, fs) = (.ok (), n + 1, fs') ∧
      OnlyFile i fs fs' := by
  cases failed : fails n with
  | none =>
      refine ⟨fs.makeFinish i, ?_, OnlyFile.makeFinish i fs⟩
      simp [cdbMakeFinish, Prog.perform, Prog.run, failing, failed]
  | some left =>
      refine ⟨fs.setNode i left, ?_, OnlyFile.setNode i fs left⟩
      simp [cdbMakeFinish, Prog.perform, Prog.run, failing, failed]

/-- The rename moves the new file over the old one, or does nothing. -/
theorem run_rename {src : Path} (dst : Path) {i : Inode} {n : Nat} {fs : Fs} (named : fs.dir src = some i) :
    ∃ done fs', Prog.run (failing fails) (rename src dst) (n, fs) = (.ok done, n + 1, fs') ∧
      fs'.node = fs.node ∧
      fs'.dir = if (fails n).isSome then fs.dir
        else Function.update (Function.update fs.dir src none) dst (some i) := by
  obtain ⟨-, dir, node, -⟩ := fs.rename_of_some named dst
  cases failed : fails n with
  | none =>
      refine ⟨(fs.rename src dst).1, (fs.rename src dst).2, ?_, node, dir⟩
      simp [rename, Prog.perform, Prog.run, failing, failed]
  | some left =>
      refine ⟨false, fs, ?_, rfl, rfl⟩
      simp [rename, Prog.perform, Prog.run, failing, failed]

end Steps

/-! ## The batch -/

/-- **A batch on a failing system.**  Its result is the number of records it
meant to write.  Afterwards the path leads to the old file when only the rename
has failed it, and to the new one, whatever that holds, when it has not; a batch
that meant to write nothing has removed what was there. -/
theorem run_cdbbApply (fails : Failures) (clk : Nat → Taia) {a : Cdbb} {old : List Record} {fs : Fs}
    {r : Inode} (opened : a.Open old fs) (named : fs.dir a.f = some r) (n : Nat) :
    let new := newRecords a.fil clk a.ops old
    ∃ m fs', Prog.run (failing fails) (cdbbApply clk a) (n, fs) = (.ok (new.length : Int), m, fs') ∧
      fs'.dir a.f = (if new = [] then none
        else if (fails (n + new.length)).isSome then some r else some a.w) ∧
      ∀ j, j ≠ a.w → fs'.node j = fs.node j := by
  intro new
  have count : new.length = (copyRecords a.fil clk 0 a.ops old).2.length +
      (addedRecords (copyRecords a.fil clk 0 a.ops old).1).length := by
    simp [new, newRecords]
  obtain ⟨fs₁, copied, only₁⟩ := run_cdbbCopyFrom fails clk old a 0 n fs
  obtain ⟨fs₂, added, only₂⟩ := run_cdbbHandleOps fails a.w (copyRecords a.fil clk 0 a.ops old).1
    (n + (copyRecords a.fil clk 0 a.ops old).2.length) fs₁
  have only := only₁.trans only₂
  have temporary : fs₂.dir a.t = some a.w := by rw [only.dir]; exact opened.temporary
  obtain ⟨done, fs₃, renamed, node₃, dir₃⟩ := run_rename fails a.f
    (n := n + new.length) temporary
  have start : Prog.run (failing fails) (cdbbCopy clk a) (n, fs) =
      (.ok ({ a with ops := (copyRecords a.fil clk 0 a.ops old).1 },
        ((copyRecords a.fil clk 0 a.ops old).2.length : Int)),
        n + (copyRecords a.fil clk 0 a.ops old).2.length, fs₁) := by
    have keys : Prog.run (failing fails) (cdbKeys a.r) (n, fs) =
        (.ok (fs.node a.r).keys, n, fs) := rfl
    rw [run_cdbbCopy (failing fails) clk a keys opened.reading]
    exact copied
  have result : ((copyRecords a.fil clk 0 a.ops old).2.length : Int) +
      ((addedRecords (copyRecords a.fil clk 0 a.ops old).1).length : Int) = new.length := by
    rw [count]
    push_cast
    rfl
  have position : n + (copyRecords a.fil clk 0 a.ops old).2.length +
      (addedRecords (copyRecords a.fil clk 0 a.ops old).1).length = n + new.length := by omega
  rw [position] at added
  rw [cdbbApply]
  rw [Prog.run_bind_ok _ (run_unharmed _ opened.fits (n, fs))]
  rw [Prog.run_bind_ok _ start]
  simp only
  rw [Prog.run_bind_ok _ added, result, Prog.run_bind_ok _ renamed]
  by_cases empty : new = []
  · obtain ⟨fs₄, finished, only₄⟩ :=
      run_cdbMakeFinish fails a.w (n + new.length + 1) (fs₃.unlink a.f)
    refine ⟨n + new.length + 1 + 1, fs₄, ?_, ?_, ?_⟩
    · rw [empty] at finished ⊢
      simp only [List.length_nil, Nat.cast_zero, if_true] at finished ⊢
      show Prog.run (failing fails) (cdbMakeFinish a.w >>= _) (n + 0 + 1, fs₃.unlink a.f) = _
      rw [Prog.run_bind_ok _ finished]
      rfl
    · rw [if_pos empty, only₄.dir, Fs.dir_unlink_self]
    · intro j ne
      rw [only₄.node j ne]
      show fs₃.node j = _
      rw [node₃, only.node j ne]
  · obtain ⟨fs₄, finished, only₄⟩ := run_cdbMakeFinish fails a.w (n + new.length + 1) fs₃
    have some_ : ¬ ((new.length : Int) = 0) := by simpa using empty
    refine ⟨n + new.length + 1 + 1, fs₄, ?_, ?_, ?_⟩
    · rw [if_neg some_]
      show Prog.run (failing fails) (cdbMakeFinish a.w >>= _) _ = _
      rw [Prog.run_bind_ok _ finished]
      rfl
    · rw [if_neg empty, only₄.dir, dir₃]
      split
      · rw [only.dir, named]
      · rw [Function.update_self]
    · intro j ne
      rw [only₄.node j ne, node₃, only.node j ne]

/-- What a caller may expect of a batch that fails: it hears of it, and the old
database is still there. -/
def FailsSafely (fails : Failures) (memory : Nat → Slot) (clk : Nat → Taia) (f : Path)
    (batch : List Change) (fil : List Filter) (old : List Record) (fs : Fs) : Prop :=
  ∃ err n fs', Prog.run (failing fails) (cdbbModify memory clk f batch fil) (0, fs) =
      (.ok (some err), n, fs') ∧ err < 0 ∧ fs'.content f = some (.finished old)

section Modify

variable (fails : Failures) (memory : Nat → Slot) (clk : Nat → Taia) {f : Path}
  {batch : List Change} {fil : List Filter} {fs : Fs} {old : List Record}

/-- Opening the files takes no write step. -/
theorem run_cdbbStartMod {r : Inode} (named : fs.dir f = some r) :
    Prog.run (failing fails) (cdbbStartMod memory f) (0, fs) =
      (.ok (some (started memory f fs.next r)), 0, fs.started f) := by
  have write : Prog.run (failing fails) (cdbbOpenWrite (tmpName f)) (0, fs) =
      (.ok (some fs.next), 0, fs.started f) := by
    change (Except.ok ((fs.unlink (tmpName f)).openWrite (tmpName f)).1, 0,
      ((fs.unlink (tmpName f)).openWrite (tmpName f)).2) = _
    rw [Fs.openWrite_of_none _ (Fs.dir_unlink_self fs _)]
    rfl
  have read : Prog.run (failing fails) (cdbbOpenRead f) (0, fs.started f) =
      (.ok (some r), 0, fs.started f) := by
    change (Except.ok ((fs.started f).dir f), 0, fs.started f) = _
    rw [Fs.dir_started_ne fs (tmpName_ne f).symm, named]
  rw [cdbbStartMod]
  rw [Prog.run_bind_ok _ write]
  simp only
  rw [Prog.run_bind_ok _ read]
  rfl

theorem run_cdbbModify (room : Room batch fil) {r : Inode} (named : fs.dir f = some r)
    (holds : fs.node r = .finished old) :
    let new := newRecords fil clk (queuedOps memory 0 batch) old
    ∃ n fs', Prog.run (failing fails) (cdbbModify memory clk f batch fil) (0, fs) =
        (.ok (some (new.length : Int)), n, fs') ∧
      fs'.dir f = (if new = [] then none
        else if (fails new.length).isSome then some r else some fs.next) ∧
      fs'.node r = .finished old := by
  have opened := open_started memory named (Fs.records_of_finished fs holds) room
  have atF : (fs.started f).dir f = some r := by
    rw [Fs.dir_started_ne fs (tmpName_ne f).symm, named]
  obtain ⟨n, fs', ran, dir, nodes⟩ := run_cdbbApply fails clk opened (r := r)
    (by rw [queueAll_started]; exact atF) 0
  rw [queueAll_started] at ran dir nodes
  simp only [Nat.zero_add] at ran dir nodes
  refine ⟨n, fs', ?_, dir, ?_⟩
  · rw [cdbbModify]
    rw [Prog.run_bind_ok _ (run_cdbbStartMod fails memory named)]
    simp only
    rw [queueAll_started, Prog.run_bind_ok _ ran]
    rfl
  · have other := Fs.ne_next_of_dir fs named
    rw [nodes r other, Fs.node_started_ne fs other, holds]

/-- The result is a count: it is not negative. -/
theorem run_cdbbModify_nonneg (holds : fs.content f = some (.finished old)) {err : Int} {n : Nat}
    {fs' : Fs} (ran : Prog.run (failing fails) (cdbbModify memory clk f batch fil) (0, fs) =
      (.ok (some err), n, fs')) : 0 ≤ err := by
  obtain ⟨r, named, node⟩ := Fs.dir_of_content holds
  by_cases room : Room batch fil
  · obtain ⟨m, fs'', ran', -⟩ := run_cdbbModify fails memory clk room named node
    rw [ran'] at ran
    cases ran
    exact Int.natCast_nonneg _
  · rw [cdbbModify] at ran
    rw [Prog.run_bind_ok _ (run_cdbbStartMod fails memory named)] at ran
    simp only at ran
    rw [cdbbApply_overrun clk (mt (fits_iff_room memory f fs.next r batch fil).1 room)] at ran
    cases ran

end Modify

/-- **No failure is ever reported**, whichever write steps fail, on every
database and for every batch. -/
theorem cdbbApply_never_reports (fails : Failures) (memory : Nat → Slot) (clk : Nat → Taia)
    (f : Path) (batch : List Change) (fil : List Filter) (old : List Record) (fs : Fs)
    (holds : fs.content f = some (.finished old)) :
    ¬ FailsSafely fails memory clk f batch fil old fs := by
  rintro ⟨err, n, fs', ran, negative, -⟩
  have := run_cdbbModify_nonneg fails memory clk holds ran
  omega

/-- The first record is lost on the way: the batch reports two records, and the
one that was there before is gone. -/
theorem lost_record_unreported :
    let old : List Record := [⟨[1], [10]⟩]
    let fs := Fs.empty.install (str "db") (.finished old)
    let fails : Failures := fun n => if n = 0 then some (.unfinished []) else none
    let memory : Nat → Slot := fun _ => ⟨0, 0, fun _ => 0⟩
    let clk : Nat → Taia := fun _ => ⟨0, 0, 0⟩
    let run := Prog.run (failing fails) (cdbbModify memory clk (str "db") [.add [2] [20]] []) (0, fs)
    run.1.toOption = some (some 2) ∧
      run.2.2.content (str "db") = some (.finished [⟨[2], [20]⟩]) ∧
      ¬ FailsSafely fails memory clk (str "db") [.add [2] [20]] [] old fs := by
  intro old fs fails memory clk run
  refine ⟨by decide +kernel, by decide +kernel, ?_⟩
  rintro ⟨err, n, fs', ran, negative, -⟩
  have holds : fs.content (str "db") = some (.finished old) := Fs.content_install_self _ _ _
  have := run_cdbbModify_nonneg fails memory clk holds ran
  omega

/-- The rename fails: the old database is there, and the caller is told that two
records were written. -/
theorem cdbbApply_never_reports_sample :
    let old : List Record := [⟨[1], [10]⟩]
    let fails : Failures := fun n => if n = 2 then some .clobbered else none
    ¬ FailsSafely fails (fun _ => ⟨0, 0, fun _ => 0⟩) (fun _ => ⟨0, 0, 0⟩) (str "db")
      [.add [2] [20]] [] old (Fs.empty.install (str "db") (.finished old)) := by
  intro old fails
  exact cdbbApply_never_reports fails _ _ _ _ _ old _ (Fs.content_install_self _ _ _)

end Bagunceiro
