/-
# Durability -- what a reader finds while a batch is applied

A reader, or the next process after a crash, opens the database's path at some
moment of a change.  It should find the old database or the new one
(`Whole`).  The engine writes the new one beside the old one and renames it, as
one does for that purpose, but it renames the file before `cdb_make_finish` has
written its tables: from the rename on the path leads to a file that is not
searchable (`unfinished_visited`), on every database and for every batch that has
room.  One that has not does not come to an end.
-/
import Bagunceiro.CdbbSpec

namespace Bagunceiro

open Effect

set_option autoImplicit false

/-- The path leads to one of the two complete databases. -/
def Whole (f : Path) (old new : List Record) (fs : Fs) : Prop :=
  fs.content f = some (.finished old) ∨ fs.content f = some (.finished new)

/-- The change comes to an end, and every file system its run goes through, its
start and its end included, has a complete database at the path. -/
def AlwaysWhole (memory : Nat → Slot) (clk : Nat → Taia) (f : Path) (batch : List Change)
    (fil : List Filter) (old : List Record) (fs : Fs) : Prop :=
  (∃ n, (exec (cdbbModify memory clk f batch fil) fs).1 = .ok n) ∧
    ∀ s ∈ Prog.visited handle (cdbbModify memory clk f batch fil) fs,
      Whole f old (newRecords fil clk (queuedOps memory 0 batch) old) s

theorem content_renamed {fs : Fs} {src dst : Path} {i : Inode} (named : fs.dir src = some i) :
    (fs.rename src dst).2.content dst = some (fs.node i) := by
  obtain ⟨-, dir, node, -⟩ := fs.rename_of_some named dst
  simp [Fs.content, dir, node]

/-- Right after its rename an open batch has the unfinished file in place. -/
theorem unfinished_visited_apply (clk : Nat → Taia) {a : Cdbb} {old : List Record} {fs : Fs}
    (opened : a.Open old fs) :
    ∃ s ∈ Prog.visited handle (cdbbApply clk a) fs,
      s.content a.f = some (.unfinished (newRecords a.fil clk a.ops old)) := by
  set written := fs.setNode a.w (.unfinished (newRecords a.fil clk a.ops old)) with hwritten
  have named : written.dir a.t = some a.w := opened.temporary
  refine ⟨(written.rename a.t a.f).2, ?_, ?_⟩
  · apply Prog.mem_visited_bind handle (run_unharmed handle opened.fits fs)
    apply Prog.mem_visited_bind handle (exec_cdbbCopy clk opened)
    apply Prog.mem_visited_bind handle (exec_cdbbHandleOps_copied clk a old fs)
    exact Prog.mem_visited_call handle (Prog.mem_visited_start handle _ _)
  · rw [content_renamed named, hwritten, Fs.node_setNode_self]

theorem unfinished_visited (memory : Nat → Slot) (clk : Nat → Taia) {f : Path}
    {batch : List Change} {fil : List Filter} (room : Room batch fil) {fs : Fs} {old : List Record}
    (holds : fs.content f = some (.finished old)) :
    ∃ s ∈ Prog.visited handle (cdbbModify memory clk f batch fil) fs,
      s.content f = some (.unfinished (newRecords fil clk (queuedOps memory 0 batch) old)) := by
  obtain ⟨r, named, node⟩ := Fs.dir_of_content holds
  have opened := open_started memory named (Fs.records_of_finished fs node) room
  obtain ⟨s, member, torn⟩ := unfinished_visited_apply clk opened
  simp only [queueAll_started] at torn
  refine ⟨s, ?_, torn⟩
  apply Prog.mem_visited_bind handle (exec_cdbbStartMod memory f fs)
  rw [named]
  apply Prog.mem_visited_bind_left handle
  exact member

theorem not_alwaysWhole_of_unfinished {memory : Nat → Slot} {clk : Nat → Taia} {f : Path}
    {batch : List Change} {fil : List Filter} {old : List Record} {fs s : Fs} {rs : List Record}
    (member : s ∈ Prog.visited handle (cdbbModify memory clk f batch fil) fs)
    (torn : s.content f = some (.unfinished rs)) :
    ¬ AlwaysWhole memory clk f batch fil old fs := by
  rintro ⟨-, always⟩
  rcases always s member with whole | whole <;> rw [torn] at whole <;> cases whole

/-- **No change is atomic.**  Whatever the database and the batch, a reader that
comes between the rename and the finishing finds a file without its tables. -/
theorem cdbbModify_never_alwaysWhole (memory : Nat → Slot) (clk : Nat → Taia) (f : Path)
    (batch : List Change) (fil : List Filter) (fs : Fs) (old : List Record)
    (holds : fs.content f = some (.finished old)) :
    ¬ AlwaysWhole memory clk f batch fil old fs := by
  by_cases room : Room batch fil
  · obtain ⟨s, member, torn⟩ := unfinished_visited memory clk room holds
    exact not_alwaysWhole_of_unfinished member torn
  · rintro ⟨⟨n, ended⟩, -⟩
    obtain ⟨r, named, -⟩ := Fs.dir_of_content holds
    rw [exec_cdbbModify_overrun memory clk room named] at ended
    cases ended

/-- The last record is deleted: the torn file has the name until it is unlinked. -/
theorem cdbbModify_never_alwaysWhole_del :
    let old : List Record := [⟨[1], [10]⟩]
    ¬ AlwaysWhole (fun _ => ⟨0, 0, fun _ => 0⟩) (fun _ => ⟨0, 0, 0⟩) (str "db") [.del [1]] [] old
      (Fs.empty.install (str "db") (.finished old)) :=
  cdbbModify_never_alwaysWhole _ _ _ _ _ _ _ (Fs.content_install_self _ _ _)

/-- A second record is added, and a reader meets both of them without their tables. -/
theorem torn_while_adding :
    let old : List Record := [⟨[1], [10]⟩]
    let fs := Fs.empty.install (str "db") (.finished old)
    (∃ s ∈ Prog.visited handle (cdbbModify (fun _ => ⟨0, 0, fun _ => 0⟩) (fun _ => ⟨0, 0, 0⟩)
        (str "db") [.add [2] [20]] []) fs,
      s.content (str "db") = some (.unfinished [⟨[1], [10]⟩, ⟨[2], [20]⟩])) ∧
      ¬ AlwaysWhole (fun _ => ⟨0, 0, fun _ => 0⟩) (fun _ => ⟨0, 0, 0⟩) (str "db")
        [.add [2] [20]] [] old fs := by
  intro old fs
  have holds : fs.content (str "db") = some (.finished old) := Fs.content_install_self _ _ _
  have room : Room [.add [2] [20]] [] := by decide
  obtain ⟨s, member, torn⟩ := unfinished_visited (fun _ => ⟨0, 0, fun _ => 0⟩)
    (fun _ => ⟨0, 0, 0⟩) room holds
  have written : newRecords [] (fun _ => ⟨0, 0, 0⟩)
      (queuedOps (fun _ => ⟨0, 0, fun _ => 0⟩) 0 [.add [2] [20]]) old =
      [⟨[1], [10]⟩, ⟨[2], [20]⟩] := by decide
  exact ⟨⟨s, member, written ▸ torn⟩, not_alwaysWhole_of_unfinished member torn⟩

end Bagunceiro
