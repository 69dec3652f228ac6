/-
# Libowfat.Cdb -- constant databases and the directory they live in

A cdb file is a sequence of key/value records behind hash tables that
`cdb_make_finish` writes last.  Until then the file is not searchable
(`Content.unfinished`), whatever was appended to it.  A file without a byte
(`Content.empty`) is what `init/session.inc` is.  Directories map paths to
files, so a file that is unlinked, or replaced by `rename`, stays what it is for
whoever holds it open.

Two processes that write through one file leave bytes this model says nothing
about (`Content.clobbered`).

Assumed of libowfat: `cdb_make_add` appends a record and `cdb_make_finish` writes
the tables; `cdb_firstkey` and `cdb_nextkey` enumerate the records in the order of
the file, `cdb_find` and `cdb_findnext` those of a key in that order.  In a file
without a byte `cdb_find` finds nothing, and `cdb_firstkey` fails and leaves the
`struct cdb` as `cdb_init` made it: no key, no value, position 0.  Of a file
without its tables only this: nothing is found.

`Call` lists the calls the blog makes, `handle` says what each does when no
system call fails; the code itself is a `Prog` over these calls.
-/
import Mathlib.Logic.Function.Basic
import Bagunceiro.Lib.Prog
import Bagunceiro.Libowfat.Bytes

namespace Bagunceiro

open Effect

set_option autoImplicit false

abbrev Path := Bytes
abbrev Inode := Nat

structure Record where
  key : Bytes
  value : Bytes
  deriving DecidableEq, Repr

/-- What a file holds, as far as cdb is concerned. -/
inductive Content
  | empty
  | finished (records : List Record)
  | unfinished (records : List Record)
  | clobbered
  deriving DecidableEq, Repr

/-- What `cdb_firstkey` and `cdb_nextkey` enumerate. -/
inductive Keys
  | records (records : List Record)
  /-- `cdb_firstkey` fails on a file without a byte -/
  | failed
  /-- the tables are missing -/
  | torn
  deriving DecidableEq, Repr

/-- The records of a file, when they can be looked up. -/
def Content.records : Content → Option (List Record)
  | .empty => some []
  | .finished records => some records
  | .unfinished _ => none
  | .clobbered => none

def Content.keys : Content → Keys
  | .empty => .failed
  | .finished records => .records records
  | .unfinished _ => .torn
  | .clobbered => .torn

/-- The names, the files behind them, and the first unused file number. -/
structure Fs where
  dir : Path → Option Inode
  node : Inode → Content
  next : Inode
  fresh : ∀ path i, dir path = some i → i < next

namespace Fs

/-- What opening a path finds. -/
def content (fs : Fs) (p : Path) : Option Content := (fs.dir p).map fs.node

def unlink (fs : Fs) (p : Path) : Fs where
  dir := Function.update fs.dir p none
  node := fs.node
  next := fs.next
  fresh q i named := by
    by_cases same : q = p
    · subst same; simp at named
    · rw [Function.update_of_ne same] at named; exact fs.fresh q i named

/-- A new file under a name. -/
def create (fs : Fs) (p : Path) : Fs where
  dir := Function.update fs.dir p (some fs.next)
  node := Function.update fs.node fs.next (.unfinished [])
  next := fs.next + 1
  fresh q i named := by
    by_cases same : q = p
    · subst same
      rw [Function.update_self, Option.some.injEq] at named
      exact named ▸ Nat.lt_succ_self _
    · rw [Function.update_of_ne same] at named
      exact Nat.lt_succ_of_lt (fs.fresh q i named)

def setNode (fs : Fs) (i : Inode) (c : Content) : Fs where
  dir := fs.dir
  node := Function.update fs.node i c
  next := fs.next
  fresh := fs.fresh

/-- No files at all. -/
def empty : Fs where
  dir _ := none
  node _ := .unfinished []
  next := 0
  fresh _ _ named := by cases named

/-- A file with a given content under a name. -/
def install (fs : Fs) (p : Path) (c : Content) : Fs := (fs.create p).setNode fs.next c

/-- `open_write` and `cdb_make_start`: a second writer on a file that is already
there leaves no telling what the file holds. -/
def openWrite (fs : Fs) (p : Path) : Option Inode × Fs :=
  match fs.dir p with
  | none => (some fs.next, fs.create p)
  | some i => (some i, fs.setNode i .clobbered)

/-- `open_write` alone: a file that is not there is made, without a byte. -/
def openFile (fs : Fs) (p : Path) : Option Inode × Fs :=
  match fs.dir p with
  | none => (some fs.next, fs.install p .empty)
  | some i => (some i, fs)

/-- `cdb_make_add`: the record goes behind the ones already appended. -/
def makeAdd (fs : Fs) (i : Inode) (r : Record) : Fs :=
  match fs.node i with
  | .unfinished records => fs.setNode i (.unfinished (records ++ [r]))
  | _ => fs

/-- `cdb_make_finish`: the tables and the header are written. -/
def makeFinish (fs : Fs) (i : Inode) : Fs :=
  match fs.node i with
  | .unfinished records => fs.setNode i (.finished records)
  | _ => fs

/-- `rename`, refused when the old name is not there. -/
def rename (fs : Fs) (src dst : Path) : Bool × Fs :=
  match h : fs.dir src with
  | none => (false, fs)
  | some i =>
      (true,
        { dir := Function.update (Function.update fs.dir src none) dst (some i)
          node := fs.node
          next := fs.next
          fresh := by
            intro q j named
            by_cases isDst : q = dst
            · subst isDst
              simp only [Function.update_self, Option.some.injEq] at named
              subst named
              exact fs.fresh src i h
            · rw [Function.update_of_ne isDst] at named
              by_cases isSrc : q = src
              · subst isSrc; simp at named
              · rw [Function.update_of_ne isSrc] at named; exact fs.fresh q j named })

def records (fs : Fs) (i : Inode) : Option (List Record) := (fs.node i).records

end Fs

/-! ## Calls -/

inductive Call
  | unlink (p : Path)
  /-- `open_write` and `cdb_make_start` -/
  | openWrite (p : Path)
  /-- `open_write` and `close` -/
  | openFile (p : Path)
  /-- `open_read` and `cdb_init` -/
  | openRead (p : Path)
  /-- what `cdb_find` and `cdb_findnext` search -/
  | records (i : Inode)
  /-- what `cdb_firstkey` and `cdb_nextkey` enumerate -/
  | keys (i : Inode)
  | makeAdd (i : Inode) (r : Record)
  | rename (src dst : Path)
  | makeFinish (i : Inode)
  deriving DecidableEq, Repr

def Answer : Call → Type
  | .unlink _ => Unit
  | .openWrite _ => Option Inode
  | .openFile _ => Option Inode
  | .openRead _ => Option Inode
  | .records _ => Option (List Record)
  | .keys _ => Keys
  | .makeAdd _ _ => Unit
  | .rename _ _ => Bool
  | .makeFinish _ => Unit

/-- What a call does when it is not made to fail. -/
def handle : Handler Call Answer Fs
  | .unlink p, fs => ((), fs.unlink p)
  | .openWrite p, fs => fs.openWrite p
  | .openFile p, fs => fs.openFile p
  | .openRead p, fs => (fs.dir p, fs)
  | .records i, fs => (fs.records i, fs)
  | .keys i, fs => ((fs.node i).keys, fs)
  | .makeAdd i r, fs => ((), fs.makeAdd i r)
  | .rename src dst, fs => fs.rename src dst
  | .makeFinish i, fs => ((), fs.makeFinish i)

abbrev M := Prog Fault Call Answer

def unlink (p : Path) : M Unit := Prog.perform (Call.unlink p)
def openWrite (p : Path) : M (Option Inode) := Prog.perform (Call.openWrite p)
def openFile (p : Path) : M (Option Inode) := Prog.perform (Call.openFile p)
def openRead (p : Path) : M (Option Inode) := Prog.perform (Call.openRead p)
def records (i : Inode) : M (Option (List Record)) := Prog.perform (Call.records i)
def cdbKeys (i : Inode) : M Keys := Prog.perform (Call.keys i)
def cdbMakeAdd (i : Inode) (r : Record) : M Unit := Prog.perform (Call.makeAdd i r)
def rename (src dst : Path) : M Bool := Prog.perform (Call.rename src dst)
def cdbMakeFinish (i : Inode) : M Unit := Prog.perform (Call.makeFinish i)

/-- Run a program on the files, with no call failing. -/
abbrev exec {α : Type} (p : M α) (fs : Fs) : Except Fault α × Fs := Prog.run handle p fs

/-! ## Lookups

`cdb_find` and `cdb_findnext` find the records of a key in the order in which
they were appended; a file without tables is not searchable. -/

/-- The values stored under a key, first to last. -/
def findAll (file : Option (List Record)) (k : Bytes) : List Bytes :=
  match file with
  | some recs => (recs.filter (·.key = k)).map (·.value)
  | none => []

/-! ## What the calls do to what paths hold -/

namespace Fs

variable (fs : Fs)

theorem content_unlink_ne {p q : Path} (ne : q ≠ p) : (fs.unlink p).content q = fs.content q := by
  simp [content, unlink, Function.update_of_ne ne]

@[simp] theorem dir_unlink_self (p : Path) : (fs.unlink p).dir p = none := by
  simp [unlink]

theorem dir_unlink_ne {p q : Path} (ne : q ≠ p) : (fs.unlink p).dir q = fs.dir q := by
  simp [unlink, Function.update_of_ne ne]

@[simp] theorem dir_create_self (p : Path) : (fs.create p).dir p = some fs.next := by
  simp [create]

theorem dir_create_ne {p q : Path} (ne : q ≠ p) : (fs.create p).dir q = fs.dir q := by
  simp [create, Function.update_of_ne ne]

@[simp] theorem node_create_next (p : Path) : (fs.create p).node fs.next = .unfinished [] := by
  simp [create]

theorem node_create_ne {p : Path} {i : Inode} (ne : i ≠ fs.next) :
    (fs.create p).node i = fs.node i := by
  simp [create, Function.update_of_ne ne]

/-- A file that has a name is not the next one to be created. -/
theorem ne_next_of_dir {p : Path} {i : Inode} (named : fs.dir p = some i) : i ≠ fs.next :=
  Nat.ne_of_lt (fs.fresh p i named)

theorem content_create_ne {p q : Path} (ne : q ≠ p) : (fs.create p).content q = fs.content q := by
  simp only [content, dir_create_ne fs ne]
  cases found : fs.dir q with
  | none => rfl
  | some i => simp only [Option.map_some, node_create_ne fs (ne_next_of_dir fs found)]

@[simp] theorem dir_setNode (i : Inode) (c : Content) : (fs.setNode i c).dir = fs.dir := rfl

@[simp] theorem node_setNode_self (i : Inode) (c : Content) : (fs.setNode i c).node i = c := by
  simp [setNode]

theorem node_setNode_ne {i j : Inode} (ne : j ≠ i) (c : Content) :
    (fs.setNode i c).node j = fs.node j := by
  simp [setNode, Function.update_of_ne ne]

@[simp] theorem content_install_self (p : Path) (c : Content) :
    (fs.install p c).content p = some c := by
  simp [content, install]

theorem content_install_ne {p q : Path} (ne : q ≠ p) (c : Content) :
    (fs.install p c).content q = fs.content q := by
  simp only [content, install, dir_setNode, dir_create_ne fs ne]
  cases found : fs.dir q with
  | none => rfl
  | some i =>
      have other := ne_next_of_dir fs found
      simp only [Option.map_some, node_setNode_ne _ other, node_create_ne fs other]

theorem openWrite_of_none {p : Path} (absent : fs.dir p = none) :
    fs.openWrite p = (some fs.next, fs.create p) := by
  simp [openWrite, absent]

theorem openFile_of_none {p : Path} (absent : fs.dir p = none) :
    fs.openFile p = (some fs.next, fs.install p .empty) := by
  simp [openFile, absent]

theorem makeAdd_of_unfinished {i : Inode} {rs : List Record} (open_ : fs.node i = .unfinished rs)
    (r : Record) : fs.makeAdd i r = fs.setNode i (.unfinished (rs ++ [r])) := by
  simp [makeAdd, open_]

theorem makeFinish_of_unfinished {i : Inode} {rs : List Record}
    (open_ : fs.node i = .unfinished rs) : fs.makeFinish i = fs.setNode i (.finished rs) := by
  simp [makeFinish, open_]

theorem setNode_setNode (i : Inode) (c d : Content) :
    (fs.setNode i c).setNode i d = fs.setNode i d := by
  simp [setNode]

theorem records_eq {fs : Fs} {i : Inode} {c : Content} (holds : fs.node i = c) :
    fs.records i = c.records := by
  rw [records, holds]

theorem records_of_finished {i : Inode} {rs : List Record} (done : fs.node i = .finished rs) :
    fs.records i = some rs := records_eq done

theorem rename_of_some {src : Path} {i : Inode} (named : fs.dir src = some i) (dst : Path) :
    (fs.rename src dst).1 = true ∧
      (fs.rename src dst).2.dir = Function.update (Function.update fs.dir src none) dst (some i) ∧
      (fs.rename src dst).2.node = fs.node ∧ (fs.rename src dst).2.next = fs.next := by
  unfold rename
  split
  · rename_i absent
    rw [named] at absent
    cases absent
  · rename_i j found
    rw [named] at found
    cases found
    exact ⟨rfl, rfl, rfl, rfl⟩

end Fs

end Bagunceiro
