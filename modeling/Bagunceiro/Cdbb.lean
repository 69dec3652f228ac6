/-
# Cdbb -- the batch engine over cdb (`z_cdbb.c`)

A change to a database is a batch: `cdbb_start_mod` opens a temporary file next
to the database, operations and filters are queued in `struct cdbb`, and
`cdbb_apply` copies the old records that no operation and no filter stops,
appends what the operations add, and puts the new file in the old one's place.

The functions keep the order of the source's system calls, so that a run can be
cut short or interleaved with another one.  Allocations are taken to succeed.
-/
import Bagunceiro.Libowfat.Cdb
import Bagunceiro.Libowfat.Taia

namespace Bagunceiro

open Effect

set_option autoImplicit false

/-! ## Data -/

/-- `struct nentry`: the text and the key of a blog entry. -/
structure Nentry where
  e : Bytes
  k : Bytes
  deriving DecidableEq, Repr

/-- `enum opt` -/
inductive Opt
  | none | add | del | addMod | mod | find
  deriving DecidableEq, Repr

/-- What a queued operation asks for: its kind, its key and its value. -/
structure Request where
  t : Opt
  n : Bytes
  v : Bytes
  deriving DecidableEq, Repr

/-- What the memory of a `struct op` holds before it is used: `struct cdbb` is
an automatic variable that nobody clears, and `cdbb_add_op` sets neither of the
two flags.  `past` is what a read behind the end of the value meets. -/
structure Slot where
  kf : Int
  vf : Int
  past : Nat → UInt8

/-- `struct op` -/
structure Op extends Request where
  past : Nat → UInt8
  /-- key found -/
  kf : Int
  /-- value found -/
  vf : Int

/-- A filter rejects a record; it may ask for the time when it is called. -/
abbrev Filter := Taia → Record → Bool

/-- `NUM_OP` -/
def numOp : Nat := 10

/-- `struct cdbb`, as far as a batch uses it: `ops` and `fil` are what `tnum` and
`fnum` count.  Both arrays have room for `NUM_OP`, and the functions that fill
them write on without a look at it (`Cdbb.Fits`). -/
structure Cdbb where
  w : Inode
  r : Inode
  f : Path
  t : Path
  ops : List Op
  slots : Nat → Slot
  fil : List Filter

/-- Nothing has been written behind the end of an array. -/
def Cdbb.Fits (a : Cdbb) : Prop := a.ops.length ≤ numOp ∧ a.fil.length ≤ numOp

instance (a : Cdbb) : Decidable a.Fits := inferInstanceAs (Decidable (_ ∧ _))

/-! ## Files -/

def cdbbOpenRead (f : Path) : M (Option Inode) := openRead f

def cdbbOpenWrite (f : Path) : M (Option Inode) := do
  unlink f
  openWrite f

/-! ## Copying -/

/-- One round of the loop of `cdbb_check_ops`. -/
def checkOp (k v : Bytes) (t : Op) (f : Bool) : Op × Bool :=
  if t.n = k ∧ k ≠ [] then
    let f := if t.t ≠ .add then true else f
    let t := { t with kf := 1 }
    -- no value trigger
    if t.v ≠ [] then
      if t.t = .mod ∨ t.t = .addMod then (t, f)
      -- value trigger: the comparison runs over the length of the stored value
      else if memEqual t.v t.past v then ({ t with vf := 1 }, f)
      else (t, false)
    else (t, f)
  else (t, f)

def cdbbCheckOps (k v : Bytes) : List Op → Bool → List Op × Bool
  | [], f => ([], f)
  | t :: ts, f =>
      let checked := checkOp k v t f
      let rest := cdbbCheckOps k v ts checked.2
      (checked.1 :: rest.1, rest.2)

def cdbbCheckFilter (fil : List Filter) (now : Taia) (r : Record) : Bool :=
  fil.any fun cb => cb now r

/-- Whether `cdbb_handle_ops` appends the operation's record. -/
def Op.writes (t : Op) : Bool :=
  if t.kf ≠ 0 then
    match t.t with
    | .add | .addMod | .mod => true
    | _ => false
  else
    match t.t with
    | .addMod | .add => true
    | _ => false

def Request.record (q : Request) : Record := ⟨q.n, q.v⟩

def cdbbHandleOps (w : Inode) : List Op → M Int
  | [] => return 0
  | t :: ts => do
      if t.writes then
        cdbMakeAdd w t.record
        return 1 + (← cdbbHandleOps w ts)
      else
        cdbbHandleOps w ts

/-- `__cdbb_copy`; `placed` says whether the position of the key is other than 0,
as it is for every record of a file. -/
def cdbbCopyRecord (a : Cdbb) (now : Taia) (placed : Bool) (r : Record) : M (Cdbb × Int) :=
  let checked := cdbbCheckOps r.key r.value a.ops false
  let filter := cdbbCheckFilter a.fil now r
  let a := { a with ops := checked.1 }
  if !checked.2 && !filter && placed then do
    cdbMakeAdd a.w r
    return (a, 1)
  else
    return (a, 0)

/-- The loop of `cdbb_copy`; `clk i` is the time at which the `i`-th record meets
the filters. -/
def cdbbCopyFrom (clk : Nat → Taia) : Cdbb → Nat → List Record → M (Cdbb × Int)
  | a, _, [] => return (a, 0)
  | a, i, r :: rs => do
      let copied ← cdbbCopyRecord a (clk i) true r
      let rest ← cdbbCopyFrom clk copied.1 (i + 1) rs
      return (rest.1, copied.2 + rest.2)

/-- Where `cdb_firstkey` fails, its result is not 0 either, and one round is made
with what `cdb_init` left. -/
def cdbbCopy (clk : Nat → Taia) (a : Cdbb) : M (Cdbb × Int) := do
  match ← cdbKeys a.r with
  | .records recs => cdbbCopyFrom clk a 0 recs
  | .failed => cdbbCopyRecord a (clk 0) false ⟨[], []⟩
  | .torn => .fail .tornFile

/-! ## Setting up a batch

An operation or a filter without room is written into what follows its array.
Until `cdbb_apply` uses the batch nothing else runs, so that is where a batch
that does not fit ends. -/

def cdbbAddFilter (a : Cdbb) (cb : Filter) : Cdbb := { a with fil := a.fil ++ [cb] }

def cdbbAddVop (a : Cdbb) (n v : Bytes) (t : Opt) : Cdbb :=
  let slot := a.slots a.ops.length
  { a with ops := a.ops ++ [{ t, n, v, past := slot.past, kf := slot.kf, vf := slot.vf }] }

def cdbbAddOp (a : Cdbb) (n : Bytes) (t : Opt) : Cdbb := cdbbAddVop a n [] t

def cdbbAdd (a : Cdbb) (k v : Bytes) : Cdbb := cdbbAddVop a k v .add
def cdbbMod (a : Cdbb) (k v : Bytes) : Cdbb := cdbbAddVop a k v .mod
def cdbbRep (a : Cdbb) (k v : Bytes) : Cdbb := cdbbAddVop a k v .addMod
def cdbbDel (a : Cdbb) (k : Bytes) : Cdbb := cdbbAddOp a k .del
def cdbbDelVal (a : Cdbb) (k v : Bytes) : Cdbb := cdbbAddVop a k v .del

/-- The file the new database is written to. -/
def tmpName (f : Path) : Path := f ++ str ".tmp"

/-- `memory` is what the caller's `struct cdbb` held before. -/
def cdbbStartMod (memory : Nat → Slot) (f : Path) : M (Option Cdbb) := do
  match ← cdbbOpenWrite (tmpName f) with
  | none => return none
  | some w =>
      match ← cdbbOpenRead f with
      | none => return none
      | some r => return some { w, r, f, t := tmpName f, ops := [], slots := memory, fil := [] }

/-- What is left of a batch that was written behind the end of its arrays. -/
def Cdbb.unharmed (a : Cdbb) : M Unit := if a.Fits then .ret () else .fail .overflow

/-- The new file takes the old one's name before its tables are written. -/
def cdbbApply (clk : Nat → Taia) (a : Cdbb) : M Int := do
  a.unharmed
  let copied ← cdbbCopy clk a
  let added ← cdbbHandleOps copied.1.w copied.1.ops
  let err := copied.2 + added
  let _ ← rename a.t a.f
  if err = 0 then
    unlink a.f
  cdbMakeFinish a.w
  return err

/-! ## Reading -/

/-- The result and the bytes written to the caller's `n` byte buffer. -/
def cdbbReadn (r : Inode) (k : Bytes) (n : Nat) : M (Int × Bytes) := do
  match findAll (← records r) k with
  | [] => return (-1, [])
  | v :: _ => if n < v.length then return (-2, []) else return (1, v)

/-- All values of a key, one behind the other, and their number. -/
def cdbbReadNentry (r : Inode) (k : Bytes) (n : Nentry) : M (Int × Nentry) := do
  let values := findAll (← records r) k
  return ((values.length : Int), { e := n.e ++ values.flatten, k := n.k ++ k })

/-! ## A whole change -/

/-- The high level operations a batch is queued with. -/
inductive Change
  | add (k v : Bytes)
  | mod (k v : Bytes)
  | rep (k v : Bytes)
  | del (k : Bytes)
  | delVal (k v : Bytes)
  deriving DecidableEq, Repr

def Change.queue (a : Cdbb) : Change → Cdbb
  | .add k v => cdbbAdd a k v
  | .mod k v => cdbbMod a k v
  | .rep k v => cdbbRep a k v
  | .del k => cdbbDel a k
  | .delVal k v => cdbbDelVal a k v

/-- Queueing a batch and its filters. -/
def queueAll (batch : List Change) (fil : List Filter) (a : Cdbb) : Cdbb :=
  fil.foldl cdbbAddFilter (batch.foldl Change.queue a)

/-- `cdbb_start_mod`, the queueing and `cdbb_apply`, as a caller strings them
together: `none` when the files could not be opened. -/
def cdbbModify (memory : Nat → Slot) (clk : Nat → Taia) (f : Path) (batch : List Change)
    (fil : List Filter) : M (Option Int) := do
  match ← cdbbStartMod memory f with
  | none => return none
  | some a => return some (← cdbbApply clk (queueAll batch fil a))

end Bagunceiro
