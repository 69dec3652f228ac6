/-
# Fcgi.Readers -- the stream an application reads from (`fcgiapp.c`)

A reader buffers what arrives and delivers the contents of the records of its type.
On the way it interprets the headers of all records: it begins a request, skips the
records of other requests and answers records that are about the connection.  The
content of such a record is read through the stream itself, which must not read past
the end of the record then (`eorStop`).
-/
import Bagunceiro.Fcgi.Records
import Bagunceiro.Lib.Refill

namespace Bagunceiro.Fcgi

open Refill

set_option autoImplicit false

/-- A reading `FCGX_Stream` with its `FCGX_Stream_Data`. -/
structure Reader where
  /-- from `rdNext` to `stop`: content that can be taken -/
  ready : Bytes
  /-- from `stop` to `buffStop` -/
  rest : Bytes
  bufflen : Nat
  bufflen_pos : 0 < bufflen
  isClosed : Bool
  errno : Int
  type : UInt8
  eorStop : Bool
  skip : Bool
  contentLen : Nat
  paddingLen : Nat
  req : Request

abbrev Reading (α : Type) := StateT Reader (Except Fault) α

/-- What `ProcessHeader` returns. -/
inductive Status
  | streamRecord
  | skip
  | beginRecord
  | mgmtRecord
  | error (code : Int)
  deriving DecidableEq, Repr

/-- What a round of `FillBuffProc` leads to. -/
inductive Flow
  | ret
  /-- another round, with so much of a header -/
  | again (header : Bytes)
  /-- a header, to be interpreted -/
  | interpret (header : Bytes)
  deriving DecidableEq, Repr

namespace Reader

/-- `SetReaderType` -/
def setReaderType (s : Reader) (streamType : UInt8) : Reader :=
  { s with
    ready := []
    rest := s.ready ++ s.rest
    type := streamType
    eorStop := false
    skip := false
    contentLen := 0
    paddingLen := 0
    isClosed := false }

/-- `SetError`: only the first error is kept. -/
def setError (s : Reader) (errno : Int) : Reader :=
  { s with errno := if s.errno = 0 then errno else s.errno, isClosed := true }

def withIpc (s : Reader) (ipc : Ipc) : Reader := { s with req := { s.req with ipc := ipc } }

/-- The bytes that have not been read yet. -/
def unread (s : Reader) : Nat :=
  s.ready.length + s.rest.length + s.req.ipc.input.flatten.length

/-! ## Taking -/

def taken (k : Nat) (s : Reader) : Reader := { s with ready := s.ready.drop k }

def source (fill : Reading Unit) : Source Fault Reader UInt8 where
  ready := ready
  taken := taken
  closed := isClosed
  fill := fill
  taken_zero _ := rfl
  taken_succ k s := by
    rw [taken, taken, taken, List.drop_drop, Nat.add_comm]
  ready_taken _ _ := rfl

section Fill

variable (fill : Reading Unit)

/-- `*stream->rdNext++`, if there is something. -/
def nextChar (s : Reader) : Option UInt8 × Reader := (s.ready.head?, s.taken 1)

/-- `FCGX_GetChar` -/
def getChar : Reading (Option UInt8) := fun s =>
  if s.isClosed then .ok (none, s)
  else if s.ready ≠ [] then .ok s.nextChar
  else do
    let filled ← fill s
    if filled.2.isClosed then .ok (none, filled.2) else .ok filled.2.nextChar

/-- `FCGX_GetStr`: what is read. -/
def getStr (n : Nat) : Reading Bytes := fun s =>
  if s.isClosed ∨ n = 0 then .ok ([], s)
  else if n ≤ s.ready.length then .ok (s.ready.take n, s.taken n)
  else (source fill).collect (n + 1) n s

/-- The length that starts with `b`: one byte, or four. -/
def readLength (b : UInt8) : Reading (Option Nat) := do
  if b &&& 0x80 ≠ 0 then
    let lenBuff ← getStr fill 3
    if lenBuff.length ≠ 3 then return none
    return some (Radix.ofBytesBE ((b &&& 0x7f) :: lenBuff))
  else return some b.toNat

/-- A failure of `ReadParams`. -/
def paramsFailed (vec : List Bytes) : Reading (Bool × List Bytes) := do
  modify fun s => s.setError paramsError
  return (false, vec)

/-- `ReadParams`: whether it succeeded, and the parameters behind those it had. -/
def readPairs : Nat → List Bytes → Reading (Bool × List Bytes)
  | 0, _ => throw .endless
  | rounds + 1, vec => do
      let some b ← getChar fill | return (true, vec)
      let some nameLen ← readLength fill b | paramsFailed vec
      let some c ← getChar fill | paramsFailed vec
      let some valueLen ← readLength fill c | paramsFailed vec
      -- the size of the allocation is an `int`
      if 2 ^ 31 ≤ nameLen + valueLen + 2 then throw .overflow
      else
        let name ← getStr fill nameLen
        if name.length ≠ nameLen then paramsFailed vec
        else
          let value ← getStr fill valueLen
          if value.length ≠ valueLen then paramsFailed vec
          else readPairs rounds (vec ++ [name ++ 61 :: value])

/-- Each pair has a byte at least. -/
def readParams (vec : List Bytes) : Reading (Bool × List Bytes) := fun s =>
  readPairs fill (s.unread + 1) vec s

end Fill

/-! ## A round of `FillBuffProc` -/

/-- The next bytes of the header. -/
def passHeader (header : Bytes) (s : Reader) : Flow × Reader :=
  if s.eorStop then (.ret, { s with isClosed := true })
  else
    let count := min (8 - header.length) s.rest.length
    let header := header ++ s.rest.take count
    let s := { s with rest := s.rest.drop count }
    if header.length < 8 then (.again header, s) else (.interpret header, s)

/-- The padding is passed over. -/
def passPadding (header : Bytes) (s : Reader) : Flow × Reader :=
  if 0 < s.paddingLen then
    let count := min s.paddingLen s.rest.length
    let s := { s with paddingLen := s.paddingLen - count, rest := s.rest.drop count }
    if 0 < s.paddingLen then (.again header, s) else passHeader header s
  else passHeader header s

/-- Content is delivered, or skipped. -/
def passContent (header : Bytes) (s : Reader) : Flow × Reader :=
  if 0 < s.contentLen then
    let count := min s.contentLen s.rest.length
    let s := { s with contentLen := s.contentLen - count }
    if s.skip = false then (.ret, { s with ready := s.rest.take count, rest := s.rest.drop count })
    else
      let s := { s with rest := s.rest.drop count }
      if 0 < s.contentLen then (.again header, s) else passPadding header { s with skip := false }
  else passPadding header s

/-- A round starts at `rdNext`, and reads if there is nothing. -/
def pass (header : Bytes) (s : Reader) : Flow × Reader :=
  let s := { s with ready := [], rest := s.ready ++ s.rest }
  if s.rest = [] then
    let read := osRead s.bufflen s.req.ipc
    let s := s.withIpc read.2.2
    if read.1 ≤ 0 then (.ret, s.setError (if read.1 = 0 then protocolError else s.req.ipc.errno))
    else passContent header { s with rest := read.2.1 }
  else passContent header s

/-- The `switch` over what `ProcessHeader` has returned. -/
def switch (status : Status) : Reading Flow := fun s =>
  let s := { s with eorStop := false, isClosed := false }
  match status with
  | .streamRecord =>
      if s.contentLen = 0 then .ok (.ret, { s with isClosed := true }) else .ok (.again [], s)
  | .skip => .ok (.again [], { s with skip := true })
  | .beginRecord => .ok (.ret, s)
  | .mgmtRecord => .ok (.again [], s)
  | .error code => .ok (.ret, s.setError code)

section Process

variable (process : Header → Reading Status)

/-- What follows from a header. -/
def interpret (header : Bytes) : Reading Flow := fun s => do
  let processed ← process (Header.ofBytes header) { s with eorStop := true }
  switch processed.1 processed.2

/-- What follows a round. -/
def follow (next : Bytes → Reading Unit) : Flow × Reader → Except Fault (Unit × Reader)
  | (.ret, s) => .ok ((), s)
  | (.again header, s) => next header s
  | (.interpret header, s) => do
      let (flow, s) ← interpret process header s
      match flow with
      | .again header => next header s
      | _ => .ok ((), s)

def fillRounds : Nat → Bytes → Reading Unit
  | 0, _ => throw .endless
  | rounds + 1, header => fun s => follow process (fillRounds rounds) (pass header s)

/-- `FillBuffProc`.  Each round passes over a byte at least. -/
def fillWith : Reading Unit := fun s => fillRounds process (s.unread + 1) [] s

end Process

/-- `FillBuffProc` while a header is processed. -/
def fillRecord : Reading Unit := fillWith fun _ => throw .nested

end Reader

end Bagunceiro.Fcgi
