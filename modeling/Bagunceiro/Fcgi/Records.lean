/-
# Fcgi.Records -- the records of the FastCGI protocol (`fcgiapp.c`)

A web server and an application exchange records over a connection: a header of eight
bytes, a content and a padding, whose lengths the header gives.  A sequence of records
can be read in one way only (`records_injective`).

The numbers of the protocol are in a header of the library that is not part of the
repository (`fastcgi.h`); they are a parameter, of which only is used that the types of
records are different.
-/
import Bagunceiro.Lib.Frames
import Bagunceiro.Lib.Radix
import Bagunceiro.Libowfat.Bytes

namespace Bagunceiro.Fcgi

open Frames Radix

set_option autoImplicit false

/-- The numbers and names of `fastcgi.h`. -/
structure Fastcgi where
  version1 : UInt8
  beginRequest : UInt8
  endRequest : UInt8
  params : UInt8
  stdin : UInt8
  stdout : UInt8
  stderr : UInt8
  getValues : UInt8
  getValuesResult : UInt8
  unknownType : UInt8
  types_nodup : [beginRequest, endRequest, params, stdin, stdout, stderr, getValues,
    getValuesResult, unknownType].Nodup
  nullRequestId : Nat
  /-- `FCGI_MAX_LENGTH`: lengths have two bytes -/
  maxLength : Nat
  maxLength_lt : maxLength < 65536
  le_maxLength : 32 ≤ maxLength
  requestComplete : UInt8
  cantMpxConn : UInt8
  /-- `FCGI_KEEP_CONN`, a mask -/
  keepConn : UInt8
  responder : Nat
  authorizer : Nat
  filter : Nat
  maxConns : Bytes
  maxReqs : Bytes
  mpxsConns : Bytes

/-- The protocol as its first version has it. -/
def fastcgi : Fastcgi where
  version1 := 1
  beginRequest := 1
  endRequest := 3
  params := 4
  stdin := 5
  stdout := 6
  stderr := 7
  getValues := 9
  getValuesResult := 10
  unknownType := 11
  types_nodup := by decide
  nullRequestId := 0
  maxLength := 65535
  maxLength_lt := by omega
  le_maxLength := by omega
  requestComplete := 0
  cantMpxConn := 1
  keepConn := 1
  responder := 1
  authorizer := 2
  filter := 3
  maxConns := str "FCGI_MAX_CONNS"
  maxReqs := str "FCGI_MAX_REQS"
  mpxsConns := str "FCGI_MPXS_CONNS"

/-- What stops the library for good. -/
inductive Fault
  /-- `strchr` found nothing, and its result is written through -/
  | nullPointer
  /-- a write past the end of a buffer -/
  | overflow
  /-- a header is processed while one is processed -/
  | nested
  /-- a loop makes more rounds than there are bytes to read -/
  | endless
  deriving DecidableEq, Repr

/-! ## Error codes of `fcgiapp.h` -/

def unsupportedVersion : Int := -2
def protocolError : Int := -3
def paramsError : Int := -4

/-! ## Headers -/

/-- `FCGI_Header`: eight bytes. -/
structure Header where
  version : UInt8
  type : UInt8
  requestIdB1 : UInt8
  requestIdB0 : UInt8
  contentLengthB1 : UInt8
  contentLengthB0 : UInt8
  paddingLength : UInt8
  reserved : UInt8
  deriving DecidableEq, Repr

namespace Header

def bytes (h : Header) : Bytes :=
  [h.version, h.type, h.requestIdB1, h.requestIdB0, h.contentLengthB1, h.contentLengthB0,
    h.paddingLength, h.reserved]

/-- The header that is filled with eight bytes. -/
def ofBytes (s : Bytes) : Header where
  version := s.getD 0 0
  type := s.getD 1 0
  requestIdB1 := s.getD 2 0
  requestIdB0 := s.getD 3 0
  contentLengthB1 := s.getD 4 0
  contentLengthB0 := s.getD 5 0
  paddingLength := s.getD 6 0
  reserved := s.getD 7 0

def requestId (h : Header) : Nat := h.requestIdB1.toNat * 256 + h.requestIdB0.toNat

def contentLength (h : Header) : Nat := h.contentLengthB1.toNat * 256 + h.contentLengthB0.toNat

@[simp] theorem length_bytes (h : Header) : h.bytes.length = 8 := rfl

@[simp] theorem ofBytes_bytes (h : Header) : ofBytes h.bytes = h := rfl

/-- Headers are as long as each other. -/
def framing : Framing Header UInt8 where
  bytes := bytes
  some_ h := List.cons_ne_nil _ _
  delimited := by
    intro h h' s s' same
    obtain ⟨bytes, rest⟩ := List.append_inj same rfl
    exact ⟨by rw [← ofBytes_bytes h, bytes, ofBytes_bytes], rest⟩

end Header

section Records

variable (fcgi : Fastcgi)

/-- `MakeHeader` -/
def makeHeader (type : UInt8) (requestId contentLength paddingLength : Nat) : Header where
  version := fcgi.version1
  type := type
  requestIdB1 := UInt8.ofNat (requestId / 256)
  requestIdB0 := UInt8.ofNat requestId
  contentLengthB1 := UInt8.ofNat (contentLength / 256)
  contentLengthB0 := UInt8.ofNat contentLength
  paddingLength := UInt8.ofNat paddingLength
  reserved := 0

/-- Two bytes hold a number below 65536. -/
theorem toNat_twoBytes {n : Nat} (fits : n < 65536) :
    (UInt8.ofNat (n / 256)).toNat * 256 + (UInt8.ofNat n).toNat = n := by
  rw [UInt8.toNat_ofNat', UInt8.toNat_ofNat']
  omega

/-- A record as it is sent.  What a number does not fit cannot be said in a header. -/
structure Record where
  type : UInt8
  requestId : Nat
  content : Bytes
  padding : Bytes
  id_lt : requestId < 65536
  content_lt : content.length < 65536
  padding_lt : padding.length < 256

namespace Record

def header (r : Record) : Header :=
  makeHeader fcgi r.type r.requestId r.content.length r.padding.length

def bytes (r : Record) : Bytes := (r.header fcgi).bytes ++ (r.content ++ r.padding)

section Header

variable (r : Record)

@[simp] theorem header_version : (r.header fcgi).version = fcgi.version1 := rfl

@[simp] theorem header_type : (r.header fcgi).type = r.type := rfl

@[simp] theorem header_requestId : (r.header fcgi).requestId = r.requestId :=
  toNat_twoBytes r.id_lt

@[simp] theorem header_contentLength : (r.header fcgi).contentLength = r.content.length :=
  toNat_twoBytes r.content_lt

@[simp] theorem header_paddingLength :
    (r.header fcgi).paddingLength.toNat = r.padding.length := by
  show (UInt8.ofNat r.padding.length).toNat = _
  rw [UInt8.toNat_ofNat', Nat.mod_eq_of_lt r.padding_lt]

end Header

theorem eq_of_header {r r' : Record} (headers : r.header fcgi = r'.header fcgi)
    (bodies : r.content ++ r.padding = r'.content ++ r'.padding) : r = r' := by
  have type : r.type = r'.type := congrArg Header.type headers
  have id_ : r.requestId = r'.requestId := by
    rw [← header_requestId fcgi r, headers, header_requestId]
  have length : r.content.length = r'.content.length := by
    rw [← header_contentLength fcgi r, headers, header_contentLength]
  obtain ⟨content, padding⟩ := List.append_inj bodies length
  cases r
  cases r'
  simp only at type id_ content padding
  subst type id_ content padding
  rfl

/-- The header gives the lengths of what follows. -/
def framing : Framing Record UInt8 :=
  Header.framing.ofFront (header fcgi) (fun r => r.content ++ r.padding)
    (fun h => h.contentLength + h.paddingLength.toNat)
    (fun r => by rw [List.length_append, header_contentLength, header_paddingLength])
    (fun _ _ => eq_of_header fcgi)

end Record

/-- Records as they are sent, one behind the other. -/
def encode (rs : List Record) : Bytes := (Record.framing fcgi).encode rs

@[simp] theorem encode_nil : encode fcgi [] = [] := rfl

@[simp] theorem encode_cons (r : Record) (rs : List Record) :
    encode fcgi (r :: rs) = r.bytes fcgi ++ encode fcgi rs := rfl

@[simp] theorem encode_append (rs ts : List Record) :
    encode fcgi (rs ++ ts) = encode fcgi rs ++ encode fcgi ts :=
  (Record.framing fcgi).encode_append rs ts

/-- **Bytes are read as records in one way only.** -/
theorem records_injective : Function.Injective (encode fcgi) := (Record.framing fcgi).encode_injective

/-- `AlignInt8`: the smallest multiple of eight that is not below `n`. -/
def alignInt8 (n : Nat) : Nat := (n + 7) / 8 * 8

theorem le_alignInt8 (n : Nat) : n ≤ alignInt8 n := by
  rw [alignInt8]
  omega

theorem alignInt8_lt (n : Nat) : alignInt8 n < n + 8 := by
  rw [alignInt8]
  omega

/-- What is aligned already gives the bound. -/
theorem alignInt8_le {n m : Nat} (within : n ≤ m) (aligned : 8 ∣ m) : alignInt8 n ≤ m := by
  rw [alignInt8]
  omega

theorem dvd_alignInt8 (n : Nat) : 8 ∣ alignInt8 n := ⟨(n + 7) / 8, Nat.mul_comm _ _⟩

/-! ## Records the library makes itself -/

/-- `MakeEndRequestBody`; the status is the bits of an `int`. -/
def makeEndRequestBody (appStatus : UInt32) (protocolStatus : UInt8) : Bytes :=
  toBytesBE 4 appStatus.toNat ++ [protocolStatus, 0, 0, 0]

/-- `MakeUnknownTypeBody` -/
def makeUnknownTypeBody (type : UInt8) : Bytes := [type, 0, 0, 0, 0, 0, 0, 0]

/-- `FCGI_EndRequestRecord` -/
def endRequestRecord (requestId : Nat) (appStatus : UInt32) (protocolStatus : UInt8) : Bytes :=
  (makeHeader fcgi fcgi.endRequest requestId 8 0).bytes ++ makeEndRequestBody appStatus protocolStatus

/-- `FCGI_UnknownTypeRecord` -/
def unknownTypeRecord (type : UInt8) : Bytes :=
  (makeHeader fcgi fcgi.unknownType fcgi.nullRequestId 8 0).bytes ++ makeUnknownTypeBody type

end Records

/-! ## Connections -/

/-- A connection: the portions in which the bytes arrive that are still to come, and what
has been written. -/
structure Ipc where
  input : List Bytes
  /-- behind the last portion: an error, or else the end -/
  broken : Bool
  errno : Int
  output : Bytes
  /-- how much more can be written, if there is a limit -/
  room : Option Nat

/-- `OS_Read`, which waits until something has arrived: its result, and what has been read. -/
def osRead (len : Nat) (ipc : Ipc) : Int × Bytes × Ipc :=
  match ipc.input.dropWhile (·.isEmpty) with
  | [] => (if ipc.broken then -1 else 0, [], { ipc with input := [] })
  | c :: cs => ((c.take len).length, c.take len, { ipc with input := c.drop len :: cs })

/-- `write_it_all`, which goes on until all is written or a write fails: its result. -/
def writeItAll (buf : Bytes) (ipc : Ipc) : Int × Ipc :=
  match ipc.room with
  | none => (0, { ipc with output := ipc.output ++ buf })
  | some left =>
      let ipc := { ipc with output := ipc.output ++ buf.take left, room := some (left - buf.length) }
      (if buf.length ≤ left then 0 else -1, ipc)

/-- `FCGX_Request`, and what the automatic buffer of `ProcessManagementRecord` holds
before it is used. -/
structure Request where
  requestId : Nat
  role : Nat
  isBeginProcessed : Bool
  keepConnection : Bool
  appStatus : UInt32
  nWriters : Nat
  ipc : Ipc
  response : Nat → UInt8

/-- Nothing has been written, and all that is to come arrives in these portions. -/
def Ipc.fresh (input : List Bytes) : Ipc := ⟨input, false, 0, [], none⟩

/-- The request of a process that has just started. -/
def Request.fresh (ipc : Ipc) : Request := ⟨0, 0, false, false, 0, 0, ipc, fun _ => 0⟩

theorem writeItAll_of_room {ipc : Ipc} (room : ipc.room = none) (buf : Bytes) :
    writeItAll buf ipc = (0, { ipc with output := ipc.output ++ buf }) := by
  rw [writeItAll, room]

end Bagunceiro.Fcgi
