/-
# Fcgi.Headers -- what a reader does at a header (`fcgiapp.c`)

A header begins a request, is of a record about the connection, which is answered, of
another request, whose records are skipped, or of the stream that is read.
-/
import Bagunceiro.Fcgi.Readers

namespace Bagunceiro.Fcgi

set_option autoImplicit false

/-! ## Answers to `FCGI_GET_VALUES` -/

/-- What is written through when `=` is looked for: the name in front of it, unless the
string ends before. -/
def nameOf : Bytes → Option Bytes
  | [] => none
  | b :: bs => if b = 0 then none else if b = 61 then some [] else (nameOf bs).map (b :: ·)

/-- A NUL in front of the first `=` is what the search ends at. -/
theorem nameOf_ne_none_iff (name value : Bytes) :
    nameOf (name ++ 61 :: value) ≠ none ↔ 0 ∉ name.takeWhile (· ≠ 61) := by
  induction name with
  | nil => exact iff_of_true (Option.some_ne_none _) List.not_mem_nil
  | cons b name ih =>
      rw [List.cons_append, nameOf]
      by_cases nul : b = 0
      · rw [if_pos nul, nul]
        exact iff_of_false (absurd rfl) fun no => no List.mem_cons_self
      · rw [if_neg nul]
        by_cases equals : b = 61
        · rw [if_pos equals, List.takeWhile_cons_of_neg (by simpa using equals)]
          exact iff_of_true (Option.some_ne_none _) List.not_mem_nil
        · rw [if_neg equals, List.takeWhile_cons_of_pos (by simpa using equals), List.mem_cons,
            not_or, Ne, Option.map_eq_none_iff, ← Ne, ih]
          exact ⟨fun rest => ⟨fun same => nul same.symm, rest⟩, fun both => both.2⟩

section Values

variable (fcgi : Fastcgi)

/-- The value of a variable that the library knows. -/
def valueOf (name : Bytes) : Option UInt8 :=
  if name = fcgi.maxConns then some 49
  else if name = fcgi.maxReqs then some 49
  else if name = fcgi.mpxsConns then some 48
  else none

/-- One of the answers. -/
def valuePair (name : Bytes) (value : UInt8) : Bytes :=
  UInt8.ofNat name.length :: 1 :: (name ++ [value])

/-- The loop over the parameters, behind what is in `response` already.  Behind each
answer a zero byte is put down; the buffer has 64 bytes, of which eight are for the
header. -/
def valuePairs : List Bytes → Bytes → Except Fault Bytes
  | [], response => .ok response
  | nameValue :: vec, response =>
      match nameOf nameValue with
      | none => .error .nullPointer
      | some name =>
          match valueOf fcgi name with
          | none => valuePairs vec response
          | some value =>
              let response := response ++ valuePair name value
              if 64 < 8 + response.length + 1 then .error .overflow else valuePairs vec response

/-- The answers to the parameters that the library knows. -/
def answers (vec : List Bytes) : Bytes :=
  vec.flatMap fun nameValue =>
    match nameOf nameValue with
    | none => []
    | some name => ((valueOf fcgi name).map (valuePair name)).getD []

theorem valuePairs_ok {vec : List Bytes} {response : Bytes}
    (named : ∀ nameValue ∈ vec, nameOf nameValue ≠ none)
    (fits : response.length + (answers fcgi vec).length ≤ 55) :
    valuePairs fcgi vec response = .ok (response ++ answers fcgi vec) := by
  induction vec generalizing response with
  | nil => rw [valuePairs, answers, List.flatMap_nil, List.append_nil]
  | cons nameValue vec ih =>
      have rest := fun nameValue' member => named nameValue' (List.mem_cons_of_mem nameValue member)
      obtain ⟨name, name_eq⟩ := Option.ne_none_iff_exists'.1 (named nameValue List.mem_cons_self)
      rw [answers, List.flatMap_cons, ← answers, name_eq] at fits ⊢
      rw [valuePairs, name_eq]
      dsimp only at fits ⊢
      cases value : valueOf fcgi name with
      | none =>
          rw [value, Option.map_none, Option.getD_none, List.nil_append] at fits
          exact ih rest fits
      | some value' =>
          rw [value, Option.map_some, Option.getD_some, List.length_append] at fits
          have within : ¬ 64 < 8 + (response ++ valuePair name value').length + 1 := by
            rw [List.length_append]
            omega
          dsimp only
          rw [if_neg within, Option.map_some, Option.getD_some, ← List.append_assoc]
          refine ih rest ?_
          rw [List.length_append]
          omega

theorem valuePairs_within {vec : List Bytes} {response pairs : Bytes}
    (ran : valuePairs fcgi vec response = .ok pairs) (start : response.length ≤ 55) :
    (∀ nameValue ∈ vec, nameOf nameValue ≠ none) ∧
      response.length + (answers fcgi vec).length ≤ 55 := by
  induction vec generalizing response with
  | nil => exact ⟨List.forall_mem_nil _, start⟩
  | cons nameValue vec ih =>
      rw [valuePairs] at ran
      cases name_eq : nameOf nameValue with
      | none =>
          rw [name_eq] at ran
          cases ran
      | some name =>
          rw [answers, List.flatMap_cons, ← answers, List.forall_mem_cons, name_eq]
          rw [name_eq] at ran
          dsimp only at ran ⊢
          have some_ : some name ≠ none := Option.some_ne_none name
          cases value : valueOf fcgi name with
          | none =>
              rw [value] at ran
              obtain ⟨named, fits⟩ := ih ran start
              exact ⟨⟨some_, named⟩, fits⟩
          | some value' =>
              rw [value] at ran
              dsimp only at ran
              split at ran
              · cases ran
              · rename_i within
                rw [List.length_append] at within
                obtain ⟨named, fits⟩ := ih ran (by rw [List.length_append]; omega)
                rw [List.length_append] at fits
                refine ⟨⟨some_, named⟩, ?_⟩
                rw [Option.map_some, Option.getD_some, List.length_append]
                omega

/-- **The buffer is left exactly by answers of more than 55 bytes.**  A name that a NUL
cuts off is the other way to fail. -/
theorem valuePairs_iff (vec : List Bytes) (pairs : Bytes) :
    valuePairs fcgi vec [] = .ok pairs ↔
      (∀ nameValue ∈ vec, nameOf nameValue ≠ none) ∧ (answers fcgi vec).length ≤ 55 ∧
        pairs = answers fcgi vec := by
  have empty : ([] : Bytes).length + (answers fcgi vec).length = (answers fcgi vec).length :=
    Nat.zero_add _
  constructor
  · intro ran
    obtain ⟨named, fits⟩ := valuePairs_within fcgi ran (Nat.zero_le 55)
    have same := valuePairs_ok fcgi named fits
    rw [ran, List.nil_append] at same
    exact ⟨named, empty ▸ fits, Except.ok.inj same⟩
  · rintro ⟨named, fits, rfl⟩
    have ran := @valuePairs_ok fcgi _ [] named (empty.symm ▸ fits)
    rw [List.nil_append] at ran
    exact ran

/-- The record that answers, padded with what is in the buffer. -/
def valuesRecord (response : Nat → UInt8) (pairs : Bytes) : Bytes :=
  let paddedLen := alignInt8 pairs.length
  let padding := (List.range (paddedLen - pairs.length)).map fun i =>
    if i = 0 then 0 else response (8 + pairs.length + i)
  (makeHeader fcgi fcgi.getValuesResult fcgi.nullRequestId pairs.length
    (paddedLen - pairs.length)).bytes ++ (pairs ++ padding)

end Values

namespace Reader

section Process

variable (fcgi : Fastcgi)

/-- An answer is sent: `status`, unless it fails. -/
def answer (record : Bytes) (status : Status) : Reading Status := fun s =>
  let wrote := writeItAll record s.req.ipc
  let s := s.withIpc wrote.2
  if wrote.1 < 0 then .ok (.error (-1), s.setError s.req.ipc.errno) else .ok (status, s)

/-- `ProcessManagementRecord` -/
def processManagementRecord (type : UInt8) : Reading Status := do
  if type = fcgi.getValues then
    let (_, vec) ← readParams fillRecord []
    let s ← get
    if s.errno ≠ 0 ∨ s.contentLen ≠ 0 then return .error protocolError
    else
      let pairs ← valuePairs fcgi vec []
      answer (valuesRecord fcgi s.req.response pairs) .mgmtRecord
  else answer (unknownTypeRecord fcgi type) .mgmtRecord

/-- What `ProcessBeginRecord` takes from the body of the record. -/
def begun (body : Bytes) (req : Request) : Request :=
  { req with
    keepConnection := body.getD 2 0 &&& fcgi.keepConn != 0
    role := (body.getD 0 0).toNat * 256 + (body.getD 1 0).toNat
    isBeginProcessed := true }

/-- The request begins, if the body of the record is there. -/
def beginRequest (body : Bytes) : Reading Status := do
  if body.length ≠ 8 then return .error protocolError
  else
    modify fun s => { s with req := begun fcgi body s.req }
    return .beginRecord

/-- `ProcessBeginRecord` -/
def processBeginRecord (requestId : Nat) : Reading Status := do
  let s ← get
  if requestId = 0 ∨ s.contentLen ≠ 8 then return .error protocolError
  else if s.req.isBeginProcessed then
    answer (endRequestRecord fcgi requestId 0 fcgi.cantMpxConn) .skip
  else
    set { s with req := { s.req with requestId := requestId } }
    let body ← getStr fillRecord 8
    beginRequest fcgi body

/-- `ProcessHeader` -/
def processHeader (header : Header) : Reading Status := do
  if header.version ≠ fcgi.version1 then return .error unsupportedVersion
  else
    modify fun s =>
      { s with contentLen := header.contentLength, paddingLen := header.paddingLength.toNat }
    if header.type = fcgi.beginRequest then processBeginRecord fcgi header.requestId
    else if header.requestId = fcgi.nullRequestId then processManagementRecord fcgi header.type
    else
      let s ← get
      if header.requestId ≠ s.req.requestId then return .skip
      else if header.type ≠ s.type then return .error protocolError
      else return .streamRecord

/-- `FillBuffProc` -/
def fillBuffProc : Reading Unit := fillWith (processHeader fcgi)

end Process

end Reader

/-- `NewReader`; memory that is not aligned costs eight bytes. -/
def newReader (fcgi : Fastcgi) (bufflen : Nat) (aligned : Bool) (streamType : UInt8)
    (req : Request) : Reader where
  ready := []
  rest := []
  bufflen := alignInt8 (min (max bufflen 32) (fcgi.maxLength + 1)) - if aligned then 0 else 8
  bufflen_pos := by
    have low := fcgi.le_maxLength
    have size := le_alignInt8 (min (max bufflen 32) (fcgi.maxLength + 1))
    split <;> omega
  isClosed := false
  errno := 0
  type := streamType
  eorStop := false
  skip := false
  contentLen := 0
  paddingLen := 0
  req := req

end Bagunceiro.Fcgi
