/-
# Fcgi.Writers -- the streams an application writes to (`fcgiapp.c`)

What is put to a stream is kept in a buffer and sent as a record when the buffer is
full, when it is flushed, and when the stream is closed.  Two streams share a
connection, the page and the error log; the last of them to be closed says that the
request has ended.

Whatever is put to the two streams, in whatever order and portions, the records on the
connection have it as their contents, stream by stream (`Sends.run`), and closing the
streams completes the answer (`finish_answers`).
-/
import Bagunceiro.Fcgi.Records

namespace Bagunceiro.Fcgi

open Frames

set_option autoImplicit false

/-- A writing `FCGX_Stream` with its `FCGX_Stream_Data`. -/
structure Writer where
  /-- the buffer up to `wrNext`; at first eight bytes are left for a header -/
  buff : Bytes
  /-- `stop`, counted from the start of the buffer -/
  stop : Nat
  isClosed : Bool
  wasFCloseCalled : Bool
  errno : Int
  type : UInt8
  isAnythingWritten : Bool
  rawWrite : Bool

/-- The place of a header that has not been made yet. -/
def blankHeader : Bytes := List.replicate 8 0

section Streams

variable (fcgi : Fastcgi)

/-- `NewWriter`; memory that is not aligned costs eight bytes. -/
def newWriter (bufflen : Nat) (aligned : Bool) (streamType : UInt8) : Writer where
  buff := blankHeader
  stop := alignInt8 (min (max bufflen 32) (fcgi.maxLength + 1)) - if aligned then 0 else 8
  isClosed := false
  wasFCloseCalled := false
  errno := 0
  type := streamType
  isAnythingWritten := false
  rawWrite := false

namespace Writer

/-- `SetError`: only the first error is kept. -/
def setError (w : Writer) (errno : Int) : Writer :=
  { w with errno := if w.errno = 0 then errno else w.errno, isClosed := true }

/-! ## Sending -/

/-- The first half of `EmptyBuffProc`: what is in the buffer becomes a record. -/
def encapsulate (w : Writer) (req : Request) : Writer :=
  if w.rawWrite then w
  else
    let cLen := w.buff.length - 8
    if 0 < cLen then
      let eLen := alignInt8 cLen
      { w with
        buff := (makeHeader fcgi w.type req.requestId cLen (eLen - cLen)).bytes ++ w.buff.drop 8 ++
          List.replicate (eLen - cLen) 0 }
    else { w with buff := [] }

/-- The second half of `EmptyBuffProc`: the buffer is sent. -/
def send (w : Writer) (req : Request) : Writer × Request :=
  if w.buff = [] then ({ w with buff := if w.rawWrite then [] else blankHeader }, req)
  else
    let w := { w with isAnythingWritten := true }
    let wrote := writeItAll w.buff req.ipc
    let req := { req with ipc := wrote.2 }
    if wrote.1 < 0 then (w.setError req.ipc.errno, req)
    else ({ w with buff := if w.rawWrite then [] else blankHeader }, req)

/-- `EmptyBuffProc(stream, FALSE)` -/
def emptyBuff (w : Writer) (req : Request) : Writer × Request := send (w.encapsulate fcgi req) req

/-- The general case of `FCGX_PutStr`.  A round fills the buffer and empties it. -/
def putRounds : Nat → Bytes → Writer → Request → Bool × Writer × Request
  | 0, _, w, req => (false, w, req)
  | rounds + 1, s, w, req =>
      let m := min s.length (w.stop - w.buff.length)
      let w := { w with buff := w.buff ++ s.take m }
      if m = s.length then (true, w, req)
      else if w.isClosed then (false, w, req)
      else
        let emptied := w.emptyBuff fcgi req
        putRounds rounds (s.drop m) emptied.1 emptied.2

/-- `FCGX_PutStr`: whether all was put, where the source returns its length or -1. -/
def putStr (s : Bytes) (w : Writer) (req : Request) : Bool × Writer × Request :=
  if s.length ≤ w.stop - w.buff.length then (true, { w with buff := w.buff ++ s }, req)
  else putRounds fcgi (s.length + 2) s w req

/-- `FCGX_FFlush` -/
def flush (w : Writer) (req : Request) : Writer × Request :=
  if w.isClosed then (w, req) else w.emptyBuff fcgi req

/-! ## Closing -/

/-- `WriteCloseRecords` -/
def writeCloseRecords (w : Writer) (req : Request) : Writer × Request :=
  let w := { w with rawWrite := true }
  let ended :=
    if ¬ (w.type = fcgi.stderr ∧ w.buff = [] ∧ w.isAnythingWritten = false) then
      (w.putStr fcgi (makeHeader fcgi w.type req.requestId 0 0).bytes req).2
    else (w, req)
  let answered :=
    if ended.2.nWriters = 1 then
      (ended.1.putStr fcgi (endRequestRecord fcgi ended.2.requestId ended.2.appStatus
        fcgi.requestComplete) ended.2).2
    else ended
  (answered.1, { answered.2 with nWriters := answered.2.nWriters - 1 })

/-- `EmptyBuffProc(stream, TRUE)` -/
def emptyBuffClose (w : Writer) (req : Request) : Writer × Request :=
  let closing := (w.encapsulate fcgi req).writeCloseRecords fcgi req
  send closing.1 closing.2

/-- `FCGX_FClose` -/
def close (w : Writer) (req : Request) : Writer × Request :=
  if w.wasFCloseCalled then (w, req)
  else
    let emptied := w.emptyBuffClose fcgi req
    ({ emptied.1 with
        wasFCloseCalled := true
        isClosed := true
        stop := emptied.1.buff.length }, emptied.2)

end Writer

end Streams

/-! ## Filling and emptying, round by round -/

/-- What is kept and emptied keeps to `P`, and adds what `R` says. -/
structure Steady (fcgi : Fastcgi) (P : Writer → Request → Prop)
    (R : Writer → Request → Bytes → Writer → Request → Prop) : Prop where
  isClosed : ∀ {w req}, P w req → w.isClosed = false
  keep : ∀ {w req s}, P w req → s.length ≤ w.stop - w.buff.length →
    R w req s { w with buff := w.buff ++ s } req ∧ P { w with buff := w.buff ++ s } req
  empty : ∀ {w req}, P w req →
    R w req [] (w.emptyBuff fcgi req).1 (w.emptyBuff fcgi req).2 ∧
      P (w.emptyBuff fcgi req).1 (w.emptyBuff fcgi req).2 ∧
      (w.emptyBuff fcgi req).1.buff.length < (w.emptyBuff fcgi req).1.stop
  trans : ∀ {w₁ req₁ s w₂ req₂ t w₃ req₃}, R w₁ req₁ s w₂ req₂ → R w₂ req₂ t w₃ req₃ →
    R w₁ req₁ (s ++ t) w₃ req₃

namespace Steady

variable {fcgi : Fastcgi} {P : Writer → Request → Prop}
  {R : Writer → Request → Bytes → Writer → Request → Prop}

/-- Only the first round can find the buffer full. -/
theorem putRounds (steady : Steady fcgi P R) {rounds : Nat} {s : Bytes} {w : Writer} {req : Request}
    (holds : P w req)
    (enough : s.length + 1 < rounds ∨ w.buff.length < w.stop ∧ s.length < rounds) :
    ∃ w' req', w.putRounds fcgi rounds s req = (true, w', req') ∧ R w req s w' req' ∧ P w' req' := by
  induction rounds generalizing s w req with
  | zero => omega
  | succ rounds ih =>
      have fits : (s.take (min s.length (w.stop - w.buff.length))).length ≤
          w.stop - w.buff.length := by
        rw [List.length_take]
        omega
      obtain ⟨kept, held⟩ := steady.keep holds fits
      rw [Writer.putRounds]
      by_cases all : min s.length (w.stop - w.buff.length) = s.length
      · rw [if_pos all]
        refine ⟨_, _, rfl, ?_⟩
        rw [all, List.take_length] at kept held ⊢
        exact ⟨kept, held⟩
      · rw [if_neg all, if_neg (Bool.eq_false_iff.1 (steady.isClosed holds))]
        obtain ⟨emptied, clear, space⟩ := steady.empty held
        obtain ⟨w', req', ran, puts, final⟩ :=
          ih (s := s.drop (min s.length (w.stop - w.buff.length))) clear (by
            refine .inr ⟨space, ?_⟩
            rw [List.length_drop]
            omega)
        refine ⟨w', req', ran, ?_, final⟩
        have whole := steady.trans (steady.trans kept emptied) puts
        rw [List.append_nil, List.take_append_drop] at whole
        exact whole

theorem putStr (steady : Steady fcgi P R) {w : Writer} {req : Request} (holds : P w req)
    (s : Bytes) :
    ∃ w' req', w.putStr fcgi s req = (true, w', req') ∧ R w req s w' req' ∧ P w' req' := by
  rw [Writer.putStr]
  split
  · rename_i fits
    exact ⟨_, _, rfl, steady.keep holds fits⟩
  · exact steady.putRounds holds (.inl (by omega))

end Steady

/-! ## What is put arrives as content -/

/-- The contents of records, one behind the other. -/
def contents (rs : List Record) : Bytes := rs.flatMap (·.content)

@[simp] theorem contents_nil : contents [] = [] := rfl

@[simp] theorem contents_cons (r : Record) (rs : List Record) :
    contents (r :: rs) = r.content ++ contents rs := rfl

@[simp] theorem contents_append (rs ts : List Record) :
    contents (rs ++ ts) = contents rs ++ contents ts := List.flatMap_append

/-- More has been written to a connection. -/
def Request.wrote (req : Request) (s : Bytes) : Request :=
  { req with ipc := { req.ipc with output := req.ipc.output ++ s } }

@[simp] theorem Request.wrote_nil (req : Request) : req.wrote [] = req := by
  simp [Request.wrote]

@[simp] theorem Request.wrote_wrote (req : Request) (s t : Bytes) :
    (req.wrote s).wrote t = req.wrote (s ++ t) := by
  simp [Request.wrote]

section Puts

variable {fcgi : Fastcgi}

/-- A stream that can be written to. -/
structure Writer.Open (w : Writer) : Prop where
  header : 8 ≤ w.buff.length
  within : w.buff.length ≤ w.stop
  aligned : 8 ∣ w.stop
  size : 16 ≤ w.stop
  bound : w.stop ≤ 65536
  isClosed : w.isClosed = false
  wasFCloseCalled : w.wasFCloseCalled = false
  errno : w.errno = 0
  rawWrite : w.rawWrite = false

theorem open_newWriter (bufflen : Nat) (aligned : Bool) (streamType : UInt8) :
    (newWriter fcgi bufflen aligned streamType).Open := by
  have low := fcgi.le_maxLength
  have high := fcgi.maxLength_lt
  have size : 32 ≤ alignInt8 (min (max bufflen 32) (fcgi.maxLength + 1)) :=
    Nat.le_trans (by omega) (le_alignInt8 _)
  have bound : alignInt8 (min (max bufflen 32) (fcgi.maxLength + 1)) ≤ 65536 :=
    alignInt8_le (by omega) (by decide)
  have dvd := dvd_alignInt8 (min (max bufflen 32) (fcgi.maxLength + 1))
  generalize whole : alignInt8 (min (max bufflen 32) (fcgi.maxLength + 1)) = n at size bound dvd
  have stop : (newWriter fcgi bufflen aligned streamType).stop = n - if aligned then 0 else 8 :=
    congrArg (· - _) whole
  constructor
  · exact Nat.le_refl 8
  · rw [stop]
    show 8 ≤ _
    split <;> omega
  · rw [stop]
    split <;> omega
  · rw [stop]
    split <;> omega
  · rw [stop]
    split <;> omega
  all_goals rfl

/-- What waits in the buffer. -/
def Writer.content (w : Writer) : Bytes := w.buff.drop 8

/-- A record of a stream's content, aligned. -/
structure Record.Of (r : Record) (type : UInt8) (requestId : Nat) : Prop where
  type : r.type = type
  requestId : r.requestId = requestId
  content : r.content ≠ []
  aligned : 8 ∣ r.content.length + r.padding.length

/-- The record that the buffer becomes. -/
theorem Writer.Open.encapsulate {w : Writer} (opened : w.Open) {req : Request}
    (id_lt : req.requestId < 65536) (some_ : w.content ≠ []) :
    ∃ r : Record, r.Of w.type req.requestId ∧ r.content = w.content ∧
      w.encapsulate fcgi req = { w with buff := r.bytes fcgi } ∧
      (r.bytes fcgi).length ≤ w.stop := by
  have length : w.content.length = w.buff.length - 8 := List.length_drop
  have pos := List.length_pos_iff.2 some_
  have le := le_alignInt8 w.content.length
  have lt := alignInt8_lt w.content.length
  have bound := opened.bound
  have within := opened.within
  have header := opened.header
  refine ⟨⟨w.type, req.requestId, w.content, List.replicate (alignInt8 w.content.length -
    w.content.length) 0, id_lt, by omega, by rw [List.length_replicate]; omega⟩, ?_, rfl, ?_⟩
  · have whole : w.content.length + (List.replicate (alignInt8 w.content.length -
        w.content.length) (0 : UInt8)).length = alignInt8 w.content.length := by
      rw [List.length_replicate, Nat.add_sub_of_le le]
    exact ⟨rfl, rfl, some_, Dvd.dvd.trans (dvd_alignInt8 _) (dvd_of_eq whole.symm)⟩
  · rw [Writer.encapsulate, if_neg (Bool.eq_false_iff.1 opened.rawWrite)]
    simp only [← length]
    rw [if_pos pos, Record.bytes, Record.header]
    simp only [List.length_replicate, List.append_assoc]
    refine ⟨rfl, ?_⟩
    have aligned := alignInt8_le (n := w.content.length) (m := w.stop - 8) (by omega)
      (Nat.dvd_sub opened.aligned (by decide))
    simp only [List.length_append, Header.length_bytes, List.length_replicate]
    omega

/-- Nothing but `s` has been put to a stream, and records have been sent of what it
had and has no more. -/
structure Puts (fcgi : Fastcgi) (w : Writer) (req : Request) (s : Bytes) (rs : List Record)
    (w' : Writer) (req' : Request) : Prop where
  sent : req' = req.wrote (encode fcgi rs)
  each : ∀ r ∈ rs, r.Of w.type req.requestId
  content : contents rs ++ w'.content = w.content ++ s
  opened : w'.Open
  type : w'.type = w.type
  stop : w'.stop = w.stop
  written : w'.isAnythingWritten = (w.isAnythingWritten || !rs.isEmpty)

theorem Puts.trans {w w₁ w₂ : Writer} {req req₁ req₂ : Request} {s t : Bytes} {rs ts : List Record}
    (first : Puts fcgi w req s rs w₁ req₁) (second : Puts fcgi w₁ req₁ t ts w₂ req₂) :
    Puts fcgi w req (s ++ t) (rs ++ ts) w₂ req₂ where
  sent := by rw [second.sent, first.sent, Request.wrote_wrote, encode_append]
  each := by
    have id_ : req₁.requestId = req.requestId := by rw [first.sent, Request.wrote]
    refine List.forall_mem_append.2 ⟨first.each, fun r member => ?_⟩
    rw [← first.type, ← id_]
    exact second.each r member
  content := by
    rw [contents_append, List.append_assoc, second.content, ← List.append_assoc, first.content,
      List.append_assoc]
  opened := second.opened
  type := second.type.trans first.type
  stop := second.stop.trans first.stop
  written := by
    rw [second.written, first.written, Bool.or_assoc]
    cases rs <;> simp

/-- What fits is kept. -/
theorem Writer.Open.puts {w : Writer} (opened : w.Open) (req : Request) {s : Bytes}
    (fits : s.length ≤ w.stop - w.buff.length) :
    Puts fcgi w req s [] { w with buff := w.buff ++ s } req where
  sent := req.wrote_nil.symm
  each := List.forall_mem_nil _
  content := List.drop_append_of_le_length opened.header
  opened := by
    have header := opened.header
    have within := opened.within
    exact { opened with
      header := by
        rw [List.length_append]
        omega
      within := by
        show (w.buff ++ s).length ≤ w.stop
        rw [List.length_append]
        omega }
  type := rfl
  stop := rfl
  written := (Bool.or_false _).symm

section Room

variable {w : Writer} {req : Request}

/-- What waits is sent. -/
theorem Writer.Open.emptyBuff (opened : w.Open) (room : req.ipc.room = none)
    (id_lt : req.requestId < 65536) :
    ∃ rs, Puts fcgi w req [] rs (w.emptyBuff fcgi req).1 (w.emptyBuff fcgi req).2 ∧
      (w.emptyBuff fcgi req).1.content = [] := by
  have fresh : Writer.Open { w with buff := blankHeader } :=
    { opened with
      header := Nat.le_refl 8
      within := Nat.le_trans (show 8 ≤ 16 by decide) opened.size }
  by_cases empty : w.content = []
  · have cLen : w.buff.length - 8 = 0 := by
      rw [← List.length_drop, ← Writer.content, empty]
      rfl
    have ran : w.emptyBuff fcgi req = ({ w with buff := blankHeader }, req) := by
      rw [Writer.emptyBuff, Writer.encapsulate, if_neg (Bool.eq_false_iff.1 opened.rawWrite)]
      simp only [cLen, Nat.lt_irrefl, if_false]
      rw [Writer.send, if_pos rfl]
      simp only [opened.rawWrite, Bool.false_eq_true, if_false]
    rw [ran]
    refine ⟨[], ⟨req.wrote_nil.symm, List.forall_mem_nil _, ?_, fresh, rfl, rfl,
      (Bool.or_false _).symm⟩, rfl⟩
    rw [empty]
    rfl
  · obtain ⟨r, of, content, made, -⟩ := @Writer.Open.encapsulate fcgi _ opened _ id_lt empty
    have some_ : r.bytes fcgi ≠ [] := (Record.framing fcgi).some_ r
    have ran : w.emptyBuff fcgi req =
        ({ w with buff := blankHeader, isAnythingWritten := true }, req.wrote (r.bytes fcgi)) := by
      rw [Writer.emptyBuff, made, Writer.send, if_neg some_]
      simp only [writeItAll_of_room room, opened.rawWrite, Bool.false_eq_true, if_false]
      rfl
    rw [ran]
    refine ⟨[r], ⟨?_, List.forall_mem_singleton.2 of, ?_, { fresh with }, rfl, rfl, ?_⟩, rfl⟩
    · rw [encode_cons, encode_nil, List.append_nil]
    · rw [contents_cons, content, contents_nil]
      exact List.append_nil _
    · exact (Bool.or_true _).symm

theorem Puts.room {s : Bytes} {rs : List Record} {w' : Writer} {req' : Request}
    (puts : Puts fcgi w req s rs w' req') (room : req.ipc.room = none) :
    req'.ipc.room = none := by
  rw [puts.sent]
  exact room

theorem Puts.requestId {s : Bytes} {rs : List Record} {w' : Writer} {req' : Request}
    (puts : Puts fcgi w req s rs w' req') : req'.requestId = req.requestId := by
  rw [puts.sent]
  rfl

/-- A stream on a connection that takes everything. -/
structure Ready (w : Writer) (req : Request) : Prop where
  opened : w.Open
  room : req.ipc.room = none
  id_lt : req.requestId < 65536

theorem Puts.ready {s : Bytes} {rs : List Record} {w' : Writer} {req' : Request}
    (puts : Puts fcgi w req s rs w' req') (ready : Ready w req) : Ready w' req' where
  opened := puts.opened
  room := puts.room ready.room
  id_lt := puts.requestId ▸ ready.id_lt

theorem steady_ready :
    Steady fcgi Ready fun w req s w' req' => ∃ rs, Puts fcgi w req s rs w' req' where
  isClosed ready := ready.opened.isClosed
  keep ready fits :=
    have puts := @Writer.Open.puts fcgi _ ready.opened _ _ fits
    ⟨⟨[], puts⟩, puts.ready ready⟩
  empty := by
    intro w req ready
    obtain ⟨rs, puts, clear⟩ := @Writer.Open.emptyBuff fcgi _ _ ready.opened ready.room ready.id_lt
    refine ⟨⟨rs, puts⟩, puts.ready ready, ?_⟩
    have rest : (Writer.content _).length = 0 := congrArg List.length clear
    rw [Writer.content, List.length_drop] at rest
    have size := puts.opened.size
    omega
  trans := by
    rintro w₁ req₁ s w₂ req₂ t w₃ req₃ ⟨rs, first⟩ ⟨ts, second⟩
    exact ⟨rs ++ ts, first.trans second⟩

/-- **What is put to a stream is sent or kept.** -/
theorem Ready.putStr (ready : Ready w req) (s : Bytes) :
    ∃ rs w' req', w.putStr fcgi s req = (true, w', req') ∧ Puts fcgi w req s rs w' req' := by
  obtain ⟨w', req', ran, ⟨rs, puts⟩, -⟩ := steady_ready.putStr ready s
  exact ⟨rs, w', req', ran, puts⟩

theorem Ready.flush (ready : Ready w req) :
    ∃ rs, Puts fcgi w req [] rs (w.flush fcgi req).1 (w.flush fcgi req).2 := by
  rw [Writer.flush, if_neg (Bool.eq_false_iff.1 ready.opened.isClosed)]
  obtain ⟨rs, puts, -⟩ := @Writer.Open.emptyBuff fcgi _ _ ready.opened ready.room ready.id_lt
  exact ⟨rs, puts⟩

end Room

end Puts

/-! ## What is written to close a stream -/

section Close

variable {fcgi : Fastcgi}

/-- A stream whose buffer is sent as it is. -/
structure Writer.Raw (w : Writer) (req : Request) : Prop where
  within : w.buff.length ≤ w.stop
  size : 16 ≤ w.stop
  isClosed : w.isClosed = false
  errno : w.errno = 0
  rawWrite : w.rawWrite = true
  room : req.ipc.room = none

theorem Writer.send_of_room (w : Writer) {req : Request} (room : req.ipc.room = none) :
    (w.send req).2 = req.wrote w.buff ∧ (w.send req).1.errno = w.errno := by
  rw [Writer.send]
  split
  · rename_i empty
    rw [empty, Request.wrote_nil]
    exact ⟨rfl, rfl⟩
  · simp only [writeItAll_of_room room]
    exact ⟨rfl, rfl⟩

/-- The bytes `s` have been added to what is sent or waits. -/
def Adds (w : Writer) (req : Request) (s : Bytes) (w' : Writer) (req' : Request) : Prop :=
  ∃ out, req' = req.wrote out ∧ out ++ w'.buff = w.buff ++ s

theorem Adds.trans {w w₁ w₂ : Writer} {req req₁ req₂ : Request} {s t : Bytes}
    (first : Adds w req s w₁ req₁) (second : Adds w₁ req₁ t w₂ req₂) :
    Adds w req (s ++ t) w₂ req₂ := by
  obtain ⟨out, rfl, waits⟩ := first
  obtain ⟨out', rfl, waits'⟩ := second
  refine ⟨out ++ out', req.wrote_wrote out out', ?_⟩
  rw [List.append_assoc, waits', ← List.append_assoc, waits, List.append_assoc]

theorem Adds.nil (w : Writer) (req : Request) : Adds w req [] w req :=
  ⟨[], req.wrote_nil.symm, (List.append_nil _).symm⟩

theorem steady_raw : Steady fcgi Writer.Raw Adds where
  isClosed raw := raw.isClosed
  keep := by
    intro w req s raw fits
    refine ⟨⟨[], req.wrote_nil.symm, rfl⟩, { raw with within := ?_ }⟩
    have within := raw.within
    show (w.buff ++ s).length ≤ w.stop
    rw [List.length_append]
    omega
  empty := by
    intro w req raw
    have size := raw.size
    rw [Writer.emptyBuff, Writer.encapsulate, if_pos raw.rawWrite, Writer.send]
    split
    · rename_i empty
      simp only [raw.rawWrite, if_true]
      refine ⟨⟨[], req.wrote_nil.symm, by simp [empty]⟩, ⟨Nat.zero_le _, size, raw.isClosed,
        raw.errno, rfl, raw.room⟩, ?_⟩
      show 0 < w.stop
      omega
    · simp only [writeItAll_of_room raw.room, raw.rawWrite, if_true]
      refine ⟨⟨w.buff, rfl, rfl⟩, ⟨Nat.zero_le _, size, raw.isClosed, raw.errno, rfl,
        raw.room⟩, ?_⟩
      show 0 < w.stop
      omega
  trans := Adds.trans

theorem Writer.Raw.putStr {w : Writer} {req : Request} (raw : w.Raw req) (s : Bytes) :
    Adds w req s (w.putStr fcgi s req).2.1 (w.putStr fcgi s req).2.2 ∧
      (w.putStr fcgi s req).2.1.Raw (w.putStr fcgi s req).2.2 := by
  obtain ⟨w', req', ran, adds, raw'⟩ := steady_raw.putStr raw s
  rw [ran]
  exact ⟨adds, raw'⟩

/-- The record that ends a stream. -/
def eofRecord (type : UInt8) (requestId : Nat) (id_lt : requestId < 65536) : Record :=
  ⟨type, requestId, [], [], id_lt, by decide, by decide⟩

/-- The record that ends a request. -/
def endRecord (fcgi : Fastcgi) (requestId : Nat) (id_lt : requestId < 65536) (appStatus : UInt32) :
    Record where
  type := fcgi.endRequest
  requestId := requestId
  content := makeEndRequestBody appStatus fcgi.requestComplete
  padding := []
  id_lt := id_lt
  content_lt := by simp [makeEndRequestBody]
  padding_lt := by decide

theorem bytes_eofRecord (type : UInt8) (requestId : Nat) (id_lt : requestId < 65536) :
    (eofRecord type requestId id_lt).bytes fcgi = (makeHeader fcgi type requestId 0 0).bytes :=
  List.append_nil _

theorem bytes_endRecord (requestId : Nat) (id_lt : requestId < 65536) (appStatus : UInt32) :
    (endRecord fcgi requestId id_lt appStatus).bytes fcgi =
      endRequestRecord fcgi requestId appStatus fcgi.requestComplete := by
  have length : (makeEndRequestBody appStatus fcgi.requestComplete).length = 8 := by
    simp [makeEndRequestBody]
  rw [Record.bytes, Record.header]
  simp only [endRecord, List.append_nil, length]
  rfl

/-- The records that `WriteCloseRecords` adds: the end of the stream, unless it is the
error log and was never used, and the end of the request, by the last stream. -/
def closeRecords (fcgi : Fastcgi) (w : Writer) (used : Bool) (req : Request)
    (id_lt : req.requestId < 65536) : List Record :=
  (if w.type = fcgi.stderr ∧ used = false then [] else [eofRecord w.type req.requestId id_lt]) ++
    if req.nWriters = 1 then [endRecord fcgi req.requestId id_lt req.appStatus] else []

theorem writeCloseRecords_adds {w : Writer} {req : Request} (within : w.buff.length ≤ w.stop)
    (size : 16 ≤ w.stop) (isClosed : w.isClosed = false) (errno : w.errno = 0)
    (room : req.ipc.room = none)
    (id_lt : req.requestId < 65536) :
    ∃ w' out, w.writeCloseRecords fcgi req =
        (w', { req.wrote out with nWriters := req.nWriters - 1 }) ∧ w'.Raw (req.wrote out) ∧
      out ++ w'.buff = w.buff ++
        encode fcgi (closeRecords fcgi w (!w.buff.isEmpty || w.isAnythingWritten) req id_lt) := by
  have raw : Writer.Raw { w with rawWrite := true } req := ⟨within, size, isClosed, errno, rfl, room⟩
  have unused : (w.type = fcgi.stderr ∧ w.buff = [] ∧ w.isAnythingWritten = false) ↔
      (w.type = fcgi.stderr ∧ (!w.buff.isEmpty || w.isAnythingWritten) = false) := by
    cases w.buff <;> simp
  have puts {v : Writer} {req₁ : Request} (raw : v.Raw req₁) (c : Prop) [Decidable c] (r : Record) :
      ∃ v' req₂, (if c then (v.putStr fcgi (r.bytes fcgi) req₁).2 else (v, req₁)) = (v', req₂) ∧
        Adds v req₁ (encode fcgi (if c then [r] else [])) v' req₂ ∧ v'.Raw req₂ := by
    split
    · rw [encode_cons, encode_nil, List.append_nil]
      exact ⟨_, _, rfl, raw.putStr _⟩
    · exact ⟨_, _, rfl, Adds.nil v req₁, raw⟩
  obtain ⟨w₁, req₁, ended, ⟨out₁, rfl, waits₁⟩, raw₁⟩ := puts raw
    (¬ (w.type = fcgi.stderr ∧ w.buff = [] ∧ w.isAnythingWritten = false))
    (eofRecord w.type req.requestId id_lt)
  obtain ⟨w₂, req₂, answered, ⟨out₂, rfl, waits₂⟩, raw₂⟩ := puts raw₁ ((req.wrote out₁).nWriters = 1)
    (endRecord fcgi req.requestId id_lt req.appStatus)
  rw [bytes_eofRecord] at ended
  rw [bytes_endRecord] at answered
  have answered : (if (req.wrote out₁).nWriters = 1 then
      (w₁.putStr fcgi (endRequestRecord fcgi (req.wrote out₁).requestId (req.wrote out₁).appStatus
        fcgi.requestComplete) (req.wrote out₁)).2
      else (w₁, req.wrote out₁)) = (w₂, (req.wrote out₁).wrote out₂) := answered
  rw [Request.wrote_wrote] at raw₂
  refine ⟨w₂, out₁ ++ out₂, ?_, raw₂, ?_⟩
  · rw [Writer.writeCloseRecords]
    simp only [ended, answered]
    rw [Request.wrote_wrote]
    rfl
  · simp only [unused, ite_not] at waits₁
    rw [List.append_assoc, waits₂, ← List.append_assoc, waits₁, closeRecords, encode_append,
      List.append_assoc]
    rfl

/-- **Closing a stream sends what waits, and then what closes it.** -/
theorem Ready.close {w : Writer} {req : Request} (ready : Ready w req) :
    ∃ rs, (∀ r ∈ rs, r.Of w.type req.requestId) ∧ contents rs = w.content ∧
      (w.close fcgi req).2 = { req.wrote (encode fcgi (rs ++
        closeRecords fcgi w (!rs.isEmpty || w.isAnythingWritten) req ready.id_lt)) with
          nWriters := req.nWriters - 1 } ∧ (w.close fcgi req).1.errno = 0 := by
  have opened := ready.opened
  obtain ⟨rs, each, content, made, within⟩ : ∃ rs : List Record,
      (∀ r ∈ rs, r.Of w.type req.requestId) ∧ contents rs = w.content ∧
      w.encapsulate fcgi req = { w with buff := encode fcgi rs } ∧
      (encode fcgi rs).length ≤ w.stop := by
    by_cases empty : w.content = []
    · have cLen : w.buff.length - 8 = 0 := by
        rw [← List.length_drop, ← Writer.content, empty]
        rfl
      refine ⟨[], List.forall_mem_nil _, empty.symm, ?_, Nat.zero_le _⟩
      rw [Writer.encapsulate, if_neg (Bool.eq_false_iff.1 opened.rawWrite)]
      simp only [cLen, Nat.lt_irrefl, if_false]
      rfl
    · obtain ⟨r, of, content, made, within⟩ := @Writer.Open.encapsulate fcgi _ opened _ ready.id_lt empty
      refine ⟨[r], List.forall_mem_singleton.2 of, ?_, ?_, ?_⟩
      · rw [contents_cons, content, contents_nil, List.append_nil]
      · rw [made, encode_cons, encode_nil, List.append_nil]
      · rw [encode_cons, encode_nil, List.append_nil]
        exact within
  obtain ⟨w', out, closing, raw, whole⟩ := @writeCloseRecords_adds fcgi
    { w with buff := encode fcgi rs } _ within opened.size opened.isClosed opened.errno ready.room
    ready.id_lt
  have isEmpty : (encode fcgi rs).isEmpty = rs.isEmpty := by
    rw [Bool.eq_iff_iff, List.isEmpty_iff, List.isEmpty_iff]
    exact (Record.framing fcgi).encode_eq_nil_iff rs
  rw [isEmpty] at whole
  refine ⟨rs, each, content, ?_⟩
  rw [Writer.close, if_neg (Bool.eq_false_iff.1 opened.wasFCloseCalled), Writer.emptyBuffClose, made,
    closing]
  have room : ({ req.wrote out with nWriters := req.nWriters - 1 } : Request).ipc.room = none :=
    ready.room
  obtain ⟨last, noError⟩ := Writer.send_of_room w' room
  refine ⟨?_, noError.trans raw.errno⟩
  show (w'.send { req.wrote out with nWriters := req.nWriters - 1 }).2 = _
  have sent : out ++ w'.buff = encode fcgi rs ++
      encode fcgi (closeRecords fcgi w (!rs.isEmpty || w.isAnythingWritten) req ready.id_lt) := whole
  rw [last, encode_append, ← sent, ← Request.wrote_wrote]
  rfl

end Close

end Bagunceiro.Fcgi
