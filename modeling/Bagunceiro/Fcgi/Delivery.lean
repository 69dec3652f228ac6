/-
# Fcgi.Delivery -- what a stream delivers (`fcgiapp.c`)

The records on a connection are of several requests and streams, and some are about the
connection itself.  A stream delivers the contents of its own records until one of them
is empty, and the others are answered or passed over (`Delivers`, `stream_feeds`).  Two
things go wrong there: behind an empty record of another request the next record of
the stream is lost, and the content of a record about the connection whose type is not
known is delivered.

What is read here has arrived already; how it arrived is not seen (`Fcgi.Portions`).
-/
import Bagunceiro.Fcgi.Pairs

namespace Bagunceiro.Fcgi

open Refill

set_option autoImplicit false

namespace Reader

/-! ## Where a stream stands -/

/-- The stream within a record: what is ready, what else there is of the content and the
padding, and what follows. -/
def amid (b : Reader) (ready content padding more : Bytes) : Reader :=
  { b with
    ready := ready
    rest := content ++ (padding ++ more)
    contentLen := content.length
    paddingLen := padding.length }

/-- The content that is skipped is gone. -/
def past (b : Reader) (content : Bytes) : Reader := { b with skip := b.skip && content.isEmpty }

/-- The stream that skips or not, when so much has been written. -/
def on (b : Reader) (skip : Bool) (output : Bytes) : Reader :=
  { b with
    skip := skip
    req := { b.req with ipc := { b.req.ipc with output := output } } }

section Amid

variable (b : Reader) (header ready content padding more : Bytes)

@[simp] theorem taken_amid (x : UInt8) :
    (b.amid (x :: ready) content padding more).taken 1 = b.amid ready content padding more := rfl

theorem past_nil : b.past [] = b := by
  rw [past, List.isEmpty_nil, Bool.and_true]

variable {b content}

/-- Something has arrived. -/
theorem pass_amid (some_ : content ++ (padding ++ more) ≠ []) :
    pass header (b.amid [] content padding more) =
      passContent header (b.amid [] content padding more) := by
  have there : ¬ (b.amid [] content padding more).rest = [] := some_
  rw [pass]
  exact if_neg there

theorem passPadding_amid :
    passPadding header (b.amid [] [] padding more) = passHeader header (b.amid [] [] [] more) := by
  by_cases none_ : padding = []
  · subst none_
    exact if_neg (Nat.lt_irrefl 0)
  · have some_ : 0 < padding.length := List.length_pos_iff.2 none_
    have all : min padding.length (padding ++ more).length = padding.length := by
      rw [List.length_append]
      omega
    rw [passPadding]
    refine (if_pos some_).trans ?_
    show (if 0 < padding.length - min padding.length (padding ++ more).length then _ else
      passHeader header { b.amid [] [] padding more with
        paddingLen := padding.length - min padding.length (padding ++ more).length
        rest := (padding ++ more).drop (min padding.length (padding ++ more).length) }) = _
    rw [all, Nat.sub_self, if_neg (Nat.lt_irrefl 0), List.drop_left]
    rfl

/-- All there is of the content is delivered. -/
theorem pass_delivers (some_ : content ≠ []) (deliver : b.skip = false) :
    pass header (b.amid [] content padding more) = (.ret, b.amid content [] padding more) := by
  have pos : 0 < content.length := List.length_pos_iff.2 some_
  have all : min content.length (content ++ (padding ++ more)).length = content.length := by
    rw [List.length_append]
    omega
  rw [pass_amid header padding more (by simp [some_]), passContent]
  refine (if_pos pos).trans ?_
  refine (if_pos deliver).trans ?_
  show (Flow.ret, ({ b.amid [] content padding more with
    contentLen := content.length - min content.length (content ++ (padding ++ more)).length
    ready := (content ++ (padding ++ more)).take
      (min content.length (content ++ (padding ++ more)).length)
    rest := (content ++ (padding ++ more)).drop
      (min content.length (content ++ (padding ++ more)).length) } : Reader)) = _
  rw [all, Nat.sub_self, List.take_left, List.drop_left]
  rfl

/-- The record is passed over, up to the next header. -/
theorem pass_over (passed : content = [] ∨ b.skip = true)
    (some_ : content ++ (padding ++ more) ≠ []) :
    pass header (b.amid [] content padding more) =
      passHeader header ((b.past content).amid [] [] [] more) := by
  rw [pass_amid header padding more some_]
  by_cases none_ : content = []
  · subst none_
    rw [past_nil, passContent_eq_passPadding (s := b.amid [] [] padding more) rfl]
    exact passPadding_amid header padding more
  · have skip : b.skip = true := passed.resolve_left none_
    have pos : 0 < content.length := List.length_pos_iff.2 none_
    have all : min content.length (content ++ (padding ++ more)).length = content.length := by
      rw [List.length_append]
      omega
    have deliver : ¬ (b.amid [] content padding more).skip = false := by
      show ¬ b.skip = false
      rw [skip]
      exact fun no => Bool.noConfusion no
    have past_ : b.past content = { b with skip := false } := by
      rw [past, List.isEmpty_eq_false_iff.2 none_, Bool.and_false]
    rw [passContent]
    refine (if_pos pos).trans ?_
    refine (if_neg deliver).trans ?_
    show (if 0 < content.length - min content.length (content ++ (padding ++ more)).length then _ else
      passPadding header { b.amid [] content padding more with
        contentLen := content.length - min content.length (content ++ (padding ++ more)).length
        rest := (content ++ (padding ++ more)).drop
          (min content.length (content ++ (padding ++ more)).length)
        skip := false }) = _
    rw [all, Nat.sub_self, if_neg (Nat.lt_irrefl 0), List.drop_left, past_]
    exact passPadding_amid (b := { b with skip := false }) header padding more

/-- The next header is there. -/
theorem passHeader_amid (goesOn : b.eorStop = false) (h : Header) :
    passHeader [] (b.amid [] [] [] (h.bytes ++ more)) =
      (.interpret h.bytes, b.amid [] [] [] more) := by
  rw [passHeader]
  have stop : ¬ (b.amid [] [] [] (h.bytes ++ more)).eorStop = true := Bool.eq_false_iff.1 goesOn
  rw [if_neg stop]
  rfl

end Amid

/-! ## The content of one record -/

/-- The stream ends with the content. -/
inductive Within (b : Reader) (padding more : Bytes) : Reader → Bytes → Prop
  | content {content : Bytes} (ready : Bytes) (listens : b.skip = false ∨ content = []) :
      Within b padding more (b.amid ready content padding more) (ready ++ content)
  | closed : Within b padding more ({ b with isClosed := true }.amid [] [] [] more) []

section Within

variable {b : Reader} {padding more : Bytes} (stop : b.eorStop = true) (open_ : b.isClosed = false)
  (behind : padding ++ more ≠ [])

theorem fillRecord_ret {s s' : Reader} (ret : pass [] s = (.ret, s')) :
    fillRecord s = .ok ((), s') := by
  show follow _ _ (pass [] s) = _
  rw [ret]
  rfl

include stop open_ behind

theorem content_feeds : Feeds (source fillRecord) (Within b padding more) where
  ready := by
    intro s bs x rest within ready
    cases within with
    | closed => cases ready
    | content ready' listens =>
        obtain rfl : ready' = x :: rest := ready
        exact ⟨_, rfl, .content rest listens⟩
  closed := by
    intro s bs within ready closed
    cases within with
    | closed => rfl
    | content ready' listens => exact absurd (open_.symm.trans closed) Bool.false_ne_true
  fill := by
    intro s bs within ready closed
    cases within with
    | closed => cases closed
    | @content content ready' listens =>
        obtain rfl : ready' = [] := ready
        by_cases none_ : content = []
        · subst none_
          have passes_ : pass [] (b.amid [] [] padding more) =
              (.ret, { b with isClosed := true }.amid [] [] [] more) := by
            rw [pass_over [] padding more (.inl rfl) behind, past_nil, passHeader]
            exact if_pos stop
          exact ⟨_, fillRecord_ret passes_, .closed, .inl ⟨rfl, rfl⟩⟩
        · have deliver := listens.resolve_right none_
          refine ⟨_, fillRecord_ret (pass_delivers [] padding more none_ deliver), ?_,
            .inr ⟨open_, none_⟩⟩
          have within := @Within.content b padding more _ content
            (.inr (rfl : ([] : Bytes) = []))
          rw [List.append_nil] at within
          exact within

omit stop behind in
theorem within_live {s : Reader} {bs : Bytes} (within : Within b padding more s bs)
    (some_ : s.ready ≠ []) : s.isClosed = false := by
  cases within with
  | content ready listens => exact open_
  | closed => exact absurd rfl some_

omit stop open_ behind in
theorem within_unread {s : Reader} {bs : Bytes} (within : Within b padding more s bs) :
    bs.length ≤ s.unread := by
  cases within with
  | closed => exact Nat.zero_le _
  | @content content ready listens =>
      rw [unread, List.length_append]
      show _ ≤ ready.length + (content ++ (padding ++ more)).length + _
      rw [List.length_append]
      omega

/-- The parameters that a record asks for. -/
theorem readParams_record {content : Bytes} (listens : b.skip = false ∨ content = [])
    {ps : List Pair} (asked : content = encodePairs ps) (vec : List Bytes) :
    readParams fillRecord vec (b.amid [] content padding more) =
      .ok ((true, vec ++ ps.map Pair.nameValue),
        { b with isClosed := true }.amid [] [] [] more) := by
  have within := @Within.content _ padding more _ [] listens
  rw [List.nil_append, asked] at within
  obtain ⟨s', read, ended, closed⟩ := readParams_encode (content_feeds stop open_ behind)
    (within_live open_) within_unread ps within vec
  rw [asked, read]
  generalize whole : ([] : Bytes) = bs at ended
  cases ended with
  | content ready listens => exact absurd (open_.symm.trans closed) Bool.false_ne_true
  | closed => rfl

omit stop behind in
/-- The body of a record. -/
theorem getStr_record {content : Bytes} (deliver : b.skip = false) :
    getStr fillRecord content.length (b.amid [] content padding more) =
      .ok (content, b.amid [] [] padding more) := by
  by_cases none_ : content = []
  · subst none_
    exact if_pos (.inr rfl)
  · obtain ⟨n, length⟩ := Nat.exists_eq_succ_of_ne_zero (List.length_pos_iff.2 none_).ne'
    have filled : (source fillRecord).fill (b.amid [] content padding more) =
        .ok ((), b.amid content [] padding more) :=
      fillRecord_ret (pass_delivers [] padding more none_ deliver)
    have fits : n + 1 ≤ ((source fillRecord).ready (b.amid content [] padding more)).length :=
      Nat.le_of_eq length.symm
    have taken : (b.amid content [] padding more).taken (n + 1) = b.amid [] [] padding more := by
      show { b.amid content [] padding more with ready := content.drop (n + 1) } = _
      rw [← Nat.succ_eq_add_one, ← length, List.drop_length]
      rfl
    have open' : (b.amid [] content padding more).isClosed = false := open_
    rw [getStr_eq_collect fillRecord open', length,
      (source fillRecord).collect_empty (s := b.amid [] content padding more) rfl open_, filled]
    show (if b.isClosed = true then _ else _) = _
    rw [if_neg (Bool.eq_false_iff.1 open_), (source fillRecord).collect_fits fits]
    show Except.ok (content.take (n + 1), _) = _
    rw [← Nat.succ_eq_add_one, ← length, List.take_length, length]
    exact congrArg (fun s => Except.ok (content, s)) taken

end Within

/-! ## At a header -/

/-- What of the request matters there. -/
structure Current where
  requestId : Nat
  isBeginProcessed : Bool
  response : Nat → UInt8

end Reader

def Request.current (req : Request) : Reader.Current :=
  ⟨req.requestId, req.isBeginProcessed, req.response⟩

namespace Reader

section Headers

variable (fcgi : Fastcgi)

/-- What a stream makes of the header of a record: the answer, whether content is skipped,
and what is left of the record. -/
inductive Met (type : UInt8) (cur : Current) (skip : Bool) (r : Record) :
    Bytes → Bool → Bytes → Bytes → Prop
  | own (notBegin : r.type ≠ fcgi.beginRequest) (notNull : r.requestId ≠ fcgi.nullRequestId)
      (id_ : r.requestId = cur.requestId) (type_ : r.type = type) (some_ : r.content ≠ []) :
      Met type cur skip r [] skip r.content r.padding
  | foreign (notBegin : r.type ≠ fcgi.beginRequest) (notNull : r.requestId ≠ fcgi.nullRequestId)
      (id_ : r.requestId ≠ cur.requestId) : Met type cur skip r [] true r.content r.padding
  /-- a request begins while one is processed -/
  | another (begin_ : r.type = fcgi.beginRequest) (notZero : r.requestId ≠ 0)
      (body : r.content.length = 8) (begun : cur.isBeginProcessed = true) :
      Met type cur skip r (endRequestRecord fcgi r.requestId 0 fcgi.cantMpxConn) true r.content
        r.padding
  | unknown (notBegin : r.type ≠ fcgi.beginRequest) (null : r.requestId = fcgi.nullRequestId)
      (notValues : r.type ≠ fcgi.getValues) :
      Met type cur skip r (unknownTypeRecord fcgi r.type) skip r.content r.padding
  | values {ps : List Pair} {pairs : Bytes} (null : r.requestId = fcgi.nullRequestId)
      (values : r.type = fcgi.getValues) (asked : r.content = encodePairs ps)
      (listens : skip = false ∨ r.content = [])
      (answered : valuePairs fcgi (ps.map Pair.nameValue) [] = .ok pairs) :
      Met type cur skip r (valuesRecord fcgi cur.response pairs) skip [] []

/-- A stream from which can be read, on a connection to which can be written. -/
structure Idle (b : Reader) : Prop where
  isClosed : b.isClosed = false
  eorStop : b.eorStop = false
  errno : b.errno = 0
  room : b.req.ipc.room = none

theorem getValues_ne_beginRequest : fcgi.getValues ≠ fcgi.beginRequest := by
  have nodup := fcgi.types_nodup
  simp only [List.nodup_cons, List.mem_cons, not_or] at nodup
  exact fun same => nodup.1.2.2.2.2.2.1 same.symm

variable {fcgi} {b : Reader} {r : Record} {more : Bytes}

section Process

theorem processHeader_begin (begin_ : r.type = fcgi.beginRequest) :
    processHeader fcgi (r.header fcgi) (b.amid [] [] [] (r.content ++ (r.padding ++ more))) =
      processBeginRecord fcgi r.requestId (b.amid [] r.content r.padding more) := by
  rw [processHeader, if_neg (not_not_intro (Record.header_version fcgi r))]
  show (if r.type = fcgi.beginRequest then _ else _ : Reading Status)
    { b.amid [] [] [] (r.content ++ (r.padding ++ more)) with
      contentLen := (r.header fcgi).contentLength
      paddingLen := (r.header fcgi).paddingLength.toNat } = _
  rw [if_pos begin_, Record.header_contentLength, Record.header_paddingLength,
    Record.header_requestId]
  rfl

theorem processHeader_management (notBegin : r.type ≠ fcgi.beginRequest)
    (null : r.requestId = fcgi.nullRequestId) :
    processHeader fcgi (r.header fcgi) (b.amid [] [] [] (r.content ++ (r.padding ++ more))) =
      processManagementRecord fcgi r.type (b.amid [] r.content r.padding more) := by
  rw [processHeader, if_neg (not_not_intro (Record.header_version fcgi r))]
  show (if r.type = fcgi.beginRequest then _ else _ : Reading Status)
    { b.amid [] [] [] (r.content ++ (r.padding ++ more)) with
      contentLen := (r.header fcgi).contentLength
      paddingLen := (r.header fcgi).paddingLength.toNat } = _
  rw [if_neg notBegin, Record.header_contentLength, Record.header_paddingLength,
    Record.header_requestId, if_pos null]
  rfl

theorem processHeader_stream (notBegin : r.type ≠ fcgi.beginRequest)
    (notNull : r.requestId ≠ fcgi.nullRequestId) :
    processHeader fcgi (r.header fcgi) (b.amid [] [] [] (r.content ++ (r.padding ++ more))) =
      .ok (if r.requestId ≠ b.req.requestId then .skip
        else if r.type ≠ b.type then .error protocolError else .streamRecord,
        b.amid [] r.content r.padding more) := by
  rw [processHeader, if_neg (not_not_intro (Record.header_version fcgi r))]
  show (if r.type = fcgi.beginRequest then _ else _ : Reading Status)
    { b.amid [] [] [] (r.content ++ (r.padding ++ more)) with
      contentLen := (r.header fcgi).contentLength
      paddingLen := (r.header fcgi).paddingLength.toNat } = _
  rw [if_neg notBegin, Record.header_contentLength, Record.header_paddingLength,
    Record.header_requestId, if_neg notNull]
  show (if r.requestId ≠ b.req.requestId then _ else _ : Reading Status)
    (b.amid [] r.content r.padding more) = _
  by_cases id_ : r.requestId = b.req.requestId
  · rw [if_neg (not_not_intro id_), if_neg (not_not_intro id_)]
    show (if r.type ≠ b.type then _ else _ : Reading Status) _ = _
    by_cases type : r.type = b.type
    · rw [if_neg (not_not_intro type), if_neg (not_not_intro type)]
      rfl
    · rw [if_pos type, if_pos type]
      rfl
  · rw [if_pos id_, if_pos id_]
    rfl

theorem answer_on (room : b.req.ipc.room = none) (record ready content padding : Bytes)
    (status : Status) :
    answer record status (b.amid ready content padding more) =
      .ok (status, (b.on b.skip (b.req.ipc.output ++ record)).amid ready content padding more) := by
  have wrote : writeItAll record (b.amid ready content padding more).req.ipc =
      (0, { b.req.ipc with output := b.req.ipc.output ++ record }) := writeItAll_of_room room record
  rw [answer, wrote]
  rfl

end Process

/-- The stream that is read while a header is processed. -/
def inside (b : Reader) : Reader := { b with eorStop := true }

theorem reopened (idle : b.Idle) (skip : Bool) (output content padding : Bytes) :
    ({ (b.inside.on skip output).amid [] content padding more with
      eorStop := false, isClosed := false } : Reader) =
      (b.on skip output).amid [] content padding more := by
  simp only [amid, on, inside, idle.isClosed, idle.eorStop]

/-- How a header is interpreted. -/
theorem interpret_header {s : Reader} {status : Status} {flow : Flow} {t : Reader}
    (processed : processHeader fcgi (r.header fcgi)
      (b.inside.amid [] [] [] (r.content ++ (r.padding ++ more))) = .ok (status, s))
    (switched : switch status s = .ok (flow, t)) :
    interpret (processHeader fcgi) (r.header fcgi).bytes
      (b.amid [] [] [] (r.content ++ (r.padding ++ more))) = .ok (flow, t) := by
  rw [interpret, Header.ofBytes_bytes]
  show (processHeader fcgi (r.header fcgi)
    (b.inside.amid [] [] [] (r.content ++ (r.padding ++ more))) >>= fun processed =>
      switch processed.1 processed.2) = _
  rw [processed]
  exact switched

/-- The record is skipped. -/
theorem switch_skip (idle : b.Idle) (output content padding : Bytes) :
    switch .skip ((b.inside.on b.skip output).amid [] content padding more) =
      .ok (.again [], (b.on true output).amid [] content padding more) :=
  congrArg (fun s => Except.ok (Flow.again [], s)) (reopened idle true output content padding)

/-- The record has been answered. -/
theorem switch_mgmtRecord (idle : b.Idle) (closed : Bool) (output content padding : Bytes) :
    switch .mgmtRecord
        (({ b.inside with isClosed := closed }.on b.skip output).amid [] content padding more) =
      .ok (.again [], (b.on b.skip output).amid [] content padding more) :=
  congrArg (fun s => Except.ok (Flow.again [], s)) (reopened idle b.skip output content padding)

/-- The record is of the stream. -/
theorem switch_streamRecord (idle : b.Idle) {content : Bytes} (some_ : content ≠ [])
    (padding : Bytes) :
    switch .streamRecord (b.inside.amid [] content padding more) =
      .ok (.again [], b.amid [] content padding more) := by
  have length : ¬ content.length = 0 := fun no => some_ (List.eq_nil_of_length_eq_zero no)
  exact (if_neg length).trans
    (congrArg (fun s => Except.ok (Flow.again [], s))
      (reopened idle b.skip b.req.ipc.output content padding))

/-- The question is read, and answered if that can be done. -/
theorem processValues (idle : b.Idle) (behind : r.padding ++ more ≠ [])
    (values : r.type = fcgi.getValues) {ps : List Pair} (asked : r.content = encodePairs ps)
    (listens : b.skip = false ∨ r.content = []) :
    processManagementRecord fcgi r.type (b.inside.amid [] r.content r.padding more) =
      valuePairs fcgi (ps.map Pair.nameValue) [] >>= fun pairs =>
        answer (valuesRecord fcgi b.req.response pairs) .mgmtRecord
          ({ b.inside with isClosed := true }.amid [] [] [] more) := by
  have read := readParams_record (b := b.inside) rfl idle.isClosed behind listens asked []
  rw [processManagementRecord, if_pos values, run_bind read, List.nil_append]
  have fine : ¬ (b.errno ≠ 0 ∨ ([] : Bytes).length ≠ 0) := by
    rw [idle.errno]
    exact fun no => no.elim (absurd rfl) (absurd rfl)
  refine (congrFun (if_neg fine) _).trans ?_
  cases valuePairs fcgi (ps.map Pair.nameValue) [] <;> rfl

theorem interpret_values (idle : b.Idle) (behind : r.padding ++ more ≠ [])
    (null : r.requestId = fcgi.nullRequestId) (values : r.type = fcgi.getValues) {ps : List Pair}
    {pairs : Bytes} (asked : r.content = encodePairs ps)
    (listens : b.skip = false ∨ r.content = [])
    (answered : valuePairs fcgi (ps.map Pair.nameValue) [] = .ok pairs) :
    interpret (processHeader fcgi) (r.header fcgi).bytes
        (b.amid [] [] [] (r.content ++ (r.padding ++ more))) =
      .ok (.again [], (b.on b.skip (b.req.ipc.output ++
        valuesRecord fcgi b.req.response pairs)).amid [] [] [] more) := by
  have notBegin : r.type ≠ fcgi.beginRequest := fun no =>
    getValues_ne_beginRequest fcgi (values.symm.trans no)
  have processed := @processHeader_management _ b.inside _ more notBegin null
  refine interpret_header (processed.trans ?_) (switch_mgmtRecord idle true _ [] [])
  rw [processValues idle behind values asked listens, answered]
  exact answer_on (b := { b.inside with isClosed := true }) idle.room _ _ _ _ _

/-- Another round follows. -/
theorem interpret_met (idle : b.Idle) (behind : more ≠ []) {out : Bytes} {skip : Bool}
    {content padding : Bytes}
    (met : Met fcgi b.type b.req.current b.skip r out skip content padding) :
    interpret (processHeader fcgi) (r.header fcgi).bytes
        (b.amid [] [] [] (r.content ++ (r.padding ++ more))) =
      .ok (.again [], (b.on skip (b.req.ipc.output ++ out)).amid [] content padding more) := by
  cases met with
  | own notBegin notNull id_ type_ some_ =>
      have processed := @processHeader_stream _ b.inside _ more notBegin notNull
      have id' : r.requestId = b.inside.req.requestId := id_
      have type' : r.type = b.inside.type := type_
      rw [if_neg (not_not_intro id'), if_neg (not_not_intro type')] at processed
      rw [List.append_nil]
      exact interpret_header processed (switch_streamRecord idle some_ r.padding)
  | foreign notBegin notNull id_ =>
      have processed := @processHeader_stream _ b.inside _ more notBegin notNull
      have id' : r.requestId ≠ b.inside.req.requestId := id_
      rw [if_pos id'] at processed
      rw [List.append_nil]
      exact interpret_header processed (switch_skip idle b.req.ipc.output r.content r.padding)
  | another begin_ notZero body begun =>
      have processed := @processHeader_begin _ b.inside _ more begin_
      refine interpret_header (processed.trans ?_) (switch_skip idle _ r.content r.padding)
      have goesOn : ¬ (r.requestId = 0 ∨ r.content.length ≠ 8) := by
        rintro (zero | length)
        · exact notZero zero
        · exact length body
      rw [processBeginRecord]
      refine (congrFun (if_neg goesOn) _).trans ?_
      refine (congrFun (if_pos begun) _).trans ?_
      exact answer_on (b := b.inside) idle.room _ _ _ _ _
  | unknown notBegin null notValues =>
      have processed := @processHeader_management _ b.inside _ more notBegin null
      refine interpret_header (processed.trans ?_)
        (switch_mgmtRecord idle b.isClosed _ r.content r.padding)
      rw [processManagementRecord, if_neg notValues]
      exact answer_on (b := b.inside) idle.room _ _ _ _ _
  | values null values asked listens answered =>
      exact interpret_values idle (List.append_ne_nil_of_right_ne_nil _ behind) null values asked
        listens answered

/-- What a web server may ask for. -/
def knownNames : List Pair :=
  [⟨str "FCGI_MAX_CONNS", [], by decide⟩, ⟨str "FCGI_MAX_REQS", [], by decide⟩,
    ⟨str "FCGI_MPXS_CONNS", [], by decide⟩]

variable (fcgi) in
/-- No name has a NUL, and the answer fits the buffer. -/
def Answerable (ps : List Pair) : Prop :=
  (∀ p ∈ ps, 0 ∉ p.name.takeWhile (· ≠ 61)) ∧ (answers fcgi (ps.map Pair.nameValue)).length ≤ 55

theorem valuePairs_of_answerable {ps : List Pair} (answerable : Answerable fcgi ps) :
    valuePairs fcgi (ps.map Pair.nameValue) [] = .ok (answers fcgi (ps.map Pair.nameValue)) := by
  refine (valuePairs_iff fcgi _ _).2 ⟨?_, answerable.2, rfl⟩
  rw [List.forall_mem_map]
  exact fun p member => (nameOf_ne_none_iff p.name p.value).2 (answerable.1 p member)

/-- Otherwise memory is written that is not the buffer's. -/
theorem answerable_of_interpret (idle : b.Idle) (deliver : b.skip = false)
    (behind : r.padding ++ more ≠ []) (null : r.requestId = fcgi.nullRequestId)
    (values : r.type = fcgi.getValues) {ps : List Pair} (asked : r.content = encodePairs ps)
    {s : Flow × Reader} (ran : interpret (processHeader fcgi) (r.header fcgi).bytes
      (b.amid [] [] [] (r.content ++ (r.padding ++ more))) = .ok s) : Answerable fcgi ps := by
  have notBegin : r.type ≠ fcgi.beginRequest := fun no =>
    getValues_ne_beginRequest fcgi (values.symm.trans no)
  have processed : processHeader fcgi (r.header fcgi)
      (b.inside.amid [] [] [] (r.content ++ (r.padding ++ more))) = _ :=
    (processHeader_management notBegin null).trans
      (processValues idle behind values asked (.inl deliver))
  rw [interpret, Header.ofBytes_bytes] at ran
  cases pairs : valuePairs fcgi (ps.map Pair.nameValue) [] with
  | error e =>
      rw [pairs] at processed
      have failed : (processHeader fcgi (r.header fcgi)
          (b.inside.amid [] [] [] (r.content ++ (r.padding ++ more))) >>= fun processed =>
            switch processed.1 processed.2) = .ok s := ran
      rw [processed] at failed
      cases failed
  | ok pairs' =>
      obtain ⟨named, fits, -⟩ := (valuePairs_iff fcgi _ _).1 pairs
      rw [List.forall_mem_map] at named
      exact ⟨fun p member => (nameOf_ne_none_iff p.name p.value).1 (named p member), fits⟩

/-- **A question about the library is answered exactly if no name has a NUL and the answer
fits the buffer.**  Something has to follow the question: the library reads on before it
looks whether the record has ended. -/
theorem getValues_iff (idle : b.Idle) (deliver : b.skip = false) (behind : r.padding ++ more ≠ [])
    (null : r.requestId = fcgi.nullRequestId) (values : r.type = fcgi.getValues) {ps : List Pair}
    (asked : r.content = encodePairs ps) :
    let ran := interpret (processHeader fcgi) (r.header fcgi).bytes
      (b.amid [] [] [] (r.content ++ (r.padding ++ more)))
    ((∃ s, ran = .ok s) ↔ Answerable fcgi ps) ∧
      ∀ s, ran = .ok s → s = (.again [], (b.on false (b.req.ipc.output ++
        valuesRecord fcgi b.req.response (answers fcgi (ps.map Pair.nameValue)))).amid [] [] [] more) := by
  have answered (answerable : Answerable fcgi ps) :=
    interpret_values idle behind null values asked (.inl deliver) (valuePairs_of_answerable answerable)
  refine ⟨⟨?_, fun answerable => ⟨_, answered answerable⟩⟩, fun s ran => ?_⟩
  · rintro ⟨s, ran⟩
    exact answerable_of_interpret idle deliver behind null values asked ran
  · have same := answered (answerable_of_interpret idle deliver behind null values asked ran)
    rw [deliver] at same
    exact Except.ok.inj (ran.symm.trans same)

/-- The three names that the library knows are answered, with four bytes to spare. -/
theorem getValues_known :
    interpret (processHeader fastcgi)
      (Record.header fastcgi ⟨9, 0, encodePairs knownNames, [], by decide, by decide, by decide⟩).bytes
        ((newReader fastcgi 32 true 0 (Request.fresh (Ipc.fresh []))).amid [] [] []
          (encodePairs knownNames ++ ([] ++ [1]))) =
      .ok (.again [], ((newReader fastcgi 32 true 0 (Request.fresh (Ipc.fresh []))).on false
        (valuesRecord fastcgi (fun _ => 0) (answers fastcgi (knownNames.map Pair.nameValue)))).amid
          [] [] [] [1]) := by
  have known := @getValues_iff fastcgi (newReader fastcgi 32 true 0 (Request.fresh (Ipc.fresh [])))
    ⟨9, 0, encodePairs knownNames, [], by decide, by decide, by decide⟩ [1]
    ⟨rfl, rfl, rfl, rfl⟩ rfl (List.cons_ne_nil 1 []) rfl rfl knownNames rfl
  obtain ⟨s, ran⟩ := known.1.2 ⟨by decide, by decide⟩
  exact ran.trans (congrArg Except.ok (known.2 s ran))

/-- The stream ends. -/
theorem interpret_ends (idle : b.Idle) (notBegin : r.type ≠ fcgi.beginRequest)
    (notNull : r.requestId ≠ fcgi.nullRequestId) (id_ : r.requestId = b.req.requestId)
    (type_ : r.type = b.type) (nothing : r.content = []) :
    interpret (processHeader fcgi) (r.header fcgi).bytes
        (b.amid [] [] [] (r.content ++ (r.padding ++ more))) =
      .ok (.ret, { b with isClosed := true }.amid [] [] r.padding more) := by
  have processed := @processHeader_stream _ b.inside _ more notBegin notNull
  have id' : r.requestId = b.inside.req.requestId := id_
  have type' : r.type = b.inside.type := type_
  rw [if_neg (not_not_intro id'), if_neg (not_not_intro type')] at processed
  refine interpret_header processed ?_
  have length : r.content.length = 0 := by rw [nothing, List.length_nil]
  refine (if_pos length).trans ?_
  rw [nothing]
  simp only [amid, inside, idle.eorStop]

/-- The request that a record begins. -/
def begins (fcgi : Fastcgi) (r : Record) (b : Reader) : Reader :=
  { b with req := begun fcgi r.content { b.req with requestId := r.requestId } }

/-- A request begins. -/
theorem interpret_begins (idle : b.Idle) (begin_ : r.type = fcgi.beginRequest)
    (notZero : r.requestId ≠ 0) (body : r.content.length = 8)
    (notYet : b.req.isBeginProcessed = false) (deliver : b.skip = false) :
    interpret (processHeader fcgi) (r.header fcgi).bytes
        (b.amid [] [] [] (r.content ++ (r.padding ++ more))) =
      .ok (.ret, (b.begins fcgi r).amid [] [] r.padding more) := by
  have processed := @processHeader_begin _ b.inside _ more begin_
  have goesOn : ¬ (r.requestId = 0 ∨ r.content.length ≠ 8) := by
    rintro (zero | length)
    · exact notZero zero
    · exact length body
  have notYet' : ¬ b.req.isBeginProcessed = true := Bool.eq_false_iff.1 notYet
  have read := @getStr_record { b.inside with req := { b.req with requestId := r.requestId } } r.padding
    more idle.isClosed r.content deliver
  rw [body] at read
  have all : processBeginRecord fcgi r.requestId (b.inside.amid [] r.content r.padding more) =
      .ok (.beginRecord, (b.begins fcgi r).inside.amid [] [] r.padding more) := by
    rw [processBeginRecord]
    refine (congrFun (if_neg goesOn) _).trans ?_
    refine (congrFun (if_neg notYet') _).trans ?_
    refine (run_bind read).trans ?_
    exact congrFun (if_neg (not_not_intro body)) _
  refine interpret_header (processed.trans all) ?_
  show Except.ok (Flow.ret, ({ (b.begins fcgi r).inside.amid [] [] r.padding more with
    eorStop := false, isClosed := false } : Reader)) = _
  simp only [amid, inside, begins, idle.isClosed, idle.eorStop]

/-- Up to the next header nothing is delivered. -/
theorem fillRounds_header (process : Header → Reading Status) (idle : b.Idle)
    {content padding : Bytes} (passed : content = [] ∨ b.skip = true) (n : Nat) :
    fillRounds process (n + 1) [] (b.amid [] content padding (r.bytes fcgi ++ more)) =
      interpret process (r.header fcgi).bytes
          ((b.past content).amid [] [] [] (r.content ++ (r.padding ++ more))) >>= fun r =>
        match r.1 with
        | .again header => fillRounds process n header r.2
        | _ => .ok ((), r.2) := by
  have bytes : r.bytes fcgi ++ more = (r.header fcgi).bytes ++ (r.content ++ (r.padding ++ more)) := by
    rw [Record.bytes, List.append_assoc, List.append_assoc]
  have some_ : content ++ (padding ++ (r.bytes fcgi ++ more)) ≠ [] := by
    rw [bytes]
    simp [Header.bytes]
  show follow process (fillRounds process n) (pass [] _) = _
  have goesOn : (b.past content).eorStop = false := idle.eorStop
  rw [pass_over [] padding _ passed some_, bytes, passHeader_amid _ goesOn]
  rfl

end Headers

/-! ## The records of a stream -/

section Stream

variable (fcgi : Fastcgi)

/-- What is delivered of the records of a connection up to the one that ends the stream,
and what is answered to them. -/
inductive Delivers (type : UInt8) (cur : Current) : Bool → List Record → Bytes → Bytes → Prop
  | ends {skip : Bool} {r : Record} (notBegin : r.type ≠ fcgi.beginRequest)
      (notNull : r.requestId ≠ fcgi.nullRequestId) (id_ : r.requestId = cur.requestId)
      (type_ : r.type = type) (nothing : r.content = []) : Delivers type cur skip [r] [] []
  | met {skip skip' : Bool} {r : Record} {rs : List Record} {out out' content padding bs : Bytes}
      (met : Met fcgi type cur skip r out skip' content padding)
      (next : Delivers type cur (skip' && content.isEmpty) rs bs out') :
      Delivers type cur skip (r :: rs) ((if skip' then [] else content) ++ bs) (out ++ out')

/-- The padding of the last record, which is not read. -/
def endPadding : List Record → Bytes
  | [] => []
  | [r] => r.padding
  | _ :: r :: rs => endPadding (r :: rs)

variable {fcgi} {type : UInt8} {cur : Current}

theorem Delivers.ne_nil {skip : Bool} {rs : List Record} {bs out : Bytes}
    (delivers : Delivers fcgi type cur skip rs bs out) : rs ≠ [] := by
  cases delivers with
  | ends => exact List.cons_ne_nil _ _
  | met => exact List.cons_ne_nil _ _

variable (fcgi) in
/-- Where the stream of `b` stands, of which in the end `output` has been written and `last`
and `tail` have not been read. -/
inductive Holds (b : Reader) (output last tail : Bytes) : Reader → Bytes → Prop
  | amid {skip : Bool} {rs : List Record} {written out bs : Bytes} (ready content padding : Bytes)
      (delivers : Delivers fcgi b.type b.req.current (skip && content.isEmpty) rs bs out)
      (all : written ++ out = output) (ends : endPadding rs = last) :
      Holds b output last tail
        ((b.on skip written).amid ready content padding (encode fcgi rs ++ tail))
        (ready ++ ((if skip then [] else content) ++ bs))
  | closed (skip : Bool) :
      Holds b output last tail ({ b.on skip output with isClosed := true }.amid [] [] last tail) []

section Holds

variable {b : Reader} {output last tail : Bytes}

/-- There is something, or the stream has ended. -/
def There (s : Reader) : Prop :=
  s.isClosed = true ∧ s.ready = [] ∨ s.isClosed = false ∧ s.ready ≠ []

theorem encode_ne_nil {rs : List Record} (some_ : rs ≠ []) : encode fcgi rs ++ tail ≠ [] := by
  obtain ⟨r, rs, rfl⟩ := List.exists_cons_of_ne_nil some_
  simp [Record.bytes, Header.bytes]

theorem Idle.on (idle : b.Idle) (skip : Bool) (written : Bytes) : (b.on skip written).Idle :=
  ⟨idle.isClosed, idle.eorStop, idle.errno, idle.room⟩

/-- The content of the record is there. -/
theorem fillRounds_delivers {rs : List Record} {written out bs : Bytes} {content : Bytes}
    (idle : b.Idle) (padding : Bytes) (some_ : content ≠ [])
    (delivers : Delivers fcgi b.type b.req.current false rs bs out) (all : written ++ out = output)
    (ends : endPadding rs = last) (n : Nat) :
    ∃ s, fillRounds (processHeader fcgi) (n + 1) []
        ((b.on false written).amid [] content padding (encode fcgi rs ++ tail)) = .ok ((), s) ∧
      Holds fcgi b output last tail s (content ++ bs) ∧ There s := by
  have pass_ := pass_delivers (b := b.on false written) [] padding (encode fcgi rs ++ tail) some_ rfl
  refine ⟨(b.on false written).amid content [] padding (encode fcgi rs ++ tail), ?_, ?_,
    .inr ⟨idle.isClosed, some_⟩⟩
  · show follow _ _ (pass [] _) = _
    rw [pass_]
    rfl
  · exact @Holds.amid _ _ _ _ _ false _ _ _ _ content [] padding delivers all ends

theorem past_on (skip : Bool) (written content : Bytes) :
    (b.on skip written).past content = b.on (skip && content.isEmpty) written := rfl

/-- A record is met, and the rounds go on. -/
theorem fillRounds_met (idle : b.Idle) {skip skip' : Bool} {r : Record}
    {written out content padding content' padding' more : Bytes}
    (passed : content = [] ∨ skip = true)
    (met : Met fcgi b.type b.req.current (skip && content.isEmpty) r out skip' content' padding')
    (behind : more ≠ []) (n : Nat) :
    fillRounds (processHeader fcgi) (n + 1) []
        ((b.on skip written).amid [] content padding (r.bytes fcgi ++ more)) =
      fillRounds (processHeader fcgi) n []
        ((b.on skip' (written ++ out)).amid [] content' padding' more) := by
  rw [fillRounds_header (processHeader fcgi) (idle.on skip written) passed n, past_on,
    interpret_met (b := b.on (skip && content.isEmpty) written) (idle.on _ written) behind met]
  rfl

/-- The last record is met. -/
theorem fillRounds_ends (idle : b.Idle) {skip : Bool} {r : Record}
    {written content padding : Bytes} (passed : content = [] ∨ skip = true)
    (notBegin : r.type ≠ fcgi.beginRequest) (notNull : r.requestId ≠ fcgi.nullRequestId)
    (id_ : r.requestId = b.req.requestId) (type_ : r.type = b.type) (nothing : r.content = [])
    (n : Nat) :
    fillRounds (processHeader fcgi) (n + 1) []
        ((b.on skip written).amid [] content padding (r.bytes fcgi ++ tail)) =
      .ok ((), { b.on (skip && content.isEmpty) written with isClosed := true }.amid [] []
        r.padding tail) := by
  rw [fillRounds_header (processHeader fcgi) (idle.on skip written) passed n, past_on,
    interpret_ends (b := b.on (skip && content.isEmpty) written) (idle.on _ written) notBegin
      notNull id_ type_ nothing]
  rfl

omit b output last tail in
theorem endPadding_cons (r : Record) {rs : List Record} (some_ : rs ≠ []) :
    endPadding (r :: rs) = endPadding rs := by
  cases rs with
  | nil => exact absurd rfl some_
  | cons r' rs => rfl

omit b output last tail in
/-- What is skipped is not delivered. -/
theorem delivers_or (skip : Bool) (content : Bytes) :
    skip = false ∧ content ≠ [] ∨
      (content = [] ∨ skip = true) ∧ (if skip = true then [] else content) = [] := by
  by_cases nothing : content = []
  · subst nothing
    exact .inr ⟨.inl rfl, ite_self []⟩
  · cases skip with
    | false => exact .inl ⟨rfl, nothing⟩
    | true => exact .inr ⟨.inr rfl, rfl⟩

/-- The rounds go on until something is there. -/
theorem fillRounds_amid (idle : b.Idle) {k : Bool} {rs : List Record} {out bs : Bytes}
    (delivers : Delivers fcgi b.type b.req.current k rs bs out) {skip : Bool} {written content : Bytes}
    (padding : Bytes) (k_eq : (skip && content.isEmpty) = k) (all : written ++ out = output)
    (ends : endPadding rs = last) {n : Nat} (enough : rs.length < n) :
    ∃ s, fillRounds (processHeader fcgi) n []
        ((b.on skip written).amid [] content padding (encode fcgi rs ++ tail)) = .ok ((), s) ∧
      Holds fcgi b output last tail s ((if skip then [] else content) ++ bs) ∧ There s := by
  induction delivers generalizing skip written content padding n with
  | @ends k r notBegin notNull id_ type_ nothing =>
      obtain ⟨n, rfl⟩ := Nat.exists_eq_succ_of_ne_zero (Nat.ne_zero_of_lt enough)
      subst k_eq
      rcases delivers_or skip content with ⟨rfl, some_⟩ | ⟨passed, nothing_⟩
      · exact fillRounds_delivers idle padding some_ (.ends notBegin notNull id_ type_ nothing) all
          ends n
      · obtain rfl : written = output := (List.append_nil written).symm.trans all
        obtain rfl : r.padding = last := ends
        have round := @fillRounds_ends _ _ tail idle _ _ written _ padding
          passed notBegin notNull id_ type_ nothing n
        refine ⟨{ b.on (skip && content.isEmpty) written with isClosed := true }.amid [] []
          r.padding tail, ?_, ?_, .inl ⟨rfl, rfl⟩⟩
        · rw [encode_cons, encode_nil, List.append_nil]
          exact round
        · rw [nothing_]
          exact .closed _
  | @met k skip' r rs out out' content' padding' bs met next ih =>
      obtain ⟨n, rfl⟩ := Nat.exists_eq_succ_of_ne_zero (Nat.ne_zero_of_lt enough)
      subst k_eq
      rcases delivers_or skip content with ⟨rfl, some_⟩ | ⟨passed, nothing_⟩
      · exact fillRounds_delivers idle padding some_ (.met met next) all ends n
      · have goesOn := @fillRounds_met _ _ idle _ _ _ written _ _ padding _ _ _ passed met
          (@encode_ne_nil fcgi tail _ next.ne_nil) n
        obtain ⟨s, filled, holds, there⟩ := @ih _ (written ++ out) _ padding' rfl
          (by rw [List.append_assoc]; exact all)
          ((endPadding_cons r next.ne_nil).symm.trans ends) _ (Nat.lt_of_succ_lt_succ enough)
        refine ⟨s, ?_, ?_, there⟩
        · rw [encode_cons, List.append_assoc, goesOn]
          exact filled
        · rw [nothing_]
          exact holds

theorem length_le_encode (rs : List Record) : rs.length ≤ (encode fcgi rs).length := by
  induction rs with
  | nil => exact Nat.le_refl 0
  | cons r rs ih =>
      rw [encode_cons, List.length_append, List.length_cons, Record.bytes, List.length_append,
        Header.length_bytes]
      omega

/-- **A stream gives what its records carry.** -/
theorem stream_feeds (idle : b.Idle) :
    Feeds (source (fillBuffProc fcgi)) (Holds fcgi b output last tail) where
  ready := by
    intro s bs x rest holds ready
    cases holds with
    | closed => cases ready
    | amid ready' content padding delivers all ends =>
        obtain rfl : ready' = x :: rest := ready
        exact ⟨_, rfl, .amid rest content padding delivers all ends⟩
  closed := by
    intro s bs holds ready closed
    cases holds with
    | closed => rfl
    | amid => exact absurd (idle.isClosed.symm.trans closed) Bool.false_ne_true
  fill := by
    intro s bs holds ready closed
    cases holds with
    | closed => cases closed
    | @amid skip rs written out bs ready' content padding delivers all ends =>
        obtain rfl : ready' = [] := ready
        have enough : rs.length <
            ((b.on skip written).amid [] content padding (encode fcgi rs ++ tail)).unread + 1 := by
          have records := @length_le_encode fcgi rs
          show _ < ([] : Bytes).length + (content ++ (padding ++ (encode fcgi rs ++ tail))).length +
            _ + 1
          simp only [List.length_append]
          omega
        exact fillRounds_amid idle delivers padding rfl all ends enough

theorem holds_live (idle : b.Idle) {s : Reader} {bs : Bytes}
    (holds : Holds fcgi b output last tail s bs) (some_ : s.ready ≠ []) : s.isClosed = false := by
  cases holds with
  | amid => exact idle.isClosed
  | closed => exact absurd rfl some_

/-- A stream that has closed has been read to its end. -/
theorem holds_closed (idle : b.Idle) {s : Reader} {bs : Bytes}
    (holds : Holds fcgi b output last tail s bs) (closed : s.isClosed = true) :
    ∃ skip, s = { b.on skip output with isClosed := true }.amid [] [] last tail := by
  cases holds with
  | amid => exact absurd (idle.isClosed.symm.trans closed) Bool.false_ne_true
  | closed skip => exact ⟨skip, rfl⟩

omit b output last tail in
theorem Met.content_le {skip skip' : Bool} {r : Record} {out content padding : Bytes}
    (met : Met fcgi type cur skip r out skip' content padding) :
    content.length ≤ (r.bytes fcgi).length := by
  have within : r.content.length ≤ (r.bytes fcgi).length := by
    rw [Record.bytes, List.length_append, List.length_append]
    omega
  cases met with
  | own => exact within
  | foreign => exact within
  | another => exact within
  | unknown => exact within
  | values => exact Nat.zero_le _

omit b output last tail in
/-- No more is delivered than there is. -/
theorem Delivers.length_le {skip : Bool} {rs : List Record} {bs out : Bytes}
    (delivers : Delivers fcgi type cur skip rs bs out) : bs.length ≤ (encode fcgi rs).length := by
  induction delivers with
  | ends => exact Nat.zero_le _
  | @met skip skip' r rs out out' content padding bs met next ih =>
      have content_ := met.content_le
      have skipped : (if skip' = true then [] else content).length ≤ content.length := by
        split
        · exact Nat.zero_le _
        · exact Nat.le_refl _
      rw [encode_cons, List.length_append, List.length_append]
      omega

theorem holds_unread {s : Reader} {bs : Bytes} (holds : Holds fcgi b output last tail s bs) :
    bs.length ≤ s.unread := by
  cases holds with
  | closed => exact Nat.zero_le _
  | @amid skip rs written out bs ready content padding delivers all ends =>
      have carried := delivers.length_le
      have skipped : (if skip = true then [] else content).length ≤ content.length := by
        split
        · exact Nat.zero_le _
        · exact Nat.le_refl _
      show _ ≤ ready.length + (content ++ (padding ++ (encode fcgi rs ++ tail))).length + _
      simp only [List.length_append]
      omega

end Holds

/-! ## The records in front of a request -/

variable (fcgi) in
/-- What is answered on a connection up to the record that begins a request. -/
inductive Prefaces (type : UInt8) (cur : Current) (r : Record) : Bool → List Record → Bytes → Prop
  | begins (begin_ : r.type = fcgi.beginRequest) (notZero : r.requestId ≠ 0)
      (body : r.content.length = 8) : Prefaces type cur r false [r] []
  | met {skip skip' : Bool} {r' : Record} {rs : List Record} {out out' content padding : Bytes}
      (met : Met fcgi type cur skip r' out skip' content padding)
      (passed : content = [] ∨ skip' = true)
      (next : Prefaces type cur r (skip' && content.isEmpty) rs out') :
      Prefaces type cur r skip (r' :: rs) (out ++ out')

theorem Prefaces.ne_nil {r : Record} {skip : Bool} {rs : List Record} {out : Bytes}
    (prefaces : Prefaces fcgi type cur r skip rs out) : rs ≠ [] := by
  cases prefaces with
  | begins => exact List.cons_ne_nil _ _
  | met => exact List.cons_ne_nil _ _

variable {b : Reader} {tail : Bytes}

theorem fillRounds_prefaces (idle : b.Idle) (notYet : b.req.isBeginProcessed = false) {r : Record}
    {k : Bool} {rs : List Record} {out : Bytes}
    (prefaces : Prefaces fcgi b.type b.req.current r k rs out)
    {skip : Bool} {written content : Bytes} (padding : Bytes)
    (k_eq : (skip && content.isEmpty) = k) (passed : content = [] ∨ skip = true) {n : Nat}
    (enough : rs.length < n) :
    fillRounds (processHeader fcgi) n []
        ((b.on skip written).amid [] content padding (encode fcgi rs ++ tail)) =
      .ok ((), ((b.on false (written ++ out)).begins fcgi r).amid [] [] r.padding tail) := by
  induction prefaces generalizing skip written content padding n with
  | begins begin_ notZero body =>
      obtain ⟨n, rfl⟩ := Nat.exists_eq_succ_of_ne_zero (Nat.ne_zero_of_lt enough)
      rw [encode_cons, encode_nil, List.append_nil,
        fillRounds_header (processHeader fcgi) (idle.on skip written) passed n, past_on, k_eq,
        interpret_begins (b := b.on false written) (idle.on _ written) begin_ notZero body notYet rfl,
        List.append_nil]
      rfl
  | @met k skip' r' rs out out' content' padding' met passed' next ih =>
      obtain ⟨n, rfl⟩ := Nat.exists_eq_succ_of_ne_zero (Nat.ne_zero_of_lt enough)
      subst k_eq
      rw [encode_cons, List.append_assoc, fillRounds_met idle passed met
        (encode_ne_nil next.ne_nil) n, ih padding' rfl passed' (Nat.lt_of_succ_lt_succ enough),
        List.append_assoc]

/-- **The request that begins is found.** -/
theorem fillBuffProc_prefaces (idle : b.Idle) (notYet : b.req.isBeginProcessed = false)
    {r : Record} {rs : List Record} {out : Bytes}
    (prefaces : Prefaces fcgi b.type b.req.current r b.skip rs out) :
    fillBuffProc fcgi (b.amid [] [] [] (encode fcgi rs ++ tail)) =
      .ok ((), ((b.on false (b.req.ipc.output ++ out)).begins fcgi r).amid [] [] r.padding tail) := by
  have enough : rs.length < (b.amid [] [] [] (encode fcgi rs ++ tail)).unread + 1 := by
    have records := @length_le_encode fcgi rs
    show _ < ([] : Bytes).length + (([] : Bytes) ++ ([] ++ (encode fcgi rs ++ tail))).length + _ + 1
    simp only [List.length_append]
    omega
  exact fillRounds_prefaces idle notYet prefaces [] (Bool.and_true b.skip) (.inl rfl) enough

end Stream

end Reader

end Bagunceiro.Fcgi
