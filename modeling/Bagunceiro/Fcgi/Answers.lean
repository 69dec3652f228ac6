/-
# Fcgi.Answers -- the answer to a request (`fcgiapp.c`)

A request is answered through two streams, the page and the error log, which share the
connection and the state of the request.  Whatever is put to them, in whatever order
and portions, the records on the connection have it as their contents, stream by
stream, and finishing the request closes both streams and ends the request, once and
last (`finish_answers`).
-/
import Bagunceiro.Fcgi.Writers
import Mathlib.Logic.Function.Basic

namespace Bagunceiro.Fcgi

open Frames

set_option autoImplicit false

/-- The streams a request is answered through. -/
inductive Stream
  | out
  | err
  deriving DecidableEq, Repr

structure Answering where
  writer : Stream → Writer
  req : Request

/-- What an application does with the streams of a request. -/
inductive Op
  /-- `FCGX_PutStr` -/
  | put (stream : Stream) (s : Bytes)
  /-- `FCGX_FFlush` -/
  | flush (stream : Stream)
  /-- `FCGX_SetExitStatus` -/
  | setExitStatus (status : UInt32)

section Answers

variable (fcgi : Fastcgi)

def Stream.type : Stream → UInt8
  | .out => fcgi.stdout
  | .err => fcgi.stderr

theorem Stream.type_injective : Function.Injective (Stream.type fcgi) := by
  have distinct := fcgi.types_nodup
  simp only [List.nodup_cons, List.mem_cons, not_or] at distinct
  have outErr : fcgi.stdout ≠ fcgi.stderr := distinct.2.2.2.2.1.1
  rintro (_ | _) (_ | _) same
  · rfl
  · exact absurd same outErr
  · exact absurd same.symm outErr
  · rfl

/-- The end of `FCGX_Accept_r`: the request is accepted. -/
def accepted (aligned : Stream → Bool) (req : Request) : Answering where
  writer
    | .out => newWriter fcgi 8192 (aligned .out) fcgi.stdout
    | .err => newWriter fcgi 512 (aligned .err) fcgi.stderr
  req := { req with nWriters := 2 }

namespace Answering

/-- A stream has been written to. -/
def after (a : Answering) (stream : Stream) (wrote : Writer × Request) : Answering where
  writer := Function.update a.writer stream wrote.1
  req := wrote.2

@[simp] theorem after_req (a : Answering) (stream : Stream) (wrote : Writer × Request) :
    (a.after stream wrote).req = wrote.2 := rfl

@[simp] theorem after_writer_self (a : Answering) (stream : Stream) (wrote : Writer × Request) :
    (a.after stream wrote).writer stream = wrote.1 := Function.update_self ..

theorem after_writer_of_ne (a : Answering) {stream other : Stream} (different : other ≠ stream)
    (wrote : Writer × Request) : (a.after stream wrote).writer other = a.writer other :=
  Function.update_of_ne different ..

def step (a : Answering) : Op → Answering
  | .put stream s => a.after stream ((a.writer stream).putStr fcgi s a.req).2
  | .flush stream => a.after stream ((a.writer stream).flush fcgi a.req)
  | .setExitStatus status => { a with req := { a.req with appStatus := status } }

def run (a : Answering) (ops : List Op) : Answering := ops.foldl (step fcgi) a

/-- `FCGX_FClose` of a stream. -/
def close (a : Answering) (stream : Stream) : Answering :=
  a.after stream ((a.writer stream).close fcgi a.req)

/-- `FCGX_Finish_r`: whether the connection is closed, too.  `inErrno` is the error of
the stream that was read. -/
def finish (a : Answering) (inErrno : Int) : Bool × Answering :=
  let done := (a.close fcgi .err).close fcgi .out
  (!a.req.keepConnection || (done.writer .err).errno != 0 || (done.writer .out).errno != 0 ||
    inErrno != 0, done)

end Answering

/-! ## What has been put -/

/-- What has been put to a stream. -/
def putTo (stream : Stream) (ops : List Op) : Bytes :=
  ops.flatMap fun
    | .put at_ s => if at_ = stream then s else []
    | _ => []

/-- The exit status that was set last. -/
def exitStatus (status : UInt32) (ops : List Op) : UInt32 :=
  ops.foldl (fun status op => match op with
    | .setExitStatus status' => status'
    | _ => status) status

/-- The records of a type. -/
def ofType (type : UInt8) (rs : List Record) : List Record := rs.filter (·.type = type)

@[simp] theorem ofType_nil (type : UInt8) : ofType type [] = [] := rfl

@[simp] theorem ofType_append (type : UInt8) (rs ts : List Record) :
    ofType type (rs ++ ts) = ofType type rs ++ ofType type ts := List.filter_append ..

theorem ofType_eq_self {type : UInt8} {rs : List Record} (each : ∀ r ∈ rs, r.type = type) :
    ofType type rs = rs :=
  List.filter_eq_self.2 fun r member => decide_eq_true (each r member)

theorem ofType_eq_nil {type : UInt8} {rs : List Record} (each : ∀ r ∈ rs, r.type ≠ type) :
    ofType type rs = [] :=
  List.filter_eq_nil_iff.2 fun r member same => each r member (of_decide_eq_true same)

end Answers

theorem putTo_cons (stream : Stream) (op : Op) (ops : List Op) :
    putTo stream (op :: ops) = putTo stream [op] ++ putTo stream ops := by
  rw [putTo, putTo, putTo, List.flatMap_cons, List.flatMap_singleton]

/-! ## Streams that share a connection -/

section Sends

variable {fcgi : Fastcgi}

/-- The records of a stream and what waits in its buffer have `s` as their content. -/
structure Stream.Carries (fcgi : Fastcgi) (stream : Stream) (w : Writer) (s : Bytes)
    (rs : List Record) : Prop where
  opened : w.Open
  type : w.type = stream.type fcgi
  content : contents (ofType (stream.type fcgi) rs) ++ w.content = s
  written : w.isAnythingWritten = !(ofType (stream.type fcgi) rs).isEmpty

namespace Stream.Carries

variable {stream : Stream} {w : Writer} {s : Bytes} {rs : List Record}

theorem puts (carries : stream.Carries fcgi w s rs) {req : Request} {t : Bytes} {ts : List Record}
    {w' : Writer} {req' : Request} (puts : Puts fcgi w req t ts w' req') :
    stream.Carries fcgi w' (s ++ t) (rs ++ ts) := by
  have own : ofType (stream.type fcgi) ts = ts :=
    ofType_eq_self fun r member => (puts.each r member).type.trans carries.type
  constructor
  · exact puts.opened
  · exact puts.type.trans carries.type
  · rw [ofType_append, own, contents_append, List.append_assoc, puts.content, ← List.append_assoc,
      carries.content]
  · rw [ofType_append, own, puts.written, carries.written]
    cases ofType (stream.type fcgi) rs <;> rfl

/-- Records of the other stream change nothing. -/
theorem other (carries : stream.Carries fcgi w s rs) {ts : List Record}
    (each : ∀ r ∈ ts, r.type ≠ stream.type fcgi) : stream.Carries fcgi w s (rs ++ ts) := by
  have none_ := ofType_eq_nil each
  constructor
  · exact carries.opened
  · exact carries.type
  · rw [ofType_append, none_, List.append_nil]
    exact carries.content
  · rw [ofType_append, none_, List.append_nil]
    exact carries.written

end Stream.Carries

variable {req : Request} {sent : Stream → Bytes} {status : UInt32} {rs : List Record}
  {a : Answering}

/-- The records `rs` have been sent, and with what waits in the buffers they have as
content what has been `sent` to the streams. -/
structure Sends (fcgi : Fastcgi) (req : Request) (sent : Stream → Bytes) (status : UInt32)
    (rs : List Record) (a : Answering) : Prop where
  state : a.req = { req.wrote (encode fcgi rs) with nWriters := 2, appStatus := status }
  each : ∀ r ∈ rs, ∃ stream : Stream, r.Of (stream.type fcgi) req.requestId
  carries : ∀ stream : Stream, stream.Carries fcgi (a.writer stream) (sent stream) rs

theorem sends_accepted (aligned : Stream → Bool) (req : Request) :
    Sends fcgi req (fun _ => []) req.appStatus [] (accepted fcgi aligned req) where
  state := by
    rw [encode_nil, Request.wrote_nil]
    rfl
  each := List.forall_mem_nil _
  carries
    | .out => ⟨open_newWriter 8192 (aligned .out) fcgi.stdout, rfl, rfl, rfl⟩
    | .err => ⟨open_newWriter 512 (aligned .err) fcgi.stderr, rfl, rfl, rfl⟩

theorem Sends.ready (sends : Sends fcgi req sent status rs a) (room : req.ipc.room = none)
    (id_lt : req.requestId < 65536) (stream : Stream) : Ready (a.writer stream) a.req where
  opened := (sends.carries stream).opened
  room := by
    rw [sends.state]
    exact room
  id_lt := by
    rw [sends.state]
    exact id_lt

/-- What one stream does leaves the other alone. -/
theorem Sends.after (sends : Sends fcgi req sent status rs a) {stream : Stream} {s : Bytes}
    {ts : List Record} {wrote : Writer × Request}
    (puts : Puts fcgi (a.writer stream) a.req s ts wrote.1 wrote.2) :
    Sends fcgi req (fun at_ => sent at_ ++ if stream = at_ then s else []) status (rs ++ ts)
      (a.after stream wrote) := by
  have id_ : a.req.requestId = req.requestId := by
    rw [sends.state]
    rfl
  have each : ∀ r ∈ ts, r.Of (stream.type fcgi) req.requestId := by
    rw [← id_, ← (sends.carries stream).type]
    exact puts.each
  refine ⟨?_, List.forall_mem_append.2 ⟨sends.each, fun r member => ⟨stream, each r member⟩⟩,
    fun at_ => ?_⟩
  · show wrote.2 = _
    rw [puts.sent, sends.state, encode_append, ← Request.wrote_wrote]
    rfl
  · by_cases same : stream = at_
    · subst same
      rw [Answering.after_writer_self, if_pos rfl]
      exact (sends.carries stream).puts puts
    · rw [Answering.after_writer_of_ne a (Ne.symm same), if_neg same, List.append_nil]
      refine (sends.carries at_).other fun r member type => same ?_
      exact Stream.type_injective fcgi ((each r member).type.symm.trans type)

/-- One step: what is put is sent or kept. -/
theorem Sends.step (sends : Sends fcgi req sent status rs a) (room : req.ipc.room = none)
    (id_lt : req.requestId < 65536) (op : Op) :
    ∃ ts, Sends fcgi req (fun stream => sent stream ++ putTo stream [op])
      (exitStatus status [op]) (rs ++ ts) (a.step fcgi op) := by
  cases op with
  | put stream s =>
      obtain ⟨ts, w', req', ran, puts⟩ := @Ready.putStr fcgi _ _ (sends.ready room id_lt stream) s
      refine ⟨ts, ?_⟩
      have after := @Sends.after _ _ _ _ _ _ sends _ _ _ (w', req') puts
      simp only [putTo, List.flatMap_singleton, Answering.step, ran]
      exact after
  | flush stream =>
      obtain ⟨ts, puts⟩ := @Ready.flush fcgi _ _ (sends.ready room id_lt stream)
      refine ⟨ts, ?_⟩
      have after := sends.after puts
      simp only [ite_self] at after
      exact after
  | setExitStatus status' =>
      refine ⟨[], ?_⟩
      simp only [putTo, List.flatMap_singleton, List.append_nil]
      refine ⟨?_, sends.each, sends.carries⟩
      show ({ a.req with appStatus := status' } : Request) = _
      rw [sends.state]
      rfl

/-- Any number of steps. -/
theorem Sends.run (room : req.ipc.room = none) (id_lt : req.requestId < 65536) (ops : List Op)
    (sends : Sends fcgi req sent status rs a) :
    ∃ ts, Sends fcgi req (fun stream => sent stream ++ putTo stream ops) (exitStatus status ops)
      (rs ++ ts) (a.run fcgi ops) := by
  induction ops generalizing sent status rs a with
  | nil =>
      refine ⟨[], ?_⟩
      simp only [putTo, List.flatMap_nil, List.append_nil]
      exact sends
  | cons op ops ih =>
      obtain ⟨ts, stepped⟩ := sends.step room id_lt op
      obtain ⟨ts', ran⟩ := ih stepped
      refine ⟨ts ++ ts', ?_⟩
      simp only [List.append_assoc, ← putTo_cons] at ran
      exact ran

/-- The records that finish an answer, behind those of the error log and of the page. -/
def lastRecords (fcgi : Fastcgi) (requestId : Nat) (id_lt : requestId < 65536)
    (appStatus : UInt32) : List Record :=
  [eofRecord fcgi.stdout requestId id_lt, endRecord fcgi requestId id_lt appStatus]

/-- The record that ends the error log, if there is anything in it. -/
def errEnd (fcgi : Fastcgi) (requestId : Nat) (id_lt : requestId < 65536) (log : Bytes) :
    List Record :=
  if log = [] then [] else [eofRecord fcgi.stderr requestId id_lt]

theorem closeRecords_err {w : Writer} {req : Request} (type : w.type = fcgi.stderr) (used : Bool)
    (nWriters : req.nWriters = 2) (id_lt : req.requestId < 65536) :
    closeRecords fcgi w used req id_lt =
      if used = false then [] else [eofRecord fcgi.stderr req.requestId id_lt] := by
  have notLast : req.nWriters ≠ 1 := by omega
  rw [closeRecords, if_neg notLast, List.append_nil, type]
  simp only [true_and]

theorem closeRecords_out {w : Writer} {req : Request} (type : w.type = fcgi.stdout) (used : Bool)
    (nWriters : req.nWriters = 1) (id_lt : req.requestId < 65536) :
    closeRecords fcgi w used req id_lt = lastRecords fcgi req.requestId id_lt req.appStatus := by
  have notErr : w.type ≠ fcgi.stderr := fun same =>
    Stream.noConfusion (Stream.type_injective fcgi (type.symm.trans same) : Stream.out = Stream.err)
  rw [closeRecords, if_neg (fun both => notErr both.1), if_pos nWriters, type]
  rfl

/-- Records that have a content have contents. -/
theorem contents_eq_nil_iff {rs : List Record} (some_ : ∀ r ∈ rs, r.content ≠ []) :
    contents rs = [] ↔ rs = [] := by
  cases rs with
  | nil => simp
  | cons r rs => simp [some_ r List.mem_cons_self]

/-- `FCGX_Finish_r` closes the error log, and then the page. -/
theorem Answering.finish_eq (a : Answering) (inErrno : Int) :
    (a.finish fcgi inErrno).2.req =
        ((a.writer .out).close fcgi ((a.writer .err).close fcgi a.req).2).2 ∧
      (a.finish fcgi inErrno).1 = (!a.req.keepConnection ||
        ((a.writer .err).close fcgi a.req).1.errno != 0 ||
        ((a.writer .out).close fcgi ((a.writer .err).close fcgi a.req).2).1.errno != 0 ||
        inErrno != 0) := by
  have page : (a.close fcgi .err).writer .out = a.writer .out :=
    Answering.after_writer_of_ne a (by decide) _
  have log : ((a.close fcgi .err).close fcgi .out).writer .err =
      ((a.writer .err).close fcgi a.req).1 := by
    rw [Answering.close, Answering.after_writer_of_ne _ (by decide), Answering.close,
      Answering.after_writer_self]
  constructor
  · show ((a.close fcgi .err).close fcgi .out).req = _
    rw [Answering.close, Answering.after_req, page]
    rfl
  · rw [Answering.finish]
    dsimp only
    rw [log, Answering.close, Answering.after_writer_self, page]
    rfl

/-- The error log is closed by a record of its own if anything was put to it. -/
theorem Sends.closes_err (sends : Sends fcgi req sent status rs a) (room : req.ipc.room = none)
    (id_lt : req.requestId < 65536) :
    ∃ es, (∀ r ∈ es, r.Of fcgi.stderr req.requestId) ∧
      contents (ofType fcgi.stderr rs ++ es) = sent .err ∧
      ((a.writer .err).close fcgi a.req).2 = { req.wrote (encode fcgi
        (rs ++ es ++ errEnd fcgi req.requestId id_lt (sent .err))) with
          nWriters := 1, appStatus := status } ∧
      ((a.writer .err).close fcgi a.req).1.errno = 0 := by
  have id_ : a.req.requestId = req.requestId := by
    rw [sends.state]
    rfl
  have err := sends.carries .err
  have ready := sends.ready room id_lt .err
  obtain ⟨es, of, content, closed, errno⟩ := @Ready.close fcgi _ _ ready
  rw [err.type, id_] at of
  have logged : contents (ofType fcgi.stderr rs ++ es) = sent .err := by
    rw [contents_append, content]
    exact err.content
  have used : ((!es.isEmpty || (a.writer .err).isAnythingWritten) = false) ↔ sent .err = [] := by
    rw [← logged, contents_eq_nil_iff, err.written, List.append_eq_nil_iff, and_comm]
    · simp [Stream.type]
    · refine List.forall_mem_append.2 ⟨fun r member => ?_, fun r member => (of r member).content⟩
      obtain ⟨_, own⟩ := sends.each r (List.mem_of_mem_filter member)
      exact own.content
  have ends : closeRecords fcgi (a.writer .err) (!es.isEmpty || (a.writer .err).isAnythingWritten)
      a.req ready.id_lt = errEnd fcgi req.requestId id_lt (sent .err) := by
    rw [closeRecords_err err.type _ (by rw [sends.state]), errEnd]
    simp only [used, id_]
  refine ⟨es, of, logged, ?_, errno⟩
  rw [closed, ends, sends.state, List.append_assoc, encode_append _ rs, ← Request.wrote_wrote]
  rfl

/-- The page is closed by a record of its own, and with it the request. -/
theorem Sends.closes_out (sends : Sends fcgi req sent status rs a) (room : req.ipc.room = none)
    (id_lt : req.requestId < 65536) {s : Bytes} {req' : Request}
    (state : req' = { req.wrote s with nWriters := 1, appStatus := status }) :
    ∃ ts, (∀ r ∈ ts, r.Of fcgi.stdout req.requestId) ∧
      contents (ofType fcgi.stdout rs ++ ts) = sent .out ∧
      ((a.writer .out).close fcgi req').2.ipc.output =
        req.ipc.output ++ (s ++ encode fcgi (ts ++ lastRecords fcgi req.requestId id_lt status)) ∧
      ((a.writer .out).close fcgi req').1.errno = 0 := by
  subst state
  have out := sends.carries .out
  have ready : Ready (a.writer .out) { req.wrote s with nWriters := 1, appStatus := status } :=
    ⟨out.opened, room, id_lt⟩
  obtain ⟨ts, of, content, closed, errno⟩ := @Ready.close fcgi _ _ ready
  rw [out.type] at of
  refine ⟨ts, of, ?_, ?_, errno⟩
  · rw [contents_append, content]
    exact out.content
  · rw [closed, closeRecords_out out.type _ rfl]
    exact List.append_assoc ..

/-- Stream by stream, the records of both have what was put to it. -/
theorem contents_streams {es ts : List Record} {id : Nat}
    (log : ∀ r ∈ es, r.Of fcgi.stderr id) (page : ∀ r ∈ ts, r.Of fcgi.stdout id)
    (logged : contents (ofType fcgi.stderr rs ++ es) = sent .err)
    (paged : contents (ofType fcgi.stdout rs ++ ts) = sent .out) (stream : Stream) :
    contents (ofType (stream.type fcgi) (rs ++ es ++ ts)) = sent stream := by
  have distinct : fcgi.stdout ≠ fcgi.stderr := fun same =>
    Stream.noConfusion (Stream.type_injective fcgi same : Stream.out = Stream.err)
  cases stream with
  | out =>
      have other : ofType fcgi.stdout es = [] :=
        ofType_eq_nil fun r member same => distinct (same.symm.trans (log r member).type)
      have own : ofType fcgi.stdout ts = ts := ofType_eq_self fun r member => (page r member).type
      rw [Stream.type, ofType_append, ofType_append, other, List.append_nil, own]
      exact paged
  | err =>
      have other : ofType fcgi.stderr ts = [] :=
        ofType_eq_nil fun r member same => distinct ((page r member).type.symm.trans same)
      have own : ofType fcgi.stderr es = es := ofType_eq_self fun r member => (log r member).type
      rw [Stream.type, ofType_append, ofType_append, other, List.append_nil, own]
      exact logged

/-- **An answer has what was put to its streams, and ends.** -/
theorem finish_answers (fcgi : Fastcgi) (aligned : Stream → Bool) (req : Request)
    (room : req.ipc.room = none) (id_lt : req.requestId < 65536) (ops : List Op) (inErrno : Int) :
    ∃ rs ts : List Record,
      (∀ r ∈ rs ++ ts, ∃ stream : Stream, r.Of (stream.type fcgi) req.requestId) ∧
      (∀ r ∈ ts, r.type = fcgi.stdout) ∧
      (∀ stream : Stream, contents (ofType (stream.type fcgi) (rs ++ ts)) = putTo stream ops) ∧
      (((accepted fcgi aligned req).run fcgi ops).finish fcgi inErrno).2.req.ipc.output =
        req.ipc.output ++ encode fcgi (rs ++ errEnd fcgi req.requestId id_lt (putTo .err ops) ++
          ts ++ lastRecords fcgi req.requestId id_lt (exitStatus req.appStatus ops)) ∧
      (((accepted fcgi aligned req).run fcgi ops).finish fcgi inErrno).1 =
        (!req.keepConnection || inErrno != 0) := by
  obtain ⟨rs, sends⟩ := (@sends_accepted fcgi aligned req).run room id_lt ops
  simp only [List.nil_append] at sends
  generalize (accepted fcgi aligned req).run fcgi ops = a at sends
  obtain ⟨es, log, logged, errClosed, errErrno⟩ := sends.closes_err room id_lt
  obtain ⟨ts, page, paged, outClosed, outErrno⟩ := sends.closes_out room id_lt errClosed
  obtain ⟨finished, closes⟩ := @Answering.finish_eq fcgi a inErrno
  have keeps : a.req.keepConnection = req.keepConnection := by
    rw [sends.state]
    rfl
  refine ⟨rs ++ es, ts, ?_, fun r member => (page r member).type,
    contents_streams log page logged paged, ?_, ?_⟩
  · refine List.forall_mem_append.2 ⟨List.forall_mem_append.2 ⟨sends.each, ?_⟩, ?_⟩
    · exact fun r member => ⟨.err, log r member⟩
    · exact fun r member => ⟨.out, page r member⟩
  · rw [finished, outClosed, List.append_assoc _ ts, encode_append _ (_ ++ errEnd ..)]
  · rw [closes, errErrno, outErrno, keeps]
    simp only [bne_self_eq_false, Bool.or_false]

/-- A page and a line of the log. -/
theorem finish_answers_page : ∃ rs ts : List Record,
    contents (ofType 6 (rs ++ ts)) = str "page" ∧ contents (ofType 7 (rs ++ ts)) = str "log" ∧
      (((accepted fastcgi (fun _ => true) (Request.fresh (Ipc.fresh []))).run fastcgi
        [.put .out (str "pa"), .put .err (str "log"), .put .out (str "ge")]).finish fastcgi 0).1 =
        true := by
  obtain ⟨rs, ts, -, -, contents_, -, closed⟩ := finish_answers fastcgi (fun _ => true)
    (Request.fresh (Ipc.fresh [])) rfl (by decide)
    [.put .out (str "pa"), .put .err (str "log"), .put .out (str "ge")] 0
  exact ⟨rs, ts, contents_ .out, contents_ .err, closed⟩

end Sends

end Bagunceiro.Fcgi
