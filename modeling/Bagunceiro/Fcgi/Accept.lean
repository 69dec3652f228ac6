/-
# Fcgi.Accept -- the request an application is given (`fcgiapp.c`, `z_mainblog.c`)

A request begins with a record that says so, then come its parameters, and then what
was posted, which `get_post_string` reads.  A connection on which something goes wrong
before the parameters are complete is closed, and the next one is tried.

Whatever is read is the same for all ways in which the bytes of the connections arrive
(`acceptRequest_alike`, `postString_alike`).
-/
import Bagunceiro.Fcgi.Unseen

namespace Bagunceiro.Fcgi

open Indistinct Refill

set_option autoImplicit false

/-! ## Parameters -/

/-- `FCGX_GetParam`: the value of the first parameter of the name. -/
def getParam (name : Bytes) : List Bytes → Option Bytes
  | [] => none
  | nameValue :: envp =>
      if (name ++ [61]).isPrefixOf nameValue then some (cstr (nameValue.drop (name.length + 1)))
      else getParam name envp

section Accept

variable (fcgi : Fastcgi)

/-- The parameter that says what is asked of the application. -/
def roleStr (role : Nat) : Option Bytes :=
  if role = fcgi.responder then some (str "FCGI_ROLE=RESPONDER")
  else if role = fcgi.authorizer then some (str "FCGI_ROLE=AUTHORIZER")
  else if role = fcgi.filter then some (str "FCGI_ROLE=FILTER")
  else none

namespace Reader

/-- The parameters are read, and then the stream is set to what was posted. -/
def readEnvironment (role : Bytes) : Reading (Option (List Bytes)) := do
  modify fun s => s.setReaderType fcgi.params
  let (complete, vec) ← readParams (fillBuffProc fcgi) [role]
  if complete then
    modify fun s => s.setReaderType fcgi.stdin
    return some vec
  else return none

/-- `FCGX_Accept_r` on an open connection: the parameters of the request, unless the
connection is given up. -/
def receive : Reading (Option (List Bytes)) := do
  fillBuffProc fcgi
  let s ← get
  if s.req.isBeginProcessed = false then return none
  else
    match roleStr fcgi s.req.role with
    | none => return none
    | some role => readEnvironment fcgi role

end Reader

/-- The request that is expected on a connection. -/
def Request.on (req : Request) (ipc : Ipc) : Request :=
  { req with isBeginProcessed := false, ipc := ipc }

/-- The loop of `FCGX_Accept_r`, on the connections that follow each other: the
parameters of the first request, the stream to read from, and the connections that
have not been accepted yet. -/
def acceptRequest (aligned : Bool) :
    List Ipc → Request → Except Fault (Option (List Bytes × Reader × List Ipc))
  | [], _ => .ok none
  | ipc :: conns, req => do
      let (vec, s) ← Reader.receive fcgi (newReader fcgi 8192 aligned 0 (req.on ipc))
      match vec with
      | some vec => .ok (some (vec, s, conns))
      | none => acceptRequest aligned conns s.req

/-! ## What was posted -/

/-- The loop of `get_post_string`, 128 bytes at a time. -/
def postRounds : Nat → Bytes → Reading Bytes
  | 0, _ => throw .endless
  | rounds + 1, ps => do
      let ch ← Reader.getStr (Reader.fillBuffProc fcgi) 128
      if ch.length = 0 then return ps
      else if ch.length < 128 then return ps ++ ch
      else postRounds rounds (ps ++ ch)

/-- `get_post_string`; each round but the last reads something. -/
def postString (envp : List Bytes) : Reading Bytes :=
  match getParam (str "CONTENT_LENGTH") envp with
  | none => pure []
  | some _ => fun s => postRounds fcgi (s.unread + 1) [] s

end Accept

/-! ## The portions are not seen -/

section Alike

open Reader

variable (fcgi : Fastcgi) {s t : Reader} {u l : Nat}

theorem whole_setReaderType (s : Reader) (streamType : UInt8) :
    (s.setReaderType streamType).whole = { s.whole with
      type := streamType
      eorStop := false
      skip := false
      contentLen := 0
      paddingLen := 0
      isClosed := false } := by
  simp only [whole, setReaderType, left, later, List.nil_append, List.append_assoc, List.length_nil]

theorem setReaderType_alike (alike : s.Alike t) (streamType : UInt8) :
    (s.setReaderType streamType).Alike (t.setReaderType streamType) := by
  refine ⟨?_, sound_of_ready rfl, sound_of_ready rfl⟩
  rw [whole_setReaderType, whole_setReaderType, alike.whole]

theorem unread_setReaderType (s : Reader) (streamType : UInt8) :
    (s.setReaderType streamType).unread = s.unread := by
  simp only [unread, setReaderType, List.length_nil, List.length_append, Nat.zero_add]

/-- Two streams of a request that has begun. -/
abbrev Begun (u : Nat) (s t : Reader) : Prop := Both false true u 0 s t

theorem Begun.setReaderType (begun : Begun u s t) (streamType : UInt8) :
    Begun u (s.setReaderType streamType) (t.setReaderType streamType) where
  alike := setReaderType_alike begun.alike streamType
  eorStop := rfl
  begun := begun.begun
  unread := by
    rw [unread_setReaderType]
    exact begun.unread
  left no := nomatch no

/-- What `receive` leaves. -/
def Received (u : Nat) (vec : Option (List Bytes)) (s t : Reader) : Prop :=
  s.Alike t ∧ (vec ≠ none → Begun u s t)

theorem readEnvironment_alike (role : Bytes) :
    Respects (Begun u) (Received u) (readEnvironment fcgi role) := by
  have params : Respects (Begun u) (fun _ s t => Begun u s t ∧ s.isClosed = true)
      (readParams (fillBuffProc fcgi) [role]) :=
    readParams_alike (fun _ => interprets_processHeader fcgi) (.inr rfl) [role]
  rw [readEnvironment]
  refine Respects.modify_bind (fun s t begun => Begun.setReaderType begun fcgi.params)
    (params.bind fun read => ?_)
  dsimp only
  split
  · refine Respects.modify_bind (Q := Begun u)
      (fun s t begun => Begun.setReaderType begun.1 fcgi.stdin) ?_
    exact Respects.pure_ _ fun s t begun => ⟨begun.alike, fun _ => begun⟩
  · exact Respects.pure_ _ fun s t begun => ⟨begun.1.alike, fun no => absurd rfl no⟩

theorem receive_alike : Respects (Empty false false u l) (Received u) (receive fcgi) := by
  have filled := @fillWith_alike _ false false u l
    fun _ => interprets_processHeader fcgi
  rw [receive]
  refine filled.bind fun _ => Respects.get_bind fun s t filled => ?_
  have begun := filled.alike.begun
  by_cases notYet : s.req.isBeginProcessed = false
  · rw [if_pos notYet, if_pos (begun.symm.trans notYet)]
    exact .ok none ⟨filled.alike, fun no => absurd rfl no⟩
  · have notYet' : ¬ t.req.isBeginProcessed = false := begun ▸ notYet
    rw [if_neg notYet, if_neg notYet']
    have role : s.req.role = t.req.role := (congrArg Request.role filled.alike.req :)
    rw [← role]
    have both : Begun u s t :=
      ⟨filled.alike, filled.eorStop, Bool.not_eq_false _ ▸ notYet, filled.unread,
        fun no => nomatch no⟩
    cases roleStr fcgi s.req.role with
    | none => exact .ok none ⟨filled.alike, fun no => absurd rfl no⟩
    | some role => exact readEnvironment_alike fcgi role s t both

/-- The same bytes, and the same behind them. -/
structure Ipc.Same (a b : Ipc) : Prop where
  bytes : a.input.flatten = b.input.flatten
  others : ({ a with input := [] } : Ipc) = { b with input := [] }

/-- The same request has been accepted, or none. -/
inductive SameRequest : Except Fault (Option (List Bytes × Reader × List Ipc)) →
    Except Fault (Option (List Bytes × Reader × List Ipc)) → Prop
  | error (e : Fault) : SameRequest (.error e) (.error e)
  | none : SameRequest (.ok none) (.ok none)
  | some (vec : List Bytes) {s t : Reader} {conns conns' : List Ipc}
      (begun : Both false true s.unread 0 s t) (rest : List.Forall₂ Ipc.Same conns conns') :
      SameRequest (.ok (some (vec, s, conns))) (.ok (some (vec, t, conns')))

theorem newReader_alike {a b : Ipc} (same : a.Same b) {req req' : Request}
    (others : ∀ ipc, req.on ipc = req'.on ipc) (aligned aligned' : Bool) :
    Empty false false a.input.flatten.length 0 (newReader fcgi 8192 aligned 0 (req.on a))
      (newReader fcgi 8192 aligned' 0 (req'.on b)) := by
  have requests : req.on { a with input := [] } = req'.on { b with input := [] } := by
    rw [same.others]
    exact others _
  refine ⟨⟨⟨?_, sound_of_ready rfl, sound_of_ready rfl⟩, rfl, rfl, ?_, fun no => nomatch no⟩, rfl,
    rfl, rfl⟩
  · have whole_ (req : Request) (a : Ipc) (aligned : Bool) :
        (newReader fcgi 8192 aligned 0 (req.on a)).whole =
          { newReader fcgi 8192 true 0 (req.on { a with input := [] }) with
            rest := a.input.flatten
            bufflen := 1
            bufflen_pos := Nat.one_pos } := rfl
    rw [whole_, whole_, requests, same.bytes]
  · simp [unread, newReader, Request.on]

/-- **Whatever the portions are in which the bytes arrive, the same request is accepted.** -/
theorem acceptRequest_alike {conns conns' : List Ipc} (same : List.Forall₂ Ipc.Same conns conns')
    {req req' : Request} (others : ∀ ipc, req.on ipc = req'.on ipc) (aligned aligned' : Bool) :
    SameRequest (acceptRequest fcgi aligned conns req) (acceptRequest fcgi aligned' conns' req') := by
  induction same generalizing req req' with
  | nil => exact .none
  | @cons a b conns conns' first rest ih =>
      have received := receive_alike fcgi _ _ (newReader_alike fcgi first others aligned aligned')
      rw [acceptRequest, acceptRequest]
      generalize receive fcgi (newReader fcgi 8192 aligned 0 (req.on a)) = x at received ⊢
      generalize receive fcgi (newReader fcgi 8192 aligned' 0 (req'.on b)) = y at received ⊢
      cases received with
      | error e => exact .error e
      | @ok vec s t both =>
          cases vec with
          | none =>
              refine ih fun ipc => ?_
              exact (congrArg (Request.on · ipc) both.1.req :)
          | some vec =>
              have begun := both.2 fun no => nomatch no
              exact .some vec { begun with unread := Nat.le_refl _ } rest

end Alike

end Bagunceiro.Fcgi
