/-
# Fcgi.CutOff -- the answer on a connection that breaks (`fcgiapp.c`)

A connection that breaks takes so many bytes and no more.  Every operation on a stream
does the same as on a connection that takes everything, until a write fails; then the
stream is closed, the operations do whatever they do, and nothing of it is sent.  So
the client has got the answer, up to where the connection broke (`cut_off`).
-/
import Bagunceiro.Fcgi.Answers

namespace Bagunceiro.Fcgi

set_option autoImplicit false

/-! ## What an operation can do to a connection -/

/-- Some writes, whatever their results are. -/
def Ipc.writes (ipc : Ipc) (bufs : List Bytes) : Ipc :=
  bufs.foldl (fun ipc buf => (writeItAll buf ipc).2) ipc

theorem Ipc.writes_of_room (bufs : List Bytes) {ipc : Ipc} (room : ipc.room = none) :
    ipc.writes bufs = { ipc with output := ipc.output ++ bufs.flatten } := by
  induction bufs generalizing ipc with
  | nil => simp [writes]
  | cons buf bufs ih =>
      have written := writeItAll_of_room room buf
      show ((writeItAll buf ipc).2).writes bufs = _
      rw [written, @ih { ipc with output := ipc.output ++ buf } room, List.flatten_cons,
        ← List.append_assoc]

theorem Ipc.writes_of_full (bufs : List Bytes) {ipc : Ipc} (room : ipc.room = some 0) :
    ipc.writes bufs = ipc := by
  induction bufs with
  | nil => rfl
  | cons buf bufs ih =>
      have nothing : (writeItAll buf ipc).2 = ipc := by
        rw [writeItAll, room]
        simp only [List.take_zero, List.append_nil, Nat.zero_sub]
        rw [← room]
      show ((writeItAll buf ipc).2).writes bufs = _
      rw [nothing, ih]

/-- Whatever happens to a request, its connection is only written to. -/
def Writes (req req' : Request) : Prop := ∃ bufs, req'.ipc = req.ipc.writes bufs

theorem Writes.refl (req : Request) : Writes req req := ⟨[], rfl⟩

theorem Writes.trans {req₁ req₂ req₃ : Request} (first : Writes req₁ req₂)
    (second : Writes req₂ req₃) : Writes req₁ req₃ := by
  obtain ⟨bufs, first⟩ := first
  obtain ⟨bufs', second⟩ := second
  refine ⟨bufs ++ bufs', ?_⟩
  rw [second, first, Ipc.writes, Ipc.writes, Ipc.writes, List.foldl_append]

/-! ## A connection that takes so many bytes -/

/-- The request on a connection that takes `bound` bytes in all. -/
def Request.limited (bound : Nat) (req : Request) : Request :=
  { req with ipc := { req.ipc with room := some (bound - req.ipc.output.length) } }

/-- Nothing more is sent, and what has been sent is what should have been, up to the bound. -/
structure Broken (bound : Nat) (lim unl : Request) : Prop where
  full : lim.ipc.room = some 0
  room : unl.ipc.room = none
  cut : lim.ipc.output = unl.ipc.output.take bound
  beyond : bound ≤ unl.ipc.output.length

theorem Broken.writes {bound : Nat} {lim unl lim' unl' : Request} (broken : Broken bound lim unl)
    (limWrites : Writes lim lim') (unlWrites : Writes unl unl') : Broken bound lim' unl' := by
  obtain ⟨bufs, limIpc⟩ := limWrites
  obtain ⟨bufs', unlIpc⟩ := unlWrites
  rw [Ipc.writes_of_full bufs broken.full] at limIpc
  rw [Ipc.writes_of_room bufs' broken.room] at unlIpc
  have beyond := broken.beyond
  constructor
  · rw [limIpc]
    exact broken.full
  · rw [unlIpc]
    exact broken.room
  · rw [limIpc, unlIpc, broken.cut, List.take_append_of_le_length beyond]
  · rw [unlIpc, List.length_append]
    omega

/-- Two runs that are the same but for the bound, or the bound has been reached. -/
def Cut {ω : Type} (bound : Nat) (lim unl : ω × Request) : Prop :=
  unl.2.ipc.room = none ∧ unl.2.ipc.output.length ≤ bound ∧ lim = (unl.1, unl.2.limited bound) ∨
    Broken bound lim.2 unl.2

/-- **The output is cut off at the bound.** -/
theorem Cut.output {ω : Type} {bound : Nat} {lim unl : ω × Request} (cut : Cut bound lim unl) :
    lim.2.ipc.output = unl.2.ipc.output.take bound := by
  rcases cut with ⟨-, within, rfl⟩ | broken
  · exact (List.take_of_length_le within).symm
  · exact broken.cut

/-- What is done to a stream is cut off where the connection is. -/
structure Robust (f : Writer → Request → Writer × Request) : Prop where
  writes : ∀ w req, Writes req (f w req).2
  cuts : ∀ {bound w unl}, unl.ipc.room = none → unl.ipc.output.length ≤ bound →
    Cut bound (f w (unl.limited bound)) (f w unl)

namespace Robust

variable {f g : Writer → Request → Writer × Request}

/-- One behind the other. -/
theorem comp {g : Writer → Writer → Request → Writer × Request} (second : ∀ w, Robust (g w))
    (first : Robust f) : Robust fun w req => g w (f w req).1 (f w req).2 where
  writes w req := (first.writes w req).trans ((second w).writes _ _)
  cuts := by
    intro bound w unl room within
    rcases first.cuts (w := w) room within with ⟨room', within', same⟩ | broken
    · have cut := (second w).cuts (w := (f w unl).1) room' within'
      rw [same]
      exact cut
    · exact .inr (broken.writes ((second w).writes _ _) ((second w).writes _ _))

/-- What is done may depend on the stream and the request. -/
theorem depending {κ : Type} {f : κ → Writer → Request → Writer × Request}
    (each : ∀ k, Robust (f k)) {k : Writer → Request → κ}
    (limited : ∀ {bound w req}, k w (Request.limited bound req) = k w req) :
    Robust fun w req => f (k w req) w req where
  writes w req := (each (k w req)).writes w req
  cuts := by
    intro bound w unl room within
    rw [limited]
    exact (each (k w unl)).cuts room within

/-- A choice that does not depend on the connection. -/
theorem ite {c : Writer → Request → Prop} [∀ w req, Decidable (c w req)] (yes : Robust f)
    (no : Robust g) (limited : ∀ {bound w req}, c w (Request.limited bound req) ↔ c w req) :
    Robust fun w req => if c w req then f w req else g w req where
  writes w req := by
    show Writes req (if c w req then f w req else g w req).2
    split
    · exact yes.writes w req
    · exact no.writes w req
  cuts := by
    intro bound w unl room within
    simp only [limited]
    split
    · exact yes.cuts room within
    · exact no.cuts room within

/-- What leaves the connection alone. -/
theorem pure_ {v : Writer → Request → Writer} {u : Request → Request}
    (limited : ∀ {bound w req}, v w (Request.limited bound req) = v w req)
    (ipc : ∀ req, (u req).ipc = req.ipc)
    (moves : ∀ {bound req}, u (Request.limited bound req) = (u req).limited bound) :
    Robust fun w req => (v w req, u req) where
  writes w req := ⟨[], ipc req⟩
  cuts := by
    intro bound w unl room within
    refine .inl ⟨?_, ?_, ?_⟩
    · rw [ipc]
      exact room
    · rw [ipc]
      exact within
    · rw [limited, moves]

end Robust

/-- A write that the connection takes. -/
theorem writeItAll_limited {bound : Nat} {unl : Request} {buf : Bytes}
    (fits : buf.length ≤ bound - unl.ipc.output.length) :
    writeItAll buf (unl.limited bound).ipc = (0, ((unl.wrote buf).limited bound).ipc) := by
  show ((if buf.length ≤ bound - unl.ipc.output.length then (0 : Int) else -1), Ipc.mk ..) = _
  rw [if_pos fits]
  simp only [List.take_of_length_le fits, Request.limited, Request.wrote, List.length_append,
    Nat.sub_add_eq]

/-- The write that it does not take any more. -/
theorem writeItAll_limited_of_lt {bound : Nat} {unl : Request} {buf : Bytes}
    (beyond : bound - unl.ipc.output.length < buf.length) :
    writeItAll buf (unl.limited bound).ipc =
      (-1, { unl.ipc with
        output := unl.ipc.output ++ buf.take (bound - unl.ipc.output.length)
        room := some 0 }) := by
  show ((if buf.length ≤ bound - unl.ipc.output.length then (0 : Int) else -1), Ipc.mk ..) = _
  have none_ : bound - unl.ipc.output.length - buf.length = 0 := by omega
  rw [if_neg (by omega)]
  simp only [Request.limited, none_]

theorem robust_send : Robust Writer.send where
  writes w req := by
    rw [Writer.send]
    split
    · exact .refl req
    · refine ⟨[w.buff], ?_⟩
      dsimp only
      split <;> rfl
  cuts := by
    intro bound w unl room within
    rw [Writer.send, Writer.send]
    split
    · exact .inl ⟨room, within, rfl⟩
    · dsimp only
      rw [writeItAll_of_room room]
      by_cases fits : w.buff.length ≤ bound - unl.ipc.output.length
      · rw [writeItAll_limited fits]
        refine .inl ⟨room, ?_, rfl⟩
        show (unl.ipc.output ++ w.buff).length ≤ bound
        rw [List.length_append]
        omega
      · rw [writeItAll_limited_of_lt (Nat.lt_of_not_le fits)]
        refine .inr ⟨rfl, room, ?_, ?_⟩
        · show unl.ipc.output ++ w.buff.take (bound - unl.ipc.output.length) =
            (unl.ipc.output ++ w.buff).take bound
          rw [List.take_append, List.take_of_length_le within]
        · show bound ≤ (unl.ipc.output ++ w.buff).length
          rw [List.length_append]
          omega

section Operations

variable (fcgi : Fastcgi)

theorem robust_emptyBuff : Robust (Writer.emptyBuff fcgi) :=
  Robust.comp (fun _ => robust_send)
    (Robust.pure_ (v := fun w req => w.encapsulate fcgi req) (u := id) rfl (fun _ => rfl) rfl)

/-- Only the buffer changes. -/
theorem robust_fill (v : Writer → Writer) : Robust fun w req => (v w, req) :=
  Robust.pure_ (v := fun w _ => v w) (u := id) rfl (fun _ => rfl) rfl

/-- A round empties the buffer, and goes on. -/
theorem robust_putRounds (rounds : Nat) (s : Bytes) :
    Robust fun w req => (w.putRounds fcgi rounds s req).2 := by
  induction rounds generalizing s with
  | zero => exact robust_fill id
  | succ rounds ih =>
      have round : (fun w req => (Writer.putRounds fcgi (rounds + 1) s w req).2) = fun w req =>
          let m := min s.length (w.stop - w.buff.length)
          if m = s.length then ({ w with buff := w.buff ++ s.take m }, req)
          else if w.isClosed then ({ w with buff := w.buff ++ s.take m }, req)
          else
            let emptied := Writer.emptyBuff fcgi { w with buff := w.buff ++ s.take m } req
            (Writer.putRounds fcgi rounds (s.drop m) emptied.1 emptied.2).2 := by
        funext w req
        rw [Writer.putRounds]
        dsimp only
        split
        · rfl
        · split <;> rfl
      rw [round]
      refine Robust.ite (robust_fill _) (Robust.ite (robust_fill _) ?_ Iff.rfl) Iff.rfl
      have emptied := Robust.comp (fun _ => robust_emptyBuff fcgi) (robust_fill fun w =>
        { w with buff := w.buff ++ s.take (min s.length (w.stop - w.buff.length)) })
      exact Robust.comp (fun w => ih (s.drop (min s.length (w.stop - w.buff.length)))) emptied

theorem robust_putStr (s : Bytes) : Robust fun w req => (w.putStr fcgi s req).2 := by
  have cases : (fun w req => (Writer.putStr fcgi s w req).2) = fun w req =>
      if s.length ≤ w.stop - w.buff.length then ({ w with buff := w.buff ++ s }, req)
      else (Writer.putRounds fcgi (s.length + 2) s w req).2 := by
    funext w req
    rw [Writer.putStr]
    split <;> rfl
  rw [cases]
  exact Robust.ite (robust_fill _) (robust_putRounds fcgi _ s) Iff.rfl

theorem robust_flush : Robust (Writer.flush fcgi) :=
  Robust.ite (c := fun w _ => w.isClosed = true) (robust_fill id) (robust_emptyBuff fcgi) Iff.rfl

/-- Only the number of writers changes. -/
theorem robust_leave : Robust fun w req => (w, { req with nWriters := req.nWriters - 1 }) :=
  Robust.pure_ (v := fun w _ => w) rfl (fun _ => rfl) rfl

theorem robust_writeCloseRecords : Robust (Writer.writeCloseRecords fcgi) := by
  have ended := Robust.ite
    (c := fun w _ => ¬ (w.type = fcgi.stderr ∧ w.buff = [] ∧ w.isAnythingWritten = false))
    (Robust.depending (robust_putStr fcgi)
      (k := fun w req => (makeHeader fcgi w.type req.requestId 0 0).bytes) rfl)
    (robust_fill id) Iff.rfl
  have answered := Robust.ite (c := fun _ req => req.nWriters = 1)
    (Robust.depending (robust_putStr fcgi)
      (k := fun _ req => endRequestRecord fcgi req.requestId req.appStatus fcgi.requestComplete) rfl)
    (robust_fill id) Iff.rfl
  have raw := robust_fill fun w => { w with rawWrite := true }
  exact Robust.comp (fun _ => robust_leave) (Robust.comp (fun _ => answered)
    (Robust.comp (fun _ => ended) raw))

theorem robust_close : Robust (Writer.close fcgi) := by
  have encapsulated : Robust fun w req => (w.encapsulate fcgi req, req) :=
    Robust.pure_ (v := fun w req => w.encapsulate fcgi req) (u := id) rfl (fun _ => rfl) rfl
  have emptied := Robust.comp (fun _ => robust_send)
    (Robust.comp (fun _ => robust_writeCloseRecords fcgi) encapsulated)
  have closed := Robust.comp (fun _ => robust_fill fun w =>
    { w with wasFCloseCalled := true, isClosed := true, stop := w.buff.length }) emptied
  exact Robust.ite (c := fun w _ => w.wasFCloseCalled = true) (robust_fill id) closed Iff.rfl

end Operations

/-! ## Whole answers -/

section Answers

variable {fcgi : Fastcgi} {bound : Nat} {lim unl : Answering}

/-- Two answers that are the same but for the bound, or the bound has been reached. -/
def Answering.Cut (bound : Nat) (lim unl : Answering) : Prop :=
  Fcgi.Cut bound (lim.writer, lim.req) (unl.writer, unl.req)

theorem Answering.Cut.after {f : Writer → Request → Writer × Request} (robust : Robust f)
    (cut : lim.Cut bound unl) (stream : Stream) :
    (lim.after stream (f (lim.writer stream) lim.req)).Cut bound
      (unl.after stream (f (unl.writer stream) unl.req)) := by
  rcases cut with ⟨room, within, same⟩ | broken
  · obtain ⟨writers, requests⟩ := Prod.mk.inj same
    rcases robust.cuts (w := unl.writer stream) room within with ⟨room', within', same'⟩ | broken'
    · refine .inl ⟨room', within', ?_⟩
      rw [writers, requests]
      simp only [Answering.after, same', writers]
    · refine .inr ?_
      rw [writers, requests]
      exact broken'
  · exact .inr (broken.writes (robust.writes _ _) (robust.writes _ _))

theorem Answering.Cut.step (cut : lim.Cut bound unl) (op : Op) :
    (lim.step fcgi op).Cut bound (unl.step fcgi op) := by
  cases op with
  | put stream s => exact cut.after (robust_putStr fcgi s) stream
  | flush stream => exact cut.after (robust_flush fcgi) stream
  | setExitStatus status =>
      rcases cut with ⟨room, within, same⟩ | ⟨full, room, output, beyond⟩
      · obtain ⟨writers, requests⟩ := Prod.mk.inj same
        refine .inl ⟨room, within, ?_⟩
        show (lim.writer, ({ lim.req with appStatus := status } : Request)) = _
        rw [writers, requests]
        rfl
      · exact .inr ⟨full, room, output, beyond⟩

theorem Answering.Cut.run (ops : List Op) (cut : lim.Cut bound unl) :
    (lim.run fcgi ops).Cut bound (unl.run fcgi ops) := by
  induction ops generalizing lim unl with
  | nil => exact cut
  | cons op ops ih => exact ih (cut.step op)

/-- **A connection that breaks has got the answer up to there.** -/
theorem cut_off (fcgi : Fastcgi) (aligned : Stream → Bool) (req : Request)
    (room : req.ipc.room = none) (ops : List Op) (inErrno : Int) (bound : Nat)
    (within : req.ipc.output.length ≤ bound) :
    (((accepted fcgi aligned (req.limited bound)).run fcgi ops).finish fcgi
        inErrno).2.req.ipc.output =
      (((accepted fcgi aligned req).run fcgi ops).finish fcgi inErrno).2.req.ipc.output.take
        bound := by
  have start : (accepted fcgi aligned (req.limited bound)).Cut bound (accepted fcgi aligned req) :=
    .inl ⟨room, within, rfl⟩
  have closed := ((@Answering.Cut.run fcgi _ _ _ ops start).after (robust_close fcgi) .err).after
    (robust_close fcgi) .out
  exact closed.output

/-- The connection breaks after twelve bytes. -/
theorem cut_off_twelve :
    (((accepted fastcgi (fun _ => true) ((Request.fresh (Ipc.fresh [])).limited 12)).run fastcgi
        [.put .out (str "page")]).finish fastcgi 0).2.req.ipc.output =
      (((accepted fastcgi (fun _ => true) (Request.fresh (Ipc.fresh []))).run fastcgi
        [.put .out (str "page")]).finish fastcgi 0).2.req.ipc.output.take 12 :=
  cut_off fastcgi (fun _ => true) (Request.fresh (Ipc.fresh [])) rfl [.put .out (str "page")] 0 12
    (Nat.zero_le 12)

end Answers

end Bagunceiro.Fcgi
