/-
# Fcgi.Portions -- how a connection cuts its bytes up is not seen (`fcgiapp.c`)

The bytes of a connection arrive in portions, and a read takes as many of a portion as
the buffer can hold.  A header, a content or a padding may be cut anywhere.  Two
readers are alike when they have the same to come in whatever portions, and whatever
they are asked for, they give the same and stay alike, also where they fail.

`FillBuffProc` is followed round by round: a round that ends because the buffer is
empty could as well have gone on with the bytes that arrive next.
-/
import Bagunceiro.Fcgi.Headers

namespace Bagunceiro.Fcgi

open Indistinct Refill

set_option autoImplicit false

namespace Reader

/-- The content of the record that has not been taken yet. -/
def left (s : Reader) : Nat := s.contentLen + s.ready.length

/-- All that arrives later. -/
def later (s : Reader) : Bytes := s.req.ipc.input.flatten

/-- The reader for which everything has arrived at once, and nothing is ready yet. -/
def whole (s : Reader) : Reader :=
  { s with
    ready := []
    rest := s.ready ++ s.rest ++ s.later
    bufflen := 1
    bufflen_pos := Nat.one_pos
    contentLen := s.left
    req := { s.req with ipc := { s.req.ipc with input := [] } } }

/-- What `FillBuffProc` sees to. -/
structure Sound (s : Reader) : Prop where
  closed : s.isClosed = true → s.ready = []
  skips : s.ready ≠ [] → s.skip = false

/-- They have the same to come. -/
structure Alike (s t : Reader) : Prop where
  whole : s.whole = t.whole
  left : s.Sound
  right : t.Sound

theorem whole_whole (s : Reader) : s.whole.whole = s.whole := by
  simp [whole, left, later]

@[simp] theorem left_whole (s : Reader) : s.whole.left = s.left := rfl

@[simp] theorem unread_whole (s : Reader) : s.whole.unread = s.unread := by
  simp [unread, whole, later, Nat.add_assoc]

theorem sound_whole (s : Reader) : s.whole.Sound := ⟨fun _ => rfl, fun some_ => absurd rfl some_⟩

namespace Alike

variable {s t u : Reader}

theorem symm (alike : s.Alike t) : t.Alike s := ⟨alike.whole.symm, alike.right, alike.left⟩

theorem trans (first : s.Alike t) (second : t.Alike u) : s.Alike u :=
  ⟨first.whole.trans second.whole, first.left, second.right⟩

theorem isClosed (alike : s.Alike t) : s.isClosed = t.isClosed :=
  (congrArg Reader.isClosed alike.whole :)

theorem errno (alike : s.Alike t) : s.errno = t.errno :=
  (congrArg Reader.errno alike.whole :)

theorem type (alike : s.Alike t) : s.type = t.type :=
  (congrArg Reader.type alike.whole :)

theorem eorStop (alike : s.Alike t) : s.eorStop = t.eorStop :=
  (congrArg Reader.eorStop alike.whole :)

theorem skip (alike : s.Alike t) : s.skip = t.skip :=
  (congrArg Reader.skip alike.whole :)

theorem lefts (alike : s.Alike t) : s.left = t.left :=
  (congrArg Reader.contentLen alike.whole :)

theorem unread (alike : s.Alike t) : s.unread = t.unread := by
  rw [← unread_whole, alike.whole, unread_whole]

theorem bytes (alike : s.Alike t) : s.ready ++ s.rest ++ s.later = t.ready ++ t.rest ++ t.later :=
  (congrArg Reader.rest alike.whole :)

/-- The requests differ in what arrives at most. -/
theorem req (alike : s.Alike t) :
    ({ s.req with ipc := { s.req.ipc with input := [] } } : Request) =
      { t.req with ipc := { t.req.ipc with input := [] } } :=
  (congrArg Reader.req alike.whole :)

theorem begun (alike : s.Alike t) : s.req.isBeginProcessed = t.req.isBeginProcessed :=
  (congrArg Request.isBeginProcessed alike.req :)

end Alike

theorem Sound.alike_whole {s : Reader} (sound : s.Sound) : s.Alike s.whole :=
  ⟨s.whole_whole.symm, sound, s.sound_whole⟩

/-! ## One round -/

/-- What a round leads to, and what it leads to when everything has arrived.  A round
that ended with an empty buffer goes on with what arrives next. -/
inductive Round : Flow × Reader → Flow × Reader → Prop
  | ret {s t : Reader} (alike : s.Alike t)
      (there : s.isClosed = true ∨ s.ready ≠ [] ∧ t.ready ≠ []) : Round (.ret, s) (.ret, t)
  | again {header : Bytes} {s : Reader} {r : Flow × Reader} (ready : s.ready = [])
      (rest : s.rest = []) (short : header.length < 8)
      (ended : s.later = [] → r = (.again header, s.whole))
      (goesOn : s.later ≠ [] → r = passContent header s.whole) : Round (.again header, s) r
  | interpret {header : Bytes} {s : Reader} (ready : s.ready = []) :
      Round (.interpret header, s) (.interpret header, s.whole)

section Rounds

variable {s : Reader} {header : Bytes}

theorem left_of_ready (ready : s.ready = []) : s.left = s.contentLen := by
  rw [left, ready, List.length_nil, Nat.add_zero]

theorem rest_whole (ready : s.ready = []) : s.whole.rest = s.rest ++ s.later := by
  show s.ready ++ s.rest ++ s.later = _
  rw [ready, List.nil_append]

/-- Some of what is in the buffer is passed over. -/
theorem whole_drop (ready : s.ready = []) {count : Nat} (within : count ≤ s.rest.length) :
    ({ s with rest := s.rest.drop count } : Reader).whole =
      { s.whole with rest := s.whole.rest.drop count } := by
  rw [rest_whole ready, List.drop_append_of_le_length within]
  simp only [whole, left, later, ready, List.nil_append]

theorem whole_emptied (ready : s.ready = []) :
    ({ s with rest := [] } : Reader).whole = { s.whole with rest := s.later } := by
  have dropped := whole_drop ready (Nat.le_refl s.rest.length)
  rw [List.drop_length, rest_whole ready, List.drop_left] at dropped
  exact dropped

theorem passContent_eq_passPadding (noContent : s.contentLen = 0) (header : Bytes) :
    passContent header s = passPadding header s := by
  rw [passContent, noContent, if_neg (Nat.lt_irrefl 0)]

theorem passContent_eq_passHeader (noContent : s.contentLen = 0) (noPadding : s.paddingLen = 0)
    (header : Bytes) : passContent header s = passHeader header s := by
  rw [passContent_eq_passPadding noContent, passPadding, noPadding, if_neg (Nat.lt_irrefl 0)]

theorem passHeader_round (ready : s.ready = []) (noContent : s.contentLen = 0)
    (noPadding : s.paddingLen = 0) (short : header.length < 8) :
    Round (passHeader header s) (passHeader header s.whole) := by
  rw [passHeader, passHeader]
  by_cases stop : s.eorStop = true
  · have stop' : s.whole.eorStop = true := stop
    rw [if_pos stop, if_pos stop']
    exact .ret ⟨(whole_whole { s with isClosed := true }).symm, ⟨fun _ => ready,
      fun some_ => absurd ready some_⟩, ⟨fun _ => rfl, fun some_ => absurd rfl some_⟩⟩ (.inl rfl)
  · have stop' : ¬ s.whole.eorStop = true := stop
    have length : s.whole.rest.length = s.rest.length + s.later.length := by
      rw [rest_whole ready, List.length_append]
    rw [if_neg stop, if_neg stop']
    by_cases all : 8 - header.length ≤ s.rest.length
    · rw [Nat.min_eq_left all, Nat.min_eq_left (by omega)]
      have same : s.whole.rest.take (8 - header.length) = s.rest.take (8 - header.length) := by
        rw [rest_whole ready, List.take_append_of_le_length all]
      have full : ¬ (header ++ s.rest.take (8 - header.length)).length < 8 := by
        rw [List.length_append, List.length_take]
        omega
      simp only [same, if_neg full, ← whole_drop ready all]
      exact .interpret ready
    · have part : (header ++ s.rest).length < 8 := by
        rw [List.length_append]
        omega
      have emptied := whole_emptied ready
      have count : min (8 - header.length) s.whole.rest.length =
          s.rest.length + min (8 - (header ++ s.rest).length) s.later.length := by
        rw [length, List.length_append]
        omega
      rw [Nat.min_eq_right (Nat.le_of_not_le all)]
      dsimp only
      rw [List.take_length, List.drop_length, if_pos part, count, rest_whole ready,
        List.take_length_add_append, List.drop_length_add_append, ← List.append_assoc]
      refine .again ready rfl part (fun ended => ?_) (fun goesOn => ?_)
      · have ended : s.later = [] := ended
        rw [emptied, ended, List.take_nil, List.drop_nil, List.append_nil, if_pos part]
      · rw [emptied]
        refine Eq.trans ?_ (passContent_eq_passHeader ?_ ?_ _).symm
        · rw [passHeader]
          exact (if_neg stop').symm
        · exact (left_of_ready ready).trans noContent
        · exact noPadding

theorem passPadding_round (ready : s.ready = []) (noContent : s.contentLen = 0)
    (short : header.length < 8) : Round (passPadding header s) (passPadding header s.whole) := by
  have padding : s.whole.paddingLen = s.paddingLen := rfl
  rw [passPadding, passPadding, padding]
  by_cases some_ : 0 < s.paddingLen
  · have length : s.whole.rest.length = s.rest.length + s.later.length := by
      rw [rest_whole ready, List.length_append]
    rw [if_pos some_, if_pos some_]
    have noLeft : s.whole.contentLen = 0 := (left_of_ready ready).trans noContent
    by_cases all : s.paddingLen ≤ s.rest.length
    · rw [Nat.min_eq_left all, Nat.min_eq_left (by omega)]
      dsimp only
      rw [Nat.sub_self, if_neg (Nat.lt_irrefl 0), if_neg (Nat.lt_irrefl 0)]
      have dropped := whole_drop (s := { s with paddingLen := 0 }) ready all
      have round := passHeader_round
        (s := { s with paddingLen := 0, rest := s.rest.drop s.paddingLen }) ready noContent rfl short
      rw [dropped] at round
      exact round
    · have count : min s.paddingLen s.whole.rest.length =
          s.rest.length + min (s.paddingLen - s.rest.length) s.later.length := by
        rw [length]
        omega
      have emptied : ({ s with paddingLen := s.paddingLen - s.rest.length, rest := [] } : Reader).whole =
          { s.whole with paddingLen := s.paddingLen - s.rest.length, rest := s.later } :=
        whole_emptied (s := { s with paddingLen := s.paddingLen - s.rest.length }) ready
      have goesOn : 0 < s.paddingLen - s.rest.length := by omega
      rw [Nat.min_eq_right (Nat.le_of_not_le all), count]
      dsimp only
      rw [List.drop_length, if_pos goesOn, rest_whole ready, List.drop_length_add_append, Nat.sub_add_eq]
      refine .again ready rfl short (fun ended => ?_) (fun arrives => ?_)
      · have ended : s.later = [] := ended
        rw [emptied]
        simp only [ended, List.length_nil, Nat.min_zero, Nat.sub_zero, List.drop_nil, if_pos goesOn]
      · rw [emptied]
        refine Eq.trans ?_ (passContent_eq_passPadding ?_ header).symm
        · rw [passPadding]
          exact (if_pos goesOn).symm
        · exact noLeft
  · rw [if_neg some_, if_neg some_]
    exact passHeader_round ready noContent (Nat.eq_zero_of_not_pos some_) short

theorem whole_contentLen (ready : s.ready = []) (n : Nat) :
    ({ s with contentLen := n } : Reader).whole = { s.whole with contentLen := n } := by
  simp only [whole, left, later, ready, List.length_nil, Nat.add_zero]

/-- Content is delivered. -/
theorem alike_deliver (ready : s.ready = []) (rest : s.rest ≠ []) (some_ : 0 < s.contentLen)
    (open_ : s.isClosed = false) (deliver : s.skip = false) :
    let count := min s.contentLen s.rest.length
    let s' : Reader := { s with
      contentLen := s.contentLen - count
      ready := s.rest.take count
      rest := s.rest.drop count }
    s'.Alike s.whole ∧ s'.ready ≠ [] := by
  have pos := List.length_pos_iff.2 rest
  have taken : (s.rest.take (min s.contentLen s.rest.length)).length =
      min s.contentLen s.rest.length := by
    rw [List.length_take]
    omega
  refine ⟨⟨?_, ⟨fun closed => ?_, fun _ => deliver⟩, s.sound_whole⟩, ?_⟩
  · rw [whole_whole]
    have left : s.contentLen - min s.contentLen s.rest.length + min s.contentLen s.rest.length =
        s.left := by
      rw [left_of_ready ready]
      omega
    simp only [whole, Reader.left, taken, List.take_append_drop, later, ready, List.nil_append]
    rw [left, Reader.left, ready]
  · exact absurd closed (Bool.eq_false_iff.1 open_)
  · refine List.length_pos_iff.1 ?_
    rw [taken]
    omega

theorem passContent_round (ready : s.ready = []) (rest : s.rest ≠ []) (open_ : s.isClosed = false)
    (short : header.length < 8) : Round (passContent header s) (passContent header s.whole) := by
  have lefts : s.whole.contentLen = s.contentLen := left_of_ready ready
  have length : s.whole.rest.length = s.rest.length + s.later.length := by
    rw [rest_whole ready, List.length_append]
  have rest' : s.whole.rest ≠ [] := by
    rw [rest_whole ready]
    exact List.append_ne_nil_of_left_ne_nil rest _
  rw [passContent, passContent, lefts]
  by_cases some_ : 0 < s.contentLen
  · rw [if_pos some_, if_pos some_]
    dsimp only
    by_cases deliver : s.skip = false
    · have deliver' : s.whole.skip = false := deliver
      rw [if_pos deliver, if_pos deliver']
      have here := alike_deliver ready rest some_ open_ deliver
      have there := alike_deliver (s := s.whole) rfl rest' (lefts ▸ some_) open_ deliver
      rw [lefts, whole_whole] at there
      exact .ret (here.1.trans there.1.symm) (.inr ⟨here.2, there.2⟩)
    · have deliver' : ¬ s.whole.skip = false := deliver
      rw [if_neg deliver, if_neg deliver']
      by_cases all : s.contentLen ≤ s.rest.length
      · rw [Nat.min_eq_left all, Nat.min_eq_left (by omega), Nat.sub_self,
          if_neg (Nat.lt_irrefl 0), if_neg (Nat.lt_irrefl 0)]
        have dropped := whole_drop (s := { s with contentLen := 0, skip := false }) ready all
        have skipped : ({ s with contentLen := 0, skip := false } : Reader).whole =
            { s.whole with contentLen := 0, skip := false } :=
          whole_contentLen (s := { s with skip := false }) ready 0
        have round := passPadding_round (s := { s with
          contentLen := 0
          skip := false
          rest := s.rest.drop s.contentLen }) ready rfl short
        rw [dropped, skipped] at round
        exact round
      · have count : min s.contentLen s.whole.rest.length =
            s.rest.length + min (s.contentLen - s.rest.length) s.later.length := by
          rw [length]
          omega
        have emptied : ({ s with contentLen := s.contentLen - s.rest.length, rest := [] } : Reader).whole =
            { s.whole with contentLen := s.contentLen - s.rest.length, rest := s.later } := by
          rw [whole_emptied (s := { s with contentLen := s.contentLen - s.rest.length }) ready,
            whole_contentLen ready]
          rfl
        have goesOn : 0 < s.contentLen - s.rest.length := by omega
        rw [Nat.min_eq_right (Nat.le_of_not_le all), count, List.drop_length, if_pos goesOn,
          rest_whole ready, List.drop_length_add_append, Nat.sub_add_eq]
        refine .again ready rfl short (fun ended => ?_) (fun arrives => ?_)
        · have ended : s.later = [] := ended
          rw [emptied]
          simp only [ended, List.length_nil, Nat.min_zero, Nat.sub_zero, List.drop_nil,
            if_pos goesOn]
        · rw [emptied, passContent]
          dsimp only
          rw [if_pos goesOn, if_neg deliver']
  · rw [if_neg some_, if_neg some_]
    exact passPadding_round ready (Nat.eq_zero_of_not_pos some_) short

/-! ### What a round leaves alone -/

/-- What a round does not do, and that it passes over a byte if it is not the last one. -/
structure Passes (s : Reader) (r : Flow × Reader) : Prop where
  eorStop : r.2.eorStop = s.eorStop
  begun : r.2.req.isBeginProcessed = s.req.isBeginProcessed
  left : r.2.left ≤ s.left
  unread : r.2.unread ≤ s.unread
  isClosed : r.1 ≠ .ret → r.2.isClosed = s.isClosed
  progress : s.rest ≠ [] → r.1 ≠ .ret → r.2.unread < s.unread
  short : ∀ header, r.1 = .again header → header.length < 8
  stops : ∀ header, r.1 = .interpret header → s.eorStop = false

theorem unread_drop (s : Reader) (count : Nat) :
    ({ s with rest := s.rest.drop count } : Reader).unread ≤ s.unread := by
  simp only [unread, List.length_drop]
  omega

theorem unread_drop_lt (s : Reader) {count : Nat} (pos : 0 < count) (rest : s.rest ≠ []) :
    ({ s with rest := s.rest.drop count } : Reader).unread < s.unread := by
  have some_ := List.length_pos_iff.2 rest
  simp only [unread, List.length_drop]
  omega

/-- Bytes are passed over first. -/
theorem Passes.drop {s : Reader} (s' : Reader) {count : Nat} {r : Flow × Reader}
    (passes : Passes { s' with rest := s.rest.drop count } r) (pos : 0 < count)
    (eorStop : s'.eorStop = s.eorStop) (isClosed : s'.isClosed = s.isClosed) (req : s'.req = s.req)
    (ready : s'.ready = s.ready) (left : s'.contentLen ≤ s.contentLen) : Passes s r := by
  have less : ({ s' with rest := s.rest.drop count } : Reader).unread =
      ({ s with rest := s.rest.drop count } : Reader).unread := by
    simp only [Reader.unread, ready, req]
  refine ⟨passes.eorStop.trans eorStop, passes.begun.trans (congrArg _ req), ?_, ?_,
    fun no => (passes.isClosed no).trans isClosed, fun rest no => ?_, passes.short,
    fun header interpret => eorStop.symm.trans (passes.stops header interpret)⟩
  · refine Nat.le_trans passes.left ?_
    rw [Reader.left, Reader.left, ready]
    exact Nat.add_le_add_right left _
  · exact Nat.le_trans passes.unread (less ▸ unread_drop s count)
  · exact Nat.lt_of_le_of_lt passes.unread (less ▸ unread_drop_lt s pos rest)

theorem passHeader_passes {header : Bytes} (short : header.length < 8) (s : Reader) :
    Passes s (passHeader header s) := by
  rw [passHeader]
  split
  · exact ⟨rfl, rfl, Nat.le_refl _, Nat.le_refl _, fun no => absurd rfl no,
      fun _ no => absurd rfl no, fun _ no => (nomatch no), fun _ no => nomatch no⟩
  · rename_i open_
    have progress (rest : s.rest ≠ []) := @unread_drop_lt s
      (min (8 - header.length) s.rest.length) (by
        have := List.length_pos_iff.2 rest
        omega) rest
    dsimp only
    split
    · rename_i part
      refine ⟨rfl, rfl, Nat.le_refl _, unread_drop s _, fun _ => rfl, fun rest _ => progress rest,
        fun _ same => ?_, fun _ no => nomatch no⟩
      cases same
      exact part
    · exact ⟨rfl, rfl, Nat.le_refl _, unread_drop s _, fun _ => rfl, fun rest _ => progress rest,
        fun _ no => (nomatch no), fun _ _ => Bool.eq_false_iff.2 open_⟩

theorem passPadding_passes {header : Bytes} (short : header.length < 8) (s : Reader) :
    Passes s (passPadding header s) := by
  rw [passPadding]
  split
  · rename_i some_
    have progress (rest : s.rest ≠ []) := @unread_drop_lt s (min s.paddingLen s.rest.length) (by
        have := List.length_pos_iff.2 rest
        omega) rest
    dsimp only
    split
    · refine ⟨rfl, rfl, Nat.le_refl _, unread_drop s _, fun _ => rfl, fun rest _ => progress rest,
        fun _ same => ?_, fun _ no => nomatch no⟩
      cases same
      exact short
    · rename_i beyond
      exact (passHeader_passes short { s with
        paddingLen := s.paddingLen - min s.paddingLen s.rest.length
        rest := s.rest.drop (min s.paddingLen s.rest.length) }).drop { s with
          paddingLen := s.paddingLen - min s.paddingLen s.rest.length } (by omega) rfl rfl rfl rfl
        (Nat.le_refl _)
  · exact passHeader_passes short s

theorem passContent_passes {header : Bytes} (short : header.length < 8) (ready : s.ready = []) :
    Passes s (passContent header s) := by
  rw [passContent]
  split
  · rename_i some_
    have progress (rest : s.rest ≠ []) := @unread_drop_lt s (min s.contentLen s.rest.length) (by
        have := List.length_pos_iff.2 rest
        omega) rest
    have empty : s.ready.length = 0 := by rw [ready, List.length_nil]
    dsimp only
    split
    · refine ⟨rfl, rfl, ?_, ?_, fun no => absurd rfl no, fun _ no => absurd rfl no,
        fun _ no => (nomatch no), fun _ no => nomatch no⟩
      · simp only [left, List.length_take]
        omega
      · simp only [unread, List.length_take, List.length_drop]
        omega
    · split
      · refine ⟨rfl, rfl, ?_, unread_drop s _, fun _ => rfl, fun rest _ => progress rest,
          fun _ same => ?_, fun _ no => nomatch no⟩
        · exact Nat.add_le_add_right (Nat.sub_le _ _) _
        · cases same
          exact short
      · exact (passPadding_passes short { s with
          contentLen := s.contentLen - min s.contentLen s.rest.length
          rest := s.rest.drop (min s.contentLen s.rest.length)
          skip := false }).drop { s with
            contentLen := s.contentLen - min s.contentLen s.rest.length
            skip := false } (by omega) rfl rfl rfl rfl (Nat.sub_le _ _)
  · exact passPadding_passes short s

/-! ### Reading -/

/-- Nothing arrives any more. -/
theorem osRead_ended {ipc : Ipc} (ended : ipc.input.flatten = []) (len : Nat) :
    osRead len ipc = (if ipc.broken then -1 else 0, [], { ipc with input := [] }) := by
  have none_ : ipc.input.dropWhile (·.isEmpty) = [] := by
    rw [List.dropWhile_eq_nil_iff]
    exact fun c member => List.isEmpty_iff.2 (List.flatten_eq_nil_iff.1 ended c member)
  rw [osRead, none_]

/-- Something arrives, and what does not fit stays. -/
theorem osRead_arrives {ipc : Ipc} (some_ : ipc.input.flatten ≠ []) {len : Nat} (pos : 0 < len) :
    ∃ c cs, osRead len ipc = (c.length, c, { ipc with input := cs }) ∧ c ≠ [] ∧
      c ++ cs.flatten = ipc.input.flatten := by
  obtain ⟨input, broken, errno, output, room⟩ := ipc
  induction input with
  | nil => exact absurd rfl some_
  | cons c cs ih =>
      by_cases empty : c = []
      · subst empty
        exact ih some_
      · have first : (c :: cs).dropWhile (·.isEmpty) = c :: cs := by
          rw [List.dropWhile_cons, if_neg (by rwa [List.isEmpty_iff])]
        refine ⟨c.take len, c.drop len :: cs, ?_, ?_, ?_⟩
        · simp only [osRead, first]
        · rw [Ne, List.take_eq_nil_iff, not_or]
          exact ⟨by omega, empty⟩
        · rw [List.flatten_cons, List.flatten_cons, ← List.append_assoc, List.take_append_drop]

theorem pass_of_ready (ready : s.ready = []) (header : Bytes) :
    pass header s =
      if s.rest = [] then
        let read := osRead s.bufflen s.req.ipc
        let s := s.withIpc read.2.2
        if read.1 ≤ 0 then (.ret, s.setError (if read.1 = 0 then protocolError else s.req.ipc.errno))
        else passContent header { s with rest := read.2.1 }
      else passContent header s := by
  cases s
  cases ready
  rfl

/-- The reader behind a read. -/
theorem pass_arrived (ready : s.ready = []) (some_ : s.rest ++ s.later ≠ []) :
    ∃ s' : Reader, (∀ header, pass header s = passContent header s') ∧ s'.whole = s.whole ∧
      s'.ready = [] ∧ s'.rest ≠ [] ∧ s'.isClosed = s.isClosed ∧ s'.eorStop = s.eorStop ∧
      s'.req.isBeginProcessed = s.req.isBeginProcessed := by
  by_cases empty : s.rest = []
  · rw [empty, List.nil_append] at some_
    obtain ⟨c, cs, read, arrived, bytes⟩ := osRead_arrives some_ s.bufflen_pos
    refine ⟨{ s.withIpc { s.req.ipc with input := cs } with rest := c }, fun header => ?_, ?_, ready,
      arrived, rfl, rfl, rfl⟩
    · have pos := List.length_pos_iff.2 arrived
      have count : ¬ ((c.length : Int) ≤ 0) := by omega
      rw [pass_of_ready ready, if_pos empty]
      simp only [read, if_neg count]
    · simp only [whole, left, later, withIpc, ready, empty, List.nil_append, bytes]
  · refine ⟨s, fun header => ?_, rfl, ready, empty, rfl, rfl, rfl⟩
    rw [pass_of_ready ready, if_neg empty]

/-- The end. -/
theorem pass_ended (ready : s.ready = []) (ended : s.rest ++ s.later = []) (header : Bytes) :
    pass header s = (.ret, (s.withIpc { s.req.ipc with input := [] }).setError
      (if s.req.ipc.broken then s.req.ipc.errno else protocolError)) := by
  obtain ⟨rest, later⟩ := List.append_eq_nil_iff.1 ended
  rw [pass_of_ready ready, if_pos rest, osRead_ended later]
  by_cases broken : s.req.ipc.broken = true
  · simp [broken, withIpc]
  · simp [broken]

theorem whole_ended (s : Reader) (ended : s.later = []) :
    (s.withIpc { s.req.ipc with input := [] }).whole = s.whole := by
  have none_ : s.req.ipc.input.flatten = [] := ended
  simp only [whole, left, later, withIpc, none_, List.flatten_nil]

/-- **A round comes to what it comes to when everything has arrived, or goes on to it.** -/
theorem pass_round (ready : s.ready = []) (open_ : s.isClosed = false)
    (short : header.length < 8) : Round (pass header s) (pass header s.whole) := by
  by_cases ended : s.rest ++ s.later = []
  · have ended' : s.whole.rest ++ s.whole.later = [] := by
      rw [rest_whole ready, ended]
      rfl
    rw [pass_ended ready ended, pass_ended (s := s.whole) rfl ended']
    refine .ret ⟨?_, ⟨fun _ => ready, fun some_ => absurd ready some_⟩,
      ⟨fun _ => rfl, fun some_ => absurd rfl some_⟩⟩ (.inl rfl)
    show (s.withIpc { s.req.ipc with input := [] }).whole.setError _ = s.whole.whole.setError _
    rw [whole_ended s (List.append_eq_nil_iff.1 ended).2, whole_whole]
    rfl
  · obtain ⟨s', here, same, ready', rest', closed', -⟩ := pass_arrived ready ended
    have some_ : s.whole.rest ≠ [] := by
      rw [rest_whole ready]
      exact ended
    rw [here, pass_of_ready (s := s.whole) rfl, if_neg some_, ← same]
    exact passContent_round ready' rest' (closed'.trans open_) short

theorem pass_passes (ready : s.ready = []) (short : header.length < 8) :
    Passes s (pass header s) ∧ ((pass header s).1 ≠ .ret → (pass header s).2.unread < s.unread) := by
  by_cases ended : s.rest ++ s.later = []
  · have rest := (List.append_eq_nil_iff.1 ended).1
    rw [pass_ended ready ended]
    refine ⟨⟨rfl, rfl, Nat.le_refl _, ?_, fun no => absurd rfl no, fun _ no => absurd rfl no,
      fun _ no => (nomatch no), fun _ no => nomatch no⟩, fun no => absurd rfl no⟩
    exact Nat.add_le_add_left (Nat.zero_le _) _
  · obtain ⟨s', here, same, ready', rest', closed', eorStop', begun'⟩ := pass_arrived ready ended
    have passes := passContent_passes short ready'
    have unread : s'.unread = s.unread := by rw [← unread_whole, same, unread_whole]
    have left : s'.left = s.left := by rw [← left_whole, same, left_whole]
    rw [here, ← unread]
    refine ⟨⟨passes.eorStop.trans eorStop', passes.begun.trans begun', left ▸ passes.left,
      unread ▸ passes.unread, fun no => (passes.isClosed no).trans closed',
      fun _ no => unread ▸ passes.progress rest' no, passes.short,
      fun header interpret => eorStop'.symm.trans (passes.stops header interpret)⟩,
      passes.progress rest'⟩

end Rounds

/-! ## The rounds of `FillBuffProc` -/

section Fill

/-- Two streams that are read, the first of which is described. -/
structure Both (inner began : Bool) (u l : Nat) (s t : Reader) : Prop where
  alike : s.Alike t
  eorStop : s.eorStop = inner
  begun : s.req.isBeginProcessed = began
  /-- no more than so many bytes have not been read yet -/
  unread : s.unread ≤ u
  /-- the content of the one record that is read is not more than this -/
  left : inner = true → s.left ≤ l

namespace Both

variable {inner began : Bool} {u l : Nat} {s t : Reader}

theorem symm (both : Both inner began u l s t) : Both inner began u l t s where
  alike := both.alike.symm
  eorStop := both.alike.eorStop.symm.trans both.eorStop
  begun := both.alike.begun.symm.trans both.begun
  unread := both.alike.unread ▸ both.unread
  left nested := both.alike.lefts ▸ both.left nested

theorem alone (both : Both inner began u l s t) : Both inner began u l s s :=
  { both with alike := both.alike.trans both.alike.symm }

theorem mono {u' l' : Nat} (both : Both inner began u l s t) (unread : u ≤ u') (left : l ≤ l') :
    Both inner began u' l' s t :=
  { both with
    unread := Nat.le_trans both.unread unread
    left := fun nested => Nat.le_trans (both.left nested) left }

end Both

/-- What `FillBuffProc` leaves: there is content, the stream has closed, or a request has begun. -/
structure Filled (inner began : Bool) (u l : Nat) (s t : Reader) : Prop where
  alike : s.Alike t
  eorStop : s.eorStop = inner
  unread : s.unread ≤ u
  left : inner = true → s.left ≤ l
  there : s.req.isBeginProcessed = began ∧
      (s.isClosed = true ∨ s.ready ≠ [] ∧ t.ready ≠ []) ∨
    inner = false ∧ began = false ∧ s.req.isBeginProcessed = true ∧ s.isClosed = false ∧
      s.ready = [] ∧ t.ready = []

namespace Filled

variable {inner began : Bool} {u l : Nat} {s t w : Reader}

theorem symm (filled : Filled inner began u l s t) : Filled inner began u l t s where
  alike := filled.alike.symm
  eorStop := filled.alike.eorStop.symm.trans filled.eorStop
  unread := filled.alike.unread ▸ filled.unread
  left nested := filled.alike.lefts ▸ filled.left nested
  there := by
    rw [← filled.alike.begun, ← filled.alike.isClosed]
    rcases filled.there with ⟨same, closed | ready⟩ | ⟨outer, notYet, now, open_, ready⟩
    · exact .inl ⟨same, .inl closed⟩
    · exact .inl ⟨same, .inr ready.symm⟩
    · exact .inr ⟨outer, notYet, now, open_, ready.symm⟩

theorem trans (first : Filled inner began u l s w) (second : Filled inner began u l w t) :
    Filled inner began u l s t where
  alike := first.alike.trans second.alike
  eorStop := first.eorStop
  unread := first.unread
  left := first.left
  there := by
    have isClosed := first.alike.isClosed
    have begun_ := first.alike.begun
    rcases first.there with ⟨same, closed | ready⟩ | ⟨outer, notYet, now, open_, ready⟩
    · exact .inl ⟨same, .inl closed⟩
    · rcases second.there with ⟨-, closed' | ready'⟩ | ⟨-, -, -, -, ready', -⟩
      · exact .inl ⟨same, .inl (isClosed.trans closed')⟩
      · exact .inl ⟨same, .inr ⟨ready.1, ready'.2⟩⟩
      · exact absurd ready' ready.2
    · rcases second.there with ⟨same', closed' | ready'⟩ | ⟨-, -, -, -, -, ready'⟩
      · rw [← isClosed, open_] at closed'
        cases closed'
      · exact absurd ready.2 ready'.1
      · exact .inr ⟨outer, notYet, now, open_, ready.1, ready'⟩

theorem mono {u' l' : Nat} (filled : Filled inner began u l s t) (unread : u ≤ u')
    (left : l ≤ l') : Filled inner began u' l' s t :=
  { filled with
    unread := Nat.le_trans filled.unread unread
    left := fun nested => Nat.le_trans (filled.left nested) left }

end Filled

/-- What the interpretation of a header leaves. -/
structure Processed (began : Bool) (u : Nat) (status : Status) (s t : Reader) : Prop where
  alike : s.Alike t
  unread : s.unread ≤ u
  ready : s.ready = []
  ready' : t.ready = []
  begun : s.req.isBeginProcessed = began ∧ status ≠ .beginRecord ∨
    began = false ∧ s.req.isBeginProcessed = true ∧ status = .beginRecord

/-- Two streams before a fill. -/
structure Empty (inner began : Bool) (u l : Nat) (s t : Reader) : Prop
    extends Both inner began u l s t where
  isClosed : s.isClosed = false
  ready : s.ready = []
  ready' : t.ready = []

/-- Headers are interpreted in the same way. -/
def Interprets (process : Header → Reading Status) : Prop :=
  ∀ began u l header, Respects (Empty true began u l) (Processed began u) (process header)

section Process

variable {process : Header → Reading Status} {inner began : Bool} {u l : Nat} {s t : Reader}

/-- Where the header leads to: the end of the call, or another round. -/
def Leads (began : Bool) (u : Nat) (flow : Flow) (s t : Reader) : Prop :=
  flow = .ret ∧ (∀ l, Filled false began u l s t) ∨
    flow = .again [] ∧ ∀ l, Empty false began u l s t

theorem switch_alike {status : Status} (processed : Processed began u status s t) :
    Results (Leads began u) (switch status s) (switch status t) := by
  have alike (c : Bool) : ({ s with eorStop := false, isClosed := c } : Reader).Alike
      { t with eorStop := false, isClosed := c } :=
    ⟨congrArg (fun s : Reader => { s with eorStop := false, isClosed := c }) processed.alike.whole,
      ⟨fun _ => processed.ready, processed.alike.left.skips⟩,
      ⟨fun _ => processed.ready', processed.alike.right.skips⟩⟩
  have skips : ({ s with eorStop := false, isClosed := false, skip := true } : Reader).Alike
      { t with eorStop := false, isClosed := false, skip := true } :=
    ⟨congrArg (fun s : Reader => { s with eorStop := false, isClosed := false, skip := true })
      processed.alike.whole, ⟨fun _ => processed.ready, fun some_ => absurd processed.ready some_⟩,
      ⟨fun _ => processed.ready', fun some_ => absurd processed.ready' some_⟩⟩
  have contentLen : s.contentLen = t.contentLen := by
    rw [← left_of_ready processed.ready, ← left_of_ready processed.ready', processed.alike.lefts]
  by_cases begins : status = .beginRecord
  · subst begins
    obtain ⟨notYet, now, -⟩ := processed.begun.resolve_left fun no => no.2 rfl
    exact .ok _ (.inl ⟨rfl, fun l => ⟨alike false, rfl, processed.unread, fun no => (nomatch no),
      .inr ⟨rfl, notYet, now, rfl, processed.ready, processed.ready'⟩⟩⟩)
  · obtain ⟨same, -⟩ := processed.begun.resolve_right fun no => begins no.2.2
    have goesOn : Leads began u (.again []) { s with eorStop := false, isClosed := false }
        { t with eorStop := false, isClosed := false } :=
      .inr ⟨rfl, fun l => ⟨⟨alike false, rfl, same, processed.unread, fun no => (nomatch no)⟩, rfl,
        processed.ready, processed.ready'⟩⟩
    cases status with
    | streamRecord =>
        show Results _ (if s.contentLen = 0 then _ else _) (if t.contentLen = 0 then _ else _)
        by_cases ends : s.contentLen = 0
        · rw [if_pos ends, if_pos (contentLen ▸ ends)]
          exact .ok _ (.inl ⟨rfl, fun l => ⟨alike true, rfl, processed.unread, fun no => (nomatch no),
            .inl ⟨same, .inl rfl⟩⟩⟩)
        · rw [if_neg ends, if_neg (contentLen ▸ ends)]
          exact .ok _ goesOn
    | skip =>
        exact .ok _ (.inr ⟨rfl, fun l => ⟨⟨skips, rfl, same, processed.unread,
          fun no => (nomatch no)⟩, rfl, processed.ready, processed.ready'⟩⟩)
    | beginRecord => exact absurd rfl begins
    | mgmtRecord => exact .ok _ goesOn
    | error code =>
        have failed : (setError { s with eorStop := false, isClosed := false } code).Alike
            (setError { t with eorStop := false, isClosed := false } code) :=
          ⟨congrArg (setError · code) (alike false).whole, ⟨fun _ => processed.ready,
            processed.alike.left.skips⟩, ⟨fun _ => processed.ready', processed.alike.right.skips⟩⟩
        exact .ok _ (.inl ⟨rfl, fun l => ⟨failed, rfl, processed.unread, fun no => (nomatch no),
          .inl ⟨same, .inl rfl⟩⟩⟩)

/-- The interpretation of a header ends the call, or another round follows. -/
theorem interpret_alike (interprets : Interprets process) (empty : Empty false began u l s t)
    (header : Bytes) :
    Results (Leads began u) (interpret process header s) (interpret process header t) := by
  have start : Empty true began u s.left { s with eorStop := true } { t with eorStop := true } :=
    { empty with
      left := fun _ => Nat.le_refl _
      alike := ⟨congrArg (fun s : Reader => { s with eorStop := true }) empty.alike.whole,
        ⟨empty.alike.left.closed, empty.alike.left.skips⟩,
        ⟨empty.alike.right.closed, empty.alike.right.skips⟩⟩
      eorStop := rfl }
  exact (interprets began u s.left (Header.ofBytes header) _ _ start).bind
    fun status s t processed => switch_alike processed

theorem sound_of_ready {s : Reader} (ready : s.ready = []) : s.Sound :=
  ⟨fun _ => ready, fun some_ => absurd ready some_⟩

/-- What is done behind a header that was interpreted. -/
def goOn (process : Header → Reading Status) (rounds : Nat) (flow : Flow) : Reading Unit := fun s =>
  match flow with
  | .again header => fillRounds process rounds header s
  | _ => .ok ((), s)

/-- Readers that are alike are filled alike if each is as everything that has arrived is. -/
theorem fillRounds_alike {k : Nat} (wholes : ∀ {s : Reader} {i : Nat}, Empty inner began u l s s →
      u < i → Results (fun _ => Filled inner began u l) (fillRounds process i [] s)
        (fillRounds process k [] s.whole))
    (empty : Empty inner began u l s t) {i j : Nat} (enough : u < i) (enough' : u < j) :
    Results (fun _ => Filled inner began u l) (fillRounds process i [] s)
      (fillRounds process j [] t) := by
  have first := wholes { empty with
    alike := empty.alike.trans empty.alike.symm
    ready' := empty.ready } enough
  have second := wholes { empty.toBoth.symm with
    alike := empty.alike.symm.trans empty.alike
    isClosed := empty.alike.isClosed.symm.trans empty.isClosed
    ready := empty.ready'
    ready' := empty.ready' } enough'
  rw [← empty.alike.whole] at second
  exact first.trans (second.symm fun _ _ _ => Filled.symm) fun _ _ _ _ => Filled.trans

/-- **The rounds that are made are those that would be made if everything had arrived.** -/
theorem fillRounds_whole (interprets : inner = false → Interprets process) {header : Bytes}
    (short : header.length < 8) {i j : Nat} (empty : Empty inner began u l s s) (enough : u < i)
    (enough' : u < j) :
    Results (fun _ => Filled inner began u l) (fillRounds process i header s)
      (fillRounds process j header s.whole) := by
  induction u using Nat.strongRecOn generalizing s header i j l with
  | ind u ih =>
      obtain ⟨i, rfl⟩ := Nat.exists_eq_succ_of_ne_zero (Nat.ne_of_gt (Nat.zero_lt_of_lt enough))
      obtain ⟨j, rfl⟩ := Nat.exists_eq_succ_of_ne_zero (Nat.ne_of_gt (Nat.zero_lt_of_lt enough'))
      have round := pass_round empty.ready empty.isClosed short
      obtain ⟨passes, progress⟩ := pass_passes empty.ready short
      rw [fillRounds, fillRounds]
      dsimp only
      generalize pass header s = r at round passes progress ⊢
      generalize whole_ : pass header s.whole = r' at round ⊢
      cases round with
      | ret alike there =>
          refine Results.ok () ?_
          exact ⟨alike, passes.eorStop.trans empty.eorStop,
            Nat.le_trans passes.unread empty.unread, fun nested => Nat.le_trans passes.left (empty.left nested),
            .inl ⟨passes.begun.trans empty.begun, there⟩⟩
      | @again header' s' _ ready rest short' ended goesOn =>
          have less : s'.unread < u :=
            Nat.lt_of_lt_of_le (progress fun no => by cases no) empty.unread
          have empty' : Empty inner began s'.unread l s' s' :=
            ⟨⟨⟨rfl, sound_of_ready ready, sound_of_ready ready⟩, passes.eorStop.trans empty.eorStop,
              passes.begun.trans empty.begun, Nat.le_refl _,
              fun nested => Nat.le_trans passes.left (empty.left nested)⟩,
              (passes.isClosed fun no => by cases no).trans empty.isClosed, ready, ready⟩
          have next {j : Nat} (enough : s'.unread < j) :=
            (ih s'.unread less short' empty' (i := i) (j := j) (by omega) enough).mono
              fun _ _ _ filled => filled.mono (Nat.le_of_lt less) (Nat.le_refl l)
          by_cases none_ : s'.later = []
          · rw [ended none_]
            exact next (by omega)
          · have some_ : s'.whole.rest ≠ [] := by
              rw [rest_whole ready, rest]
              exact none_
            have again_ : r' = pass header' s'.whole := by
              rw [goesOn none_, pass_of_ready (s := s'.whole) rfl, if_neg some_]
            rw [again_]
            exact next (j := j + 1) (by omega)
      | @interpret header' s' ready =>
          have less : s'.unread < u :=
            Nat.lt_of_lt_of_le (progress fun no => by cases no) empty.unread
          have outer : inner = false := empty.eorStop.symm.trans (passes.stops header' rfl)
          subst outer
          have start : Empty false began s'.unread l s' s'.whole :=
            ⟨⟨(sound_of_ready ready).alike_whole, passes.eorStop.trans empty.eorStop,
              passes.begun.trans empty.begun, Nat.le_refl _,
              fun nested => Nat.le_trans passes.left (empty.left nested)⟩,
              (passes.isClosed fun no => by cases no).trans empty.isClosed, ready, rfl⟩
          refine (interpret_alike (interprets rfl) start header').bind
            (f := goOn process i) (g := goOn process j) fun flow s₂ t₂ leads => ?_
          rcases leads with ⟨rfl, filled⟩ | ⟨rfl, goesOn⟩
          · exact .ok () ((filled l).mono (Nat.le_of_lt less) (Nat.le_refl l))
          · -- both are followed as if everything had arrived
            have empty₂ := goesOn l
            have run := fillRounds_alike (fun {s i} empty enough => ih s'.unread less
              (show ([] : Bytes).length < 8 by decide) (i := i) (j := u + 1) empty enough (by omega))
              empty₂ (i := i) (j := j) (by omega) (by omega)
            exact run.mono fun _ _ _ filled =>
              { filled with
                unread := Nat.le_trans filled.unread (Nat.le_of_lt less)
                left := fun no => by cases no }

/-- `FillBuffProc` does not see the portions. -/
theorem fillWith_alike (interprets : inner = false → Interprets process) :
    Respects (Empty inner began u l) (fun _ => Filled inner began u l) (fillWith process) := by
  intro s t empty
  have same := empty.alike.unread
  have run := fillRounds_alike (fun {s' i} empty enough => @fillRounds_whole _ _ _ s.unread _ s'
    interprets [] (by decide) i (s.unread + 1) empty enough (Nat.lt_succ_self _))
    { empty with unread := Nat.le_refl _ } (i := s.unread + 1) (j := t.unread + 1) (by omega)
    (by omega)
  exact run.mono fun _ _ _ filled => filled.mono empty.unread (Nat.le_refl l)

end Process

end Fill

end Reader

end Bagunceiro.Fcgi
