/-
# Fcgi.Unseen -- what is read does not depend on the portions (`fcgiapp.c`)

Readers that are alike give the same bytes, and headers are interpreted alike
(`interprets_processHeader`), which is what `FillBuffProc` needs to keep readers alike.
-/
import Bagunceiro.Fcgi.Portions

namespace Bagunceiro.Fcgi

open Indistinct Refill

set_option autoImplicit false

namespace Reader

section Reading

variable {process : Header → Reading Status} {inner began : Bool} {u l : Nat} {s t : Reader}

theorem whole_taken {b : UInt8} {bs : Bytes} (ready : s.ready = b :: bs) :
    (s.taken 1).whole =
      { s.whole with rest := s.whole.rest.tail, contentLen := s.whole.contentLen - 1 } := by
  simp only [whole, taken, left, later, ready, List.drop_succ_cons, List.drop_zero, List.cons_append,
    List.tail_cons, List.length_cons, Nat.add_succ_sub_one]

theorem alike_taken (alike : s.Alike t) {b c : UInt8} {bs cs : Bytes} (ready : s.ready = b :: bs)
    (ready' : t.ready = c :: cs) : b = c ∧ (s.taken 1).Alike (t.taken 1) := by
  have bytes := alike.bytes
  rw [ready, ready'] at bytes
  refine ⟨(List.cons.inj bytes).1, ?_, ⟨fun closed => ?_, fun _ => ?_⟩, ⟨fun closed => ?_, fun _ => ?_⟩⟩
  · rw [whole_taken ready, whole_taken ready', alike.whole]
  · exact absurd (alike.left.closed closed) (ready ▸ List.cons_ne_nil b bs)
  · exact alike.left.skips (ready ▸ List.cons_ne_nil b bs)
  · exact absurd (alike.right.closed closed) (ready' ▸ List.cons_ne_nil c cs)
  · exact alike.right.skips (ready' ▸ List.cons_ne_nil c cs)

/-- A byte is taken. -/
theorem Both.taken (both : Both inner began u l s t) {b c : UInt8} {bs cs : Bytes}
    (ready : s.ready = b :: bs) (ready' : t.ready = c :: cs) :
    b = c ∧ Both inner began u (l - 1) (s.taken 1) (t.taken 1) := by
  obtain ⟨same, alike⟩ := alike_taken both.alike ready ready'
  refine ⟨same, alike, both.eorStop, both.begun, Nat.le_trans ?_ both.unread, fun nested => ?_⟩
  · simp only [Reader.unread, Reader.taken, List.length_drop]
    omega
  · have left := both.left nested
    simp only [Reader.left, Reader.taken, ready, List.length_drop, List.length_cons] at left ⊢
    omega

/-- Content that is in sight is delivered. -/
theorem fillWith_deliver (both : Both inner began u l s t) (some_ : s.ready ≠ [])
    (ready : t.ready = []) :
    t.isClosed = false ∧ ∃ t', fillWith process t = .ok ((), t') ∧ Both inner began u l s t' ∧
      t'.ready ≠ [] ∧ t'.isClosed = false := by
  have alike := both.alike
  have open_ : t.isClosed = false := by
    refine Bool.eq_false_iff.2 fun closed => some_ (alike.left.closed ?_)
    exact alike.isClosed.trans closed
  have skip : t.skip = false := alike.skip.symm.trans (alike.left.skips some_)
  have content : 0 < t.contentLen := by
    have lefts := alike.lefts
    rw [left_of_ready ready, left] at lefts
    have := List.length_pos_iff.2 some_
    omega
  have arrives : t.rest ++ t.later ≠ [] := by
    have bytes := alike.bytes
    rw [ready, List.nil_append] at bytes
    rw [← bytes]
    exact List.append_ne_nil_of_left_ne_nil (List.append_ne_nil_of_left_ne_nil some_ _) _
  obtain ⟨t₁, here, same, ready₁, rest₁, closed₁, eorStop₁, begun₁⟩ := pass_arrived ready arrives
  have fields : t₁.skip = false ∧ 0 < t₁.contentLen := by
    refine ⟨(congrArg Reader.skip same).trans skip, ?_⟩
    rw [← left_of_ready ready₁, ← left_whole, same, left_whole, left_of_ready ready]
    exact content
  obtain ⟨delivered, there⟩ := alike_deliver ready₁ rest₁ fields.2 (closed₁.trans open_) fields.1
  refine ⟨open_, _, ?_, ?_, there, closed₁.trans open_⟩
  · rw [fillWith, fillRounds]
    dsimp only
    rw [here, passContent, if_pos fields.2]
    dsimp only
    rw [if_pos fields.1]
    rfl
  · have whole_ := delivered.whole
    rw [whole_whole, same] at whole_
    exact ⟨⟨alike.whole.trans whole_.symm, alike.left, delivered.left⟩, both.eorStop, both.begun,
      both.unread, both.left⟩

/-- Streams that are read alike: in one record, or when the request has begun. -/
theorem twins (interprets : inner = false → Interprets process)
    (live : inner = true ∨ began = true) : Twins (source (fillWith process)) (Both inner began u l) where
  symm := Both.symm
  ready both ready ready' := by
    obtain ⟨same, both'⟩ := both.taken ready ready'
    exact ⟨same, both'.mono (Nat.le_refl _) (Nat.sub_le _ _)⟩
  late := fillWith_deliver
  closed both := both.alike.isClosed
  fill := by
    intro s t both ready ready' open_
    refine (fillWith_alike interprets s t ⟨both, open_, ready, ready'⟩).mono fun _ s' t' filled => ?_
    obtain ⟨begun, there⟩ := filled.there.resolve_right fun no => by
      obtain ⟨outer, notYet, -⟩ := no
      rcases live with nested | begun
      · rw [outer] at nested
        cases nested
      · rw [notYet] at begun
        cases begun
    exact ⟨⟨filled.alike, filled.eorStop, begun, filled.unread, filled.left⟩, there⟩

/-! ## Bytes and strings -/

theorem getChar_closed (fill : Reading Unit) (closed : s.isClosed = true) :
    getChar fill s = .ok (none, s) := by
  rw [getChar, if_pos closed]

theorem getChar_ready (fill : Reading Unit) (open_ : s.isClosed = false) (some_ : s.ready ≠ []) :
    getChar fill s = .ok s.nextChar := by
  rw [getChar, if_neg (Bool.eq_false_iff.1 open_), if_pos some_]

/-- The stream is filled, and then it is there or the end. -/
theorem getChar_empty {fill : Reading Unit} (open_ : s.isClosed = false) (ready : s.ready = []) :
    getChar fill s = fill s >>= fun filled =>
      if filled.2.isClosed then .ok (none, filled.2) else .ok filled.2.nextChar := by
  rw [getChar, if_neg (Bool.eq_false_iff.1 open_), if_neg (not_not_intro ready)]

/-- A byte has been read, or the stream has closed. -/
def ReadByte (inner began : Bool) (u l : Nat) (c : Option UInt8) (s t : Reader) : Prop :=
  Both inner began u (l - c.toList.length) s t ∧ (c = none → s.isClosed = true)

theorem ReadByte.symm {c : Option UInt8} (read : ReadByte inner began u l c s t) :
    ReadByte inner began u l c t s :=
  ⟨read.1.symm, fun none_ => read.1.alike.isClosed.symm.trans (read.2 none_)⟩

section Live

variable (interprets : inner = false → Interprets process) (live : inner = true ∨ began = true)

theorem nextChar_alike (both : Both inner began u l s t) (some_ : s.ready ≠ [])
    (some' : t.ready ≠ []) :
    Results (ReadByte inner began u l) (.ok s.nextChar : Except Fault _) (.ok t.nextChar) := by
  obtain ⟨b, bs, ready⟩ := List.exists_cons_of_ne_nil some_
  obtain ⟨c, cs, ready'⟩ := List.exists_cons_of_ne_nil some'
  obtain ⟨rfl, both'⟩ := both.taken ready ready'
  rw [nextChar, nextChar, ready, ready']
  exact .ok (some b) ⟨both', fun no => nomatch no⟩

theorem getChar_of_late (both : Both inner began u l s t) (open_ : s.isClosed = false)
    (some_ : s.ready ≠ []) (ready : t.ready = []) :
    Results (ReadByte inner began u l) (getChar (fillWith process) s)
      (getChar (fillWith process) t) := by
  obtain ⟨open', t', filled, both', there, open''⟩ :=
    @fillWith_deliver process _ _ _ _ _ _ both some_ ready
  rw [getChar_ready _ open_ some_, getChar_empty open' ready, filled]
  show Results _ _ (if t'.isClosed = true then _ else _)
  rw [if_neg (Bool.eq_false_iff.1 open'')]
  exact nextChar_alike both' some_ there

include interprets live

/-- `FCGX_GetChar` does not see the portions. -/
theorem getChar_alike :
    Respects (Both inner began u l) (ReadByte inner began u l) (getChar (fillWith process)) := by
  intro s t both
  have isClosed := both.alike.isClosed
  cases closed : s.isClosed with
  | true =>
      rw [getChar_closed _ closed, getChar_closed _ (isClosed.symm.trans closed)]
      exact .ok none ⟨both, fun _ => closed⟩
  | false =>
      have closed' := isClosed.symm.trans closed
      by_cases ready : s.ready = []
      · by_cases ready' : t.ready = []
        · rw [getChar_empty closed ready, getChar_empty closed' ready']
          refine ((twins (u := u) (l := l) interprets live).fill both ready ready' closed).bind
            (f := fun _ s => if s.isClosed then .ok (none, s) else .ok s.nextChar)
            (g := fun _ s => if s.isClosed then .ok (none, s) else .ok s.nextChar)
            fun _ s' t' filled => ?_
          obtain ⟨both', there⟩ := filled
          have isClosed' := both'.alike.isClosed
          by_cases ended : s'.isClosed = true
          · rw [if_pos ended, if_pos (isClosed'.symm.trans ended)]
            exact .ok none ⟨both', fun _ => ended⟩
          · obtain ⟨some_, some'⟩ := there.resolve_left ended
            rw [if_neg ended, if_neg (isClosed' ▸ ended)]
            exact nextChar_alike both' some_ some'
        · exact (getChar_of_late both.symm closed' ready' ready).symm fun _ _ _ => ReadByte.symm
      · by_cases ready' : t.ready = []
        · exact getChar_of_late both closed ready ready'
        · rw [getChar_ready _ closed ready, getChar_ready _ closed' ready']
          exact nextChar_alike both ready ready'

/-- So many bytes have been read, or the stream has closed. -/
def ReadBytes (inner began : Bool) (u l n : Nat) (got : Bytes) (s t : Reader) : Prop :=
  Both inner began u (l - got.length) s t ∧ (got.length = n ∨ s.isClosed = true)

omit interprets live in
theorem getStr_eq_collect (fill : Reading Unit) (open_ : s.isClosed = false) (n : Nat) :
    getStr fill n s = (source fill).collect (n + 1) n s := by
  rw [getStr]
  by_cases none_ : n = 0
  · subst none_
    rw [if_pos (.inr rfl), Source.collect_zero]
  · have goesOn : ¬ (s.isClosed = true ∨ n = 0) := by
      rw [open_]
      exact fun no => no.elim (fun no => nomatch no) none_
    rw [if_neg goesOn]
    split
    · rename_i fits
      exact ((source fill).collect_fits fits n).symm
    · rfl

omit interprets live in
theorem taken_left {s : Reader} {b : UInt8} {bs : Bytes} (good : Both true began u s.left s s)
    (ready : s.ready = b :: bs) :
    Both true began u (s.taken 1).left (s.taken 1) (s.taken 1) ∧ (s.taken 1).left + 1 ≤ s.left := by
  obtain ⟨-, both⟩ := good.taken ready ready
  refine ⟨{ both with left := fun _ => Nat.le_refl _ }, ?_⟩
  simp only [Reader.left, Reader.taken, ready, List.length_drop, List.length_cons]
  omega

omit interprets live in
theorem filled_left {s s' : Reader} (good : Both true began u s.left s s) (ready : s.ready = [])
    (open_ : s.isClosed = false) (ran : fillWith process s = .ok ((), s')) :
    Both true began u s'.left s' s' ∧ s'.left ≤ s.left := by
  have empty : Empty true began u s.left s s := ⟨good, open_, ready, ready⟩
  have run := @fillWith_alike process _ _ _ _ (fun no : true = false => nomatch no) s s empty
  rw [ran] at run
  cases run with
  | ok _ filled =>
      obtain ⟨begun, -⟩ := filled.there.resolve_right fun no => nomatch no.1
      exact ⟨⟨filled.alike, filled.eorStop, begun, filled.unread, fun _ => Nat.le_refl _⟩,
        filled.left rfl⟩

/-- `FCGX_GetStr` does not see the portions. -/
theorem getStr_alike (n : Nat) :
    Respects (Both inner began u l) (ReadBytes inner began u l n) (getStr (fillWith process) n) := by
  intro s t both
  have isClosed := both.alike.isClosed
  cases closed : s.isClosed with
  | true =>
      rw [getStr, getStr, if_pos (.inl closed), if_pos (.inl (isClosed.symm.trans closed))]
      exact .ok [] ⟨both, .inr closed⟩
  | false =>
      rw [getStr_eq_collect _ closed, getStr_eq_collect _ (isClosed.symm.trans closed)]
      have run := (twins (u := u) (l := l) interprets live).collect both
        (.inl (Nat.lt_succ_self n)) (.inl (Nat.lt_succ_self n))
      have less : ∀ got s', (source (fillWith process)).collect (n + 1) n s = .ok (got, s') →
          inner = true → s'.left + got.length ≤ s.left := by
        intro got s' ran nested
        subst nested
        exact (collect_le taken_left filled_left
          { both.alone with left := fun _ => Nat.le_refl _ } ran).2
      refine (run.and less).mono fun got s' t' collected => ?_
      obtain ⟨⟨both', enough⟩, less⟩ := collected
      refine ⟨{ both' with left := fun nested => ?_ }, enough⟩
      have := less nested
      have := both.left nested
      omega

/-- Something has been read, or the stream has closed. -/
def ReadSome {α : Type} (inner began : Bool) (u l : Nat) (a : Option α) (s t : Reader) : Prop :=
  Both inner began u l s t ∧ (a = none → s.isClosed = true)

theorem readLength_alike (b : UInt8) :
    Respects (Both inner began u l) (ReadSome inner began u l) (readLength (fillWith process) b) := by
  rw [readLength]
  split
  · refine (getStr_alike interprets live 3).bind fun got => ?_
    have less : ∀ s t, ReadBytes inner began u l 3 got s t → Both inner began u l s t :=
      fun s t read => read.1.mono (Nat.le_refl u) (Nat.sub_le _ _)
    split
    · rename_i short
      exact Respects.pure_ none fun s t read => ⟨less s t read, fun _ => read.2.resolve_left short⟩
    · exact Respects.pure_ _ fun s t read => ⟨less s t read, fun no => nomatch no⟩
  · exact Respects.pure_ _ fun s t both => ⟨both, fun no => nomatch no⟩

omit interprets live in
theorem paramsFailed_alike (vec : List Bytes) :
    Respects (fun s t => Both inner began u l s t ∧ s.isClosed = true)
      (fun _ s t => Both inner began u l s t ∧ s.isClosed = true) (paramsFailed vec) := by
  intro s t both
  obtain ⟨both, closed⟩ := both
  have closed' := both.alike.isClosed.symm.trans closed
  have alike : (s.setError paramsError).Alike (t.setError paramsError) :=
    ⟨congrArg (setError · paramsError) both.alike.whole,
      sound_of_ready (s := s.setError paramsError) (both.alike.left.closed closed),
      sound_of_ready (s := t.setError paramsError) (both.alike.right.closed closed')⟩
  exact .ok _ ⟨⟨alike, both.eorStop, both.begun, both.unread, both.left⟩, rfl⟩

theorem readPairs_alike (rounds : Nat) (vec : List Bytes) :
    Respects (Both inner began u l) (fun _ s t => Both inner began u l s t ∧ s.isClosed = true)
      (readPairs (fillWith process) rounds vec) := by
  induction rounds generalizing vec with
  | zero => exact Respects.throw_ Fault.endless
  | succ rounds ih =>
      have failed {α : Type} :=
        (@paramsFailed_alike inner began u l vec).of
          fun s t (read : ReadSome inner began u l (none : Option α) s t) => ⟨read.1, read.2 rfl⟩
      have byte := (getChar_alike (u := u) (l := l) interprets live).mono fun c s t read =>
        (⟨read.1.mono (Nat.le_refl u) (Nat.sub_le _ _), read.2⟩ : ReadSome inner began u l c s t)
      have length (b : UInt8) := readLength_alike (u := u) (l := l) interprets live b
      have string (n : Nat) := (getStr_alike (u := u) (l := l) interprets live n).mono
        fun got s t read => (⟨read.1.mono (Nat.le_refl u) (Nat.sub_le _ _), read.2⟩ :
          Both inner began u l s t ∧ (got.length = n ∨ s.isClosed = true))
      rw [readPairs]
      refine byte.bind fun b => ?_
      cases b with
      | none => exact Respects.pure_ _ fun s t read => ⟨read.1, read.2 rfl⟩
      | some b =>
      refine ((length b).of fun s t read => read.1).bind fun nameLen => ?_
      cases nameLen with
      | none => exact failed
      | some nameLen =>
      refine (byte.of fun s t read => read.1).bind fun c => ?_
      cases c with
      | none => exact failed
      | some c =>
      refine ((length c).of fun s t read => read.1).bind fun valueLen => ?_
      cases valueLen with
      | none => exact failed
      | some valueLen =>
      dsimp only
      split
      · exact Respects.throw_ Fault.overflow
      · refine ((string nameLen).of fun s t read => read.1).bind fun name => ?_
        split
        · rename_i short
          exact (paramsFailed_alike vec).of fun s t read => ⟨read.1, read.2.resolve_left short⟩
        · refine ((string valueLen).of fun s t read => read.1).bind fun value => ?_
          split
          · rename_i short
            exact (paramsFailed_alike vec).of fun s t read => ⟨read.1, read.2.resolve_left short⟩
          · exact (ih _).of fun s t read => read.1

/-- `ReadParams` does not see the portions, and ends with the stream. -/
theorem readParams_alike (vec : List Bytes) :
    Respects (Both inner began u l) (fun _ s t => Both inner began u l s t ∧ s.isClosed = true)
      (readParams (fillWith process) vec) := by
  intro s t both
  rw [readParams, readParams, both.alike.unread]
  exact readPairs_alike interprets live _ vec s t both

end Live

end Reading

/-! ## Headers -/

section Headers

variable {fcgi : Fastcgi} {began : Bool} {u l : Nat} {s t : Reader}

/-- Writing does not touch what is to be read. -/
theorem writeItAll_input (buf : Bytes) (ipc : Ipc) (input : List Bytes) :
    writeItAll buf { ipc with input := input } =
      ((writeItAll buf ipc).1, { (writeItAll buf ipc).2 with input := input }) := by
  obtain ⟨_, _, _, _, room⟩ := ipc
  cases room <;> rfl

/-- Nothing is ready, in a record that is read. -/
structure Calm (began : Bool) (u : Nat) (s t : Reader) : Prop where
  alike : s.Alike t
  ready : s.ready = []
  ready' : t.ready = []
  begun : s.req.isBeginProcessed = began
  unread : s.unread ≤ u

theorem Calm.contentLen (calm : Calm began u s t) : s.contentLen = t.contentLen := by
  rw [← left_of_ready calm.ready, ← left_of_ready calm.ready', calm.alike.lefts]

theorem Calm.processed (calm : Calm began u s t) {status : Status} (other : status ≠ .beginRecord) :
    Processed began u status s t :=
  ⟨calm.alike, calm.unread, calm.ready, calm.ready', .inl ⟨calm.begun, other⟩⟩

theorem input_writeItAll (buf : Bytes) (ipc : Ipc) : (writeItAll buf ipc).2.input = ipc.input := by
  obtain ⟨_, _, _, _, room⟩ := ipc
  cases room <;> rfl

theorem withIpc_whole (s : Reader) (buf : Bytes) :
    (s.withIpc (writeItAll buf s.req.ipc).2).whole =
      s.whole.withIpc (writeItAll buf s.whole.req.ipc).2 := by
  have written := writeItAll_input buf s.req.ipc []
  have same : writeItAll buf s.whole.req.ipc = _ := written
  rw [same]
  simp only [whole, withIpc, left, later, input_writeItAll]

/-- An answer that is sent. -/
theorem Calm.wrote (calm : Calm began u s t) (buf : Bytes) :
    (writeItAll buf s.req.ipc).1 = (writeItAll buf t.req.ipc).1 ∧
      Calm began u (s.withIpc (writeItAll buf s.req.ipc).2) (t.withIpc (writeItAll buf t.req.ipc).2) := by
  have code (s : Reader) : (writeItAll buf s.req.ipc).1 = (writeItAll buf s.whole.req.ipc).1 :=
    (congrArg Prod.fst (writeItAll_input buf s.req.ipc [])).symm
  refine ⟨by rw [code s, code t, calm.alike.whole], ⟨?_, sound_of_ready calm.ready,
    sound_of_ready calm.ready'⟩, calm.ready, calm.ready', calm.begun, ?_⟩
  · rw [withIpc_whole, withIpc_whole, calm.alike.whole]
  · have unread := calm.unread
    simp only [Reader.unread, withIpc, input_writeItAll] at unread ⊢
    exact unread

theorem Calm.setError (calm : Calm began u s t) (errno : Int) :
    Calm began u (s.setError errno) (t.setError errno) :=
  ⟨⟨congrArg (Reader.setError · errno) calm.alike.whole, sound_of_ready calm.ready,
    sound_of_ready calm.ready'⟩, calm.ready, calm.ready', calm.begun, calm.unread⟩

theorem answer_alike (record : Bytes) {status : Status} (other : status ≠ .beginRecord) :
    Respects (Calm began u) (Processed began u) (answer record status) := by
  intro s t calm
  obtain ⟨code, calm'⟩ := calm.wrote record
  rw [answer, answer]
  by_cases failed : (writeItAll record s.req.ipc).1 < 0
  · rw [if_pos failed, if_pos (code ▸ failed)]
    have errno : (s.withIpc (writeItAll record s.req.ipc).2).req.ipc.errno =
        (t.withIpc (writeItAll record t.req.ipc).2).req.ipc.errno :=
      (congrArg (fun req : Request => req.ipc.errno) calm'.alike.req :)
    rw [← errno]
    exact .ok _ ((calm'.setError _).processed fun no => nomatch no)
  · rw [if_neg failed, if_neg (code ▸ failed)]
    exact .ok _ (calm'.processed other)

/-- `ProcessManagementRecord` does not see the portions. -/
theorem processManagementRecord_alike (type : UInt8) :
    Respects (Empty true began u l) (Processed began u) (processManagementRecord fcgi type) := by
  have calm {s t : Reader} (both : Both true began u l s t) (ready : s.ready = [])
      (ready' : t.ready = []) : Calm began u s t :=
    ⟨both.alike, ready, ready', both.begun, both.unread⟩
  rw [processManagementRecord]
  split
  · refine ((readParams_alike (u := u) (l := l) (fun no : true = false => nomatch no) (.inl rfl)
      []).of fun s t empty => empty.toBoth).bind fun read => ?_
    refine Respects.get_bind fun s t ended => ?_
    obtain ⟨both, closed⟩ := ended
    have calm := calm both (both.alike.left.closed closed)
      (both.alike.right.closed (both.alike.isClosed.symm.trans closed))
    have errno := both.alike.errno
    have contentLen := calm.contentLen
    by_cases broken : s.errno ≠ 0 ∨ s.contentLen ≠ 0
    · rw [if_pos broken, if_pos (errno ▸ contentLen ▸ broken)]
      exact .ok _ (calm.processed fun no => nomatch no)
    · rw [if_neg broken, if_neg (errno ▸ contentLen ▸ broken)]
      have response : s.req.response = t.req.response :=
        (congrArg Request.response both.alike.req :)
      rw [← response]
      refine (Respects.lift_ (R := Calm began u) (valuePairs fcgi read.2 [])).bind (fun pairs => ?_)
        s t calm
      exact answer_alike _ fun no => nomatch no
  · have answered := @answer_alike began u (unknownTypeRecord fcgi type)
      .mgmtRecord (fun no => nomatch no)
    exact answered.of fun s t (empty : Empty true began u l s t) =>
      calm empty.toBoth empty.ready empty.ready'

/-- A change of the request that has nothing to do with what is read. -/
theorem Alike.withReq (alike : s.Alike t) (v : Request → Request)
    (ipc : ∀ req, (v req).ipc = req.ipc)
    (moves : ∀ req ipc, v { req with ipc := ipc } = { v req with ipc := ipc }) :
    ({ s with req := v s.req } : Reader).Alike { t with req := v t.req } := by
  have moved (s : Reader) : ({ s with req := v s.req } : Reader).whole =
      { s.whole with req := v s.whole.req } := by
    have req : v s.whole.req = { v s.req with ipc := { (v s.req).ipc with input := [] } } := by
      rw [ipc]
      exact moves s.req _
    rw [req]
    simp only [Reader.whole, Reader.left, later, ipc]
  refine ⟨?_, ⟨alike.left.closed, alike.left.skips⟩, ⟨alike.right.closed, alike.right.skips⟩⟩
  rw [moved, moved, alike.whole]

/-- The body of the record has been read as a whole, if at all. -/
theorem beginRequest_alike (notYet : began = false) (body : Bytes) :
    Respects (ReadBytes true began u 8 8 body) (Processed began u) (beginRequest fcgi body) := by
  intro s t read
  obtain ⟨both, enough⟩ := read
  rw [beginRequest]
  by_cases short : body.length ≠ 8
  · have closed := enough.resolve_left short
    rw [if_pos short]
    exact .ok _ (Calm.processed ⟨both.alike, both.alike.left.closed closed,
      both.alike.right.closed (both.alike.isClosed.symm.trans closed), both.begun, both.unread⟩
      fun no => nomatch no)
  · have none_ : s.left = 0 := by
      have left := both.left rfl
      rw [not_not.1 short] at left
      omega
    have ready {s : Reader} (none_ : s.left = 0) : s.ready = [] :=
      List.length_eq_zero_iff.1 (Nat.eq_zero_of_add_eq_zero none_).2
    rw [if_neg short]
    refine .ok _ ⟨both.alike.withReq (begun fcgi body) (fun _ => rfl) (fun _ _ => rfl), both.unread,
      ready none_, ready (both.alike.lefts ▸ none_), .inr ⟨notYet, rfl, rfl⟩⟩

/-- `ProcessBeginRecord` does not see the portions. -/
theorem processBeginRecord_alike (requestId : Nat) :
    Respects (Empty true began u l) (Processed began u) (processBeginRecord fcgi requestId) := by
  rw [processBeginRecord]
  refine Respects.get_bind fun s t empty => ?_
  have calm : Calm began u s t :=
    ⟨empty.alike, empty.ready, empty.ready', empty.begun, empty.unread⟩
  have contentLen := calm.contentLen
  have begun := empty.alike.begun
  by_cases wrong : requestId = 0 ∨ s.contentLen ≠ 8
  · have wrong' : requestId = 0 ∨ t.contentLen ≠ 8 := contentLen ▸ wrong
    rw [if_pos wrong, if_pos wrong']
    exact .ok _ (calm.processed fun no => nomatch no)
  · have wrong' : ¬ (requestId = 0 ∨ t.contentLen ≠ 8) := contentLen ▸ wrong
    rw [if_neg wrong, if_neg wrong']
    by_cases already : s.req.isBeginProcessed = true
    · have already' : t.req.isBeginProcessed = true := begun ▸ already
      have answered := @answer_alike began u
        (endRequestRecord fcgi requestId 0 fcgi.cantMpxConn) .skip (fun no => nomatch no)
      rw [if_pos already, if_pos already']
      exact answered s t calm
    · have already' : ¬ t.req.isBeginProcessed = true := begun ▸ already
      rw [if_neg already, if_neg already']
      have notYet : began = false := empty.begun ▸ Bool.eq_false_iff.2 already
      have eight : s.left = 8 := by
        rw [left_of_ready empty.ready]
        exact not_not.1 (not_or.1 wrong).2
      have started : Both true began u 8 { s with req := { s.req with requestId := requestId } }
          { t with req := { t.req with requestId := requestId } } :=
        ⟨empty.alike.withReq (fun req => { req with requestId := requestId }) (fun _ => rfl)
          (fun _ _ => rfl), empty.eorStop, empty.begun, empty.unread, fun _ => Nat.le_of_eq eight⟩
      have body : Respects (Both true began u 8) (ReadBytes true began u 8 8) (getStr fillRecord 8) :=
        getStr_alike (fun no : true = false => nomatch no) (.inl rfl) 8
      exact body.bind (beginRequest_alike notYet) _ _ started

/-- **Headers are interpreted without regard to the portions.** -/
theorem interprets_processHeader (fcgi : Fastcgi) : Interprets (processHeader fcgi) := by
  intro began u l header
  rw [processHeader]
  split
  · exact Respects.pure_ _ fun s t empty => Calm.processed
      ⟨empty.alike, empty.ready, empty.ready', empty.begun, empty.unread⟩ fun no => by cases no
  · have counted : ∀ s t, Empty true began u l s t →
        Empty true began u header.contentLength
          { s with contentLen := header.contentLength, paddingLen := header.paddingLength.toNat }
          { t with contentLen := header.contentLength, paddingLen := header.paddingLength.toNat } := by
      intro s t empty
      have counted (s : Reader) (ready : s.ready = []) :
          ({ s with
            contentLen := header.contentLength
            paddingLen := header.paddingLength.toNat } : Reader).whole =
          { s.whole with
            contentLen := header.contentLength
            paddingLen := header.paddingLength.toNat } :=
        whole_contentLen (s := { s with paddingLen := header.paddingLength.toNat }) ready _
      refine ⟨⟨⟨?_, sound_of_ready empty.ready, sound_of_ready empty.ready'⟩, empty.eorStop,
        empty.begun, empty.unread, fun _ => ?_⟩, empty.isClosed, empty.ready, empty.ready'⟩
      · rw [counted s empty.ready, counted t empty.ready', empty.alike.whole]
      · exact Nat.le_of_eq (left_of_ready (s := { s with
          contentLen := header.contentLength
          paddingLen := header.paddingLength.toNat }) empty.ready)
    refine Respects.modify_bind counted ?_
    split
    · exact processBeginRecord_alike _
    · split
      · exact processManagementRecord_alike _
      · refine Respects.get_bind fun s t empty => ?_
        have calm : Calm began u s t :=
          ⟨empty.alike, empty.ready, empty.ready', empty.begun, empty.unread⟩
        have requestId : s.req.requestId = t.req.requestId :=
          (congrArg Request.requestId empty.alike.req :)
        rw [← requestId, ← empty.alike.type]
        by_cases other : header.requestId ≠ s.req.requestId
        · rw [if_pos other]
          exact .ok _ (calm.processed fun no => by cases no)
        · rw [if_neg other]
          by_cases wrong : header.type ≠ s.type
          · rw [if_pos wrong]
            exact .ok _ (calm.processed fun no => by cases no)
          · rw [if_neg wrong]
            exact .ok _ (calm.processed fun no => by cases no)

end Headers

end Reader

end Bagunceiro.Fcgi
