/-
# Sessions -- logins, checks and the purge

Every login rewrites the session database: the records that have run out are
filtered away and the new one goes behind the rest.  `SessionsKept` relates the
database to the logins so far: what is there was issued, no id is there twice,
and an issued session that is missing has run out for good.

`validateSessionId_iff_issued` follows: a session id is valid for exactly the
session's time, however often others log in meanwhile.
-/
import Bagunceiro.Lib.Runs
import Bagunceiro.Conf

namespace Bagunceiro

open Effect

set_option autoImplicit false

/-! ## Events -/

/-- A successful login, with what it finds in memory, on the clock and in the
random numbers, or a check of the cookie's first bytes. -/
inductive SessionEvent
  | login (memory : Nat → Slot) (clk : Nat → Taia) (now : Taia) (rand : Nat → Nat)
  | check (now : Taia) (buf : Bytes)

namespace SessionEvent

/-- The clock readings of an event. -/
def Reads (t : Taia) : SessionEvent → Prop
  | .login _ clk now _ => t = now ∨ ∃ i, t = clk i
  | .check now _ => t = now

/-- The event issues a session id at a time. -/
def Issues (id : Bytes) (t : Taia) : SessionEvent → Prop
  | .login _ _ now rand => id = sessionId rand ∧ t = now
  | .check _ _ => False

def serve : SessionEvent → M Unit
  | .login memory clk now rand => do
      let _ ← addSessionId memory clk now rand (zeros (sizeSessionId + 1))
  | .check now buf => do
      let _ ← validateSessionId now buf

end SessionEvent

/-- The clock never goes back, it shows TAI64 labels in use (those from `2^63` on
are not), and no two logins issue one id. -/
structure Orderly (events : List SessionEvent) : Prop where
  forward : events.Pairwise fun e e' => ∀ t t', e.Reads t → e'.Reads t' → t.value ≤ t'.value
  labels : ∀ e ∈ events, ∀ t, e.Reads t → t.sec.toNat < 2 ^ 63
  distinct : events.Pairwise fun e e' => ∀ id t t', e.Issues id t → ¬ e'.Issues id t'

theorem Orderly.of_append {past later : List SessionEvent} (orderly : Orderly (past ++ later)) :
    Orderly past where
  forward := (List.pairwise_append.1 orderly.forward).1
  labels := fun e member => orderly.labels e (List.mem_append_left _ member)
  distinct := (List.pairwise_append.1 orderly.distinct).1

theorem Orderly.before {past : List SessionEvent} {e : SessionEvent}
    (orderly : Orderly (past ++ [e])) {e' : SessionEvent} (member : e' ∈ past) {t t' : Taia}
    (reads : e'.Reads t) (reads' : e.Reads t') : t.value ≤ t'.value :=
  (List.pairwise_append.1 orderly.forward).2.2 e' member e (List.mem_singleton.2 rfl) t t' reads
    reads'

theorem Orderly.fresh {past : List SessionEvent} {e : SessionEvent}
    (orderly : Orderly (past ++ [e])) {e' : SessionEvent} (member : e' ∈ past) {id : Bytes}
    {t t' : Taia} (issues : e'.Issues id t) : ¬ e.Issues id t' :=
  (List.pairwise_append.1 orderly.distinct).2.2 e' member e (List.mem_singleton.2 rfl) id t t' issues

/-! ## One session record -/

/-- The record of a session. -/
def sessionRecord (id : Bytes) (issued : Taia) : Record :=
  ⟨id, taiaPack (taiaAddsec issued sessionVtime)⟩

/-- A session runs out `SESSION_VTIME` seconds after it was issued. -/
theorem isExpired_sessionRecord {issued : Taia} (label : issued.sec.toNat < 2 ^ 63) (now : Taia)
    (id : Bytes) :
    isExpired now (sessionRecord id issued).value = false ↔
      now.value < issued.value + sessionVtime.toNat * second := by
  have small : issued.sec.toNat + sessionVtime.toNat < 2 ^ 64 := by
    have : sessionVtime.toNat = 43200 := rfl
    omega
  rw [← value_taiaAddsec issued sessionVtime small, ← taiaLess_iff]
  simp [isExpired, sessionRecord]

/-- What has run out stays so. -/
theorem isExpired_mono {t t' : Taia} (later : t.value ≤ t'.value) {v : Bytes}
    (expired : isExpired t v = true) : isExpired t' v = true := by
  have still : ¬ taiaLess t (taiaUnpack v) = true := by simpa [isExpired] using expired
  have : ¬ taiaLess t' (taiaUnpack v) = true := by
    rw [taiaLess_iff] at still ⊢
    omega
  simpa [isExpired] using this

/-! ## The invariant -/

structure SessionsKept (events : List SessionEvent) (recs : List Record) : Prop where
  distinct : (recs.map (·.key)).Nodup
  issued : ∀ r ∈ recs, ∃ e ∈ events, ∃ id t, e.Issues id t ∧ r = sessionRecord id t
  missing : ∀ e ∈ events, ∀ id t, e.Issues id t → sessionRecord id t ∈ recs ∨
    ∃ e' ∈ events, ∃ t', e'.Reads t' ∧ isExpired t' (sessionRecord id t).value = true

theorem SessionsKept.nil : SessionsKept [] [] := by
  constructor <;> simp

/-- A check leaves the database, and issues nothing. -/
theorem SessionsKept.check {past : List SessionEvent} {recs : List Record}
    (kept : SessionsKept past recs) (now : Taia) (buf : Bytes) :
    SessionsKept (past ++ [.check now buf]) recs := by
  constructor
  · exact kept.distinct
  · intro r member
    obtain ⟨e, inside, rest⟩ := kept.issued r member
    exact ⟨e, List.mem_append_left _ inside, rest⟩
  · intro e member id t issues
    rcases List.mem_append.1 member with earlier | last
    · rcases kept.missing e earlier id t issues with there | ⟨e', inside, rest⟩
      · exact .inl there
      · exact .inr ⟨e', List.mem_append_left _ inside, rest⟩
    · rw [List.mem_singleton.1 last] at issues
      cases issues

/-- The batch of a login. -/
def loginChanges (id : Bytes) (now : Taia) : List Change :=
  [.add id (taiaPack (taiaAddsec now sessionVtime))]

theorem batchResult_login (clk : Nat → Taia) (id : Bytes) (now : Taia) (recs : List Record) :
    batchResult [filterExpired] clk (loginChanges id now) recs =
      batchKept [filterExpired] clk (loginChanges id now) recs ++ [sessionRecord id now] := rfl

/-- A login drops only what has run out. -/
theorem batchKeeps_login (id : Bytes) (now t : Taia) (r : Record) :
    batchKeeps [filterExpired] (loginChanges id now) t r = !isExpired t r.value := by
  simp [batchKeeps, loginChanges, Change.drops, cdbbCheckFilter, filterExpired]

theorem SessionsKept.login {past : List SessionEvent} {recs : List Record}
    (kept : SessionsKept past recs) {memory : Nat → Slot} {clk : Nat → Taia} {now : Taia}
    {rand : Nat → Nat} (orderly : Orderly (past ++ [.login memory clk now rand])) :
    SessionsKept (past ++ [.login memory clk now rand])
      (batchResult [filterExpired] clk (loginChanges (sessionId rand) now) recs) := by
  have stay := batchKept_sublist [filterExpired] clk (loginChanges (sessionId rand) now) recs
  have issues : (SessionEvent.login memory clk now rand).Issues (sessionId rand) now := ⟨rfl, rfl⟩
  rw [batchResult_login]
  constructor
  · rw [List.map_append, List.nodup_append]
    refine ⟨(stay.map _).nodup kept.distinct, by simp, ?_⟩
    intro k member k' last same
    obtain ⟨r, inside, rfl⟩ := List.mem_map.1 member
    obtain ⟨e, earlier, id, t, before, rfl⟩ := kept.issued r (stay.subset inside)
    have own : k' = sessionId rand := by simpa [sessionRecord] using last
    have clash : id = sessionId rand := by rw [← own, ← same]; rfl
    exact orderly.fresh earlier before (clash ▸ issues)
  · intro r member
    rcases List.mem_append.1 member with old | new
    · obtain ⟨e, inside, rest⟩ := kept.issued r (stay.subset old)
      exact ⟨e, List.mem_append_left _ inside, rest⟩
    · exact ⟨_, List.mem_append_right _ (List.mem_singleton.2 rfl), _, _, issues,
        List.mem_singleton.1 new⟩
  · intro e member id t before
    rcases List.mem_append.1 member with earlier | last
    · rcases kept.missing e earlier id t before with there | ⟨e', inside, rest⟩
      · have stays : sessionRecord id t ∈
            batchKept [filterExpired] clk (loginChanges (sessionId rand) now) recs ∨
              ∃ i, batchKeeps [filterExpired] (loginChanges (sessionId rand) now) (clk i)
                (sessionRecord id t) = false := mem_batchKept_or there
        rcases stays with still | ⟨i, gone⟩
        · exact .inl (List.mem_append_left _ still)
        · rw [batchKeeps_login, Bool.not_eq_false'] at gone
          exact .inr ⟨_, List.mem_append_right _ (List.mem_singleton.2 rfl), clk i, .inr ⟨i, rfl⟩,
            gone⟩
      · exact .inr ⟨e', List.mem_append_left _ inside, rest⟩
    · rw [List.mem_singleton.1 last] at before
      obtain ⟨rfl, rfl⟩ := before
      exact .inl (List.mem_append_right _ (List.mem_singleton.2 rfl))

/-! ## Runs -/

theorem posed_loginChanges (id : Bytes) (some_ : id ≠ []) (now : Taia) (old : List Record) :
    Posed (loginChanges id now) old := by
  constructor
  · intro c member
    rw [List.mem_singleton.1 member]
    exact some_
  · simp [loginChanges]
  · intro k v member
    cases List.mem_singleton.1 member
  · intro k v member
    cases List.mem_singleton.1 member

theorem room_loginChanges (id : Bytes) (now : Taia) : Room (loginChanges id now) [filterExpired] := by
  simp [Room, loginChanges, numOp]

theorem sessionId_ne_nil (rand : Nat → Nat) : sessionId rand ≠ [] := by
  intro empty
  have := congrArg List.length empty
  rw [sessionId_length] at this
  exact absurd this (by decide)

/-- `add_session_id` on a readable session database. -/
theorem exec_addSessionId (memory : Nat → Slot) (clk : Nat → Taia) (now : Taia)
    (rand : Nat → Nat) (buf : Bytes) {fs : Fs} {old : List Record}
    (file : recordsAt fs sessionDb = some old) :
    ∃ fs', exec (addSessionId memory clk now rand buf) fs =
        (.ok (1, sessionId rand ++ buf.drop sizeSessionId), fs') ∧
      fs'.content sessionDb = some (.finished
        (batchResult [filterExpired] clk (loginChanges (sessionId rand) now) old)) ∧
      ∀ p, p ≠ sessionDb → p ≠ tmpName sessionDb → fs'.content p = fs.content p := by
  obtain ⟨r, named, found⟩ := dir_of_recordsAt file
  obtain ⟨fs', ran, content, others⟩ := exec_cdbbApply_posed memory clk
    (room_loginChanges (sessionId rand) now) named found
    (posed_loginChanges _ (sessionId_ne_nil rand) now old)
  rw [if_neg (by rw [batchResult_login]; simp)] at content
  refine ⟨fs', ?_, content, others⟩
  rw [exec, addSessionId]
  simp only
  rw [Prog.run_bind_ok handle (exec_cdbbStartMod memory sessionDb fs), named]
  show Prog.run handle (cdbbApply clk (queueAll (loginChanges (sessionId rand) now) [filterExpired]
    (started memory sessionDb fs.next r)) >>= fun _ => .ret _) _ = _
  rw [Prog.run_bind_ok handle ran]
  rfl

/-- A login is a change of the session database. -/
theorem addSessionId_eq (memory : Nat → Slot) (clk : Nat → Taia) (now : Taia) (rand : Nat → Nat)
    (buf : Bytes) :
    addSessionId memory clk now rand buf =
      cdbbModify memory clk sessionDb (loginChanges (sessionId rand) now) [filterExpired] >>=
        fun err => .ret (if err.isSome then 1 else -1, sessionId rand ++ buf.drop sizeSessionId) := by
  rw [addSessionId, cdbbModify]
  simp only [Prog.bind_assoc]
  refine congrArg _ (funext fun opened => ?_)
  cases opened with
  | none => rfl
  | some a =>
      show _ = (cdbbApply clk _ >>= fun err => .ret (some err)) >>= _
      rw [Prog.bind_assoc]
      rfl

/-- Where the invariant holds, a session is valid while it lasts. -/
theorem SessionsKept.sessionValid_iff {events : List SessionEvent} {recs : List Record}
    (kept : SessionsKept events recs)
    (labels : ∀ e ∈ events, ∀ t, e.Reads t → t.sec.toNat < 2 ^ 63) {now : Taia}
    (latest : ∀ e ∈ events, ∀ t, e.Reads t → t.value ≤ now.value) (id : Bytes) :
    sessionValid (some recs) now id = true ↔
      ∃ e ∈ events, ∃ t, e.Issues id t ∧ now.value < t.value + sessionVtime.toNat * second := by
  have label {e : SessionEvent} (inside : e ∈ events) {id : Bytes} {t : Taia}
      (issues : e.Issues id t) : t.sec.toNat < 2 ^ 63 := by
    cases e with
    | login memory clk start rand =>
        obtain ⟨-, rfl⟩ := issues
        exact labels _ inside _ (.inl rfl)
    | check start buf => cases issues
  -- the one record of an id
  have alone {t : Taia} (there : sessionRecord id t ∈ recs) :
      findAll (some recs) id = [(sessionRecord id t).value] := by
    obtain ⟨before, after, rfl⟩ := List.append_of_mem there
    have distinct := kept.distinct
    rw [List.map_append, List.map_cons, List.nodup_append, List.nodup_cons] at distinct
    obtain ⟨-, ⟨notAfter, -⟩, apart⟩ := distinct
    have noBefore : before.filter (·.key = id) = [] := by
      rw [List.filter_eq_nil_iff]
      intro r inside
      simpa using apart r.key (List.mem_map_of_mem inside) id List.mem_cons_self
    have noAfter : after.filter (·.key = id) = [] := by
      rw [List.filter_eq_nil_iff]
      intro r inside
      have ne : r.key ≠ id := by
        intro same
        apply notAfter
        show id ∈ _
        rw [← same]
        exact List.mem_map_of_mem inside
      simpa using ne
    simp [findAll, noBefore, noAfter, sessionRecord]
  constructor
  · intro valid
    simp only [sessionValid, Bool.and_eq_true, decide_eq_true_eq, ne_eq, Bool.not_eq_true'] at valid
    obtain ⟨some_, live⟩ := valid
    obtain ⟨r, inside, onKey⟩ : ∃ r ∈ recs, r.key = id := by
      by_contra none_
      push Not at none_
      apply some_
      simp only [findAll, List.map_eq_nil_iff, List.filter_eq_nil_iff, decide_eq_true_eq]
      exact none_
    obtain ⟨e, event, id', t, issues, rfl⟩ := kept.issued r inside
    have same : id' = id := onKey
    subst same
    rw [alone inside] at live
    simp only [List.flatten_cons, List.flatten_nil, List.append_nil] at live
    exact ⟨e, event, t, issues, (isExpired_sessionRecord (label event issues) now id').1 live⟩
  · rintro ⟨e, event, t, issues, live⟩
    have live := (isExpired_sessionRecord (label event issues) now id).2 live
    rcases kept.missing e event id t issues with there | ⟨e', inside, t', reads, expired⟩
    · simp [sessionValid, alone there, live]
    · have := isExpired_mono (latest e' inside t' reads) expired
      rw [live] at this
      cases this

/-- The session database keeps the sessions of the events so far. -/
def SessionsStored (events : List SessionEvent) (fs : Fs) : Prop :=
  ∃ recs, recordsAt fs sessionDb = some recs ∧ SessionsKept events recs

/-- One event, served. -/
theorem SessionsStored.serve (past : List SessionEvent) (e : SessionEvent) (fs : Fs)
    (orderly : Orderly (past ++ [e])) (stored : SessionsStored past fs) :
    ∃ b fs', exec e.serve fs = (.ok b, fs') ∧ SessionsStored (past ++ [e]) fs' := by
  obtain ⟨recs, file, kept⟩ := stored
  cases e with
  | login memory clk now rand =>
      obtain ⟨fs', ran, content, -⟩ := exec_addSessionId memory clk now rand
        (zeros (sizeSessionId + 1)) file
      refine ⟨(), fs', ?_, _, recordsAt_of_content content, kept.login orderly⟩
      unfold exec SessionEvent.serve
      simp only
      rw [Prog.run_bind_ok handle ran]
      rfl
  | check now buf =>
      obtain ⟨c, holds, -⟩ := content_of_recordsAt file
      refine ⟨(), fs, ?_, recs, file, kept.check now buf⟩
      unfold exec SessionEvent.serve
      simp only
      rw [Prog.run_bind_ok handle (exec_validateSessionId now buf holds)]
      rfl

/-- **Sessions last exactly their time.**  After any orderly run from an empty
session database, a 32 byte id is valid at a moment that does not go back if and
only if some login of the run issued it less than `SESSION_VTIME` seconds
before. -/
theorem validateSessionId_iff_issued (events : List SessionEvent) (fs : Fs) (now : Taia)
    (id rest : Bytes) (empty : recordsAt fs sessionDb = some [])
    (length : id.length = sizeSessionId)
    (orderly : Orderly (events ++ [.check now (id ++ rest)])) :
    ∃ fs' valid, exec (Prog.serveAll SessionEvent.serve events) fs = (.ok (), fs') ∧
      exec (validateSessionId now (id ++ rest)) fs' = (.ok valid, fs') ∧
      (valid = true ↔ ∃ e ∈ events, ∃ t, e.Issues id t ∧
        now.value < t.value + sessionVtime.toNat * second) := by
  obtain ⟨fs', ran, recs, file, kept⟩ := Prog.serveAll_induction handle
    (fun _ _ => Orderly.of_append) SessionsStored.serve events [] fs orderly.of_append
    ⟨[], empty, SessionsKept.nil⟩
  obtain ⟨c, content, found⟩ := content_of_recordsAt file
  refine ⟨fs', _, ran, exec_validateSessionId now (id ++ rest) content, ?_⟩
  rw [← length, List.take_left, found]
  refine kept.sessionValid_iff orderly.of_append.labels ?_ id
  intro e inside t reads
  exact orderly.before inside reads rfl

/-- Two logins half a day and a second apart: the second one purges the first
session, and both ids are judged by their own time. -/
theorem validateSessionId_iff_issued_sample :
    let first : Nat → Nat := fun _ => 1
    let secondRand : Nat → Nat := fun _ => 2
    let start : Taia := ⟨4611686020000000000, 0, 0⟩
    let next : Taia := ⟨4611686020000043201, 0, 0⟩
    let events : List SessionEvent :=
      [.login (fun _ => ⟨0, 0, fun _ => 0⟩) (fun _ => start) start first,
        .login (fun _ => ⟨0, 0, fun _ => 0⟩) (fun _ => next) next secondRand]
    let fs := Fs.empty.install sessionDb .empty
    ∃ fs' valid, exec (Prog.serveAll SessionEvent.serve events) fs = (.ok (), fs') ∧
      exec (validateSessionId next (sessionId secondRand ++ [0])) fs' = (.ok valid, fs') ∧
      valid = true := by
  intro first secondRand start next events fs
  have reads₁ (t : Taia) (reads : (SessionEvent.login (fun _ => ⟨0, 0, fun _ => 0⟩)
      (fun _ => start) start first).Reads t) : t = start := by
    rcases reads with rfl | ⟨_, rfl⟩ <;> rfl
  have reads₂ (t : Taia) (reads : (SessionEvent.login (fun _ => ⟨0, 0, fun _ => 0⟩)
      (fun _ => next) next secondRand).Reads t) : t = next := by
    rcases reads with rfl | ⟨_, rfl⟩ <;> rfl
  have order : start.value ≤ next.value := by decide
  have orderly : Orderly (events ++ [.check next (sessionId secondRand ++ [0])]) := by
    constructor
    · simp only [events, List.cons_append, List.nil_append, List.pairwise_cons, List.mem_cons,
        List.not_mem_nil, or_false, forall_eq_or_imp, forall_eq]
      refine ⟨⟨?_, ?_⟩, ?_, by simp⟩
      · intro t t' reads reads'
        rw [reads₁ t reads, reads₂ t' reads']
        exact order
      · intro t t' reads reads'
        rw [reads₁ t reads, show t' = next from reads']
        exact order
      · intro t t' reads reads'
        rw [reads₂ t reads, show t' = next from reads']
    · simp only [events, List.cons_append, List.nil_append, List.mem_cons, List.not_mem_nil,
        or_false, forall_eq_or_imp, forall_eq]
      refine ⟨?_, ?_, ?_⟩
      · intro t reads
        rw [reads₁ t reads]
        decide
      · intro t reads
        rw [reads₂ t reads]
        decide
      · intro t reads
        rw [show t = next from reads]
        decide
    · simp only [events, List.cons_append, List.nil_append, List.pairwise_cons, List.mem_cons,
        List.not_mem_nil, or_false, forall_eq_or_imp, forall_eq]
      refine ⟨⟨?_, ?_⟩, ?_, by simp⟩
      · rintro id t t' ⟨rfl, -⟩ again
        exact absurd again.1 (by decide)
      · exact fun id t t' _ again => again
      · exact fun id t t' _ again => again
  obtain ⟨fs', valid, ran, checked, iff⟩ := validateSessionId_iff_issued events fs next
    (sessionId secondRand) [0] (recordsAt_of_content (Fs.content_install_self _ _ _)) (by decide) orderly
  refine ⟨fs', valid, ran, checked, iff.2 ⟨_, List.mem_cons_of_mem _ List.mem_cons_self, next,
    ⟨rfl, rfl⟩, by decide⟩⟩

end Bagunceiro
