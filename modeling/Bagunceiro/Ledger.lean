/-
# Ledger -- what the administrators' program is for those who use it

To its users the program is a journal of entries and a list of those who are
logged in (`Ledger`).  A visit with an accepted password starts a session, a
visit of somebody it knows does to the journal what it orders, and any other
visit leaves the ledger as it is.

A run starts with whatever entries and sessions the files have (`Opens`), those of
an installation for one (`opens_installed`).  The server and its files keep the
ledger from there on: through any run of requests, parsed, authenticated and carried
out as the program does (`Visited.keeps`).
-/
import Bagunceiro.Admission
import Bagunceiro.Sessions

namespace Bagunceiro

open Effect

set_option autoImplicit false

/-! ## What a visit does -/

/-- The key of the entry a request names. -/
def HttpRequest.key (req : HttpRequest) : Taia := scanTimeHex req.left (inflateTs (formStamp req))

/-- What a request orders for the entries. -/
def HttpRequest.orders (req : HttpRequest) : Option BlogOp :=
  match req.action with
  | .qaAddPost => some (.add req.entryAt (formText req))
  | .qaModifyPost => some (.modify req.key (formText req))
  | .qaDelete => some (.delete req.key)
  | _ => none

/-- A request, and whether its password is accepted. -/
structure Visit where
  req : HttpRequest
  accepted : Bool

/-- The entries, oldest first, and the sessions with the times they were issued. -/
structure Ledger where
  entries : Journal
  sessions : List (Bytes × Taia)

namespace Ledger

/-- The cookie starts with the id of a session that lasts. -/
def knows (b : Ledger) (req : HttpRequest) : Bool :=
  match cookieSid.value req with
  | some id => b.sessions.any fun session =>
      session.1 = id.take sizeSessionId ∧
        req.validateAt.value < session.2.value + sessionVtime.toNat * second
  | none => false

def admits (b : Ledger) (v : Visit) : Bool :=
  !queryLogout.flag v.req && if (postLogin.value v.req).isSome then v.accepted else b.knows v.req

/-- What a visit does to the entries. -/
def change (b : Ledger) (v : Visit) : Option BlogOp := if b.admits v then v.req.orders else none

def visit (b : Ledger) (v : Visit) : Ledger where
  entries := (b.change v).elim b.entries (BlogOp.apply b.entries)
  sessions :=
    if v.accepted then b.sessions ++ [(sessionId v.req.rand, v.req.loginAt)] else b.sessions

end Ledger

/-! ## Where a run starts -/

/-- The entries there are, and the sessions, the oldest first: the random numbers of
an id, and the time it was issued. -/
structure Opening where
  entries : Journal
  sessions : List ((Nat → Nat) × Taia)

namespace Opening

def ledger (o : Opening) : Ledger := ⟨o.entries, o.sessions.map fun a => (sessionId a.1, a.2)⟩

/-- The ledger after some visits. -/
def after (o : Opening) (visits : List Visit) : Ledger := visits.foldl Ledger.visit o.ledger

theorem after_concat (o : Opening) (visits : List Visit) (v : Visit) :
    o.after (visits ++ [v]) = (o.after visits).visit v := by
  simp [after]

end Opening

/-- Files with these entries and sessions.  Without sessions their file is one without
records, or an empty one. -/
structure Opens (leapsecs : List UInt64) (o : Opening) (fs : Fs) : Prop where
  blog : ∃ recs, fs.content dbFile = some (.finished recs) ∧ Stored leapsecs o.entries recs
  sessions : recordsAt fs sessionDb =
    some (o.sessions.map fun a => sessionRecord (sessionId a.1) a.2)

/-! ## Runs -/

/-- A request is served by the process that served the one before, or by a new one. -/
def Continues (s : Server) (fs : Fs) (s' : Server) : Prop :=
  s' = s ∨ exec startServer fs = (.ok s', fs)

/-- The server is started on some files, and one request is served after the other. -/
inductive Visited (fs₀ : Fs) : List Visit → Server → Fs → Prop
  | start {s : Server} {fs : Fs} (ran : exec startServer fs₀ = (.ok s, fs)) : Visited fs₀ [] s fs
  | serve {visits : List Visit} {s₀ s s' : Server} {fs t : Fs} (before : Visited fs₀ visits s₀ fs)
      (process : Continues s₀ fs s) (req : HttpRequest)
      (ran : exec (Bagunceiro.serve req s) fs = (.ok s', t)) :
      Visited fs₀ (visits ++ [⟨req, acceptsLogin req fs⟩]) s' t

/-- The clock readings that sessions depend on. -/
def HttpRequest.Reads (req : HttpRequest) (t : Taia) : Prop :=
  t = req.validateAt ∨ t = req.loginAt ∨ ∃ i, t = req.loginClk i

/-- The visit adds an entry. -/
def Visit.Adds (v : Visit) : Prop := v.req.action = .qaAddPost

/-- Time goes forward from the opening on and stays in use, entries get different
stamps between 1970 and 2106, sessions different ids, and what is modified is there. -/
structure Regular (leapsecs : List UInt64) (o : Opening) (visits : List Visit) : Prop where
  table : ∀ v ∈ visits, v.req.leapsecs = leapsecs
  buffer : ∀ v ∈ visits, v.req.left.length = fmtTaiaHex
  opened : o.sessions.Pairwise fun a b => a.2.value ≤ b.2.value ∧ sessionId a.1 ≠ sessionId b.1
  issued : ∀ a ∈ o.sessions, a.2.sec.toNat < 2 ^ 63
  since : ∀ a ∈ o.sessions, ∀ v ∈ visits, (∀ t, v.req.Reads t → a.2.value ≤ t.value) ∧
    (v.accepted = true → sessionId a.1 ≠ sessionId v.req.rand)
  forward : visits.Pairwise fun v v' =>
    ∀ t t', v.req.Reads t → v'.req.Reads t' → t.value ≤ t'.value
  labels : ∀ v ∈ visits, ∀ t, v.req.Reads t → t.sec.toNat < 2 ^ 63
  distinct : visits.Pairwise fun v v' =>
    v.accepted = true → v'.accepted = true → sessionId v.req.rand ≠ sessionId v'.req.rand
  dated : ∀ v ∈ visits, v.Adds → Dated v.req.entryAt
  newer : ∀ x ∈ o.entries, ∀ v ∈ visits, v.Adds → x.1.value < v.req.entryAt.value
  increasing : visits.Pairwise fun v v' =>
    v.Adds → v'.Adds → v.req.entryAt.value < v'.req.entryAt.value
  live : ∀ past v later, visits = past ++ v :: later → ∀ k text,
    (o.after past).change v = some (.modify k text) → ∃ x ∈ (o.after past).entries, x.1 = k

theorem Regular.of_append {leapsecs : List UInt64} {o : Opening} {past later : List Visit}
    (regular : Regular leapsecs o (past ++ later)) : Regular leapsecs o past where
  table := fun v member => regular.table v (List.mem_append_left _ member)
  buffer := fun v member => regular.buffer v (List.mem_append_left _ member)
  opened := regular.opened
  issued := regular.issued
  since := fun a inside v member => regular.since a inside v (List.mem_append_left _ member)
  forward := (List.pairwise_append.1 regular.forward).1
  labels := fun v member => regular.labels v (List.mem_append_left _ member)
  distinct := (List.pairwise_append.1 regular.distinct).1
  dated := fun v member => regular.dated v (List.mem_append_left _ member)
  newer := fun x there v member => regular.newer x there v (List.mem_append_left _ member)
  increasing := (List.pairwise_append.1 regular.increasing).1
  live := fun before v after split k text change =>
    regular.live before v (after ++ later) (by rw [split]; simp) k text change

/-- Everything that sessions depend on has been read by then. -/
structure Opening.PastAt (o : Opening) (visits : List Visit) (now : Taia) : Prop where
  opened : ∀ a ∈ o.sessions, a.2.value ≤ now.value
  read : ∀ v ∈ visits, ∀ t, v.req.Reads t → t.value ≤ now.value

/-- A visit comes after what was before it. -/
theorem Regular.pastAt {leapsecs : List UInt64} {o : Opening} {visits : List Visit} {v : Visit}
    (regular : Regular leapsecs o (visits ++ [v])) : o.PastAt visits v.req.validateAt where
  opened a inside := by
    have last := List.mem_append_right visits (List.mem_singleton.2 (rfl : v = v))
    exact (regular.since a inside v last).1 _ (.inl rfl)
  read w member t reads :=
    (List.pairwise_append.1 regular.forward).2.2 w member v (List.mem_singleton.2 rfl) t _ reads
      (.inl rfl)

/-! ## What is stored for it -/

/-- The logins before the run, as events of the session database. -/
def Opening.logins (o : Opening) : List SessionEvent :=
  o.sessions.map fun a => .login (fun _ => ⟨0, 0, fun _ => 0⟩) (fun _ => a.2) a.2 a.1

/-- The logins among the visits. -/
def logins (visits : List Visit) : List SessionEvent :=
  visits.filterMap fun v =>
    if v.accepted then some (.login v.req.loginMemory v.req.loginClk v.req.loginAt v.req.rand)
    else none

/-- The files keep the ledger of the visits. -/
structure FilesKeep (leapsecs : List UInt64) (o : Opening) (visits : List Visit) (fs : Fs) :
    Prop where
  blog : ∃ recs, fs.content dbFile = some (.finished recs) ∧
    Stored leapsecs (o.after visits).entries recs
  sessions : SessionsStored (o.logins ++ logins visits) fs

section Sessions

variable {leapsecs : List UInt64} {o : Opening} {visits : List Visit}

theorem logins_concat (v : Visit) : logins (visits ++ [v]) =
    if v.accepted then
      logins visits ++ [.login v.req.loginMemory v.req.loginClk v.req.loginAt v.req.rand]
    else logins visits := by
  rw [logins, List.filterMap_append]
  by_cases accepted : v.accepted
  · simp [accepted, logins]
  · simp [accepted, logins]

/-- A login before the run is of one of its sessions. -/
theorem exists_session_of_login {e : SessionEvent} (member : e ∈ o.logins) :
    ∃ a ∈ o.sessions, (∀ t, e.Reads t → t = a.2) ∧
      ∀ id t, e.Issues id t ↔ id = sessionId a.1 ∧ t = a.2 := by
  obtain ⟨a, inside, rfl⟩ := List.mem_map.1 member
  refine ⟨a, inside, fun t reads => ?_, fun id t => Iff.rfl⟩
  rcases reads with rfl | ⟨_, rfl⟩ <;> rfl

/-- What a login among the visits reads and issues, a visit does. -/
theorem exists_visit_of_login {e : SessionEvent} (member : e ∈ logins visits) :
    ∃ v ∈ visits, v.accepted = true ∧ (∀ t, e.Reads t → v.req.Reads t) ∧
      ∀ id t, e.Issues id t → id = sessionId v.req.rand ∧ t = v.req.loginAt := by
  obtain ⟨v, inside, is⟩ := List.mem_filterMap.1 member
  by_cases accepted : v.accepted
  · rw [if_pos accepted, Option.some.injEq] at is
    subst is
    exact ⟨v, inside, accepted, fun t reads => .inr reads, fun id t issues => issues⟩
  · rw [if_neg accepted] at is
    cases is

/-- The logins of the visits follow each other, as the visits do. -/
theorem Regular.orderly_logins (regular : Regular leapsecs o visits) : Orderly (logins visits) where
  forward := by
    refine List.pairwise_filterMap.2 (regular.forward.imp fun before e is e' is' t t' reads
      reads' => ?_)
    split at is
    · split at is'
      · cases is
        cases is'
        exact before t t' (.inr reads) (.inr reads')
      · cases is'
    · cases is
  labels := by
    intro e member t reads
    obtain ⟨v, inside, -, visits, -⟩ := exists_visit_of_login member
    exact regular.labels v inside t (visits t reads)
  distinct := by
    refine List.pairwise_filterMap.2 (regular.distinct.imp fun other e is e' is' id t t' issues
      issues' => ?_)
    split at is
    · rename_i accepted
      split at is'
      · rename_i accepted'
        cases is
        cases is'
        exact other accepted accepted' (issues.1.symm.trans issues'.1)
      · cases is'
    · cases is

/-- The sessions there are were issued in order. -/
theorem Regular.orderly_opening (regular : Regular leapsecs o visits) : Orderly o.logins where
  forward := by
    refine List.pairwise_map.2 (regular.opened.imp fun {a b} order t t' reads reads' => ?_)
    obtain rfl : t = a.2 := by rcases reads with rfl | ⟨_, rfl⟩ <;> rfl
    obtain rfl : t' = b.2 := by rcases reads' with rfl | ⟨_, rfl⟩ <;> rfl
    exact order.1
  labels := by
    intro e member t reads
    obtain ⟨a, inside, time, -⟩ := exists_session_of_login member
    exact time t reads ▸ regular.issued a inside
  distinct := by
    refine List.pairwise_map.2 (regular.opened.imp fun {a b} order id t t' issues issues' => ?_)
    exact order.2 (issues.1.symm.trans issues'.1)

theorem Regular.orderly (regular : Regular leapsecs o visits) :
    Orderly (o.logins ++ logins visits) where
  forward := by
    refine List.pairwise_append.2
      ⟨regular.orderly_opening.forward, regular.orderly_logins.forward, ?_⟩
    intro e earlier e' later t t' reads reads'
    obtain ⟨a, inside, time, -⟩ := exists_session_of_login earlier
    obtain ⟨v, member, -, visits, -⟩ := exists_visit_of_login later
    rw [time t reads]
    exact (regular.since a inside v member).1 t' (visits t' reads')
  labels := by
    intro e member
    rcases List.mem_append.1 member with earlier | later
    · exact regular.orderly_opening.labels e earlier
    · exact regular.orderly_logins.labels e later
  distinct := by
    refine List.pairwise_append.2
      ⟨regular.orderly_opening.distinct, regular.orderly_logins.distinct, ?_⟩
    intro e earlier e' later id t t' issues issues'
    obtain ⟨a, inside, -, issued⟩ := exists_session_of_login earlier
    obtain ⟨v, member, accepted, -, visit⟩ := exists_visit_of_login later
    exact (regular.since a inside v member).2 accepted
      (((issued id t).1 issues).1.symm.trans (visit id t' issues').1)

/-- The sessions of the ledger are those that were issued. -/
theorem mem_sessions_iff {id : Bytes} {t : Taia} :
    (id, t) ∈ (o.after visits).sessions ↔ ∃ e ∈ o.logins ++ logins visits, e.Issues id t := by
  induction visits using List.reverseRecOn with
  | nil =>
      constructor
      · intro member
        obtain ⟨a, inside, same⟩ := List.mem_map.1 member
        cases same
        exact ⟨_, List.mem_append_left _ (List.mem_map_of_mem inside), rfl, rfl⟩
      · rintro ⟨e, member, issues⟩
        rw [logins, List.filterMap_nil, List.append_nil] at member
        obtain ⟨a, inside, -, issued⟩ := exists_session_of_login member
        obtain ⟨rfl, rfl⟩ := (issued id t).1 issues
        exact List.mem_map_of_mem inside
  | append_singleton visits v ih =>
      rw [Opening.after_concat, Ledger.visit, logins_concat]
      by_cases accepted : v.accepted
      · simp only [accepted, if_true, ← List.append_assoc]
        generalize o.logins ++ logins visits = past at ih
        simp only [List.mem_append, ih, List.mem_singleton, Prod.mk.injEq, or_and_right, exists_or,
          exists_eq_left, SessionEvent.Issues]
      · simp only [accepted, Bool.false_eq_true, if_false, ih]

theorem FilesKeep.own {fs : Fs} (keeps : FilesKeep leapsecs o visits fs) : OwnSessions fs := by
  obtain ⟨recs, file, kept⟩ := keeps.sessions
  intro recs' holds' r member
  rw [recordsAt_of_content holds'] at file
  cases file
  obtain ⟨e, inside, id, t, issues, rfl⟩ := kept.issued r member
  rcases List.mem_append.1 inside with earlier | later
  · obtain ⟨a, -, -, issued⟩ := exists_session_of_login earlier
    exact ⟨⟨a.1, ((issued id t).1 issues).1⟩, length_taiaPack _⟩
  · obtain ⟨v, -, -, -, visit⟩ := exists_visit_of_login later
    exact ⟨⟨v.req.rand, (visit id t issues).1⟩, length_taiaPack _⟩

/-- **The server lets in whom the ledger admits.** -/
theorem FilesKeep.admitted_iff {fs : Fs} (keeps : FilesKeep leapsecs o visits fs)
    (regular : Regular leapsecs o visits) {req : HttpRequest}
    (now : o.PastAt visits req.validateAt) :
    Admitted req fs ↔ (o.after visits).admits ⟨req, acceptsLogin req fs⟩ = true := by
  have session : CarriesSession req fs ↔ (o.after visits).knows req = true := by
    obtain ⟨recs, file, kept⟩ := keeps.sessions
    obtain ⟨c, holds, records⟩ := content_of_recordsAt file
    have latest : ∀ e ∈ o.logins ++ logins visits, ∀ t, e.Reads t →
        t.value ≤ req.validateAt.value := by
      intro e member t reads
      rcases List.mem_append.1 member with earlier | later
      · obtain ⟨a, inside, time, -⟩ := exists_session_of_login earlier
        exact time t reads ▸ now.opened a inside
      · obtain ⟨v, inside, -, read, -⟩ := exists_visit_of_login later
        exact now.read v inside t (read t reads)
    have valid := kept.sessionValid_iff regular.orderly.labels latest
    rw [CarriesSession, HoldsSession, Ledger.knows]
    cases cookieSid.value req with
    | none => simp
    | some id =>
        simp only [Option.some.injEq, holds, exists_and_left, exists_eq_left', records, valid,
          List.any_eq_true, decide_eq_true_eq, Prod.exists]
        constructor
        · rintro ⟨e, member, t, issues, lasts⟩
          exact ⟨_, t, mem_sessions_iff.2 ⟨e, member, issues⟩, rfl, lasts⟩
        · rintro ⟨id', t, member, rfl, lasts⟩
          obtain ⟨e, inside, issues⟩ := mem_sessions_iff.1 member
          exact ⟨e, inside, t, issues, lasts⟩
  rw [Admitted, Ledger.admits, Bool.and_eq_true, LogsOut, Bool.not_eq_true']
  simp only [Bool.not_eq_true]
  refine and_congr_right fun _ => ?_
  split
  · exact acceptsLogin_iff.symm
  · exact session

end Sessions

/-! ## Carrying out -/

/-- An order, with what its batch finds. -/
def HttpRequest.event (req : HttpRequest) (op : BlogOp) : BlogEvent :=
  ⟨op, req.memory, req.clk, req.modifiedAt⟩

/-- The action does to the blog what is ordered, and nothing to the sessions. -/
structure CarriesOut (req : HttpRequest) (op : Option BlogOp) (recs : List Record) (fs t : Fs) :
    Prop where
  blog : t.content dbFile =
    op.elim (fs.content dbFile) fun op => some (.finished ((req.event op).after req.leapsecs recs))
  sessions : t.content sessionDb = fs.content sessionDb

section CarryOut

variable {req : HttpRequest} {fs : Fs} {recs : List Record}

theorem ensures_keeps {α : Type} {p : M α}
    (kept : ∀ f, f ≠ confDb → f ≠ tmpName confDb → (exec p fs).2.content f = fs.content f) :
    Prog.Ensures handle (· = fs) p (fun _ t => CarriesOut req none recs fs t) (fun _ => True) := by
  refine .of_run (fun t a t' same ran => ?_) fun _ _ _ _ _ => True.intro
  subst same
  unfold exec at kept
  rw [ran] at kept
  exact ⟨kept dbFile (by decide) (by decide), kept sessionDb (by decide) (by decide)⟩

theorem exec_saveConfig_others (memory : Nat → Slot) (clk : Nat → Taia) (conf : Blog) (fs : Fs)
    {f : Path} (ne : f ≠ confDb) (neTmp : f ≠ tmpName confDb) :
    (exec (saveConfig memory clk conf) fs).2.content f = fs.content f := by
  rw [saveConfig_eq]
  cases takeOver conf with
  | error e =>
      have stopped : (exec (cdbbStartMod memory confDb >>= fun opened =>
          (.fail (if opened.isSome then e else .uninitialised) : M Blog)) fs).2 =
          fs.started confDb :=
        (Prog.run_bind_snd handle (fun _ _ => rfl) fs).trans
          (congrArg Prod.snd (exec_cdbbStartMod memory confDb fs))
      rw [stopped]
      exact Fs.content_started_ne neTmp
  | ok saved =>
      have same : (exec (cdbbModify memory clk confDb (saveChanges conf) [] >>= fun err =>
          (if err.isSome then .ret saved else .fail .uninitialised : M Blog)) fs).2 =
          (exec (cdbbModify memory clk confDb (saveChanges conf) []) fs).2 := by
        refine Prog.run_bind_snd handle (fun err _ => ?_) fs
        split <;> rfl
      rw [same]
      exact (exec_cdbbModify memory clk confDb (saveChanges conf) [] fs).2 f ne neTmp

/-- A change of the entries is an event of the blog, and leaves the other files. -/
theorem ensures_changeDb (op : BlogOp) (holds : fs.content dbFile = some (.finished recs))
    (f : Option Int → Server) :
    Prog.Ensures handle (· = fs)
      (changeDb req ((req.event op).queue req.leapsecs) >>= fun err => .ret (f err))
      (fun _ t => CarriesOut req (some op) recs fs t) (fun _ => True) := by
  have changed : Prog.Ensures handle (· = fs) (changeDb req ((req.event op).queue req.leapsecs))
      (fun _ t => CarriesOut req (some op) recs fs t) (fun _ => True) := by
    refine .of_run (fun t n t' same ran => ?_) fun _ _ _ _ _ => True.intro
    subst same
    obtain ⟨n', t₁, ran', content⟩ := exec_changeDb (req.event op) rfl rfl holds
    rw [exec, ran] at ran'
    cases ran'
    have modify : changeDb req ((req.event op).queue req.leapsecs) =
        cdbbModify req.memory req.clk dbFile ((req.event op).changes req.leapsecs) [] := by
      rw [changeDb, cdbbModify]
      refine congrArg _ (funext fun opened => ?_)
      cases opened with
      | none => rfl
      | some a =>
          exact congrArg (fun b => cdbbApply req.clk b >>= fun n => .ret (some n))
            ((req.event op).queue_eq req.leapsecs a)
    have others := (exec_cdbbModify req.memory req.clk dbFile
      ((req.event op).changes req.leapsecs) [] t).2 sessionDb (by decide) (by decide)
    rw [← modify, exec, ran] at others
    exact ⟨content, others⟩
  exact changed.bind fun err => Prog.Ensures.ret fun _ done => done

theorem modifyAction_snd (k : Taia) (s : Server) (fs : Fs) : (exec (modifyAction k s) fs).2 = fs := by
  rw [exec, modifyAction]
  rw [Prog.run_bind_ok handle (show Prog.run handle (cdbbOpenRead dbFile) fs =
    (.ok (fs.dir dbFile), fs) from rfl)]
  cases fs.dir dbFile with
  | none => rfl
  | some r => rfl

/-- No form and no link but `logout` has a request log out. -/
theorem logsOut_of_action (out : req.action = .qaLogout) : LogsOut req := by
  rw [HttpRequest.action] at out
  split_ifs at out with bad logout login
  · exact logout
  · have query := queryAction_mem req
    rw [formAction, actionOf] at out
    split_ifs at out
    rw [out] at query
    exact absurd query (by decide)

/-- **Serving does what is ordered by those who are let in.** -/
theorem ensures_handleQuery {s : Server} (holds : fs.content dbFile = some (.finished recs))
    (stays : s.conf.auth = true → ¬ LogsOut req) (action : s.conf.qry.action = req.action)
    (stamp : s.conf.qry.ts = inflateTs (formStamp req)) (posts : Posts req s) :
    Prog.Ensures handle (· = fs) (handleQuery req s)
      (fun _ t => CarriesOut req (if s.conf.auth then req.orders else none) recs fs t)
      (fun _ => True) := by
  cases auth : s.conf.auth with
  | false =>
      obtain ⟨s', returns, -⟩ := handleQuery_of_not_auth req auth
      rw [returns]
      exact ensures_keeps fun _ _ _ => rfl
  | true =>
      have is : (accessGate s).conf.qry.action = req.action := by
        rw [← action]
        show branch s = _
        rw [branch_eq, auth]
        simp
      have called : handleQuery req s = runAction req req.key (accessGate s) := by
        rw [handleQuery, stamp, HttpRequest.key]
      have text (posting : Posting req.action) : (accessGate s).conf.qry.input = formText req := by
        rw [accessGate_input]
        exact posts (action ▸ posting)
      rw [called, runAction, is, if_pos rfl, HttpRequest.orders]
      cases act : req.action with
      | qaShow => exact ensures_keeps fun _ _ _ => rfl
      | qaLogin => exact ensures_keeps fun _ _ _ => rfl
      | qaAdd => exact ensures_keeps fun _ _ _ => rfl
      | qaConfig => exact ensures_keeps fun _ _ _ => rfl
      | qaLogout => exact absurd (logsOut_of_action act) (stays auth)
      | qaModify =>
          refine ensures_keeps fun f _ _ => ?_
          rw [modifyAction_snd]
      | qaConfigPost =>
          refine (ensures_keeps fun f ne neTmp => exec_saveConfig_others _ _ _ fs ne neTmp).bind
            fun conf => Prog.Ensures.ret fun _ done => done
      | qaAddPost =>
          simp only
          rw [addPost, text (act ▸ .inl rfl)]
          exact ensures_changeDb (.add req.entryAt (formText req)) holds _
      | qaModifyPost =>
          simp only
          rw [modifyPost, text (act ▸ .inr rfl)]
          exact ensures_changeDb (.modify req.key (formText req)) holds _
      | qaDelete =>
          simp only
          rw [deleteAction]
          exact ensures_changeDb (.delete req.key) holds _

end CarryOut

/-! ## One visit -/

/-- Any event that fits the journal keeps it stored. -/
theorem Stored.after {leapsecs : List UInt64} {j : Journal} {recs : List Record}
    (stored : Stored leapsecs j recs) (e : BlogEvent) (dated : Dated e.op.stamp)
    (later : ∀ now v, e.op = .add now v → ∀ x ∈ j, x.1.value < now.value)
    (live : ∀ k v, e.op = .modify k v → ∃ x ∈ j, x.1 = k) :
    Stored leapsecs (e.op.apply j) (e.after leapsecs recs) := by
  rw [BlogEvent.after, newRecords_eq e.memory [] e.clk (stored.posed dated live)]
  cases op : e.op with
  | add now v =>
      rw [op] at dated
      rw [← op]
      exact stored.add e.clk op dated (later now v op)
  | modify k v =>
      rw [op] at dated
      rw [← op]
      exact stored.modify e.clk op dated (live k v op)
  | delete k =>
      rw [op] at dated
      rw [← op]
      exact stored.delete e.clk op dated

section Orders

variable {req : HttpRequest} {op : BlogOp}

theorem adds_of_orders {now : Taia} {text : Bytes} (orders : req.orders = some (.add now text)) :
    req.action = .qaAddPost ∧ now = req.entryAt := by
  rw [HttpRequest.orders] at orders
  cases act : req.action <;>
    simp only [act, reduceCtorEq, Option.some.injEq, BlogOp.add.injEq] at orders
  exact ⟨rfl, orders.1.symm⟩

/-- The stamp of an order is of the time when entries are written. -/
theorem dated_of_orders (orders : req.orders = some op)
    (long : reduceSize ≤ (formStamp req).length) (buffer : req.left.length = fmtTaiaHex)
    (clock : req.action = .qaAddPost → Dated req.entryAt) : Dated op.stamp := by
  rw [HttpRequest.orders] at orders
  have key : Dated req.key := dated_scanTimeHex long buffer
  cases act : req.action <;> simp only [act, reduceCtorEq, Option.some.injEq] at orders
  · subst orders
    exact key
  · subst orders
    exact clock act
  · subst orders
    exact key

end Orders

theorem orders_of_change {b : Ledger} {v : Visit} {op : BlogOp} (change : b.change v = some op) :
    v.req.orders = some op := by
  rw [Ledger.change] at change
  split at change
  · exact change
  · cases change

/-- The stamp of an entry that was there, or was added by one of some visits. -/
def Opening.Stamps (o : Opening) (visits : List Visit) (t : Taia) : Prop :=
  (∃ y ∈ o.entries, y.1 = t) ∨ ∃ v ∈ visits, v.Adds ∧ t = v.req.entryAt

theorem Opening.Stamps.append {o : Opening} {visits : List Visit} {t : Taia}
    (stamps : o.Stamps visits t) (later : List Visit) : o.Stamps (visits ++ later) t := by
  rcases stamps with there | ⟨v, inside, adds⟩
  · exact .inl there
  · exact .inr ⟨v, List.mem_append_left _ inside, adds⟩

/-- Every entry was there, or was added by a visit. -/
theorem stamps_of_mem_entries {o : Opening} {visits : List Visit} {x : Taia × Bytes}
    (member : x ∈ (o.after visits).entries) : o.Stamps visits x.1 := by
  induction visits using List.reverseRecOn generalizing x with
  | nil => exact .inl ⟨x, member, rfl⟩
  | append_singleton visits v ih =>
      have earlier {y : Taia × Bytes} (inside : y ∈ (o.after visits).entries) :
          o.Stamps (visits ++ [v]) y.1 := (ih inside).append [v]
      rw [Opening.after_concat, Ledger.visit] at member
      cases change : (o.after visits).change v with
      | none =>
          simp only [change, Option.elim_none] at member
          exact earlier member
      | some op =>
          simp only [change, Option.elim_some] at member
          cases op with
          | add now text =>
              rw [BlogOp.apply, List.mem_append, List.mem_singleton] at member
              rcases member with inside | rfl
              · exact earlier inside
              · obtain ⟨adds, stamp⟩ := adds_of_orders (orders_of_change change)
                exact .inr ⟨v, List.mem_append_right _ (List.mem_singleton.2 rfl), adds, stamp⟩
          | modify k text =>
              rw [BlogOp.apply, List.mem_map] at member
              obtain ⟨y, inside, rfl⟩ := member
              rw [BlogOp.rewrite_fst]
              exact earlier inside
          | delete k =>
              rw [BlogOp.apply, List.mem_filter] at member
              exact earlier member.1

/-- A visit adds with a later stamp than any before. -/
theorem Regular.stamps_lt {leapsecs : List UInt64} {o : Opening} {visits : List Visit} {v : Visit}
    (regular : Regular leapsecs o (visits ++ [v])) {t : Taia} (stamps : o.Stamps visits t)
    (adds : v.Adds) : t.value < v.req.entryAt.value := by
  have last := List.mem_singleton.2 (rfl : v = v)
  rcases stamps with ⟨y, there, rfl⟩ | ⟨w, inside, earlier, rfl⟩
  · exact regular.newer y there v (List.mem_append_right _ last) adds
  · exact (List.pairwise_append.1 regular.increasing).2.2 w inside v last earlier adds

section Visits

variable {leapsecs : List UInt64} {o : Opening} {visits : List Visit} {fs t : Fs} {req : HttpRequest}

/-- The order that is carried out is the one the ledger takes. -/
theorem FilesKeep.carried_eq (keeps : FilesKeep leapsecs o visits fs)
    (regular : Regular leapsecs o (visits ++ [⟨req, acceptsLogin req fs⟩])) {auth : Bool}
    (settled : auth = true ↔ Admitted req fs) :
    (if auth then req.orders else none) =
      (o.after visits).change ⟨req, acceptsLogin req fs⟩ := by
  rw [keeps.admitted_iff regular.of_append regular.pastAt] at settled
  rw [Ledger.change, Bool.eq_iff_iff.2 settled]

/-- A login is one in the session database, whatever the request goes on to do. -/
theorem FilesKeep.login (keeps : FilesKeep leapsecs o visits fs)
    (regular : Regular leapsecs o (visits ++ [⟨req, acceptsLogin req fs⟩]))
    (files : t = fs ∧ ¬ CarriesLogin req fs ∨ CarriesLogin req fs ∧ LoginWrites req fs t) :
    t.content dbFile = fs.content dbFile ∧
      SessionsStored (o.logins ++ logins (visits ++ [⟨req, acceptsLogin req fs⟩])) t := by
  rw [logins_concat]
  rcases files with ⟨rfl, refused⟩ | ⟨carries, writes⟩
  · have none_ : acceptsLogin req t = false :=
      Bool.eq_false_iff.2 fun accepted => refused (acceptsLogin_iff.1 accepted)
    rw [none_]
    exact ⟨rfl, keeps.sessions⟩
  · have orderly := regular.orderly
    rw [logins_concat] at orderly
    rw [acceptsLogin_iff.2 carries] at orderly ⊢
    simp only [if_true, ← List.append_assoc] at orderly ⊢
    refine ⟨writes.others dbFile (by decide) (by decide), ?_⟩
    obtain ⟨recs, file, kept⟩ := keeps.sessions
    rcases writes.sessions with ⟨absent, -⟩ | ⟨old, before, after⟩
    · obtain ⟨c, holds, -⟩ := content_of_recordsAt file
      rw [holds] at absent
      cases absent
    · rw [file] at before
      cases before
      exact ⟨_, recordsAt_of_content after, kept.login orderly⟩

/-- **One visit keeps the ledger.** -/
theorem FilesKeep.serve {s s' : Server} (keeps : FilesKeep leapsecs o visits fs)
    (regular : Regular leapsecs o (visits ++ [⟨req, acceptsLogin req fs⟩]))
    (ran : exec (serve req s) fs = (.ok s', t)) :
    FilesKeep leapsecs o (visits ++ [⟨req, acceptsLogin req fs⟩]) t := by
  obtain ⟨s₁, t₁, parsed, handled⟩ := serve_steps ran
  have settled := (ensures_parseRequest_settled req s keeps.own).of_ok rfl parsed
  obtain ⟨action, stamp, -⟩ := (ensures_parseRequest_action req s).of_ok True.intro parsed
  have posts := (ensures_parseRequest_posts req s).of_ok True.intro parsed
  obtain ⟨sameBlog, sessions⟩ := keeps.login regular settled.files
  obtain ⟨recs, holds, stored⟩ := keeps.blog
  have done := (ensures_handleQuery (sameBlog.trans holds) (fun auth => (settled.auth.1 auth).1)
    action stamp posts).of_ok rfl handled
  rw [keeps.carried_eq regular settled.auth] at done
  have last : (⟨req, acceptsLogin req fs⟩ : Visit) ∈ visits ++ [⟨req, acceptsLogin req fs⟩] :=
    List.mem_append_right _ (List.mem_singleton.2 rfl)
  constructor
  · rw [Opening.after_concat, Ledger.visit]
    have blog := done.blog
    rw [regular.table _ last] at blog
    cases change : (o.after visits).change ⟨req, acceptsLogin req fs⟩ with
    | none =>
        rw [change] at blog
        exact ⟨recs, blog.trans (sameBlog.trans holds), stored⟩
    | some op =>
        rw [change] at blog
        have orders : req.orders = some op := orders_of_change change
        refine ⟨_, blog, stored.after (req.event op) ?_ ?_ ?_⟩
        · have long : reduceSize ≤ (formStamp req).length := by
            rw [(parseRequest_order parsed).2.1]
            decide
          exact dated_of_orders orders long (regular.buffer _ last) (regular.dated _ last)
        · intro now text is x member
          obtain ⟨here, now_⟩ := adds_of_orders (orders.trans (congrArg some is))
          rw [now_]
          exact regular.stamps_lt (stamps_of_mem_entries member) here
        · intro k text is
          exact regular.live visits _ [] rfl k text (change.trans (congrArg some is))
  · obtain ⟨recs', file, kept⟩ := sessions
    exact ⟨recs', (recordsAt_congr done.sessions).trans file, kept⟩

end Visits

/-! ## A run -/

/-- What the files have at the opening is kept. -/
theorem FilesKeep.start {leapsecs : List UInt64} {o : Opening} {fs : Fs}
    (opens : Opens leapsecs o fs) (regular : Regular leapsecs o []) : FilesKeep leapsecs o [] fs where
  blog := opens.blog
  sessions := by
    refine ⟨_, opens.sessions, ?_, ?_, ?_⟩
    · rw [List.Nodup, List.map_map, List.pairwise_map]
      exact regular.opened.imp fun order => order.2
    · intro r member
      obtain ⟨a, inside, rfl⟩ := List.mem_map.1 member
      exact ⟨_, List.mem_append_left _ (List.mem_map_of_mem inside), _, _, ⟨rfl, rfl⟩, rfl⟩
    · intro e member id t issues
      rw [logins, List.filterMap_nil, List.append_nil] at member
      obtain ⟨a, inside, -, issued⟩ := exists_session_of_login member
      obtain ⟨rfl, rfl⟩ := (issued id t).1 issues
      exact .inl (List.mem_map.2 ⟨a, inside, rfl⟩)

/-- **Every run keeps the ledger.** -/
theorem Visited.keeps {leapsecs : List UInt64} {o : Opening} {fs₀ fs : Fs} {visits : List Visit}
    {s : Server} (visited : Visited fs₀ visits s fs) (opens : Opens leapsecs o fs₀)
    (regular : Regular leapsecs o visits) : FilesKeep leapsecs o visits fs := by
  induction visited with
  | start ran =>
      rename_i fs
      obtain rfl : fs = fs₀ := ensures_startServer.of_ok rfl ran
      exact .start opens regular
  | serve before process req ran ih => exact (ih regular.of_append).serve regular ran

theorem Visited.served_last {fs₀ fs : Fs} {visits : List Visit} {v : Visit} {s : Server}
    (visited : Visited fs₀ (visits ++ [v]) s fs) :
    ∃ s₀ s₁ fs₁, Visited fs₀ visits s₀ fs₁ ∧ Continues s₀ fs₁ s₁ ∧
      v.accepted = acceptsLogin v.req fs₁ ∧ exec (Bagunceiro.serve v.req s₁) fs₁ = (.ok s, fs) := by
  generalize whole : visits ++ [v] = all at visited
  cases visited with
  | start ran => exact absurd whole (by simp)
  | serve before process req ran =>
      obtain ⟨rfl, last⟩ := List.append_inj' whole rfl
      cases last
      exact ⟨_, _, _, before, process, rfl, ran⟩

section Bearer

variable {leapsecs : List UInt64} {o : Opening} {visits later : List Visit} {v : Visit}

end Bearer

/-- SHA-256 of the password of an installation, and something else of any other. -/
def sha256Installed (s : Bytes) : Bytes :=
  if s = str "admin" then
    [140, 105, 118, 229, 181, 65, 4, 21, 189, 233, 8, 189, 77, 238, 21, 223, 177, 103, 169, 200, 115,
      252, 75, 184, 168, 31, 111, 42, 180, 72, 169, 24]
  else zeros sha256DigestLength

/-- When the entry of an installation was written. -/
def installedAt : Taia := ⟨0x400000004c31ef0f, 0x029629ac, 0⟩

def installedText : Bytes :=
  str "This is your new blog. You may <a href=\"admin.cgi?login\">login</a>" ++ [0]

/-- `init/db.inc` -/
def installedDb : List Record :=
  [⟨taiaPack installedAt, installedText⟩, ⟨str "2010-07-05@", taiaPack installedAt⟩]

/-- `init/conf.inc` -/
def installedConf : List Record :=
  [⟨confSearchbox, str "y"⟩, ⟨confPass, sha256Installed (str "admin") ++ [0]⟩,
    ⟨confTitle, str "Blog" ++ [0]⟩, ⟨confTagline, str "Blog Tagline" ++ [0]⟩]

/-- The files of `make install`; `init/session.inc` is an empty one. -/
def installed : Fs :=
  ((Fs.empty.install sessionDb .empty).install confDb (.finished installedConf)).install dbFile
    (.finished installedDb)

def newBlog : Opening := ⟨[(installedAt, installedText)], []⟩

theorem fmtDayIdx_installedAt : str "2010-07-05@" = fmtDayIdx [] installedAt := by decide +kernel

theorem stored_installedDb : Stored [] newBlog.entries installedDb where
  entries t dated := by
    have index : fmtDayIdx [] installedAt ≠ taiaPack t :=
      (taiaPack_ne_fmtDayIdx dated.clocked [] installedAt).symm
    rw [installedDb, fmtDayIdx_installedAt]
    by_cases same : installedAt = t
    · subst same
      simp [findAll, newBlog, index]
    · have entry : taiaPack installedAt ≠ taiaPack t := fun packed => same (taiaPack_injective packed)
      simp [findAll, newBlog, index, entry, same]
  index day := by
    have dated : Dated installedAt := ⟨by decide, by decide⟩
    have entry : taiaPack installedAt ≠ fmtDayIdx [] day :=
      taiaPack_ne_fmtDayIdx dated.clocked [] day
    have index := fmtDayIdx_eq_iff [] installedAt day
    rw [installedDb, fmtDayIdx_installedAt]
    by_cases same : dayOf [] installedAt = dayOf [] day
    · simp [findAll, newBlog, entry, index.2 same, same]
    · simp [findAll, newBlog, entry, mt index.1 same, same]
  dated e member := by
    obtain rfl := List.mem_singleton.1 member
    exact ⟨by decide, by decide⟩
  ordered := List.pairwise_singleton _ _

/-- **An installation opens a run.** -/
theorem opens_installed : Opens [] newBlog installed where
  blog := ⟨installedDb, rfl, stored_installedDb⟩
  sessions := rfl

/-- Some seconds after noon of the next day. -/
def HttpRequest.later (n : UInt64) : HttpRequest :=
  let t : Taia := ⟨0x400000004c330000 + n, 0, 0⟩
  { HttpRequest.blank with
    left := zeros fmtTaiaHex
    now := t
    validateAt := t
    loginAt := t
    loginClk _ := t
    entryAt := t
    modifiedAt := t
    sha256 := sha256Installed }

/-- Somebody posts the password, and an entry with it. -/
def postsHello : HttpRequest :=
  { HttpRequest.later 0 with postData := str "login=admin&action=add&input=hello" }

/-- A request at one time, which does not modify. -/
structure HttpRequest.Plain (req : HttpRequest) : Prop where
  table : req.leapsecs = []
  buffer : req.left.length = fmtTaiaHex
  login : req.loginAt = req.validateAt
  ticks : ∀ i, req.loginClk i = req.validateAt
  label : req.validateAt.sec.toNat < 2 ^ 63
  dated : Dated req.entryAt
  modifies : req.action ≠ .qaModifyPost

theorem HttpRequest.Plain.clock {req : HttpRequest} (plain : req.Plain) {t : Taia}
    (reads : req.Reads t) : t = req.validateAt := by
  rcases reads with rfl | rfl | ⟨i, rfl⟩
  · rfl
  · exact plain.login
  · exact plain.ticks i

theorem plain_postsHello : postsHello.Plain :=
  ⟨rfl, rfl, rfl, fun _ => rfl, by decide, ⟨by decide, by decide⟩, by decide +kernel⟩

/-- Visits after a first one, in the order of their times, without a login. -/
theorem regular_of_plain {v : Visit} {later : List Visit}
    (plain : ∀ w ∈ v :: later, w.req.Plain)
    (newer : ∀ w ∈ v :: later, installedAt.value < w.req.entryAt.value)
    (refused : ∀ w ∈ later, w.accepted = false)
    (forward : (v :: later).Pairwise fun v w => v.req.validateAt.value ≤ w.req.validateAt.value)
    (stamps : (v :: later).Pairwise fun v w => w.Adds → v.req.entryAt.value < w.req.entryAt.value) :
    Regular [] newBlog (v :: later) where
  table w member := (plain w member).table
  buffer w member := (plain w member).buffer
  opened := .nil
  issued a inside := absurd inside List.not_mem_nil
  since a inside := absurd inside List.not_mem_nil
  forward := by
    refine forward.imp_of_mem fun {w w'} member member' before t t' reads reads' => ?_
    rw [(plain w member).clock reads, (plain w' member').clock reads']
    exact before
  labels w member t reads := by
    rw [(plain w member).clock reads]
    exact (plain w member).label
  distinct := by
    have none_ : ∀ w ∈ later, w.accepted ≠ true := fun w member accepted =>
      Bool.false_ne_true ((refused w member).symm.trans accepted)
    refine List.pairwise_cons.2 ⟨fun w member _ accepted => absurd accepted (none_ w member), ?_⟩
    exact List.pairwise_of_forall_mem_list fun _ _ w member _ accepted =>
      absurd accepted (none_ w member)
  dated w member _ := (plain w member).dated
  newer x there w member _ := by
    obtain rfl := List.mem_singleton.1 there
    exact newer w member
  increasing := stamps.imp fun before _ adds => before adds
  live := by
    intro past w after split k text change
    have orders := orders_of_change change
    have modifies := (plain w (split ▸ List.mem_append_right _ List.mem_cons_self)).modifies
    rw [HttpRequest.orders] at orders
    cases act : w.req.action <;> simp only [act, reduceCtorEq, Option.some.injEq] at orders
    exact absurd act modifies

theorem stamps_of_rising {visits : List Visit}
    (rising : visits.Pairwise fun v w => v.req.entryAt.value < w.req.entryAt.value) :
    visits.Pairwise fun v w => w.Adds → v.req.entryAt.value < w.req.entryAt.value := by
  refine rising.imp ?_
  intro v w before _
  exact before

/-! ### Runs of them -/

/-- The server serves some requests. -/
def serveEach : List HttpRequest → Server → M Server
  | [], s => .ret s
  | req :: reqs, s => serve req s >>= serveEach reqs

/-- Requests that post no password are visits like any others. -/
theorem Visited.serveEach {fs₀ fs t : Fs} {visits : List Visit} {reqs : List HttpRequest}
    {s s' : Server} (visited : Visited fs₀ visits s fs)
    (no : ∀ req ∈ reqs, postLogin.value req = none)
    (ran : exec (Bagunceiro.serveEach reqs s) fs = (.ok s', t)) :
    Visited fs₀ (visits ++ reqs.map (⟨·, false⟩)) s' t := by
  induction reqs generalizing visits s fs with
  | nil =>
      cases ran
      simpa using visited
  | cons req reqs ih =>
      rw [List.forall_mem_cons] at no
      obtain ⟨s₁, fs₁, first, rest⟩ := Prog.exists_of_run_bind handle ran
      have refused : acceptsLogin req fs = false := by simp [acceptsLogin, no.1]
      have next := Visited.serve visited (.inl rfl) req first
      rw [refused] at next
      rw [List.map_cons, List.append_cons]
      exact ih next no.2 rest

/-- The server serves the first of them, and others later. -/
theorem visited_postsHello (later : List HttpRequest) (p : Server → Bool)
    (no : ∀ req ∈ later, postLogin.value req = none)
    (ends : (exec (startServer >>= serveEach (postsHello :: later)) installed).1.toOption.any p =
      true) :
    ∃ s fs, Visited installed (⟨postsHello, true⟩ :: later.map (⟨·, false⟩)) s fs ∧ p s = true := by
  cases result : exec (startServer >>= serveEach (postsHello :: later)) installed with
  | mk r fs =>
      rw [result] at ends
      cases r with
      | error e => cases ends
      | ok s =>
          obtain ⟨s₀, fs₀, started, ran⟩ := Prog.exists_of_run_bind handle result
          obtain ⟨s₁, fs₁, first, rest⟩ := Prog.exists_of_run_bind handle ran
          obtain rfl : fs₀ = installed := ensures_startServer.of_ok rfl started
          have accepted : acceptsLogin postsHello installed = true := by decide +kernel
          have visited := Visited.serve (.start started) (.inl rfl) postsHello first
          rw [accepted] at visited
          exact ⟨s, fs, visited.serveEach no rest, ends⟩

end Bagunceiro
