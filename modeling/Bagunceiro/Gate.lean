/-
# Gate -- the two sides of the access gate

Whoever shows neither a session nor the password gets to the two public actions
only, and no file changes (`unauthenticated_changes_nothing`).

The gate compares numbers of an enumeration in which logging out comes after the
public actions, and logging out has taken the privileges away before: so it is
one more action that is not let through, and sessions outlive it
(`logout_ends_nothing`).
-/
import Bagunceiro.Requests

namespace Bagunceiro

open Effect

set_option autoImplicit false

/-! ## In front of the gate -/

/-- The actions of administrators. -/
def administrative : List Qaction :=
  [.qaDelete, .qaAdd, .qaAddPost, .qaModify, .qaModifyPost, .qaConfig, .qaConfigPost]

/-- **Nothing without authentication.**  Whatever its three strings are, a
request without an unexpired session and without an accepted password gets to
none of the administrators' branches, and all files stay as they are, also when
serving it stops at a fault. -/
theorem unauthenticated_changes_nothing {s : Server} {fs : Fs} (reached : Reachable s fs)
    (req : HttpRequest) (unauth : Unauthenticated req fs) :
    (∀ s' t, exec (parseRequest req s) fs = (.ok s', t) → branch s' ∉ administrative) ∧
      (exec (serve req s) fs).2 = fs := by
  constructor
  · intro s' t ran
    obtain ⟨-, auth⟩ := (unauth.ensures_parse reached.own s).of_ok rfl ran
    rcases branch_of_not_auth auth with public_ | public_ <;> rw [public_] <;> decide
  · exact (unauth.ensures_serve reached.own s).state rfl

/-- A deletion and a password in one request, under the cookie of a session that
has run out. -/
theorem unauthenticated_changes_nothing_sample :
    let id := sessionId fun _ => 10
    let old : Taia := ⟨epoch - 43200, 0, 0⟩
    let fs := ((Fs.empty.install sessionDb (.finished [sessionRecord id old])).install confDb
      (.finished [⟨confPass, str "secret"⟩])).install dbFile (.finished [⟨[1], [2]⟩])
    let req := { HttpRequest.blank with
      cookie := some (str "sid=" ++ id)
      queryString := some (str "del=12ab")
      postData := str "login=guess&action=config&pass=mine" }
    ∃ s, exec startServer fs = (.ok s, fs) ∧
      (∀ s' t, exec (parseRequest req s) fs = (.ok s', t) → branch s' ∉ administrative) ∧
      (exec (serve req s) fs).2 = fs := by
  intro id old fs req
  have sessions : fs.content sessionDb = some (.finished [sessionRecord id old]) := rfl
  have own : OwnSessions fs := .of_issued sessions
  have unauth : Unauthenticated req fs := by
    constructor
    · rintro ⟨id', c, cookie, holds, valid⟩
      rw [sessions] at holds
      cases holds
      have carried : cookieSid.value req = some id := by decide +kernel
      rw [carried] at cookie
      cases cookie
      revert valid
      decide +kernel
    · rintro ⟨pass, c, posted, holds, accepted⟩
      have stored : fs.content confDb = some (.finished [⟨confPass, str "secret"⟩]) := rfl
      rw [stored] at holds
      cases holds
      have carried : postLogin.value req = some (str "guess") := by decide +kernel
      rw [carried] at posted
      cases posted
      revert accepted
      decide +kernel
  obtain ⟨s, ran⟩ : ∃ s, exec startServer fs = (.ok s, fs) := ⟨_, rfl⟩
  exact ⟨s, ran, unauthenticated_changes_nothing (.start own ran) req unauth⟩

/-! ## Behind the gate -/

theorem isExpired_append {v : Bytes} (whole : v.length = taiaPackSize) (now : Taia) (rest : Bytes) :
    isExpired now (v ++ rest) = isExpired now v := by
  rw [isExpired, taiaUnpack_append whole]
  rfl

/-- A login by somebody else does not end a session. -/
theorem LoginWrites.keeps_session {req : HttpRequest} {fs t : Fs} (writes : LoginWrites req fs t)
    (own : OwnSessions fs) {c : Content} (holds : fs.content sessionDb = some c) {now : Taia}
    (later : ∀ i, (req.loginClk i).value ≤ now.value) {id : Bytes}
    (valid : sessionValid c.records now id = true) :
    ∃ c', t.content sessionDb = some c' ∧ sessionValid c'.records now id = true := by
  rcases writes.sessions with ⟨absent, -⟩ | ⟨old, before, after⟩
  · rw [holds] at absent
    cases absent
  · rw [recordsAt_of_content holds] at before
    rw [before] at valid
    refine ⟨_, after, ?_⟩
    obtain ⟨v, vs, found, lasts⟩ := sessionValid_iff.1 valid
    have whole : v.length = taiaPackSize := by
      have inside : v ∈ findAll (some old) id := found ▸ List.mem_cons_self
      obtain ⟨r, member, value⟩ := List.mem_map.1 inside
      have file := (recordsAt_of_content holds).trans before
      exact value ▸ (mem_of_recordsAt own file (List.mem_filter.1 member).1).2
    rw [isExpired_append whole] at lasts
    have stays : ∀ i r, r.key = id → r.value = v → batchKeeps [filterExpired]
        (loginChanges (sessionId req.rand) req.loginAt) (req.loginClk i) r = true := by
      rintro i r - rfl
      rw [batchKeeps_login, Bool.not_eq_true']
      by_contra expired
      rw [Bool.not_eq_false] at expired
      rw [isExpired_mono (later i) expired] at lasts
      cases lasts
    obtain ⟨vs', kept⟩ := findAll_batchKept_head found stays
    have first : findAll (some (batchResult [filterExpired] req.loginClk
        (loginChanges (sessionId req.rand) req.loginAt) old)) id =
        v :: (vs' ++ findAll (some [sessionRecord (sessionId req.rand) req.loginAt]) id) := by
      rw [batchResult_login, findAll_append, kept]
      rfl
    exact sessionValid_iff.2 ⟨v, _, first, by rw [isExpired_append whole, lasts]⟩

/-- What a logout is for: at a later time none of the sessions there were is
valid. -/
def EndsSessions (before after : Fs) (now : Taia) : Prop :=
  ∀ recs, before.content sessionDb = some (.finished recs) → ∀ r ∈ recs, ∀ rest,
    exec (validateSessionId now (r.key ++ rest)) after = (.ok false, after)

/-- A session survives the logout of its own client. -/
theorem session_survives_logout {req : HttpRequest} {s s' : Server} {fs t : Fs}
    (own : OwnSessions fs) (logout : LogsOut req) (ran : exec (serve req s) fs = (.ok s', t))
    {c : Content} (holds : fs.content sessionDb = some c) {now : Taia}
    (later : ∀ i, (req.loginClk i).value ≤ now.value) {id : Bytes}
    (valid : sessionValid c.records now id = true) (rest : Bytes) :
    exec (validateSessionId now (id ++ rest)) t = (.ok true, t) := by
  have kept : Prog.Ensures handle (· = fs) (serve req s)
      (fun _ t => ∃ c', t.content sessionDb = some c' ∧ sessionValid c'.records now id = true)
      (fun _ => True) := by
    rw [serve]
    refine ((ensures_parseRequest req s own).mono (fun _ _ post => post)
      fun _ _ => True.intro).bind fun s₁ => Prog.Ensures.each fun t parsed => ?_
    have auth : s₁.conf.auth = false :=
      Bool.eq_false_iff.2 fun privileged => parsed.stays privileged logout
    obtain ⟨s₂, returns, -⟩ := handleQuery_of_not_auth req auth
    rw [returns]
    refine Prog.Ensures.ret fun t' same => ?_
    subst same
    rcases parsed.files with ⟨rfl, -⟩ | ⟨-, writes⟩
    · exact ⟨c, holds, valid⟩
    · exact writes.keeps_session own holds later valid
  obtain ⟨c', holds', valid'⟩ := kept.of_ok rfl ran
  obtain ⟨rand, rfl⟩ := own.id_of_valid holds valid
  rw [exec_validateSessionId now _ holds', ← sessionId_length rand, List.take_left, valid']

/-- **Logging out ends no session.**  In every state the server can reach, a
request with the logout parameter leaves the session of its client valid for as
long as it lasts anyway. -/
theorem logout_ends_nothing {s s' : Server} {fs t : Fs} (reached : Reachable s fs)
    (req : HttpRequest) (logout : LogsOut req) (ran : exec (serve req s) fs = (.ok s', t))
    (now : Taia) (later : ∀ i, (req.loginClk i).value ≤ now.value)
    (client : HoldsSession req fs now) : ¬ EndsSessions fs t now := by
  intro ends
  obtain ⟨id, c, -, holds, lasts⟩ := client
  have still := session_survives_logout reached.own logout ran holds later lasts []
  obtain ⟨recs, rfl, r, member, key⟩ := stored_of_valid lasts
  have ended := ends recs holds r member []
  rw [key, still] at ended
  cases ended

/-- An hour ago somebody logged in. -/
def loggedIn : Fs :=
  Fs.empty.install sessionDb
    (.finished [sessionRecord (sessionId fun _ => 10) ⟨epoch - 3600, 0, 0⟩])

/-- Now the same client logs out. -/
def logoutRequest : HttpRequest :=
  { HttpRequest.blank with
    cookie := some (str "sid=" ++ sessionId fun _ => 10)
    queryString := some (str "logout") }

theorem loggedIn_sessions : loggedIn.content sessionDb =
    some (.finished [sessionRecord (sessionId fun _ => 10) ⟨epoch - 3600, 0, 0⟩]) := rfl

theorem logoutRequest_logsOut : LogsOut logoutRequest := by
  rw [LogsOut]
  decide +kernel

theorem logoutRequest_clock (i : Nat) :
    (logoutRequest.loginClk i).value ≤ (⟨epoch + 1, 0, 0⟩ : Taia).value := by
  show (⟨epoch, 0, 0⟩ : Taia).value ≤ _
  decide +kernel

/-- It is served without a fault. -/
theorem logoutRequest_served : ∃ s s' t, exec startServer loggedIn = (.ok s, loggedIn) ∧
    exec (serve logoutRequest s) loggedIn = (.ok s', t) := ⟨_, _, _, rfl, rfl⟩

theorem logout_ends_nothing_sample :
    ∃ s s' t, exec startServer loggedIn = (.ok s, loggedIn) ∧
      exec (serve logoutRequest s) loggedIn = (.ok s', t) ∧
      ¬ EndsSessions loggedIn t ⟨epoch + 1, 0, 0⟩ := by
  obtain ⟨s, s', t, started, served⟩ := logoutRequest_served
  have client : HoldsSession logoutRequest loggedIn ⟨epoch + 1, 0, 0⟩ :=
    ⟨sessionId fun _ => 10, _, by decide +kernel, loggedIn_sessions, by decide +kernel⟩
  exact ⟨s, s', t, started, served, logout_ends_nothing
    (.start (.of_issued loggedIn_sessions) started) logoutRequest logoutRequest_logsOut served _
    logoutRequest_clock client⟩

/-- A second after the logout the id is still accepted. -/
theorem valid_after_logout :
    ∃ s s' t, exec startServer loggedIn = (.ok s, loggedIn) ∧
      exec (serve logoutRequest s) loggedIn = (.ok s', t) ∧
      exec (validateSessionId ⟨epoch + 1, 0, 0⟩ (sessionId fun _ => 10)) t = (.ok true, t) := by
  obtain ⟨s, s', t, started, served⟩ := logoutRequest_served
  have lasts : sessionValid
      (some [sessionRecord (sessionId fun _ => 10) ⟨epoch - 3600, 0, 0⟩]) ⟨epoch + 1, 0, 0⟩
      (sessionId fun _ => 10) = true := by decide +kernel
  have still := session_survives_logout (.of_issued loggedIn_sessions) logoutRequest_logsOut served
    loggedIn_sessions logoutRequest_clock lasts []
  rw [List.append_nil] at still
  exact ⟨s, s', t, started, served, still⟩

end Bagunceiro
