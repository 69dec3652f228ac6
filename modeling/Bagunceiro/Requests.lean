/-
# Requests -- what a request carries, and what serving it can change

A request proves who it comes from by a session id in its cookie or by the
password in its posted data (`CarriesSession`, `CarriesLogin`).  Parsing leaves
the privileges to those (`ensures_parseRequest`), and only a login writes a file
meanwhile.

The session cookie is copied to the front of a buffer that is looked up whole, so
a short cookie drags along what an earlier request left there.  Ids of the
program's own making (`OwnSessions`) have no zero byte, and are not found that
way.
-/
import Bagunceiro.Lib.Hoare
import Bagunceiro.HandleQuery
import Bagunceiro.Sessions

namespace Bagunceiro

open Effect

set_option autoImplicit false

/-! ## Rules -/

theorem ensures_written {α : Type} {e : Except Fault α} {pre : Fs → Prop} {post : α → Fs → Prop}
    {exc : Fs → Prop} (returns : ∀ a, e = .ok a → ∀ fs, pre fs → post a fs)
    (fails : ∀ fs, pre fs → exc fs) : Prog.Ensures handle pre (written e) post exc := by
  cases e with
  | ok a => exact Prog.Ensures.ret (returns a rfl)
  | error e => exact Prog.Ensures.fail fails

/-! ## What a request carries -/

/-- The decoded value of a parameter that is there and not too long. -/
def Site.value (site : Site) (req : HttpRequest) : Option Bytes :=
  match site.get req with
  | .ok p => if p.code = paramSuccess then some p.write.dropLast else none
  | .error _ => none

/-- The parameter is there, without a value or with one that nobody wants. -/
def Site.flag (site : Site) (req : HttpRequest) : Bool :=
  match site.get req with
  | .ok p => p.code = retNoValue
  | .error _ => false

theorem Site.flag_eq {site : Site} {req : HttpRequest} {p : Param} (got : site.get req = .ok p) :
    site.flag req = decide (p.code = retNoValue) := by
  rw [Site.flag, got]

theorem foundParam_success {val : Option Bytes} {n : Limit}
    (success : (foundParam val n).code = paramSuccess) :
    ∃ v, (foundParam val n).write = v ++ [0] ∧ (foundParam val n).bad = false := by
  cases val with
  | none => exact absurd success (by simp [foundParam, retNoValue, paramSuccess])
  | some v =>
      cases n with
      | noValue => exact absurd success (by simp [foundParam, retNoValue, paramSuccess])
      | unlimited => exact ⟨_, rfl, rfl⟩
      | upTo n =>
          unfold foundParam at success ⊢
          simp only at success ⊢
          split at success
          · exact absurd success (by decide)
          · rename_i short
            rw [if_neg short]
            exact ⟨_, rfl, rfl⟩

theorem searchParam_success {search : Bytes} {n : Limit} {queries : List Bytes} {p : Param}
    (found : searchParam search n queries = .ok p) (success : p.code = paramSuccess) :
    ∃ v, p.write = v ++ [0] ∧ p.bad = false := by
  induction queries with
  | nil =>
      cases found
      exact absurd success (by decide)
  | cons query rest ih =>
      rw [searchParam] at found
      split at found
      · cases found
      · split at found
        · cases found
          exact foundParam_success success
        · exact ih found

/-- An accepted parameter is written as a terminated string. -/
theorem Site.get_success {site : Site} {req : HttpRequest} {p : Param} (got : site.get req = .ok p)
    (success : p.code = paramSuccess) :
    ∃ v, site.value req = some v ∧ p.write = v ++ [0] ∧ p.bad = false := by
  have some_ : ∃ v, p.write = v ++ [0] ∧ p.bad = false := by
    rw [Site.get, getHttpParam] at got
    split at got
    · cases got
      exact absurd success (by decide)
    · exact searchParam_success got success
  obtain ⟨v, write, good⟩ := some_
  refine ⟨v, ?_, write, good⟩
  rw [Site.value]
  rw [got]
  simp only [success, if_true, write, List.dropLast_concat]

theorem Site.get_of_value {site : Site} {req : HttpRequest} {v : Bytes}
    (value : site.value req = some v) :
    ∃ p, site.get req = .ok p ∧ p.code = paramSuccess ∧ p.write = v ++ [0] ∧ p.bad = false := by
  rw [Site.value] at value
  cases got : site.get req with
  | error e =>
      rw [got] at value
      cases value
  | ok p =>
      rw [got] at value
      simp only at value
      split at value
      · rename_i success
        obtain ⟨w, -, write, good⟩ := Site.get_success got success
        rw [write, List.dropLast_concat, Option.some.injEq] at value
        exact ⟨p, rfl, success, by rw [write, value], good⟩
      · cases value

/-- The cookie is the id of a session that lasts; of a cookie that is one character
longer, the last one is not looked at. -/
def HoldsSession (req : HttpRequest) (fs : Fs) (now : Taia) : Prop :=
  ∃ id c, cookieSid.value req = some id ∧ fs.content sessionDb = some c ∧
    sessionValid c.records now (id.take sizeSessionId) = true

/-- It lasts when it is checked. -/
def CarriesSession (req : HttpRequest) (fs : Fs) : Prop := HoldsSession req fs req.validateAt

/-- The posted password is accepted. -/
def CarriesLogin (req : HttpRequest) (fs : Fs) : Prop :=
  ∃ pass c, postLogin.value req = some pass ∧ fs.content confDb = some c ∧
    passwordMatches c.records req.past (req.sha256 (cstr pass)) = true

/-- Neither of the two. -/
structure Unauthenticated (req : HttpRequest) (fs : Fs) : Prop where
  session : ¬ CarriesSession req fs
  login : ¬ CarriesLogin req fs

/-- The query string has the parameter that logs out. -/
def LogsOut (req : HttpRequest) : Prop := queryLogout.flag req = true

/-! ## Sessions of the program's own making -/

/-- Every stored session has an id and a time as `add_session_id` writes them. -/
def OwnSessions (fs : Fs) : Prop :=
  ∀ recs, fs.content sessionDb = some (.finished recs) →
    ∀ r ∈ recs, (∃ rand, r.key = sessionId rand) ∧ r.value.length = taiaPackSize

/-- One session, stored as it was issued. -/
theorem OwnSessions.of_issued {fs : Fs} {rand : Nat → Nat} {issued : Taia}
    (holds : fs.content sessionDb = some (.finished [sessionRecord (sessionId rand) issued])) :
    OwnSessions fs := by
  intro recs stored r member
  rw [holds] at stored
  cases stored
  rw [List.mem_singleton.1 member]
  exact ⟨⟨rand, rfl⟩, length_taiaPack _⟩

theorem zero_notMem_sessionId (rand : Nat → Nat) : (0 : UInt8) ∉ sessionId rand := by
  intro member
  obtain ⟨i, -, digit⟩ := List.mem_map.1 member
  have small : rand i % 16 < 16 := Nat.mod_lt _ (by decide)
  revert digit
  generalize rand i % 16 = n at small
  revert n
  decide

/-- A valid session is stored. -/
theorem stored_of_valid {c : Content} {now : Taia} {id : Bytes}
    (valid : sessionValid c.records now id = true) :
    ∃ recs, c = .finished recs ∧ ∃ r ∈ recs, r.key = id := by
  obtain ⟨v, vs, found, -⟩ := sessionValid_iff.1 valid
  cases c with
  | empty => cases found
  | finished recs =>
      have inside : v ∈ findAll (some recs) id := found ▸ List.mem_cons_self
      obtain ⟨r, member, -⟩ := List.mem_map.1 inside
      rw [List.mem_filter, decide_eq_true_eq] at member
      exact ⟨recs, rfl, r, member⟩
  | unfinished recs => cases found
  | clobbered => cases found

/-- Only ids of full length without a zero byte are found. -/
theorem OwnSessions.id_of_valid {fs : Fs} (own : OwnSessions fs) {c : Content}
    (holds : fs.content sessionDb = some c) {now : Taia} {id : Bytes}
    (valid : sessionValid c.records now id = true) : ∃ rand, id = sessionId rand := by
  obtain ⟨recs, rfl, r, member, rfl⟩ := stored_of_valid valid
  exact (own recs holds r member).1

/-- What stands behind a cookie's terminator does not matter. -/
theorem OwnSessions.validate {fs : Fs} (own : OwnSessions fs) {c : Content}
    (holds : fs.content sessionDb = some c) (now : Taia) (id rest : Bytes) :
    exec (validateSessionId now ((id ++ [0]).take (sizeSessionId + 1) ++ rest)) fs =
      (.ok (sessionValid c.records now (id.take sizeSessionId)), fs) := by
  rw [exec_validateSessionId now _ holds]
  rcases Nat.lt_or_ge id.length sizeSessionId with short | full
  · -- both keys are no ids: one has a zero byte, the other one is too short
    have whole : (id ++ [0]).take (sizeSessionId + 1) = id ++ [0] :=
      List.take_of_length_le (by rw [List.length_append, List.length_singleton]; omega)
    have long : sessionValid c.records now ((id ++ [0] ++ rest).take sizeSessionId) = false := by
      rw [Bool.eq_false_iff]
      intro valid
      obtain ⟨rand, same⟩ := own.id_of_valid holds valid
      obtain ⟨k, size⟩ := Nat.exists_eq_add_of_lt short
      apply zero_notMem_sessionId rand
      rw [← same, size, Nat.add_assoc, List.append_assoc, List.take_length_add_append,
        List.singleton_append, List.take_succ_cons]
      exact List.mem_append_right _ List.mem_cons_self
    have exact_ : sessionValid c.records now (id.take sizeSessionId) = false := by
      rw [List.take_of_length_le (Nat.le_of_lt short), Bool.eq_false_iff]
      intro valid
      obtain ⟨rand, rfl⟩ := own.id_of_valid holds valid
      rw [sessionId_length] at short
      exact Nat.lt_irrefl _ short
    rw [whole, long, exact_]
  · have front : ((id ++ [0]).take (sizeSessionId + 1) ++ rest).take sizeSessionId =
        id.take sizeSessionId := by
      rw [List.take_append_of_le_length (by simp; omega), List.take_take,
        Nat.min_eq_left (Nat.le_succ _), List.take_append_of_le_length full]
    rw [front]

/-- A check of the cookie's buffer is a check of the cookie. -/
theorem OwnSessions.ensures_validate {fs : Fs} (own : OwnSessions fs) (now : Taia)
    {buf id : Bytes} (buffer : ∃ rest, buf = (id ++ [0]).take (sizeSessionId + 1) ++ rest) :
    Prog.Ensures handle (· = fs) (validateSessionId now buf)
      (fun auth t => t = fs ∧ (auth = true → ∃ c, fs.content sessionDb = some c ∧
        sessionValid c.records now (id.take sizeSessionId) = true)) (· = fs) := by
  obtain ⟨rest, rfl⟩ := buffer
  rintro t rfl
  cases holds : t.content sessionDb with
  | none =>
      have ran := exec_validateSessionId_absent now
        ((id ++ [0]).take (sizeSessionId + 1) ++ rest) holds
      rw [exec] at ran
      rw [ran]
  | some c =>
      have ran := own.validate holds now id rest
      rw [exec] at ran
      rw [ran]
      exact ⟨rfl, fun valid => ⟨c, rfl, valid⟩⟩

/-- What a login makes of the files. -/
structure LoginWrites (req : HttpRequest) (fs t : Fs) : Prop where
  others : ∀ p, p ≠ sessionDb → p ≠ tmpName sessionDb → t.content p = fs.content p
  sessions : fs.content sessionDb = none ∧ t.content sessionDb = none ∨
    ∃ old, recordsAt fs sessionDb = some old ∧
      t.content sessionDb = some (.finished (batchResult [filterExpired] req.loginClk
        (loginChanges (sessionId req.rand) req.loginAt) old))

theorem ensures_addSessionId (req : HttpRequest) (buf : Bytes) (fs : Fs) :
    Prog.Ensures handle (· = fs)
      (addSessionId req.loginMemory req.loginClk req.loginAt req.rand buf)
      (fun _ t => LoginWrites req fs t) (fun _ => True) := by
  rw [addSessionId_eq]
  suffices modify : Prog.Ensures handle (· = fs)
      (cdbbModify req.loginMemory req.loginClk sessionDb
        (loginChanges (sessionId req.rand) req.loginAt) [filterExpired])
      (fun _ t => LoginWrites req fs t) (fun _ => True) from
    modify.bind fun err => Prog.Ensures.ret fun t writes => writes
  refine .of_run (fun t err t' same ran => ?_) fun _ _ _ _ _ => True.intro
  subst same
  have spec := exec_cdbbModify req.loginMemory req.loginClk sessionDb
    (loginChanges (sessionId req.rand) req.loginAt) [filterExpired] t
  rw [exec] at spec
  rw [ran] at spec
  obtain ⟨outcome, others⟩ := spec
  refine ⟨others, ?_⟩
  rcases modifyOutcome_cases req.loginMemory req.loginClk
    (loginChanges (sessionId req.rand) req.loginAt) [filterExpired] (t.content sessionDb) with
    ⟨old, file, -, new⟩ | ⟨absent, kept⟩ | ⟨e, stopped⟩
  · rw [new] at outcome
    have posed := posed_loginChanges (sessionId req.rand) (sessionId_ne_nil req.rand) req.loginAt old
    have content := (Prod.mk.inj outcome).2
    rw [newRecords_eq _ _ _ posed, if_neg (by rw [batchResult_login]; simp)] at content
    exact .inr ⟨old, file, content⟩
  · rw [kept] at outcome
    exact .inl ⟨absent, ((Prod.mk.inj outcome).2).trans absent⟩
  · rw [stopped] at outcome
    cases (Prod.mk.inj outcome).1

theorem ensures_authConf (req : HttpRequest) (input : Bytes) (fs : Fs) :
    Prog.Ensures handle (· = fs) (authConf req.sha256 req.past input)
      (fun auth t => t = fs ∧ (auth = true → ∃ c, fs.content confDb = some c ∧
        passwordMatches c.records req.past (req.sha256 input) = true)) (· = fs) := by
  rintro t rfl
  cases holds : t.content confDb with
  | none =>
      have ran := exec_authConf_absent req.sha256 req.past input holds
      rw [exec] at ran
      rw [ran]
  | some c =>
      have ran := exec_authConf req.sha256 req.past input holds
      rw [exec] at ran
      rw [ran]
      exact ⟨rfl, fun accepted => ⟨c, rfl, accepted⟩⟩

/-! ## Parsing -/

theorem readLocal_ok {req : HttpRequest} {site : Site} {size : Nat} {s s' : Server} {err : Int}
    {text : Bytes} (read : readLocal req site size s = .ok (err, text, s')) :
    ∃ p, site.get req = .ok p ∧ err = p.code ∧ text = cstr p.write ∧ s' = s.noted p := by
  rw [readLocal] at read
  cases got : site.get req with
  | error e =>
      rw [got] at read
      cases read
  | ok p =>
      rw [got] at read
      cases stored : store size [] p.write with
      | error e =>
          simp only [bind, Except.bind, stored] at read
          cases read
      | ok buffer =>
          have whole : buffer = p.write := by
            rw [(store_ok stored).2, List.drop_nil, List.append_nil]
          simp only [bind, Except.bind, stored, pure, Except.pure, Except.ok.injEq,
            Prod.mk.injEq] at read
          obtain ⟨rfl, rfl, rfl⟩ := read
          exact ⟨p, rfl, rfl, by rw [whole], rfl⟩

@[simp] theorem Server.noted_conf (s : Server) (p : Param) : (s.noted p).conf = s.conf := by
  rw [Server.noted]
  split <;> rfl

theorem storeSid_ok {conf stored : Blog} {new : Bytes} (ok : storeSid conf new = .ok stored) :
    stored =
      { conf with
        sid := new.take (sizeSessionId + 1) ++ conf.sid.drop new.length
        title := new.drop (sizeSessionId + 1) ++
          conf.title.drop (new.length - (sizeSessionId + 1)) } := by
  rw [storeSid] at ok
  split at ok
  · exact (Except.ok.inj ok).symm
  · cases ok

/-- The session cookie: nothing is written, and only an unexpired session counts. -/
theorem ensures_parseSid (req : HttpRequest) (s : Server) {fs : Fs} (own : OwnSessions fs) :
    Prog.Ensures handle (· = fs) (parseSid req s)
      (fun s' t => t = fs ∧ (s'.conf.auth = true → CarriesSession req fs)) (· = fs) := by
  rw [parseSid]
  simp only
  cases got : cookieSid.get req with
  | error e => exact Prog.Ensures.fail fun t same => same
  | ok p =>
      show Prog.Ensures handle _ (written (storeSid _ p.write) >>= _) _ _
      cases stored : storeSid _ p.write with
      | error e => exact Prog.Ensures.fail fun t same => same
      | ok conf =>
          have is := storeSid_ok stored
          simp only [written, Prog.ret_bind]
          rw [Server.noted_conf]
          split
          · rename_i success
            obtain ⟨id, value, write, -⟩ := Site.get_success got success
            have buffer : ∃ rest, (s.modConf fun _ => conf).conf.sid =
                (id ++ [0]).take (sizeSessionId + 1) ++ rest := by
              rw [← write]
              exact ⟨_, congrArg Blog.sid is⟩
            refine (own.ensures_validate req.validateAt buffer).bind fun auth => ?_
            refine Prog.Ensures.ret fun t checked => ⟨checked.1, fun valid => ?_⟩
            obtain ⟨c, holds, valid⟩ := checked.2 valid
            exact ⟨id, c, value, holds, valid⟩
          · refine Prog.Ensures.ret fun t same => ⟨same, fun auth => ?_⟩
            rw [Server.noted_conf] at auth
            have none_ : conf.auth = false := congrArg Blog.auth is
            exact absurd auth (Bool.eq_false_iff.1 none_)

/-- The posted password: only an accepted one gives privileges and writes. -/
theorem ensures_parseLogin (req : HttpRequest) (s : Server) (fs : Fs) :
    Prog.Ensures handle (· = fs) (parseLogin req s)
      (fun s' t => t = fs ∧ (s'.conf.auth = true → s.conf.auth = true) ∨
        CarriesLogin req fs ∧ LoginWrites req fs t)
      (fun t => t = fs ∨ CarriesLogin req fs) := by
  rw [parseLogin]
  cases read : readLocal req postLogin 10 s with
  | error e => exact Prog.Ensures.fail fun t same => .inl same
  | ok result =>
      obtain ⟨err, text, s₁⟩ := result
      obtain ⟨p, got, rfl, rfl, rfl⟩ := readLocal_ok read
      simp only [written, Prog.ret_bind]
      split
      · rename_i success
        obtain ⟨pass, value, write, -⟩ := Site.get_success got success
        have check : Prog.Ensures handle (· = fs) (authConf req.sha256 req.past (cstr p.write))
            (fun auth t => t = fs ∧ (auth = true → CarriesLogin req fs))
            (fun t => t = fs ∨ CarriesLogin req fs) := by
          refine (ensures_authConf req (cstr p.write) fs).mono (fun auth t checked => ?_)
            fun t => .inl
          refine ⟨checked.1, fun accepted => ?_⟩
          obtain ⟨c, holds, accepted⟩ := checked.2 accepted
          rw [write, cstr_concat_zero] at accepted
          exact ⟨pass, c, value, holds, accepted⟩
        refine check.bind fun auth => Prog.Ensures.each fun t checked => ?_
        obtain ⟨rfl, accepted⟩ := checked
        cases auth with
        | false =>
            simp only [Bool.false_eq_true, if_false]
            refine Prog.Ensures.ret fun t same => .inl ⟨same, fun auth => ?_⟩
            simp [Server.modConf] at auth
        | true =>
            have carries := accepted rfl
            have login (buf : Bytes) : Prog.Ensures handle (· = t)
                (addSessionId req.loginMemory req.loginClk req.loginAt req.rand buf)
                (fun _ t' => LoginWrites req t t') (fun t' => t' = t ∨ CarriesLogin req t) :=
              (ensures_addSessionId req buf t).mono (fun _ _ writes => writes) fun _ _ => .inr carries
            simp only [if_true]
            refine Prog.Ensures.bind (login _) fun added => ?_
            exact Prog.Ensures.ret fun t' writes => .inr ⟨carries, writes⟩
      · refine Prog.Ensures.ret fun t same => .inl ⟨same, fun auth => ?_⟩
        rw [Server.noted_conf] at auth
        exact auth

/-- The query string's two parameters only take privileges away. -/
theorem parseLogout_auth {req : HttpRequest} {s s' : Server} (parsed : parseLogout req s = .ok s')
    (auth : s'.conf.auth = true) : s.conf.auth = true ∧ ¬ LogsOut req := by
  rw [parseLogout] at parsed
  cases login : queryLogin.get req with
  | error e =>
      rw [login] at parsed
      cases parsed
  | ok p =>
      cases logout : queryLogout.get req with
      | error e =>
          simp only [login, logout, bind, Except.bind] at parsed
          cases parsed
      | ok q =>
          simp only [login, logout, bind, Except.bind, pure, Except.pure, Except.ok.injEq] at parsed
          subst parsed
          by_cases out : q.code = retNoValue
          · simp [out, Server.modConf] at auth
          · refine ⟨?_, ?_⟩
            · rw [if_neg out] at auth
              revert auth
              split <;> exact id
            · intro logsOut
              rw [LogsOut, Site.flag_eq logout, decide_eq_true_eq] at logsOut
              exact out logsOut

@[simp] theorem checkTs_auth (s : Server) : (checkTs s).conf.auth = s.conf.auth := by
  rw [checkTs]
  split <;> rfl

@[simp] theorem checkCss_auth (req : HttpRequest) (s : Server) :
    (checkCss req s).conf.auth = s.conf.auth := by
  rw [checkCss]
  split <;> rfl

/-- What parsing can leave: the files as they were, or a login, and no privileges
after a logout. -/
structure Parsed (req : HttpRequest) (fs : Fs) (auth : Bool) (t : Fs) : Prop where
  files : t = fs ∧ (auth = true → CarriesSession req fs) ∨
    CarriesLogin req fs ∧ LoginWrites req fs t
  stays : auth = true → ¬ LogsOut req

theorem ensures_doAdminPassMode (req : HttpRequest) (s : Server) {fs : Fs} (own : OwnSessions fs) :
    Prog.Ensures handle (· = fs) (doAdminPassMode req s)
      (fun s' t => Parsed req fs s'.conf.auth t) (fun t => t = fs ∨ CarriesLogin req fs) := by
  rw [doAdminPassMode]
  refine ((ensures_parseSid req s own).mono (fun _ _ post => post) fun t => .inl).bind fun s₁ => ?_
  refine Prog.Ensures.each fun t sid => ?_
  obtain ⟨rfl, session⟩ := sid
  refine (ensures_parseLogin req s₁ t).bind fun s₂ => ?_
  refine ensures_written (fun s₃ parsed t' login => ?_) fun t' login => ?_
  · refine ⟨?_, fun privileged => (parseLogout_auth parsed privileged).2⟩
    rcases login with ⟨same, auth⟩ | login
    · exact .inl ⟨same, fun privileged => session (auth (parseLogout_auth parsed privileged).1)⟩
    · exact .inr login
  · rcases login with ⟨same, -⟩ | ⟨carries, -⟩
    · exact .inl same
    · exact .inr carries

/-- **Parsing gives privileges to those who carry them, and to nobody else.** -/
theorem ensures_parseRequest (req : HttpRequest) (s : Server) {fs : Fs} (own : OwnSessions fs) :
    Prog.Ensures handle (· = fs) (parseRequest req s)
      (fun s' t => Parsed req fs s'.conf.auth t) (fun t => t = fs ∨ CarriesLogin req fs) := by
  have pure_ {e : Except Fault Server} : Prog.Ensures handle (· = fs) (written e)
      (fun _ t => t = fs) (fun t => t = fs ∨ CarriesLogin req fs) :=
    ensures_written (fun _ _ _ same => same) fun _ => .inl
  rw [parseRequest]
  refine pure_.bind fun s₁ => pure_.bind fun s₂ => pure_.bind fun s₃ => ?_
  refine (ensures_doAdminPassMode req s₃ own).bind fun s₄ => ?_
  refine Prog.Ensures.ret fun t parsed => ?_
  show Parsed req fs (checkCss req (checkTs s₄)).conf.auth t
  rw [checkCss_auth, checkTs_auth]
  exact parsed

/-! ## Serving without privileges -/

/-- Who shows neither a session nor the password is not let in. -/
theorem Unauthenticated.ensures_parse {req : HttpRequest} {fs : Fs} (unauth : Unauthenticated req fs)
    (own : OwnSessions fs) (s : Server) :
    Prog.Ensures handle (· = fs) (parseRequest req s)
      (fun s' t => t = fs ∧ s'.conf.auth = false) (· = fs) := by
  refine (ensures_parseRequest req s own).mono (fun s' t parsed => ?_) fun t ended => ?_
  · rcases parsed.files with ⟨same, session⟩ | ⟨carries, -⟩
    · exact ⟨same, Bool.eq_false_iff.2 fun auth => unauth.session (session auth)⟩
    · exact absurd carries unauth.login
  · rcases ended with same | carries
    · exact same
    · exact absurd carries unauth.login

theorem Unauthenticated.ensures_serve {req : HttpRequest} {fs : Fs} (unauth : Unauthenticated req fs)
    (own : OwnSessions fs) (s : Server) :
    Prog.Ensures handle (· = fs) (serve req s) (fun _ t => t = fs) (· = fs) := by
  rw [serve]
  refine (unauth.ensures_parse own s).bind fun s' => Prog.Ensures.each fun t parsed => ?_
  obtain ⟨rfl, auth⟩ := parsed
  obtain ⟨s'', returns, -⟩ := handleQuery_of_not_auth req auth
  rw [returns]
  exact Prog.Ensures.ret fun _ same => same

/-! ## Serving -/

theorem LoginWrites.own {req : HttpRequest} {fs t : Fs} (writes : LoginWrites req fs t)
    (own : OwnSessions fs) : OwnSessions t := by
  intro recs holds r member
  rcases writes.sessions with ⟨-, absent⟩ | ⟨old, before, after⟩
  · rw [absent] at holds
    cases holds
  · rw [after] at holds
    cases holds
    rw [batchResult_login, List.mem_append, List.mem_singleton] at member
    rcases member with kept | rfl
    · exact mem_of_recordsAt own before ((batchKept_sublist _ _ _ _).subset kept)
    · exact ⟨⟨req.rand, rfl⟩, length_taiaPack _⟩

/-- Changes of the other databases leave the sessions alone. -/
theorem ensures_cdbbModify_own (memory : Nat → Slot) (clk : Nat → Taia) {f : Path}
    (batch : List Change) (fil : List Filter) {fs : Fs} (own : OwnSessions fs)
    (ne : sessionDb ≠ f) (neTmp : sessionDb ≠ tmpName f) :
    Prog.Ensures handle (· = fs) (cdbbModify memory clk f batch fil) (fun _ t => OwnSessions t)
      (fun _ => True) := by
  refine .of_run (fun t err t' same ran => ?_) fun _ _ _ _ _ => True.intro
  subst same
  have spec := (exec_cdbbModify memory clk f batch fil t).2 sessionDb ne neTmp
  rw [exec] at spec
  rw [ran] at spec
  intro recs holds
  rw [spec] at holds
  exact own recs holds

theorem ensures_saveConfig_own (memory : Nat → Slot) (clk : Nat → Taia) (conf : Blog) {fs : Fs}
    (own : OwnSessions fs) :
    Prog.Ensures handle (· = fs) (saveConfig memory clk conf) (fun _ t => OwnSessions t)
      (fun _ => True) := by
  rw [saveConfig_eq]
  cases takeOver conf with
  | error e =>
      have start : Prog.Ensures handle (· = fs) (cdbbStartMod memory confDb) (fun _ _ => True)
          (fun _ => True) :=
        .of_run (fun _ _ _ _ _ => True.intro) fun _ _ _ _ _ => True.intro
      exact start.bind fun opened => Prog.Ensures.fail fun _ _ => True.intro
  | ok saved =>
      refine (ensures_cdbbModify_own memory clk (saveChanges conf) [] own (by decide)
        (by decide)).bind fun err => ?_
      split
      · exact Prog.Ensures.ret fun _ own => own
      · exact Prog.Ensures.fail fun _ _ => True.intro

theorem exec_expireAllSessions (fs : Fs) :
    exec expireAllSessions fs = (.ok 0, (fs.unlink sessionDb).install sessionDb .empty) := by
  have opened : exec (openFile sessionDb) (fs.unlink sessionDb) =
      (.ok (some (fs.unlink sessionDb).next), (fs.unlink sessionDb).install sessionDb .empty) := by
    show (Except.ok ((fs.unlink sessionDb).openFile sessionDb).1,
      ((fs.unlink sessionDb).openFile sessionDb).2) = _
    rw [Fs.openFile_of_none _ (Fs.dir_unlink_self fs sessionDb)]
  rw [expireAllSessions]
  show Prog.run handle (openFile sessionDb >>= fun _ => .ret 0) (fs.unlink sessionDb) = _
  rw [Prog.run_bind_ok handle opened]
  rfl

/-- A file without a byte holds no session. -/
theorem ensures_expireAllSessions_own {fs : Fs} :
    Prog.Ensures handle (· = fs) expireAllSessions (fun _ t => OwnSessions t)
      (fun _ => True) := by
  rintro t rfl
  have ran := exec_expireAllSessions t
  rw [exec] at ran
  rw [ran]
  intro recs holds
  rw [Fs.content_install_self] at holds
  cases holds

theorem ensures_modifyAction_own (k : Taia) (s : Server) {fs : Fs} (own : OwnSessions fs) :
    Prog.Ensures handle (· = fs) (modifyAction k s) (fun _ t => OwnSessions t)
      (fun _ => True) := by
  rw [modifyAction]
  have opens : Prog.Ensures handle (· = fs) (cdbbOpenRead dbFile) (fun _ t => t = fs)
      (fun _ => True) := fun _ same => same
  refine opens.bind fun opened => ?_
  cases opened with
  | none => exact Prog.Ensures.fail fun _ _ => True.intro
  | some r =>
      have reads : Prog.Ensures handle (· = fs) (showEntry r k ⟨[], []⟩) (fun _ t => t = fs)
          (fun _ => True) := fun _ same => same
      exact reads.bind fun entry => Prog.Ensures.ret fun t same => same ▸ own

theorem ensures_runAction_own (req : HttpRequest) (k : Taia) (s : Server) {fs : Fs}
    (own : OwnSessions fs) :
    Prog.Ensures handle (· = fs) (runAction req k s) (fun _ t => OwnSessions t)
      (fun _ => True) := by
  have keep (s' : Server) : Prog.Ensures handle (· = fs) (.ret s' : M Server)
      (fun _ t => OwnSessions t) (fun _ => True) := Prog.Ensures.ret fun t same => same ▸ own
  have change (batch : List Change) (f : Option Int → Server) : Prog.Ensures handle (· = fs)
      (cdbbModify req.memory req.clk dbFile batch [] >>= fun err => .ret (f err))
      (fun _ t => OwnSessions t) (fun _ => True) :=
    (ensures_cdbbModify_own _ _ batch [] own (by decide) (by decide)).bind fun err =>
      Prog.Ensures.ret fun _ own => own
  rw [runAction]
  split
  · exact keep _
  · exact keep _
  · exact change (addChanges req.leapsecs req.modifiedAt req.entryAt s.conf.qry.input) _
  · exact change (deleteChanges req.leapsecs req.modifiedAt k) _
  · exact ensures_modifyAction_own k s own
  · exact change (modifyChanges req.modifiedAt k s.conf.qry.input) _
  · exact keep _
  · exact (ensures_saveConfig_own req.memory req.clk _ own).bind fun conf =>
      Prog.Ensures.ret fun _ own => own
  · exact keep _
  · exact ensures_expireAllSessions_own.bind fun err => Prog.Ensures.ret fun _ own => own

/-- One request keeps the sessions the program's own. -/
theorem ensures_serve_own (req : HttpRequest) (s : Server) {fs : Fs} (own : OwnSessions fs) :
    Prog.Ensures handle (· = fs) (serve req s) (fun _ t => OwnSessions t) (fun _ => True) := by
  have parse := (ensures_parseRequest req s own).mono (fun _ _ parsed => parsed)
    fun _ _ => True.intro
  rw [serve]
  refine parse.bind fun s' => Prog.Ensures.each fun t parsed => ?_
  have own' : OwnSessions t := by
    rcases parsed.files with ⟨rfl, -⟩ | ⟨-, writes⟩
    · exact own
    · exact writes.own own
  exact ensures_runAction_own req _ _ own'

theorem ensures_startServer {fs : Fs} :
    Prog.Ensures handle (· = fs) startServer (fun _ t => t = fs) (fun _ => True) := by
  have read (r : Inode) (k : Bytes) (n : Nat) : Prog.Ensures handle (· = fs) (cdbbReadn r k n)
      (fun _ t => t = fs) (fun _ => True) := by
    have file : Prog.Ensures handle (· = fs) (records r) (fun _ t => t = fs) (fun _ => True) :=
      fun _ same => same
    rw [cdbbReadn]
    refine file.bind fun recs => ?_
    split
    · exact Prog.Ensures.ret fun _ same => same
    · split <;> exact Prog.Ensures.ret fun _ same => same
  have load (conf : Blog) : Prog.Ensures handle (· = fs) (loadConfig conf) (fun _ t => t = fs)
      (fun _ => True) := by
    have opens : Prog.Ensures handle (· = fs) (cdbbOpenRead confDb) (fun _ t => t = fs)
        (fun _ => True) := fun _ same => same
    rw [loadConfig]
    refine opens.bind fun opened => ?_
    split
    · exact Prog.Ensures.ret fun _ same => same
    · refine (read _ _ _).bind fun title => ?_
      simp only
      split
      · exact Prog.Ensures.ret fun _ same => same
      · refine (read _ _ _).bind fun tagline => ?_
        split
        · exact Prog.Ensures.ret fun _ same => same
        · refine (read _ _ _).bind fun sbox => ?_
          split <;> exact Prog.Ensures.ret fun _ same => same
  rw [startServer]
  exact (load _).bind fun loaded => Prog.Ensures.ret fun _ same => same

/-- What the server and its files can come to: started on sessions of its own
making, if any, and then serving one request after the other. -/
inductive Reachable : Server → Fs → Prop
  | start {fs t : Fs} {s : Server} (own : OwnSessions fs)
      (ran : exec startServer fs = (.ok s, t)) : Reachable s t
  | serve {fs t : Fs} {s s' : Server} (before : Reachable s fs) (req : HttpRequest)
      (ran : exec (serve req s) fs = (.ok s', t)) : Reachable s' t

theorem Reachable.own {s : Server} {fs : Fs} (reached : Reachable s fs) : OwnSessions fs := by
  induction reached with
  | start own ran => exact ensures_startServer.of_ok rfl ran ▸ own
  | serve before req ran ih => exact (ensures_serve_own req _ ih).of_ok rfl ran

end Bagunceiro
