/-
# Admission -- who is let in, and where a request ends up

Parsing settles two things.  The privileges are those of the posted password or,
without one, of the cookie's session, and a logout takes them away (`Admitted`).
The action is that of the form, unless the query string asks for the login page
or a logout, or for an entry by something that is no stamp
(`HttpRequest.action`).  Both depend on the request and on the files, and not on
what the server has served before (`parseRequest_settles`).
-/
import Bagunceiro.Keys
import Bagunceiro.Origins

namespace Bagunceiro

open Effect

set_option autoImplicit false

/-! ## Privileges -/

/-- The posted password is accepted. -/
def acceptsLogin (req : HttpRequest) (fs : Fs) : Bool :=
  match postLogin.value req, fs.content confDb with
  | some pass, some c => passwordMatches c.records req.past (req.sha256 (cstr pass))
  | _, _ => false

theorem acceptsLogin_iff {req : HttpRequest} {fs : Fs} :
    acceptsLogin req fs = true ↔ CarriesLogin req fs := by
  rw [acceptsLogin, CarriesLogin]
  cases postLogin.value req with
  | none => simp
  | some pass =>
      cases fs.content confDb with
      | none => simp
      | some c => simp

/-- A posted password decides and, without one, the session does; but not for
those who log out. -/
def Admitted (req : HttpRequest) (fs : Fs) : Prop :=
  ¬ LogsOut req ∧
    if (postLogin.value req).isSome then CarriesLogin req fs else CarriesSession req fs

section Privileges

variable {req : HttpRequest} {fs : Fs}

/-- A cookie's id is valid exactly when its session lasts. -/
theorem OwnSessions.ensures_validate_iff (own : OwnSessions fs) (now : Taia) {buf id : Bytes}
    (buffer : ∃ rest, buf = (id ++ [0]).take (sizeSessionId + 1) ++ rest) :
    Prog.Ensures handle (· = fs) (validateSessionId now buf)
      (fun auth t => t = fs ∧ (auth = true ↔ ∃ c, fs.content sessionDb = some c ∧
        sessionValid c.records now (id.take sizeSessionId) = true)) (fun _ => True) := by
  obtain ⟨rest, rfl⟩ := buffer
  refine .of_run (fun t auth t' same ran => ?_) fun _ _ _ _ _ => True.intro
  subst same
  cases holds : t.content sessionDb with
  | none =>
      have absent := exec_validateSessionId_absent now
        ((id ++ [0]).take (sizeSessionId + 1) ++ rest) holds
      rw [exec] at absent
      rw [absent] at ran
      cases ran
  | some c =>
      have there := own.validate holds now id rest
      rw [exec] at there
      rw [there] at ran
      cases ran
      simp

theorem ensures_parseSid_iff (s : Server) (own : OwnSessions fs) :
    Prog.Ensures handle (· = fs) (parseSid req s)
      (fun s' t => t = fs ∧ (s'.conf.auth = true ↔ CarriesSession req fs)) (fun _ => True) := by
  rw [parseSid]
  simp only
  cases got : cookieSid.get req with
  | error e => exact Prog.Ensures.fail fun _ _ => True.intro
  | ok p =>
      show Prog.Ensures handle _ (written (storeSid _ p.write) >>= _) _ _
      cases stored : storeSid _ p.write with
      | error e => exact Prog.Ensures.fail fun _ _ => True.intro
      | ok conf =>
          have is := storeSid_ok stored
          simp only [written, Prog.ret_bind]
          rw [Server.noted_conf]
          split
          · rename_i success
            obtain ⟨id, value, write, -⟩ := Site.get_success got success
            have buffer : ∃ rest, (s.modConf fun _ => conf).conf.sid =
                (id ++ [0]).take (sizeSessionId + 1) ++ rest := by
              rw [← write]
              exact ⟨_, congrArg Blog.sid is⟩
            refine (own.ensures_validate_iff req.validateAt buffer).bind fun auth => ?_
            refine Prog.Ensures.ret fun t checked => ⟨checked.1, checked.2.trans ?_⟩
            constructor
            · rintro ⟨c, holds, lasts⟩
              exact ⟨id, c, value, holds, lasts⟩
            · rintro ⟨id', c, value', holds, lasts⟩
              rw [value] at value'
              cases value'
              exact ⟨c, holds, lasts⟩
          · rename_i failed
            refine Prog.Ensures.ret fun t same => ⟨same, ?_⟩
            have absent : cookieSid.value req = none := by rw [Site.value_eq got, if_neg failed]
            have none_ : conf.auth = false := congrArg Blog.auth is
            rw [Server.noted_conf]
            refine iff_of_false (fun auth => absurd auth (Bool.eq_false_iff.1 none_)) ?_
            rintro ⟨id, c, value, -⟩
            rw [absent] at value
            cases value

theorem carriesLogin_iff {pass : Bytes} (posted : postLogin.value req = some pass) :
    CarriesLogin req fs ↔ ∃ c, fs.content confDb = some c ∧
      passwordMatches c.records req.past (req.sha256 (cstr pass)) = true := by
  rw [CarriesLogin, posted]
  simp

/-- A posted password takes the session's place, and an accepted one starts a
session. -/
structure LoggedIn (req : HttpRequest) (fs : Fs) (before after : Bool) (t : Fs) : Prop where
  auth : after = true ↔
    if (postLogin.value req).isSome then CarriesLogin req fs else before = true
  files : t = fs ∧ ¬ CarriesLogin req fs ∨ CarriesLogin req fs ∧ LoginWrites req fs t

theorem ensures_authConf_matches (req : HttpRequest) (input : Bytes) (fs : Fs) :
    Prog.Ensures handle (· = fs) (authConf req.sha256 req.past input)
      (fun auth t => t = fs ∧ (auth = true ↔ ∃ c, fs.content confDb = some c ∧
        passwordMatches c.records req.past (req.sha256 input) = true)) (fun _ => True) := by
  refine .of_run (fun t auth t' same ran => ?_) fun _ _ _ _ _ => True.intro
  subst same
  cases holds : t.content confDb with
  | none =>
      have absent := exec_authConf_absent req.sha256 req.past input holds
      rw [exec] at absent
      rw [absent] at ran
      cases ran
  | some c =>
      have there := exec_authConf req.sha256 req.past input holds
      rw [exec] at there
      rw [there] at ran
      cases ran
      simp

theorem ensures_parseLogin_iff (s : Server) :
    Prog.Ensures handle (· = fs) (parseLogin req s)
      (fun s' t => LoggedIn req fs s.conf.auth s'.conf.auth t) (fun _ => True) := by
  rw [parseLogin]
  cases read : readLocal req postLogin 10 s with
  | error e => exact Prog.Ensures.fail fun _ _ => True.intro
  | ok result =>
      obtain ⟨err, text, s₁⟩ := result
      obtain ⟨p, got, rfl, rfl, rfl⟩ := readLocal_ok read
      simp only [written, Prog.ret_bind]
      split
      · rename_i success
        obtain ⟨pass, value, write, -⟩ := Site.get_success got success
        have token : cstr p.write = cstr pass := by rw [write, cstr_concat_zero]
        have carries : CarriesLogin req fs ↔ ∃ c, fs.content confDb = some c ∧
            passwordMatches c.records req.past (req.sha256 (cstr p.write)) = true :=
          token ▸ carriesLogin_iff value
        refine (ensures_authConf_matches req (cstr p.write) fs).bind fun auth =>
          Prog.Ensures.each fun t checked => ?_
        obtain ⟨rfl, accepted⟩ := checked
        rw [← carries] at accepted
        cases auth with
        | false =>
            simp only [Bool.false_eq_true, if_false]
            refine Prog.Ensures.ret fun t' same => ?_
            have refused : ¬ CarriesLogin req t := fun carried => by simpa using accepted.2 carried
            refine ⟨?_, .inl ⟨same, refused⟩⟩
            simp [value, refused, Server.modConf]
        | true =>
            have carried := accepted.1 rfl
            simp only [if_true]
            refine Prog.Ensures.bind ((ensures_addSessionId req _ t).mono
              (fun _ _ writes => writes) fun _ _ => True.intro) fun added => ?_
            refine Prog.Ensures.ret fun t' writes => ⟨?_, .inr ⟨carried, writes⟩⟩
            rw [value]
            refine iff_of_true ?_ carried
            simp only [Server.modConf]
            split <;> rfl
      · rename_i failed
        have none_ : postLogin.value req = none := by rw [Site.value_eq got, if_neg failed]
        refine Prog.Ensures.ret fun t same => ⟨?_, .inl ⟨same, ?_⟩⟩
        · simp [none_]
        · rintro ⟨pass, c, value, -⟩
          rw [none_] at value
          cases value

/-- The last parameter takes privileges away. -/
theorem parseLogout_auth_iff {s s' : Server} (parsed : parseLogout req s = .ok s') :
    s'.conf.auth = true ↔ ¬ LogsOut req ∧ s.conf.auth = true := by
  refine ⟨fun auth => (parseLogout_auth parsed auth).symm, ?_⟩
  rintro ⟨stays, auth⟩
  rw [parseLogout] at parsed
  cases login : queryLogin.get req with
  | error e =>
      rw [login] at parsed
      cases parsed
  | ok p =>
      cases logout : queryLogout.get req with
      | error e =>
          simp only [login, logout, bind, Except.bind] at parsed
          cases parsed
      | ok q =>
          simp only [login, logout, bind, Except.bind, pure, Except.pure, Except.ok.injEq] at parsed
          rw [LogsOut, Site.flag_eq logout, decide_eq_true_eq] at stays
          rw [if_neg stays] at parsed
          subst parsed
          split
          · exact auth
          · exact auth

/-- What parsing decides. -/
structure Decided (req : HttpRequest) (fs : Fs) (auth : Bool) (t : Fs) : Prop where
  auth : auth = true ↔ Admitted req fs
  files : t = fs ∧ ¬ CarriesLogin req fs ∨ CarriesLogin req fs ∧ LoginWrites req fs t

/-- **Privileges depend on the request and the files alone.** -/
theorem ensures_parseRequest_settled (req : HttpRequest) (s : Server) (own : OwnSessions fs) :
    Prog.Ensures handle (· = fs) (parseRequest req s)
      (fun s' t => Decided req fs s'.conf.auth t) (fun _ => True) := by
  have pure_ {e : Except Fault Server} : Prog.Ensures handle (· = fs) (written e)
      (fun _ t => t = fs) (fun _ => True) :=
    ensures_written (fun _ _ _ same => same) fun _ _ => True.intro
  rw [parseRequest]
  refine pure_.bind fun s₁ => pure_.bind fun s₂ => pure_.bind fun s₃ => ?_
  have pass : Prog.Ensures handle (· = fs) (doAdminPassMode req s₃)
      (fun s' t => Decided req fs s'.conf.auth t) (fun _ => True) := by
    rw [doAdminPassMode]
    refine (ensures_parseSid_iff s₃ own).bind fun s₄ => Prog.Ensures.each fun t sid => ?_
    obtain ⟨rfl, session⟩ := sid
    refine (ensures_parseLogin_iff s₄).bind fun s₅ => ?_
    refine ensures_written (fun s₆ parsed t' login => ⟨?_, login.files⟩) fun _ _ => True.intro
    rw [parseLogout_auth_iff parsed, login.auth, session]
    rfl
  refine pass.bind fun s₄ => Prog.Ensures.ret fun t settled => ?_
  show Decided req fs (checkCss req (checkTs s₄)).conf.auth t
  rw [checkCss_auth, checkTs_auth]
  exact settled

end Privileges

/-! ## Actions -/

/-- An entry is asked for by its stamp, and nothing else is. -/
def asksStamp (req : HttpRequest) : Bool := (queryTs.value req).isSome && !asksOther req

/-- The action a request ends up with, for those who may do it. -/
def HttpRequest.action (req : HttpRequest) : Qaction :=
  if asksStamp req ∧ ¬ verifyTs (formStamp req) then .qaShow
  else if queryLogout.flag req then .qaLogout
  else if queryLogin.flag req then .qaLogin
  else formAction req

/-- The page is that of one entry. -/
def Server.byStamp (s : Server) : Bool := s.conf.qry.type = .qryTs

theorem byStamp_of_query {s t : Server} (qry : t.conf.qry = s.conf.qry)
    (_ : t.conf.now = s.conf.now) : t.byStamp = s.byStamp := by
  rw [Server.byStamp, Server.byStamp, qry]

theorem byStamp_of_conf {s t : Server} (same : t.conf = s.conf) : t.byStamp = s.byStamp :=
  byStamp_of_query (congrArg Blog.qry same) (congrArg Blog.now same)

section Actions

variable {req : HttpRequest} {s : Server} {b : Bool}

/-- Whoever asks for something else gets no entry. -/
theorem byStamp_other {f : Query → Query} {c : Prop} [Decidable c]
    (other : ∀ q, (f q).type ≠ .qryTs) (is : s.byStamp = b) :
    (if c then s.modQry f else s).byStamp = (b && !decide c) := by
  by_cases holds : c
  · simp [holds, Server.byStamp, Server.modQry, other]
  · simp [holds, is]

theorem decide_code {site : Site} {p : Param} (got : site.get req = .ok p) :
    decide (p.code = paramSuccess) = (site.value req).isSome := by
  rw [Site.value_eq got]
  by_cases success : p.code = paramSuccess
  · simp [success]
  · simp [success]

theorem readQry_byStamp {site : Site} {size : Nat} {get : Query → Bytes}
    {set : Bytes → Query → Query}
    (leaves : ∀ v s, Server.byStamp (Server.modQry s (set v)) = s.byStamp) (is : s.byStamp = b) :
    Prog.Returns (fun r => decide (r.1 = paramSuccess) = (site.value req).isSome ∧ r.2.byStamp = b)
      (readQry req site size get set s) := by
  intro r read
  have kept := readQry_keeps byStamp_of_conf leaves is r read
  rw [readQry] at read
  cases got : site.get req with
  | error e =>
      rw [got] at read
      cases read
  | ok p =>
      rw [got] at read
      cases stored : store size (get s.conf.qry) p.write with
      | error e =>
          simp only [bind, Except.bind, stored] at read
          cases read
      | ok buffer =>
          simp only [bind, Except.bind, stored, pure, Except.pure, Except.ok.injEq] at read
          subst read
          exact ⟨decide_code got, kept⟩

theorem readLocal_byStamp {site : Site} {size : Nat} (is : s.byStamp = b) :
    Prog.Returns (fun r => decide (r.1 = paramSuccess) = (site.value req).isSome ∧
      r.2.2.byStamp = b) (readLocal req site size s) := by
  rintro ⟨err, text, s'⟩ read
  obtain ⟨p, got, rfl, -, rfl⟩ := readLocal_ok read
  exact ⟨decide_code got, (noted_keeps byStamp_of_conf p s).trans is⟩

theorem parseCookie_byStamp (is : s.byStamp = b) :
    Prog.Returns (fun s' => s'.byStamp = b) (parseCookie req s) := by
  rw [parseCookie]
  refine Prog.Returns.bind (readQry_keeps byStamp_of_conf (fun _ _ => rfl) is) fun _ is => .ok ?_
  exact choice_keeps (fun _ => rfl) is

/-- Of the parameters for everybody, the later ones win. -/
theorem parseQuery_byStamp (fresh : s.byStamp = false) :
    Prog.Returns (fun s' => s'.byStamp = ((queryTs.value req).isSome && !(queryQry.value req).isSome &&
      !(queryTag.value req).isSome && !(queryMonth.value req).isSome)) (parseQuery req s) := by
  rw [parseQuery]
  refine Prog.Returns.bind (readQry_byStamp (fun _ _ => rfl) fresh) fun r₁ read => ?_
  obtain ⟨ts, fresh⟩ := read
  have stamp : (if r₁.1 = paramSuccess then
      r₁.2.modQry ({ · with type := .qryTs, action := .qaShow }) else r₁.2).byStamp =
      (queryTs.value req).isSome := by
    rw [← ts]
    by_cases given : r₁.1 = paramSuccess
    · simp [given, Server.byStamp, Server.modQry]
    · simp [given, fresh]
  refine Prog.Returns.bind (readQry_byStamp (fun _ _ => rfl) stamp) fun r₂ read => ?_
  obtain ⟨find, is⟩ := read
  refine Prog.Returns.bind (readQry_byStamp (fun _ _ => rfl)
    (byStamp_other (by simp) is)) fun r₃ read => ?_
  obtain ⟨tag, is⟩ := read
  refine Prog.Returns.bind (readQry_keeps byStamp_of_conf (fun _ _ => rfl)
    (byStamp_other (by simp) is)) fun r₄ is => ?_
  refine Prog.Returns.bind (readLocal_keeps byStamp_of_conf (choice_keeps (fun _ => rfl)
    (choice_keeps (fun _ => rfl) is))) fun r₅ is => ?_
  refine Prog.Returns.bind (readLocal_byStamp (choice_keeps (fun _ => rfl) is)) fun r₆ read => .ok ?_
  obtain ⟨month, is⟩ := read
  rw [← month]
  rw [← find, ← tag]
  split
  · rename_i given
    simp [given, Server.byStamp, Server.modQry]
  · rename_i missing
    rw [decide_eq_false missing, Bool.not_false, Bool.and_true]
    exact today_keeps (fun _ _ => rfl) is _

theorem parseEntryPost_byStamp (is : s.byStamp = b) :
    Prog.Returns (fun s' => s'.byStamp = b) (parseEntryPost req s) := by
  rw [parseEntryPost]
  refine Prog.Returns.bind (readLocal_keeps byStamp_of_conf is) fun r is => ?_
  obtain ⟨err, parg, s₁⟩ := r
  simp only at is ⊢
  split
  · exact Prog.Returns.bind (readQry_keeps byStamp_of_conf (fun _ _ => rfl) is) fun _ is => .ok is
  · exact .ok is

theorem parseConfigPost_byStamp (is : s.byStamp = b) :
    Prog.Returns (fun s' => s'.byStamp = b) (parseConfigPost req s) := by
  rw [parseConfigPost]
  refine Prog.Returns.bind (readQry_keeps byStamp_of_conf (fun _ _ => rfl) is) fun _ is => ?_
  refine Prog.Returns.bind (readQry_keeps byStamp_of_conf (fun _ _ => rfl) is) fun _ is => ?_
  refine Prog.Returns.bind (readQry_keeps byStamp_of_conf (fun _ _ => rfl) is) fun _ is => ?_
  refine (Prog.Returns.self _).bind fun p _ => .ok ?_
  split
  · exact (noted_keeps byStamp_of_conf p _).trans is
  · exact (noted_keeps byStamp_of_conf p _).trans is

theorem parsePost_byStamp (is : s.byStamp = b) :
    Prog.Returns (fun s' => s'.byStamp = b) (parsePost req s) := by
  have entry {t : Server} (chosen : t.byStamp = b) : Prog.Returns (fun s' => s'.byStamp = b)
      (if t.conf.qry.action = .qaAddPost ∨ t.conf.qry.action = .qaModifyPost then
        parseEntryPost req t else pure t) := by
    split
    · exact parseEntryPost_byStamp chosen
    · exact .ok chosen
  rw [parsePost]
  split
  · refine Prog.Returns.bind (readLocal_keeps byStamp_of_conf is) fun r is => ?_
    obtain ⟨err, tmp, s₁⟩ := r
    simp only at is ⊢
    split
    · split_ifs
      · exact Prog.Returns.bind (.ok is) fun _ => entry
      · exact Prog.Returns.bind (.ok is) fun _ => entry
      · exact Prog.Returns.bind (parseConfigPost_byStamp is) fun _ is => entry is
      · exact entry is
    · exact .ok is
  · exact .ok is

/-- Every parameter of the administrators asks for something else. -/
theorem doAdminMode_byStamp (is : s.byStamp = b) :
    Prog.Returns (fun s' => s'.byStamp = (b && !(queryDel.value req).isSome && !queryAdd.flag req &&
      !queryConfig.flag req && !(queryMod.value req).isSome)) (doAdminMode req s) := by
  rw [doAdminMode]
  refine Prog.Returns.bind (readQry_byStamp (fun _ _ => rfl) is) fun r₁ read => ?_
  obtain ⟨del, is⟩ := read
  refine (Prog.Returns.self _).bind fun p gotAdd => (Prog.Returns.self _).bind fun q gotConfig => ?_
  refine Prog.Returns.bind (readQry_byStamp (fun _ _ => rfl) (byStamp_other (by simp)
    (byStamp_other (by simp) (byStamp_other (by simp) is)))) fun r₂ read => ?_
  obtain ⟨mod, is⟩ := read
  rw [← del, ← mod, Site.flag_eq gotAdd, Site.flag_eq gotConfig]
  exact parsePost_byStamp (byStamp_other (by simp) is)

/-- A login page is no page of an entry, and a logout does not look at the page. -/
theorem parseLogout_settles {action : Qaction} {ts : Bytes} (orders : Orders s action ts)
    (is : s.byStamp = b) :
    Prog.Returns (fun s' => s'.byStamp = (b && !queryLogin.flag req) ∧
      Orders s' (if queryLogout.flag req then .qaLogout
        else if queryLogin.flag req then .qaLogin else action) ts) (parseLogout req s) := by
  rw [parseLogout]
  refine (Prog.Returns.self _).bind fun p gotLogin => (Prog.Returns.self _).bind
    fun q gotLogout => .ok ?_
  have page := byStamp_other (f := ({ · with type := .qryNone, action := .qaLogin }))
    (c := p.code = retNoValue) (by simp) is
  have login := orders.choose (f := ({ · with type := .qryNone, action := .qaLogin }))
    (c := p.code = retNoValue) (fun _ => rfl) fun _ => rfl
  rw [Site.flag_eq gotLogin, Site.flag_eq gotLogout]
  by_cases out : q.code = retNoValue
  · simp only [out, if_true, decide_true]
    exact ⟨page, (login.act .qaLogout).of_order (by rfl)⟩
  · simp only [out, if_false, decide_false, Bool.false_eq_true, decide_eq_true_eq]
    exact ⟨page, login⟩

end Actions

/-! ## A parsed request -/

/-- What is to be done, with which entry, and whether a page of it is asked for. -/
def Server.decides (s : Server) : (Qaction × Bytes) × Bool := (s.order, s.byStamp)

theorem decides_of_query {s t : Server} (qry : t.conf.qry = s.conf.qry)
    (now : t.conf.now = s.conf.now) : t.decides = s.decides :=
  Prod.ext (congrArg Prod.snd (seen_of_query qry now)) (byStamp_of_query qry now)

/-- An entry is shown by its stamp, or the blog is. -/
theorem checkTs_action (s : Server) :
    (checkTs s).conf.qry.action =
      if s.byStamp ∧ ¬ verifyTs s.conf.qry.ts then .qaShow else s.conf.qry.action := by
  rw [checkTs, Server.byStamp]
  simp only [decide_eq_true_eq]
  split_ifs <;> rfl

theorem checkTs_ts (s : Server) : (checkTs s).conf.qry.ts = s.conf.qry.ts := by
  rw [checkTs]
  split_ifs <;> rfl

theorem checkTs_byStamp (s : Server) :
    (checkTs s).byStamp = (s.byStamp && verifyTs s.conf.qry.ts) := by
  by_cases shown : s.byStamp
  · by_cases valid : verifyTs s.conf.qry.ts
    · have kept : checkTs s = s := if_neg fun both => both.2 valid
      rw [kept, shown, valid]
      rfl
    · have sent_ : checkTs s = (s.modQry ({ · with action := .qaShow, type := .qryWeek })).setErr
          (str "Not a valid timestamp") 0 .nError := if_pos ⟨of_decide_eq_true shown, valid⟩
      rw [sent_, Bool.eq_false_iff.2 valid, Bool.and_false]
      rfl
  · have other : s.conf.qry.type ≠ .qryTs := fun is => shown (decide_eq_true is)
    have kept : checkTs s = s := if_neg fun both => other both.1
    rw [kept, Bool.eq_false_iff.2 shown, Bool.false_and]

theorem checkCss_order (req : HttpRequest) (s : Server) : (checkCss req s).order = s.order :=
  choice_keeps (fun _ => rfl) rfl

/-- **The action, the stamp and whether an entry is shown depend on the request
alone.** -/
theorem ensures_parseRequest_action (req : HttpRequest) (s : Server) :
    Prog.Ensures handle (fun _ => True) (parseRequest req s)
      (fun s' _ => s'.conf.qry.action = req.action ∧ s'.conf.qry.ts = inflateTs (formStamp req) ∧
        s'.byStamp = (asksStamp req && verifyTs (formStamp req))) (fun _ => True) := by
  rw [parseRequest]
  refine Prog.Ensures.bind (ensures_written (fun s₁ parsed _ _ =>
    show s₁.order = (.qaShow, zeros fmtTaiaHex) ∧ s₁.byStamp = false from
      ⟨congrArg Prod.snd (parseCookie_seen rfl s₁ parsed), parseCookie_byStamp rfl s₁ parsed⟩)
    fun _ _ => True.intro) fun s₁ => Prog.Ensures.of_fact fun cookie => ?_
  have start : Orders s₁ .qaShow (zeros fmtTaiaHex) := ⟨cookie.1, List.length_replicate⟩
  refine Prog.Ensures.bind (ensures_written (fun s₂ parsed _ _ =>
    And.intro (start.parseQuery s₂ parsed) (parseQuery_byStamp cookie.2 s₂ parsed)) fun _ _ => True.intro)
    fun s₂ => Prog.Ensures.of_fact fun query => ?_
  refine Prog.Ensures.bind (ensures_written (fun s₃ parsed _ _ =>
    And.intro (query.1.doAdminMode s₃ parsed) (doAdminMode_byStamp query.2 s₃ parsed)) fun _ _ => True.intro)
    fun s₃ => Prog.Ensures.of_fact fun admin => ?_
  rw [doAdminPassMode]
  refine Prog.Ensures.bind ((ensures_parseSid_keeps decides_of_query rfl).bind fun t =>
    Prog.Ensures.of_fact fun sid => (ensures_parseLogin_keeps decides_of_query sid).bind fun s₄ =>
      Prog.Ensures.of_fact fun login => ensures_written (fun s₅ parsed _ _ =>
        parseLogout_settles (admin.1.of_order (congrArg Prod.fst login))
          ((congrArg Prod.snd login).trans admin.2) s₅ parsed) fun _ _ => True.intro)
    fun s₅ => Prog.Ensures.of_fact fun settled => Prog.Ensures.ret fun _ _ => ?_
  obtain ⟨byStamp, orders⟩ := settled
  obtain ⟨action, ts⟩ := Prod.mk.inj orders.order
  obtain ⟨action', ts'⟩ := Prod.mk.inj (checkCss_order req (checkTs s₅))
  have asks : s₅.byStamp = asksStamp req := by
    rw [byStamp]
    simp only [asksStamp, asksOther, List.any_cons, List.any_nil, Bool.or_false, Bool.not_or]
    ac_rfl
  refine ⟨?_, ?_, ?_⟩
  · show (checkCss req (checkTs s₅)).conf.qry.action = _
    rw [action', checkTs_action, asks, ts, action, HttpRequest.action]
  · show inflateTs (checkCss req (checkTs s₅)).conf.qry.ts = _
    rw [ts', checkTs_ts, ts]
  · have page : (checkCss req (checkTs s₅)).byStamp = (checkTs s₅).byStamp :=
      choice_keeps (fun _ => rfl) rfl
    show (checkCss req (checkTs s₅)).byStamp = _
    rw [page, checkTs_byStamp, asks, ts]

/-- The gate shows the blog to those who ask for more than they may. -/
theorem branch_eq (s : Server) : branch s =
    if isAdminAction s.conf.qry.action ∧ s.conf.auth = false then .qaShow
    else s.conf.qry.action := by
  unfold branch accessGate
  simp only [Bool.not_eq_true]
  split_ifs <;> rfl

end Bagunceiro
