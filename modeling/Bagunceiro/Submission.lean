/-
# Submission -- the request of an edit form, parsed

The form is posted to the script without a query string, under the cookie of a
session.  So nothing but the posted data can order anything, and of these the three
parameters of the form are found (`pieces_editForm`): parsing ends with the action,
the key and the text of the form, and with privileges (`exec_parseRequest_form`).  Posted data
that is too long is not looked at, and then the request orders nothing.
-/
import Bagunceiro.Bounds
import Bagunceiro.Links
import Bagunceiro.Params
import Bagunceiro.Parsing

namespace Bagunceiro

open Effect Prog Radix Tokens

set_option autoImplicit false

/-! ## The posted data -/

section Form

variable {t : Taia} {v enc : Bytes} {req : HttpRequest}

/-- The posted data is cut into the three parameters of the form. -/
theorem pieces_editForm (t : Taia) (encodes : Urlencoded v enc) :
    pieces (· ∈ str "&") (cstr (editForm (window t) enc)) =
      [str "action" ++ 61 :: str "mod", str "key" ++ 61 :: window t, str "input" ++ 61 :: enc] := by
  have plainInput : ∀ c ∈ str "input" ++ 61 :: enc, c ≠ 0 ∧ c ≠ 38 := by
    refine List.forall_mem_append.2 ⟨plain_of_notMem (by decide) (by decide), ?_⟩
    exact List.forall_mem_cons.2 ⟨by decide, fun c inside =>
      ⟨(encodes.plain c inside).1, (encodes.plain c inside).2.1⟩⟩
  have whole : ∀ c ∈ editForm (window t) enc, c ≠ 0 := by
    rw [editForm_eq]
    refine List.forall_mem_append.2 ⟨fun c inside => (plain_formAction c inside).1, ?_⟩
    refine List.forall_mem_cons.2 ⟨by decide, ?_⟩
    refine List.forall_mem_append.2 ⟨fun c inside => (plain_formKey t c inside).1, ?_⟩
    exact List.forall_mem_cons.2 ⟨by decide, fun c inside => (plainInput c inside).1⟩
  rw [← cstr_concat_zero, cstr_append fun zero => whole 0 zero rfl, editForm_eq, pieces_formKey,
    pieces_of_plain (noSep_of_plain plainInput) (by simp)]

/-- What is posted when the form of an entry is submitted. -/
structure Submits (req : HttpRequest) (key value : Bytes) : Prop where
  query : req.queryString.getD [] = []
  posted : ∃ enc, Urlencoded value enc ∧ req.postData = editForm key enc

/-- A parameter of the posted data is searched among the three. -/
theorem postSite_get (encodes : Urlencoded v enc) (posted : req.postData = editForm (window t) enc)
    (search : Bytes) (n : Limit) :
    (postSite search n).get req = searchParam search n
      [str "action" ++ 61 :: str "mod", str "key" ++ 61 :: window t, str "input" ++ 61 :: enc] := by
  rw [← pieces_editForm t encodes, ← posted]
  have some_ : req.postData ≠ [] := by
    rw [posted]
    simp [editForm, str]
  exact if_neg (not_or.2 ⟨some_, by simp [postSite]⟩)

theorem postAction_get (encodes : Urlencoded v enc)
    (posted : req.postData = editForm (window t) enc) :
    postAction.get req = .ok { code := paramSuccess, write := str "mod" ++ [0], bad := false } := by
  rw [postAction, postSite_get encodes posted]
  exact searchParam_cons_of_eq (pieces_parameter (by decide) (by decide) _)

/-- A parameter that is neither the action nor the key is searched in the last piece. -/
theorem searchParam_form (t : Taia) {search : Bytes} (n : Limit)
    (notForm : search ∉ [str "action", str "key"]) (last : Bytes) :
    searchParam search n [str "action" ++ 61 :: str "mod", str "key" ++ 61 :: window t, last] =
      searchParam search n [last] := by
  rw [List.mem_pair, not_or] at notForm
  rw [searchParam_cons_of_ne (pieces_parameter (by decide) (by decide) _) (Ne.symm notForm.1),
    searchParam_cons_of_ne (pieces_parameter (by decide) (by decide) _) (Ne.symm notForm.2)]

theorem pieces_input (enc : Bytes) : pieces (· = (61 : UInt8)) (str "input" ++ 61 :: enc) =
    str "input" :: pieces (· = (61 : UInt8)) enc :=
  pieces_parameter (by decide) (by decide) enc

theorem postLogin_get (encodes : Urlencoded v enc)
    (posted : req.postData = editForm (window t) enc) :
    postLogin.get req = .ok { code := retNotFound, write := [], bad := false } := by
  rw [postLogin, postSite_get encodes posted, searchParam_form t _ (by decide)]
  exact searchParam_cons_of_ne (pieces_input enc) (by decide)

/-- The text of the form; a field without a text has no value. -/
theorem postInput_get (encodes : Urlencoded v enc)
    (posted : req.postData = editForm (window t) enc) :
    postInput.get req = .ok (if v = [] then { code := retNoValue, write := [], bad := false }
      else { code := paramSuccess, write := v ++ [0], bad := false }) := by
  rw [postInput, postSite_get encodes posted, searchParam_form t _ (by decide),
    searchParam_cons_of_eq (pieces_input enc)]
  by_cases empty : v = []
  · obtain rfl : enc = [] := encodes.eq_nil_iff.2 empty
    rw [if_pos empty, pieces_nil]
    rfl
  · have noEquals : (61 : UInt8) ∉ enc := fun equals => (encodes.plain 61 equals).2.2 rfl
    have some_ : enc ≠ [] := fun nothing => empty (encodes.eq_nil_iff.1 nothing)
    rw [if_neg empty, pieces_value noEquals some_, List.head?_cons, foundParam, encodes.scan]

end Form

/-! ## The other parameters -/

/-- Nothing is found, and nothing written. -/
def Site.Absent (site : Site) (req : HttpRequest) : Prop :=
  ∃ code, site.get req = .ok { code, write := [], bad := false } ∧ code ≠ paramSuccess ∧
    code ≠ retNoValue

section Absent

variable {req : HttpRequest} {site : Site} {s : Server}

/-- Without a query string none of its parameters is found. -/
theorem absent_of_no_query (query : req.queryString.getD [] = []) (site : Site)
    (source : site.source = .query) : site.Absent req := by
  have array : req.array .query = [] ∨ req.array .query = [0] := by
    cases given : req.queryString with
    | none => exact .inl (by simp [HttpRequest.array, given])
    | some qs =>
        rw [given] at query
        obtain rfl : qs = [] := query
        exact .inr (by simp [HttpRequest.array, given])
  rw [Site.Absent, Site.get]
  rw [source]
  by_cases refused : req.array .query = [] ∨ site.qmax.any (· < (req.array .query).length)
  · exact ⟨retInvalid, if_pos refused, by decide, by decide⟩
  · have nothing : pieces (· ∈ site.sep) (cstr (req.array .query)) = [] := by
      rcases array with empty | empty <;> rw [empty] <;> exact pieces_nil
    refine ⟨retNotFound, (if_neg refused).trans ?_, by decide, by decide⟩
    rw [nothing]
    rfl

theorem Site.Absent.passes (absent : site.Absent req) (dest : Dest) :
    ParamCall.Passes req ⟨site, dest⟩ := by
  obtain ⟨code, got, -⟩ := absent
  exact ⟨_, got, fun _ => Nat.zero_le _⟩

/-- The server stays as it is. -/
theorem Site.Absent.readQry (absent : site.Absent req) (size : Nat) (get : Query → Bytes)
    (set : Bytes → Query → Query) (same : ∀ q, set (get q) q = q) :
    ∃ code, readQry req site size get set s = .ok (code, s) ∧ code ≠ paramSuccess ∧
      code ≠ retNoValue := by
  obtain ⟨code, got, other⟩ := absent
  refine ⟨code, ?_, other⟩
  rw [Bagunceiro.readQry, got]
  show Except.ok (code, s.modQry (set (get s.conf.qry))) = _
  rw [Server.modQry, same]

theorem Site.Absent.readTs (absent : site.Absent req) :
    ∃ code, readTs req site s = .ok (code, s) ∧ code ≠ paramSuccess ∧ code ≠ retNoValue :=
  absent.readQry fmtTaiaHex (·.ts) (fun b q => { q with ts := b }) fun _ => rfl

theorem Site.Absent.readLocal (absent : site.Absent req) (size : Nat) :
    ∃ code, readLocal req site size s = .ok (code, [], s) ∧ code ≠ paramSuccess ∧
      code ≠ retNoValue := by
  obtain ⟨code, got, other⟩ := absent
  refine ⟨code, ?_, other⟩
  rw [Bagunceiro.readLocal, got]
  rfl

end Absent

section NoQuery

variable {req : HttpRequest} (query : req.queryString.getD [] = []) (s : Server)

include query

/-- A page about today is all that is asked for. -/
theorem parseQuery_of_no_query :
    parseQuery req s = .ok (s.modQry ({ · with mon := caltimeUtc req.leapsecs req.now.sec })) := by
  have absent := absent_of_no_query query
  obtain ⟨_, ts, noTs, -⟩ := (absent queryTs rfl).readTs (s := s)
  obtain ⟨_, find, noFind, -⟩ := (absent queryQry rfl).readQry (s := s) sizeFindStr
    (·.find) (fun b q => { q with find := b }) fun _ => rfl
  obtain ⟨_, tag, noTag, -⟩ := (absent queryTag rfl).readQry (s := s) sizeFindStr
    (·.tag) (fun b q => { q with tag := b }) fun _ => rfl
  obtain ⟨_, css, noCss, noReset⟩ := (absent queryCss rfl).readQry (s := s) sizeHttpArg
    (·.css) (fun b q => { q with css := b }) fun _ => rfl
  obtain ⟨_, fmt, noFmt, -⟩ := (absent queryFmt rfl).readLocal (s := s)
    (sizeHttpArg + maxFmtLength + maxFmtLength)
  obtain ⟨_, month, noMonth, -⟩ := (absent queryMonth rfl).readLocal (s := s)
    (sizeHttpArg + maxFmtLength + maxFmtLength)
  rw [parseQuery]
  simp only [ts, find, tag, readCss, css, fmt, month, bind, Except.bind, if_neg noTs, if_neg noFind,
    if_neg noTag, if_neg noReset, if_neg noCss, if_neg fun both : _ ∧ _ => noFmt both.1, if_neg noMonth]
  rfl

/-- No action is chosen before the posted data is looked at. -/
theorem doAdminMode_of_no_query : doAdminMode req s = parsePost req s := by
  have absent := absent_of_no_query query
  obtain ⟨_, del, noDel, -⟩ := (absent queryDel rfl).readTs (s := s)
  obtain ⟨_, add, -, noAdd⟩ := absent queryAdd rfl
  obtain ⟨_, config, -, noConfig⟩ := absent queryConfig rfl
  obtain ⟨_, mod, noMod, -⟩ := (absent queryMod rfl).readTs (s := s)
  rw [doAdminMode]
  simp only [del, add, config, mod, bind, Except.bind, if_neg noDel, if_neg noAdd, if_neg noConfig,
    if_neg noMod]

/-- Nobody logs in or out. -/
theorem parseLogout_of_no_query : parseLogout req s = .ok s := by
  obtain ⟨_, login, -, noLogin⟩ := absent_of_no_query query queryLogin rfl
  obtain ⟨_, logout, -, noLogout⟩ := absent_of_no_query query queryLogout rfl
  rw [parseLogout]
  simp only [login, logout, bind, Except.bind, if_neg noLogin, if_neg noLogout]
  rfl

end NoQuery

/-! ## Parsing -/

section Parse

variable {t : Taia} {v : Bytes} {req : HttpRequest} {fs : Fs}

/-- What the form makes of the query; a form without a text has no key. -/
def formQuery (t : Taia) (v : Bytes) (q : Query) : Query :=
  if v = [] then { q with action := .qaModifyPost }
  else
    { q with
      action := .qaModifyPost
      input := q.input ++ cstr v ++ [0]
      ts := window t ++ 0 :: q.ts.drop 17 }

theorem parseEntryPost_form (submits : Submits req (window t) v) (s : Server) :
    parseEntryPost req s = .ok (if v = [] then s else
      s.modQry fun q =>
        { q with input := q.input ++ cstr v ++ [0], ts := window t ++ 0 :: q.ts.drop 17 }) := by
  obtain ⟨enc, encodes, posted⟩ := submits.posted
  have input := postInput_get encodes posted
  rw [parseEntryPost]
  by_cases empty : v = []
  · rw [if_pos empty] at input
    have read : readLocal req postInput req.postData.length s = .ok (retNoValue, [], s) := by
      rw [readLocal, input]
      rfl
    rw [if_pos empty, read]
    rfl
  · rw [if_neg empty] at input
    have fits : (v ++ [0]).length ≤ req.postData.length := by
      have decoded := length_scanUrlencoded_le enc
      rw [encodes.scan] at decoded
      have name : 0 < (str "&input=").length := by decide
      rw [posted]
      simp only [editForm, List.length_append, List.length_singleton]
      omega
    have read : readLocal req postInput req.postData.length s = .ok (paramSuccess, cstr v, s) := by
      rw [readLocal, input]
      show (store _ [] (v ++ [0]) >>= _) = _
      rw [store, if_pos fits, List.drop_nil, List.append_nil]
      show Except.ok (paramSuccess, cstr (v ++ [0]), s) = _
      rw [cstr_concat_zero]
    have key := readTs_window (keySite_of_mem (by simp)) (passesBack_editForm posted)
      (s.modQry fun q => { q with input := q.input ++ cstr v ++ [0] })
    rw [if_neg empty, read]
    show (readTs req postKey (s.modQry fun q => { q with input := q.input ++ cstr v ++ [0] }) >>= _) =
      _
    rw [key]
    rfl

/-- The form is read. -/
theorem parsePost_form (submits : Submits req (window t) v)
    (short : req.postData.length < postdataMax) (s : Server) :
    parsePost req s = .ok (s.modQry (formQuery t v)) := by
  obtain ⟨enc, encodes, posted⟩ := submits.posted
  have some_ : req.postData ≠ [] := by
    rw [posted]
    simp [editForm, str]
  have action : readLocal req postAction 30 s = .ok (paramSuccess, str "mod", s) := by
    rw [readLocal, postAction_get encodes posted]
    rfl
  have entry := parseEntryPost_form submits (s.modQry ({ · with action := .qaModifyPost }))
  rw [parsePost, if_pos ⟨short, some_⟩, action]
  show parseEntryPost req (s.modQry ({ · with action := .qaModifyPost })) = _
  rw [entry]
  by_cases empty : v = []
  · rw [if_pos empty, show formQuery t v = ({ · with action := .qaModifyPost }) from
      funext fun q => if_pos empty]
  · rw [if_neg empty, show formQuery t v = _ from funext fun q => if_neg empty]
    rfl

theorem parsePost_long (long : postdataMax ≤ req.postData.length) (s : Server) :
    parsePost req s = .ok s :=
  if_neg fun reads => Nat.not_lt.2 long reads.1

/-- A session gives privileges; nothing is asked for by it. -/
theorem exec_parseSid (own : OwnSessions fs) (carries : CarriesSession req fs) (s : Server) :
    ∃ s', exec (parseSid req s) fs = (.ok s', fs) ∧ s'.conf.auth = true ∧
      s'.conf.authtype = .authSid ∧ s'.conf.qry = s.conf.qry := by
  obtain ⟨id, c, value, holds, valid⟩ := carries
  obtain ⟨p, got, success, write, -⟩ := Site.get_of_value value
  obtain ⟨conf, stored⟩ := storeSid_succeeds got (s.modConf fun conf => { conf with
    authtype := .authNone, auth := false, sid := 0 :: conf.sid.drop 1 }).conf
  have is := storeSid_ok stored
  have checked := own.validate holds req.validateAt id ((0 :: s.conf.sid.drop 1).drop p.write.length)
  have buffer : conf.sid = (id ++ [0]).take (sizeSessionId + 1) ++
      (0 :: s.conf.sid.drop 1).drop p.write.length := by
    rw [← write]
    exact congrArg Blog.sid is
  rw [valid, ← buffer] at checked
  rw [exec, parseSid]
  simp only [got, written, ret_bind, stored, if_pos success, Server.noted_conf]
  show ∃ s', run handle (validateSessionId req.validateAt conf.sid >>= _) fs = (.ok s', fs) ∧ _
  rw [run_bind_ok handle checked]
  refine ⟨_, rfl, rfl, rfl, ?_⟩
  simpa [Server.modConf] using congrArg Blog.qry is

theorem exec_parseLogin_absent (absent : postLogin.Absent req) (s : Server) (fs : Fs) :
    exec (parseLogin req s) fs = (.ok s, fs) := by
  obtain ⟨code, read, noLogin, -⟩ := absent.readLocal (s := s) 10
  rw [exec, parseLogin]
  simp only [read, written, ret_bind, if_neg noLogin, pure_eq, run_ret]

/-- What is left of a submitted form: the gate is open, and the action is that of the
form, with its text and its key, or to show the page. -/
structure FormParsed (req : HttpRequest) (t : Taia) (v : Bytes) (s : Server) : Prop where
  auth : s.conf.auth = true
  authtype : s.conf.authtype = .authSid
  action : s.conf.qry.action =
    if req.postData.length < postdataMax then .qaModifyPost else .qaShow
  input : req.postData.length < postdataMax →
    s.conf.qry.input = if v = [] then [] else cstr v ++ [0]
  key : req.postData.length < postdataMax → v ≠ [] →
    ∃ rest, s.conf.qry.ts = inflateTs (window t ++ rest)

/-- The query as it is before the posted data is looked at. -/
def Server.fresh (s : Server) : Qaction × Qtype × Bytes :=
  (s.conf.qry.action, s.conf.qry.type, s.conf.qry.input)

theorem parseCookie_fresh (passes : ParamCall.Passes req ⟨cookieCss, .css⟩) (s : Server) :
    ∃ s', parseCookie req s = .ok s' ∧ s'.fresh = s.fresh := by
  obtain ⟨s', ran⟩ := parseCookie_succeeds_iff.2 (List.forall_mem_singleton.2 passes)
  refine ⟨s', ran, ?_⟩
  have keeps : Returns (fun s' => Server.fresh s' = s.fresh) (parseCookie req s) := by
    have byConf {s t : Server} (same : t.conf = s.conf) : t.fresh = s.fresh := by
      rw [Server.fresh, Server.fresh, same]
    rw [parseCookie]
    refine Returns.bind (readQry_keeps byConf (fun _ _ => rfl) rfl) fun _ same => .ok ?_
    exact choice_keeps (fun _ => rfl) same
  exact keeps s' ran

/-- The posted data of a form, read or not. -/
def afterPost (req : HttpRequest) (t : Taia) (v : Bytes) (s : Server) : Server :=
  if req.postData.length < postdataMax then s.modQry (formQuery t v) else s

theorem doAdminMode_form (submits : Submits req (window t) v) (s : Server) :
    doAdminMode req s = .ok (afterPost req t v s) := by
  rw [doAdminMode_of_no_query submits.query, afterPost]
  by_cases short : req.postData.length < postdataMax
  · rw [if_pos short, parsePost_form submits short]
  · rw [if_neg short, parsePost_long (Nat.not_lt.1 short)]

theorem exec_doAdminPassMode_form (own : OwnSessions fs) (carries : CarriesSession req fs)
    (submits : Submits req (window t) v) (s : Server) :
    ∃ s', exec (doAdminPassMode req s) fs = (.ok s', fs) ∧ s'.conf.auth = true ∧
      s'.conf.authtype = .authSid ∧ s'.conf.qry = s.conf.qry := by
  obtain ⟨enc, encodes, posted⟩ := submits.posted
  have noLogin : postLogin.Absent req :=
    ⟨retNotFound, postLogin_get encodes posted, by decide, by decide⟩
  obtain ⟨s', sid, privileged⟩ := exec_parseSid own carries s
  refine ⟨s', ?_, privileged⟩
  rw [exec, doAdminPassMode, run_bind_ok handle sid,
    run_bind_ok handle (exec_parseLogin_absent noLogin s' fs), parseLogout_of_no_query submits.query]
  rfl

/-- The last step of parsing. -/
def checked (req : HttpRequest) (s : Server) : Server :=
  (checkCss req (checkTs s)).modQry fun q => { q with ts := inflateTs q.ts }

/-- Without a stamp to show, only the style sheet is checked. -/
theorem checked_conf {s : Server} (noTs : s.conf.qry.type ≠ .qryTs) :
    (checked req s).conf.auth = s.conf.auth ∧ (checked req s).conf.authtype = s.conf.authtype ∧
      (checked req s).conf.qry.action = s.conf.qry.action ∧
      (checked req s).conf.qry.input = s.conf.qry.input ∧
      (checked req s).conf.qry.ts = inflateTs s.conf.qry.ts := by
  have same : checkTs s = s := if_neg fun shown => noTs shown.1
  rw [checked, same, checkCss]
  split
  · exact ⟨rfl, rfl, rfl, rfl, rfl⟩
  · exact ⟨rfl, rfl, rfl, rfl, rfl⟩

/-- **A submitted form is parsed**, in a session and with a readable cookie. -/
theorem exec_parseRequest_form (own : OwnSessions fs) (carries : CarriesSession req fs)
    (css : ParamCall.Passes req ⟨cookieCss, .css⟩) (submits : Submits req (window t) v) (s : Server) :
    ∃ s', exec (parseRequest req s) fs = (.ok s', fs) ∧ FormParsed req t v s' := by
  obtain ⟨s₁, cookie, fresh⟩ := parseCookie_fresh css (resetVariables req s)
  set s₂ := s₁.modQry ({ · with mon := caltimeUtc req.leapsecs req.now.sec })
  obtain ⟨s₃, ran, auth, authtype, qry⟩ :=
    exec_doAdminPassMode_form own carries submits (afterPost req t v s₂)
  obtain ⟨action, type, input⟩ : s₂.conf.qry.action = .qaShow ∧ s₂.conf.qry.type = .qryWeek ∧
      s₂.conf.qry.input = [] := by
    have whole : s₂.fresh = (.qaShow, .qryWeek, []) := today_keeps (fun _ _ => rfl) fresh _
    exact ⟨congrArg Prod.fst whole, congrArg (·.2.1) whole, congrArg (·.2.2) whole⟩
  have noTs : s₃.conf.qry.type ≠ .qryTs := by
    rw [qry, afterPost]
    split
    · rw [Server.modQry, formQuery]
      split <;> simp [type]
    · simp [type]
  obtain ⟨auth', authtype', action', input', ts'⟩ := @checked_conf req s₃ noTs
  refine ⟨checked req s₃, ?_, ?_⟩
  · rw [exec, parseRequest]
    simp only [cookie, parseQuery_of_no_query submits.query, doAdminMode_form submits, written,
      ret_bind]
    rw [run_bind_ok handle ran]
    rfl
  · rw [qry] at action' input' ts'
    refine ⟨auth'.trans auth, authtype'.trans authtype, ?_, fun short => ?_, fun short some_ => ?_⟩
    · rw [action', afterPost]
      split
      · rw [Server.modQry, formQuery]
        split <;> rfl
      · exact action
    · rw [input', afterPost, if_pos short]
      show (formQuery t v s₂.conf.qry).input = _
      rw [formQuery]
      split
      · exact input
      · simp [input]
    · refine ⟨0 :: s₂.conf.qry.ts.drop 17, ?_⟩
      rw [ts', afterPost, if_pos short]
      show inflateTs (formQuery t v s₂.conf.qry).ts = _
      rw [formQuery, if_neg some_]

end Parse

end Bagunceiro
