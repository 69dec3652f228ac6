/-
# Heading -- what the headers of a page are printed from

The headers of a page depend on the page that is chosen and on the session id.  What
the parsers leave of the choice is `Shown`, and `Chosen` in the end.

The session id is the cookie's until a login has a new one (`LoginOutcome`).  A cookie
may fill its array (`SidBuffer`), whose terminator then falls into the title.  The byte
at its place stays, also behind a fresh id, until another cookie writes there
(`behindId`, `ensures_serve_behind`).
-/
import Bagunceiro.Admission

namespace Bagunceiro

open Effect

set_option autoImplicit false

/-- The session id as a string: where it fills its array, the title goes on. -/
def Blog.sidText (conf : Blog) : Bytes := cstr (conf.sid ++ conf.title)

/-- No line break: the string stays in its header line. -/
def Unbroken (s : Bytes) : Prop := (10 : UInt8) ∉ s ∧ (13 : UInt8) ∉ s

instance (s : Bytes) : Decidable (Unbroken s) := inferInstanceAs (Decidable (_ ∧ _))

/-- The feed is asked for. -/
def wantsFeed (req : HttpRequest) : Bool := (queryFmt.value req).map cstr = some (str "rss")

/-! ## The choice of a page -/

/-- What decides about a page, and the arrays of the session id and the title. -/
def Server.shown (s : Server) : (Bytes × Bytes) × Stype × Qaction × Qtype :=
  ((s.conf.sid, s.conf.title), s.conf.qry.stype, s.conf.qry.action, s.conf.qry.type)

/-- A page that is shown has a type, and the login page is not chosen yet. -/
structure Shown (arrays : Bytes × Bytes) (feed : Bool) (s : Server) : Prop where
  arrays : (s.conf.sid, s.conf.title) = arrays
  stype : s.conf.qry.stype = if feed then .sRss else .sHtml
  shown : s.conf.qry.action = .qaShow → s.conf.qry.type ≠ .qryNone
  noLogin : s.conf.qry.action ≠ .qaLogin

theorem page_of_conf {s t : Server} (same : t.conf = s.conf) : t.shown = s.shown := by
  rw [Server.shown, same]
  rfl

section Shown

variable {arrays : Bytes × Bytes} {feed : Bool} {req : HttpRequest} {s : Server}

theorem Shown.of_page {t : Server} (page : Shown arrays feed s) (same : t.shown = s.shown) :
    Shown arrays feed t := by
  rw [Server.shown, Server.shown, Prod.mk.injEq] at same
  obtain ⟨same, rest⟩ := same
  simp only [Prod.mk.injEq] at rest
  obtain ⟨stype, action, type⟩ := rest
  exact ⟨same.trans page.arrays, stype.trans page.stype, by rw [action, type]; exact page.shown,
    by rw [action]; exact page.noLogin⟩

/-- A choice of something to show. -/
theorem Shown.shows (page : Shown arrays feed s) {f : Query → Query} {c : Prop} [Decidable c]
    (some_ : ∀ q, (f q).type ≠ .qryNone) (action : ∀ q, (f q).action = .qaShow)
    (leaves : ∀ q, (f q).stype = q.stype) : Shown arrays feed (if c then s.modQry f else s) := by
  split
  · exact ⟨page.arrays, (leaves _).trans page.stype, fun _ => some_ _,
      fun login => absurd ((action s.conf.qry).symm.trans login) (by decide)⟩
  · exact page

/-- A choice of something to do. -/
theorem Shown.acts (page : Shown arrays feed s) {f : Query → Query} {c : Prop} [Decidable c]
    (action : ∀ q, (f q).action ≠ .qaShow ∧ (f q).action ≠ .qaLogin)
    (leaves : ∀ q, (f q).stype = q.stype) : Shown arrays feed (if c then s.modQry f else s) := by
  split
  · exact ⟨page.arrays, (leaves _).trans page.stype, fun show_ => absurd show_ (action _).1,
      (action _).2⟩
  · exact page

/-- A choice of something else. -/
theorem Shown.beside (page : Shown arrays feed s) {f : Query → Query} {c : Prop} [Decidable c]
    (leaves : ∀ s, Server.shown (Server.modQry s f) = s.shown) :
    Shown arrays feed (if c then s.modQry f else s) :=
  page.of_page (choice_keeps leaves rfl)

theorem Shown.readQry (page : Shown arrays feed s) {site : Site} {size : Nat} {get : Query → Bytes}
    {set : Bytes → Query → Query} (leaves : ∀ v s, Server.shown (Server.modQry s (set v)) = s.shown) :
    Prog.Returns (fun r => Shown arrays feed r.2) (readQry req site size get set s) :=
  fun r read => page.of_page (readQry_keeps page_of_conf leaves rfl r read)

theorem Shown.readLocal (page : Shown arrays feed s) {site : Site} {size : Nat} :
    Prog.Returns (fun r => ∃ p, site.get req = .ok p ∧ r.1 = p.code ∧ r.2.1 = cstr p.write ∧
      Shown arrays feed r.2.2) (readLocal req site size s) := by
  rintro ⟨err, text, s'⟩ read
  obtain ⟨p, got, code, written_, rfl⟩ := readLocal_ok read
  exact ⟨p, got, code, written_, page.of_page (page_of_conf (Server.noted_conf s p))⟩

theorem Shown.parseCookie (page : Shown arrays feed s) :
    Prog.Returns (Shown arrays feed) (parseCookie req s) := by
  rw [Bagunceiro.parseCookie]
  exact Prog.Returns.bind (page.readQry fun _ _ => rfl) fun _ page => .ok (page.beside fun _ => rfl)

/-- What the search for `fmt` comes to. -/
theorem wantsFeed_iff {p : Param} (got : queryFmt.get req = .ok p) :
    wantsFeed req = true ↔ p.code = paramSuccess ∧ cstr p.write = str "rss" := by
  rw [wantsFeed, decide_eq_true_iff, Site.value_eq got]
  by_cases success : p.code = paramSuccess
  · obtain ⟨v, -, write, -⟩ := Site.get_success got success
    simp [success, write, cstr_concat_zero]
  · simp [success]

theorem Shown.parseQuery (page : Shown arrays false s) :
    Prog.Returns (Shown arrays (wantsFeed req)) (parseQuery req s) := by
  rw [Bagunceiro.parseQuery]
  refine Prog.Returns.bind (page.readQry fun _ _ => rfl) fun _ page => ?_
  refine Prog.Returns.bind ((page.shows (by simp) (by simp) (by simp)).readQry fun _ _ => rfl)
    fun _ page => ?_
  refine Prog.Returns.bind ((page.shows (by simp) (by simp) (by simp)).readQry fun _ _ => rfl)
    fun _ page => ?_
  refine Prog.Returns.bind ((page.shows (by simp) (by simp) (by simp)).readQry fun _ _ => rfl)
    fun _ page => ?_
  refine Prog.Returns.bind (Shown.readLocal (Shown.beside (page.beside fun _ => rfl) fun _ => rfl)) ?_
  rintro ⟨_, buf, s₁⟩ ⟨p, got, rfl, rfl, page⟩
  have format : Shown arrays (wantsFeed req) (if p.code = paramSuccess ∧ cstr p.write = str "rss" then
      s₁.modQry ({ · with stype := .sRss }) else s₁) := by
    have wants := wantsFeed_iff got
    cases feed : wantsFeed req with
    | true =>
        rw [if_pos (wants.1 feed)]
        exact ⟨page.arrays, rfl, page.shown, page.noLogin⟩
    | false =>
        rw [if_neg fun both => Bool.false_ne_true (feed.symm.trans (wants.2 both))]
        exact page
  refine Prog.Returns.bind format.readLocal fun _ read => .ok ?_
  obtain ⟨-, -, -, -, page⟩ := read
  split
  · exact ⟨page.arrays, page.stype, by simp [Server.modQry], by simp [Server.modQry]⟩
  · exact page.of_page (today_keeps (fun _ _ => rfl) rfl _)

/-- A configuration form has an action already. -/
theorem Shown.parseConfigPost (page : Shown arrays feed s) :
    Prog.Returns (Shown arrays feed) (parseConfigPost req s) := by
  rw [Bagunceiro.parseConfigPost]
  refine Prog.Returns.bind (page.readQry fun _ _ => rfl) fun _ page => ?_
  refine Prog.Returns.bind (page.readQry fun _ _ => rfl) fun _ page => ?_
  refine Prog.Returns.bind (page.readQry fun _ _ => rfl) fun t page => ?_
  refine (Prog.Returns.self _).bind fun p _ => .ok ?_
  have searchbox := page_of_conf (Server.noted_conf
    (t.2.modConf fun conf => { conf with sbox := p.write.headD conf.sbox }) p)
  split
  · exact page.of_page searchbox
  · exact page.of_page searchbox

theorem Shown.parseEntryPost (page : Shown arrays feed s) :
    Prog.Returns (Shown arrays feed) (parseEntryPost req s) := by
  rw [Bagunceiro.parseEntryPost]
  refine Prog.Returns.bind page.readLocal ?_
  rintro ⟨err, parg, s₁⟩ ⟨p, -, -, -, page⟩
  simp only at page ⊢
  split
  · have input : Shown arrays feed (s₁.modQry fun q => { q with input := q.input ++ parg ++ [0] }) :=
      page.of_page rfl
    exact Prog.Returns.bind (input.readQry fun _ _ => rfl) fun _ page => .ok page
  · exact .ok page

theorem Shown.parsePost (page : Shown arrays feed s) :
    Prog.Returns (Shown arrays feed) (parsePost req s) := by
  have entry {t : Server} (page : Shown arrays feed t) : Prog.Returns (Shown arrays feed)
      (if t.conf.qry.action = .qaAddPost ∨ t.conf.qry.action = .qaModifyPost then
        Bagunceiro.parseEntryPost req t else pure t) := by
    split
    · exact page.parseEntryPost
    · exact .ok page
  have acts {t : Server} (page : Shown arrays feed t) {action : Qaction}
      (other : action ≠ .qaShow ∧ action ≠ .qaLogin) :
      Shown arrays feed (t.modQry ({ · with action })) :=
    ⟨page.arrays, page.stype, fun show_ => absurd show_ other.1, other.2⟩
  rw [Bagunceiro.parsePost]
  split
  · refine Prog.Returns.bind page.readLocal ?_
    rintro ⟨err, tmp, s₁⟩ ⟨p, -, -, -, page⟩
    simp only at page ⊢
    split
    · split_ifs
      · exact Prog.Returns.bind (.ok (acts page (by decide))) fun _ => entry
      · exact Prog.Returns.bind (.ok (acts page (by decide))) fun _ => entry
      · exact Prog.Returns.bind (acts page (by decide)).parseConfigPost fun _ => entry
      · exact entry page
    · exact .ok page
  · exact .ok page

theorem Shown.doAdminMode (page : Shown arrays feed s) :
    Prog.Returns (Shown arrays feed) (doAdminMode req s) := by
  rw [Bagunceiro.doAdminMode]
  refine Prog.Returns.bind (page.readQry fun _ _ => rfl) fun _ page => ?_
  refine (Prog.Returns.self _).bind fun p _ => (Prog.Returns.self _).bind fun q _ => ?_
  refine Prog.Returns.bind (Shown.readQry (Shown.acts (Shown.acts (page.acts (by simp) (by simp))
    (by simp) (by simp)) (by simp) (by simp)) fun _ _ => rfl) fun _ page => ?_
  exact (page.acts (by simp) (by simp)).parsePost

end Shown

/-! ## The session id -/

/-- The array of the session id has its size. -/
def SidBuffer (sid : Bytes) : Prop := sid.length = sizeSessionId + 1

/-- What is behind a session id, once the cookie is read: the byte at the place of its
terminator, and the title. -/
def behindId (req : HttpRequest) (conf : Blog) : Bytes :=
  (cookieSid.onto req (conf.sid ++ conf.title)).drop sizeSessionId

/-- The arrays from the end of the id on. -/
theorem take_behind {conf : Blog} (buffer : SidBuffer conf.sid) :
    ((conf.sid ++ conf.title).drop sizeSessionId).take 1 = conf.sid.drop sizeSessionId := by
  rw [SidBuffer] at buffer
  have last : (conf.sid.drop sizeSessionId).length = 1 := by
    rw [List.length_drop, buffer]
    exact Nat.add_sub_cancel_left _ _
  rw [List.drop_append_of_le_length (Nat.le_of_succ_le buffer.ge), ← last, List.take_left]

/-- The byte behind the id, once the cookie is read: a terminator of the cookie's, its
last character, or what was there. -/
theorem take_behindId {req : HttpRequest} {conf : Blog} (buffer : SidBuffer conf.sid) {p : Param}
    (got : cookieSid.get req = .ok p) : (behindId req conf).take 1 =
      if sizeSessionId < p.write.length then (p.write.drop sizeSessionId).take 1
      else conf.sid.drop sizeSessionId := by
  have onto : cookieSid.onto req (conf.sid ++ conf.title) =
      p.write ++ (conf.sid ++ conf.title).drop p.write.length := by rw [Site.onto, got]
  rw [behindId, onto]
  split
  · rename_i long
    rw [List.drop_append_of_le_length long.le, List.take_append_of_le_length]
    rw [List.length_drop]
    exact Nat.sub_pos_of_lt long
  · rename_i short
    have fits := Nat.le_of_not_lt short
    rw [List.drop_append, List.drop_eq_nil_of_le fits, List.nil_append, List.drop_drop,
      Nat.add_sub_cancel' fits, take_behind buffer]

/-- It depends on nothing else of the server. -/
theorem behindId_congr (req : HttpRequest) {conf conf' : Blog} (buffer : SidBuffer conf.sid)
    (buffer' : SidBuffer conf'.sid)
    (same : conf.sid.drop sizeSessionId = conf'.sid.drop sizeSessionId) :
    (behindId req conf).take 1 = (behindId req conf').take 1 := by
  cases got : cookieSid.get req with
  | error e =>
      have kept (buffer : Bytes) : cookieSid.onto req buffer = buffer := by rw [Site.onto, got]
      rw [behindId, behindId, kept, kept, take_behind buffer, take_behind buffer', same]
  | ok p => rw [take_behindId buffer got, take_behindId buffer' got, same]

/-- What a parameter writes is a string: its value, the word for a refused one, or
nothing. -/
theorem foundParam_string (val : Option Bytes) (n : Limit) :
    (∃ v, foundParam val n = { code := paramSuccess, write := v ++ [0], bad := false }) ∨
      (foundParam val n).code ≠ paramSuccess ∧
        ((foundParam val n).write = [] ∨ (foundParam val n).write = str "bad" ++ [0]) := by
  have code : retNoValue ≠ paramSuccess ∧ retInvalid ≠ paramSuccess := by decide
  cases val with
  | none => exact .inr ⟨code.1, .inl rfl⟩
  | some v =>
      cases n with
      | noValue => exact .inr ⟨code.1, .inl rfl⟩
      | unlimited => exact .inl ⟨_, rfl⟩
      | upTo n =>
          by_cases long : n < v.length
          · exact .inr (by simp [foundParam, long, code.2])
          · exact .inl ⟨scanUrlencoded v, by simp [foundParam, long]⟩

theorem searchParam_string {search : Bytes} {n : Limit} {p : Param} : ∀ {queries : List Bytes},
    searchParam search n queries = .ok p →
      (∃ v, p = { code := paramSuccess, write := v ++ [0], bad := false }) ∨
        p.code ≠ paramSuccess ∧ (p.write = [] ∨ p.write = str "bad" ++ [0])
  | [], found => by
      cases found
      exact .inr ⟨by decide, .inl rfl⟩
  | query :: rest, found => by
      rw [searchParam] at found
      split at found
      · cases found
      · split at found
        · cases found
          exact foundParam_string _ _
        · exact searchParam_string found

theorem Site.get_string {site : Site} {req : HttpRequest} {p : Param} (got : site.get req = .ok p) :
    (∃ v, site.value req = some v ∧ p.write = v ++ [0]) ∨
      site.value req = none ∧ (p.write = [] ∨ p.write = str "bad" ++ [0]) := by
  have string_ : (∃ v, p = { code := paramSuccess, write := v ++ [0], bad := false }) ∨
      p.code ≠ paramSuccess ∧ (p.write = [] ∨ p.write = str "bad" ++ [0]) := by
    rw [Site.get, getHttpParam] at got
    split at got
    · cases got
      exact .inr ⟨by decide, .inl rfl⟩
    · exact searchParam_string got
  rw [Site.value_eq got]
  rcases string_ with ⟨v, rfl⟩ | ⟨failed, written_⟩
  · exact .inl ⟨v, by simp, rfl⟩
  · exact .inr ⟨if_neg failed, written_⟩

/-- The session id a request's cookie leaves. -/
def cookieId (req : HttpRequest) : Bytes := ((cookieSid.value req).map cstr).getD []

/-- Reading the cookie keeps the size of the array. -/
theorem sidBuffer_store {conf stored : Blog} {new : Bytes} (buffer : SidBuffer conf.sid)
    (ok : storeSid conf new = .ok stored) : SidBuffer stored.sid := by
  rw [SidBuffer] at buffer ⊢
  rw [storeSid_ok ok, List.length_append, List.length_take, List.length_drop, buffer]
  omega

theorem SidBuffer.cleared {sid : Bytes} (buffer : SidBuffer sid) : SidBuffer (0 :: sid.drop 1) := by
  rw [SidBuffer] at buffer ⊢
  rw [List.length_cons, List.length_drop, buffer]
  rfl

/-- What is written is what is read, across the end of the array. -/
theorem sidText_store {conf stored : Blog} {new : Bytes} (buffer : SidBuffer conf.sid)
    (ok : storeSid conf new = .ok stored) :
    stored.sid ++ stored.title = new ++ (conf.sid ++ conf.title).drop new.length := by
  rw [SidBuffer] at buffer
  rw [storeSid_ok ok]
  rcases Nat.le_total new.length (sizeSessionId + 1) with inside | long
  · rw [List.take_of_length_le inside, List.drop_eq_nil_of_le inside, Nat.sub_eq_zero_of_le inside,
      List.append_assoc, List.drop_append_of_le_length (inside.trans buffer.ge)]
    rfl
  · rw [List.drop_eq_nil_of_le (buffer.trans_le long), List.append_nil, ← List.append_assoc,
      List.take_append_drop, List.drop_append, List.drop_eq_nil_of_le (buffer.trans_le long), buffer]
    rfl

/-- What is behind the id is what the cookie leaves there. -/
theorem behindId_store {req : HttpRequest} {p : Param} (got : cookieSid.get req = .ok p)
    {conf stored : Blog} (buffer : SidBuffer conf.sid)
    (ok : storeSid { conf with authtype := .authNone, auth := false, sid := 0 :: conf.sid.drop 1 }
      p.write = .ok stored) :
    (stored.sid ++ stored.title).drop sizeSessionId = behindId req conf := by
  have size := buffer.cleared
  rw [SidBuffer] at buffer
  have behind : (0 :: conf.sid.drop 1 ++ conf.title).drop 1 = (conf.sid ++ conf.title).drop 1 := by
    rw [List.drop_append_of_le_length (by simp), List.drop_append_of_le_length (by simp [buffer])]
    rfl
  have later (n : Nat) :
      (0 :: conf.sid.drop 1 ++ conf.title).drop (1 + n) = (conf.sid ++ conf.title).drop (1 + n) := by
    rw [← List.drop_drop, ← List.drop_drop, behind]
  have onto : cookieSid.onto req (conf.sid ++ conf.title) =
      p.write ++ (conf.sid ++ conf.title).drop p.write.length := by rw [Site.onto, got]
  have text : stored.sid ++ stored.title =
      p.write ++ (0 :: conf.sid.drop 1 ++ conf.title).drop p.write.length := sidText_store size ok
  rw [text, behindId, onto]
  cases p.write with
  | nil => exact later 31
  | cons c rest => rw [List.length_cons, Nat.add_comm rest.length 1, later]

/-- The array after the search for the session cookie. -/
theorem sid_of_cookie {req : HttpRequest} {p : Param} (got : cookieSid.get req = .ok p)
    {conf stored : Blog} (buffer : SidBuffer conf.sid) (empty : ∃ rest, conf.sid = 0 :: rest)
    (ok : storeSid conf p.write = .ok stored) :
    Unbroken stored.sidText ↔ Unbroken (cookieId req) := by
  have text := sidText_store buffer ok
  rw [Blog.sidText]
  rcases Site.get_string got with ⟨v, value, write⟩ | ⟨absent, write | write⟩
  · rw [text, write, List.append_assoc, List.singleton_append, cstr_append_zero]
    simp [cookieId, value]
  · obtain ⟨behind, front⟩ := empty
    rw [write] at ok
    rw [storeSid_ok ok]
    simp [front, cookieId, absent, cstr]
  · rw [text, write, List.append_assoc, List.singleton_append, cstr_append_zero]
    simp [cookieId, absent]
    decide

theorem unbroken_sessionId (rand : Nat → Nat) : Unbroken (sessionId rand) := by
  have digits {c : UInt8} (member : c ∈ sessionId rand) : c ≠ 10 ∧ c ≠ 13 := by
    obtain ⟨i, -, rfl⟩ := List.mem_map.1 member
    have small : rand i % 16 < 16 := Nat.mod_lt _ (by decide)
    generalize rand i % 16 = n at small
    interval_cases n <;> decide
  exact ⟨fun member => (digits member).1 rfl, fun member => (digits member).2 rfl⟩

/-- A fresh id is written in front of what is behind it. -/
theorem sid_of_login {old : Bytes} (buffer : SidBuffer old) (rand : Nat → Nat) :
    SidBuffer (sessionId rand ++ old.drop sizeSessionId) ∧ ∀ title,
      (sessionId rand ++ old.drop sizeSessionId ++ title).drop sizeSessionId =
        (old ++ title).drop sizeSessionId := by
  rw [SidBuffer] at buffer ⊢
  have size := sessionId_length rand
  constructor
  · rw [List.length_append, List.length_drop, size, buffer]
    omega
  · intro title
    rw [List.append_assoc, ← size, List.drop_left, size,
      List.drop_append_of_le_length (Nat.le_of_succ_le buffer.ge)]

/-- A fresh id does not break a line, whatever follows it. -/
theorem unbroken_login (rand : Nat → Nat) (rest : Bytes) :
    Unbroken (cstr (sessionId rand ++ rest)) ↔ Unbroken (cstr rest) := by
  have text : cstr (sessionId rand ++ rest) = sessionId rand ++ cstr rest := by
    refine List.takeWhile_append_of_pos fun c member => ?_
    rw [decide_eq_true_eq]
    rintro rfl
    exact zero_notMem_sessionId rand member
  obtain ⟨feed, carriage⟩ := unbroken_sessionId rand
  rw [text, Unbroken, Unbroken]
  simp [feed, carriage]

/-! ## Parsing -/

/-- What `do_admin_pass_mode` makes of the session id: without a password it is not
printed; after a login it is new; otherwise it is the cookie's. -/
inductive LoginOutcome (req : HttpRequest) (fs : Fs) (s : Server) : Prop
  | notPosted (absent : postLogin.value req = none) (type : s.conf.authtype ≠ .authPost)
  | accepted (carries : CarriesLogin req fs) (type : s.conf.authtype = .authPost)
      (fresh : s.conf.sid.take sizeSessionId = sessionId req.rand)
  | refused (posted : (postLogin.value req).isSome) (wrong : ¬ CarriesLogin req fs)
      (type : s.conf.authtype = .authPost) (auth : s.conf.auth = false)
      (kept : Unbroken s.conf.sidText ↔ Unbroken (cookieId req))

section Passes

variable {req : HttpRequest} {fs : Fs} {s : Server}

theorem ensures_validate_same (now : Taia) (buf : Bytes) (fs : Fs) :
    Prog.Ensures handle (· = fs) (validateSessionId now buf) (fun _ t => t = fs)
      (fun _ => True) := by
  refine .of_run (fun t auth t' same ran => ?_) fun _ _ _ _ _ => True.intro
  have state := exec_validateSessionId_state now buf t
  rw [exec, ran] at state
  exact state.trans same

/-- What reading the cookie leaves of the session id. -/
structure ReadSid (req : HttpRequest) (s s' : Server) : Prop where
  qry : s'.conf.qry = s.conf.qry
  type : s'.conf.authtype ≠ .authPost
  buffer : SidBuffer s'.conf.sid
  behind : (s'.conf.sid ++ s'.conf.title).drop sizeSessionId = behindId req s.conf
  cookie : Unbroken s'.conf.sidText ↔ Unbroken (cookieId req)

/-- The cookie's id gets into the buffer, and no password counts yet. -/
theorem ensures_parseSid_sid (buffer : SidBuffer s.conf.sid) :
    Prog.Ensures handle (· = fs) (parseSid req s) (fun s' t => t = fs ∧ ReadSid req s s')
      (fun _ => True) := by
  rw [parseSid]
  simp only
  cases got : cookieSid.get req with
  | error e => exact Prog.Ensures.fail fun _ _ => True.intro
  | ok p =>
      show Prog.Ensures handle _ (written (storeSid _ p.write) >>= _) _ _
      cases stored : storeSid _ p.write with
      | error e => exact Prog.Ensures.fail fun _ _ => True.intro
      | ok conf =>
          have size := buffer.cleared
          have is := storeSid_ok stored
          have read (t : Server) (sid : t.conf.sid = conf.sid) (title : t.conf.title = conf.title)
              (qry : t.conf.qry = conf.qry) (type : t.conf.authtype ≠ .authPost) :
              ReadSid req s t := by
            have text : t.conf.sidText = conf.sidText := by rw [Blog.sidText, sid, title, Blog.sidText]
            exact
              { qry := qry.trans (congrArg Blog.qry is :)
                type := type
                buffer := sid ▸ sidBuffer_store size stored
                behind := sid ▸ title ▸ behindId_store got buffer stored
                cookie := text ▸ sid_of_cookie got size ⟨_, rfl⟩ stored }
          simp only [written, Prog.ret_bind]
          split
          · refine (ensures_validate_same _ _ fs).bind fun auth => Prog.Ensures.ret fun t same => ?_
            refine ⟨same, read _ ?_ ?_ ?_ fun post => by cases post⟩
            · simp [Server.modConf]
            · simp [Server.modConf]
            · simp [Server.modConf]
          · refine Prog.Ensures.ret fun t same => ⟨same, read _ ?_ ?_ ?_ ?_⟩
            · simp [Server.modConf]
            · simp [Server.modConf]
            · simp [Server.modConf]
            · rw [Server.noted_conf]
              show conf.authtype ≠ .authPost
              rw [is]
              intro post
              cases post

/-- The password is accepted exactly when it is carried. -/
theorem ensures_authConf_iff {pass : Bytes} (posted : postLogin.value req = some pass) :
    Prog.Ensures handle (· = fs) (authConf req.sha256 req.past (cstr pass))
      (fun auth _ => auth = true ↔ CarriesLogin req fs) (fun _ => True) :=
  (ensures_authConf_matches req (cstr pass) fs).mono
    (fun _ _ checked => checked.2.trans (carriesLogin_iff posted).symm) fun _ => id

theorem ensures_addSessionId_buffer (buf : Bytes) :
    Prog.Ensures handle (fun _ => True)
      (addSessionId req.loginMemory req.loginClk req.loginAt req.rand buf)
      (fun r _ => r.2 = sessionId req.rand ++ buf.drop sizeSessionId) (fun _ => True) := by
  rw [addSessionId_eq]
  exact (Prog.Ensures.any _).bind fun err => Prog.Ensures.ret fun _ _ => rfl

/-- What is known of the session id when the parameters are read. -/
structure SidRead (req : HttpRequest) (behind : Bytes) (fs : Fs) (s : Server) : Prop where
  buffer : SidBuffer s.conf.sid
  behind : (s.conf.sid ++ s.conf.title).drop sizeSessionId = behind
  outcome : LoginOutcome req fs s

theorem SidRead.of_accepted {old title : Bytes} (buffer : SidBuffer old)
    (carries : CarriesLogin req fs) (type : s.conf.authtype = .authPost)
    (sid : s.conf.sid = sessionId req.rand ++ old.drop sizeSessionId) (same : s.conf.title = title) :
    SidRead req ((old ++ title).drop sizeSessionId) fs s := by
  obtain ⟨size, behind⟩ := sid_of_login buffer req.rand
  refine ⟨sid ▸ size, sid ▸ same ▸ behind _, .accepted carries type ?_⟩
  rw [sid, ← sessionId_length req.rand, List.take_left]

theorem ensures_parseLogin_sid {s₀ : Server} (read : ReadSid req s₀ s) :
    Prog.Ensures handle (· = fs) (parseLogin req s)
      (fun s' _ => s'.conf.qry = s₀.conf.qry ∧ SidRead req (behindId req s₀.conf) fs s')
      (fun _ => True) := by
  rw [parseLogin]
  cases posted : readLocal req postLogin 10 s with
  | error e => exact Prog.Ensures.fail fun _ _ => True.intro
  | ok result =>
      obtain ⟨err, text, s₁⟩ := result
      obtain ⟨p, got, rfl, rfl, rfl⟩ := readLocal_ok posted
      simp only [written, Prog.ret_bind]
      split
      · rename_i success
        obtain ⟨pass, value, write, -⟩ := Site.get_success got success
        rw [write, cstr_concat_zero]
        refine (ensures_authConf_iff value).bind fun auth => Prog.Ensures.of_fact fun carries => ?_
        cases auth with
        | false =>
            simp only [Bool.false_eq_true, if_false]
            have text : Blog.sidText { s.conf with auth := false, authtype := .authPost } =
              s.conf.sidText := rfl
            refine Prog.Ensures.ret fun _ _ => ⟨by simp [Server.modConf, read.qry], ?_, ?_, ?_⟩
            · simpa [Server.modConf] using read.buffer
            · simpa [Server.modConf] using read.behind
            · exact .refused (by simp [value]) (fun carried => by simpa using carries.2 carried) rfl rfl
                (by simpa [Server.modConf, text] using read.cookie)
        | true =>
            have carried := carries.1 rfl
            rw [← read.behind]
            simp only [if_true]
            refine (ensures_addSessionId_buffer _).bind fun added => Prog.Ensures.of_fact fun id => ?_
            split
            · refine Prog.Ensures.ret fun _ _ => ⟨by simp [Server.modConf, Server.setErr, read.qry], ?_⟩
              exact .of_accepted read.buffer carried rfl (by simp [Server.modConf, Server.setErr, id])
                (by simp [Server.modConf, Server.setErr])
            · refine Prog.Ensures.ret fun _ _ => ⟨by simp [Server.modConf, read.qry], ?_⟩
              exact .of_accepted read.buffer carried rfl (by simp [Server.modConf, id])
                (by simp [Server.modConf])
      · rename_i failed
        refine Prog.Ensures.ret fun _ _ => ?_
        rw [Server.noted_conf]
        refine ⟨read.qry, ?_, ?_, .notPosted ?_ (by simpa using read.type)⟩
        · simpa using read.buffer
        · simpa using read.behind
        · rw [Site.value_eq got, if_neg failed]

/-- The outcome of a login stays when privileges are only taken away. -/
theorem SidRead.stays {behind : Bytes} (read : SidRead req behind fs s) {t : Server}
    (sid : t.conf.sid = s.conf.sid) (title : t.conf.title = s.conf.title)
    (type : t.conf.authtype = s.conf.authtype)
    (auth : t.conf.auth = true → s.conf.auth = true) : SidRead req behind fs t := by
  refine ⟨sid ▸ read.buffer, sid ▸ title ▸ read.behind, ?_⟩
  cases read.outcome with
  | notPosted absent none_ => exact .notPosted absent (by rwa [type])
  | accepted carries post fresh => exact .accepted carries (by rwa [type]) (by rwa [sid])
  | refused posted wrong post noAuth kept =>
      have text : t.conf.sidText = s.conf.sidText := by rw [Blog.sidText, sid, title, Blog.sidText]
      refine .refused posted wrong (by rwa [type]) ?_ (by rwa [text])
      rw [Bool.eq_false_iff]
      exact fun privileged => by simp [noAuth] at auth; simp [auth] at privileged

theorem Shown.of_qry {arrays : Bytes × Bytes} {feed : Bool} (page : Shown arrays feed s)
    {t : Server} (same : t.conf.qry = s.conf.qry) : Shown (t.conf.sid, t.conf.title) feed t :=
  ⟨rfl, by rw [same, page.stype], by rw [same]; exact page.shown, by rw [same]; exact page.noLogin⟩

/-- The page a parsed request has chosen. -/
structure Chosen (req : HttpRequest) (s : Server) : Prop where
  stype : s.conf.qry.stype = if wantsFeed req then .sRss else .sHtml
  shown : s.conf.qry.action = .qaShow → s.conf.qry.type ≠ .qryNone
  login : s.conf.qry.action = .qaLogin ↔ queryLogin.flag req = true ∧ queryLogout.flag req = false
  loginType : s.conf.qry.action = .qaLogin → s.conf.qry.type = .qryNone

theorem Shown.parseLogout {arrays : Bytes × Bytes} (page : Shown arrays (wantsFeed req) s) :
    Prog.Returns (fun s' => Chosen req s' ∧ s'.conf.sid = s.conf.sid ∧
      s'.conf.title = s.conf.title ∧ s'.conf.authtype = s.conf.authtype ∧
        (s'.conf.auth = true → s.conf.auth = true)) (parseLogout req s) := by
  rw [Bagunceiro.parseLogout]
  refine (Prog.Returns.self _).bind fun p gotLogin => ?_
  refine (Prog.Returns.self _).bind fun q gotLogout => .ok ?_
  have login := Site.flag_eq gotLogin
  have logout := Site.flag_eq gotLogout
  by_cases out : q.code = retNoValue
  · rw [if_pos out]
    by_cases in_ : p.code = retNoValue
    · rw [if_pos in_]
      exact ⟨⟨page.stype, by simp [Server.modQry, Server.modConf], by
        simp [Server.modQry, Server.modConf, logout, out], by simp [Server.modQry, Server.modConf]⟩,
        rfl, rfl, rfl, by simp [Server.modQry, Server.modConf]⟩
    · rw [if_neg in_]
      exact ⟨⟨page.stype, by simp [Server.modQry, Server.modConf], by
        simp [Server.modQry, Server.modConf, logout, out], by simp [Server.modQry, Server.modConf]⟩,
        rfl, rfl, rfl, by simp [Server.modQry, Server.modConf]⟩
  · rw [if_neg out]
    by_cases in_ : p.code = retNoValue
    · rw [if_pos in_]
      exact ⟨⟨page.stype, by simp [Server.modQry], by simp [Server.modQry, login, logout, in_, out], by
        simp [Server.modQry]⟩, rfl, rfl, rfl, id⟩
    · rw [if_neg in_]
      exact ⟨⟨page.stype, page.shown, by simp [page.noLogin, login, in_], fun chosen =>
        absurd chosen page.noLogin⟩, rfl, rfl, rfl, id⟩

theorem Chosen.of_page (chosen : Chosen req s) {t : Server} (same : t.shown = s.shown) :
    Chosen req t := by
  simp only [Server.shown, Prod.mk.injEq] at same
  obtain ⟨-, stype, action, type⟩ := same
  exact ⟨stype.trans chosen.stype, by rw [action, type]; exact chosen.shown,
    by rw [action]; exact chosen.login, by rw [action, type]; exact chosen.loginType⟩

/-- An entry is not shown for a stamp that is none. -/
theorem Chosen.checkTs (chosen : Chosen req s) : Chosen req (checkTs s) := by
  rw [Bagunceiro.checkTs]
  split
  · rename_i noStamp
    have noLogin : s.conf.qry.action ≠ .qaLogin := fun login => by
      simp [chosen.loginType login] at noStamp
    exact ⟨chosen.stype, by simp [Server.modQry, Server.setErr], by
      simpa [Server.modQry, Server.setErr, noLogin] using chosen.login, by
      simp [Server.modQry, Server.setErr]⟩
  · exact chosen

/-- A style sheet that is selected exists. -/
theorem checkCss_select (t : Server) : (checkCss req t).conf.qry.csstype = .cssSelect →
    req.access (cstr (checkCss req t).conf.qry.css) = true := by
  rw [checkCss]
  split
  · intro select
    simp [Server.modQry] at select
  · rename_i checked
    intro select
    simpa [select] using checked

/-- What a parsed request brings along for its headers. -/
structure Heading (req : HttpRequest) (behind : Bytes) (fs : Fs) (s : Server) : Prop where
  chosen : Chosen req s
  read : SidRead req behind fs s
  css : s.conf.qry.csstype = .cssSelect → req.access (cstr s.conf.qry.css) = true

theorem ensures_parseRequest_heading (buffer : SidBuffer s.conf.sid) :
    Prog.Ensures handle (· = fs) (parseRequest req s)
      (fun s' _ => Heading req (behindId req s.conf) fs s') (fun _ => True) := by
  have start : Shown (s.conf.sid, s.conf.title) false (resetVariables req s) :=
    ⟨rfl, rfl, fun _ => by simp [resetVariables, Server.modQry, Server.modConf], by
      simp [resetVariables, Server.modQry, Server.modConf]⟩
  have read {e : Except Fault Server} {post : Server → Prop} (returns : Prog.Returns post e) :
      Prog.Ensures handle (· = fs) (written e) (fun s' t => t = fs ∧ post s') (fun _ => True) :=
    ensures_written (fun s' parsed t same => ⟨same, returns s' parsed⟩) fun _ _ => True.intro
  rw [parseRequest]
  refine (read start.parseCookie).bind fun s₁ => Prog.Ensures.each fun t₁ cookie => ?_
  obtain ⟨rfl, page⟩ := cookie
  refine (read page.parseQuery).bind fun s₂ => Prog.Ensures.each fun t₂ query => ?_
  obtain ⟨rfl, page⟩ := query
  refine (read page.doAdminMode).bind fun s₃ => Prog.Ensures.each fun t₃ admin => ?_
  obtain ⟨rfl, page⟩ := admin
  obtain ⟨sid, title⟩ := Prod.mk.inj page.arrays
  have same : behindId req s₃.conf = behindId req s.conf := by rw [behindId, sid, title, behindId]
  have pass : Prog.Ensures handle (· = t₃) (doAdminPassMode req s₃)
      (fun s' _ => Chosen req s' ∧ SidRead req (behindId req s.conf) t₃ s') (fun _ => True) := by
    rw [doAdminPassMode]
    refine (ensures_parseSid_sid (sid ▸ buffer)).bind fun s₄ => Prog.Ensures.each fun t sid => ?_
    obtain ⟨rfl, sid⟩ := sid
    refine (ensures_parseLogin_sid sid).bind fun s₅ => Prog.Ensures.of_fact fun login => ?_
    obtain ⟨qry, outcome⟩ := login
    have page := page.of_qry qry
    refine ensures_written (fun s' parsed _ _ => ?_) fun _ _ => True.intro
    obtain ⟨chosen, sid, title, type, auth⟩ := page.parseLogout s' parsed
    exact ⟨chosen, same ▸ outcome.stays sid title type auth⟩
  refine pass.bind fun s₅ => Prog.Ensures.of_fact fun passed => Prog.Ensures.ret fun _ _ => ?_
  obtain ⟨chosen, outcome⟩ := passed
  have kept : (checkCss req (checkTs s₅)).conf.sid = s₅.conf.sid ∧
      (checkCss req (checkTs s₅)).conf.title = s₅.conf.title ∧
      (checkCss req (checkTs s₅)).conf.authtype = s₅.conf.authtype ∧
      (checkCss req (checkTs s₅)).conf.auth = s₅.conf.auth := by
    rw [checkCss, checkTs]
    split_ifs <;> exact ⟨rfl, rfl, rfl, rfl⟩
  have page : (checkCss req (checkTs s₅)).shown = (checkTs s₅).shown := choice_keeps (fun _ => rfl) rfl
  obtain ⟨sid, title, type, auth⟩ := kept
  exact
    { chosen := (chosen.checkTs.of_page page).of_page rfl
      read := outcome.stays sid title type fun privileged => auth.symm.trans privileged
      css := checkCss_select _ }

end Passes

/-! ## Serving -/

/-- What the headers are printed from. -/
def Server.heading (s : Server) : Bytes × Authtype × Bytes × Csstype :=
  (s.conf.sid, s.conf.authtype, s.conf.qry.css, s.conf.qry.csstype)

section Serving

variable {req : HttpRequest} {fs : Fs} {s : Server}

/-- No action touches what the headers are printed from. -/
theorem ensures_handleQuery_heading (req : HttpRequest) (s : Server) :
    Prog.Ensures handle (fun _ => True) (handleQuery req s) (fun s' _ => s'.heading = s.heading)
      (fun _ => True) :=
  ensures_handleQuery_keeps (fun _ _ _ _ => rfl) (fun _ _ _ => rfl) s fun _ _ _ _ => rfl

theorem loadConfig_sid (conf : Blog) :
    Prog.Ensures handle (fun _ => True) (loadConfig conf) (fun r _ => r.2.sid = conf.sid)
      (fun _ => True) := by
  rw [loadConfig]
  refine (Prog.Ensures.any _).bind fun opened => ?_
  cases opened with
  | none => exact Prog.Ensures.ret fun _ _ => rfl
  | some r =>
      refine (Prog.Ensures.any _).bind fun title => ?_
      simp only
      split
      · exact Prog.Ensures.ret fun _ _ => rfl
      · refine (Prog.Ensures.any _).bind fun tagline => ?_
        split
        · exact Prog.Ensures.ret fun _ _ => rfl
        · refine (Prog.Ensures.any _).bind fun sbox => ?_
          split <;> exact Prog.Ensures.ret fun _ _ => rfl

/-- The arrays hold what was read, the byte behind the id and the title. -/
theorem SidRead.arrays {behind : Bytes} (read : SidRead req behind fs s) :
    s.conf.sid.drop sizeSessionId = behind.take 1 ∧ s.conf.title = behind.drop 1 := by
  have size : s.conf.sid.length = sizeSessionId + 1 := read.buffer
  rw [← read.behind, take_behind read.buffer, List.drop_drop, ← size, List.drop_left]
  exact ⟨rfl, rfl⟩

/-- A round leaves the array of the session id as the cookie has it. -/
theorem ensures_serve_behind (req : HttpRequest) (buffer : SidBuffer s.conf.sid) :
    Prog.Ensures handle (· = fs) (serve req s)
      (fun s' _ => SidBuffer s'.conf.sid ∧
        s'.conf.sid.drop sizeSessionId = (behindId req s.conf).take 1) (fun _ => True) := by
  rw [serve]
  refine (ensures_parseRequest_heading buffer).bind fun parsed =>
    Prog.Ensures.of_fact fun heading => ?_
  refine (ensures_handleQuery_heading req parsed).mono (fun s' _ same => ?_) fun _ _ => True.intro
  have sid : s'.conf.sid = parsed.conf.sid := congrArg Prod.fst same
  rw [sid]
  exact ⟨heading.read.buffer, heading.read.arrays.1⟩

/-- **The session id has its array in every state the server comes to.** -/
theorem Reachable.sidBuffer (reached : Reachable s fs) : SidBuffer s.conf.sid := by
  induction reached with
  | start own ran =>
      have loaded : Prog.Ensures handle (fun _ => True) startServer
          (fun s _ => s.conf.sid = blogInit.sid) (fun _ => True) := by
        rw [startServer]
        refine (loadConfig_sid blogInit).bind fun r => Prog.Ensures.of_fact fun same => ?_
        refine Prog.Ensures.ret fun _ _ => ?_
        split <;> exact same
      rw [loaded.of_ok True.intro ran]
      rfl
  | serve before req ran ih => exact ((ensures_serve_behind req ih).of_ok rfl ran).1

end Serving

end Bagunceiro
