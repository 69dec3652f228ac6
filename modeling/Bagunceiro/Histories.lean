/-
# Histories -- requests of strangers, and what they leave for others

Two servers are started alike and serve the same requests, except for some that
fail authentication and are served by only one of them (`Histories`).  If those
are quiet, nothing ever tells the two apart: the next request leaves the same
configuration on disk, and its page is made from the same title, tagline, search
box and notice, for the same question: the action, the string that is searched for,
the stamp, the window and the month (`quiet_failures_leave_no_trace`).  The byte behind
the session id is one more that outlasts a request; a cookie of full length is quiet
when its terminator falls on another one (`QuietFor`).

If they are not, it does (`posted_password_is_saved`).
-/
import Bagunceiro.Heading
import Bagunceiro.Months
import Bagunceiro.Serving

namespace Bagunceiro

open Effect Prog

set_option autoImplicit false

/-- What every page is made of, apart from the entries and the month. -/
structure Page where
  title : Bytes
  tagline : Bytes
  sbox : UInt8
  notice : Errors
  find : Bytes
  asked : Qaction × Qtype × Stype
  ts : Bytes
  window : Nat × Nat
  /-- What a fresh session id is printed in front of, with the title. -/
  behind : Bytes
  deriving DecidableEq, Repr

def Server.page (s : Server) : Page where
  title := cstr s.conf.title
  tagline := cstr s.conf.tagline
  sbox := s.conf.sbox
  notice := s.gerr
  find := cstr s.conf.qry.find
  asked := (s.conf.qry.action, s.conf.qry.type, s.conf.qry.stype)
  ts := s.conf.qry.ts
  window := (s.conf.qry.start, s.conf.qry.doff)
  behind := s.conf.sid.drop sizeSessionId

/-- A month, if one is asked for, with all its parts: `caldate_scan` keeps those that
it does not come to. -/
def AsksWholeMonth (req : HttpRequest) : Prop :=
  ∀ text ∈ queryMonth.value req, ∀ cd cd',
    caldateScan (cstr text ++ str "-01") cd = caldateScan (cstr text ++ str "-01") cd'

/-- Two histories, up to the servers and the files they come to.  They have the
same requests, each served over whatever is left in memory, but for failed ones
that are of a given kind. -/
inductive Histories (kind : Server → HttpRequest → Prop) : Server → Fs → Server → Fs → Prop
  | start {fs t : Fs} {s : Server} (own : OwnSessions fs)
      (ran : exec startServer fs = (.ok s, t)) : Histories kind s t s t
  | both {s s' s₁ s₁' : Server} {fs fs' t t' : Fs} (before : Histories kind s fs s' fs')
      (req : HttpRequest) (l l' : Leftovers) (left : exec (serve (req.upon l) s) fs = (.ok s₁, t))
      (right : exec (serve (req.upon l') s') fs' = (.ok s₁', t')) : Histories kind s₁ t s₁' t'
  | first {s s' s₁ : Server} {fs fs' t : Fs} (before : Histories kind s fs s' fs')
      (req : HttpRequest) (fails : Unauthenticated req fs) (is : kind s req)
      (left : exec (serve req s) fs = (.ok s₁, t)) : Histories kind s₁ t s' fs'
  | second {s s' s₁' : Server} {fs fs' t' : Fs} (before : Histories kind s fs s' fs')
      (req : HttpRequest) (fails : Unauthenticated req fs') (is : kind s' req)
      (right : exec (serve req s') fs' = (.ok s₁', t')) : Histories kind s fs s₁' t'

/-- A request ends well in both histories or in neither, and then with the same
configuration on disk, the same page and the month that is asked for. -/
structure ServedAlike (req : HttpRequest) (s : Server) (fs : Fs) (s' : Server) (fs' : Fs) :
    Prop where
  alike : ∀ l l' : Leftovers,
    let run := exec (serve (req.upon l) s) fs
    let run' := exec (serve (req.upon l') s') fs'
    Alike (fun s₁ s₁' => s₁.page = s₁'.page ∧
        (AsksWholeMonth req → s₁.conf.qry.mon.date = s₁'.conf.qry.mon.date) ∧
        run.2.content confDb = run'.2.content confDb)
      run.1 run'.1

/-! ## Quiet strangers -/

/-- A quiet request, as a server finds it: the terminator of a session id of full length
falls on one that is there. -/
structure QuietFor (s : Server) (req : HttpRequest) : Prop where
  quiet : Quiet req
  place : ∀ id ∈ cookieSid.value req, id.length = sizeSessionId →
    s.conf.sid.drop sizeSessionId = [0]

/-- The byte behind the id stays. -/
theorem QuietFor.behind {s : Server} {req : HttpRequest} (is : QuietFor s req)
    (buffer : SidBuffer s.conf.sid) :
    (behindId req s.conf).take 1 = s.conf.sid.drop sizeSessionId := by
  cases got : cookieSid.get req with
  | error e =>
      have kept : cookieSid.onto req (s.conf.sid ++ s.conf.title) = s.conf.sid ++ s.conf.title := by
        rw [Site.onto, got]
      rw [behindId, kept, take_behind buffer]
  | ok p =>
      rw [take_behindId buffer got]
      split
      · rename_i long
        by_cases success : p.code = paramSuccess
        · obtain ⟨id, value, write, -⟩ := Site.get_success got success
          have full : id.length = sizeSessionId := by
            have fits := is.quiet.session id value
            rw [write, List.length_append, List.length_singleton] at long
            omega
          rw [is.place id value full, write, ← full, List.drop_left]
          rfl
        · have nothing := Site.get_failure (is.quiet.accepted cookieSid (by simp [alwaysRead])) got
            success
          rw [nothing] at long
          exact absurd long (Nat.not_lt_zero _)
      · rfl

/-- What holds between two histories. -/
structure Paired (s : Server) (fs : Fs) (s' : Server) (fs' : Fs) : Prop where
  reached : Reachable s fs
  reached' : Reachable s' fs'
  servers : s.surviving = s'.surviving
  behind : s.conf.sid.drop sizeSessionId = s'.conf.sid.drop sizeSessionId
  files : FilesAlike fs fs'

theorem Paired.refl {s : Server} {fs : Fs} (reached : Reachable s fs) : Paired s fs s fs :=
  ⟨reached, reached, rfl, rfl, ⟨rfl, rfl, rfl⟩⟩

/-- The same request leaves the same byte behind the id. -/
theorem Paired.behind_serve {s s' s₁ s₁' : Server} {fs fs' t t' : Fs} (paired : Paired s fs s' fs')
    {req : HttpRequest} {l l' : Leftovers} (left : exec (serve (req.upon l) s) fs = (.ok s₁, t))
    (right : exec (serve (req.upon l') s') fs' = (.ok s₁', t')) :
    s₁.conf.sid.drop sizeSessionId = s₁'.conf.sid.drop sizeSessionId := by
  have buffer := paired.reached.sidBuffer
  have buffer' := paired.reached'.sidBuffer
  obtain ⟨-, one⟩ := (ensures_serve_behind (req.upon l) buffer).of_ok rfl left
  obtain ⟨-, other⟩ := (ensures_serve_behind (req.upon l') buffer').of_ok rfl right
  rw [one, other]
  exact behindId_congr req buffer buffer' paired.behind

/-- A request that both have keeps them together. -/
theorem Paired.both {s s' s₁ s₁' : Server} {fs fs' t t' : Fs} (paired : Paired s fs s' fs')
    {req : HttpRequest} {l l' : Leftovers} (left : exec (serve (req.upon l) s) fs = (.ok s₁, t))
    (right : exec (serve (req.upon l') s') fs' = (.ok s₁', t')) : Paired s₁ t s₁' t' := by
  obtain ⟨servers, files⟩ :=
    (agree_serve req l l' paired.servers).of_ok ⟨paired.files, paired.reached.own⟩ left right
  exact ⟨.serve paired.reached _ left, .serve paired.reached' _ right,
    Server.surviving_congr servers, paired.behind_serve left right, files⟩

/-- So does a quiet failure in one of them. -/
theorem QuietFor.serve {s s₁ : Server} {fs t : Fs} {req : HttpRequest} (is : QuietFor s req)
    (reached : Reachable s fs) (fails : Unauthenticated req fs)
    (ran : exec (serve req s) fs = (.ok s₁, t)) :
    s₁.surviving = s.surviving ∧ s₁.conf.sid.drop sizeSessionId = s.conf.sid.drop sizeSessionId ∧
      t = fs := by
  have buffer := reached.sidBuffer
  obtain ⟨surviving, rfl⟩ := (is.quiet.ensures_serve fails reached.own s).of_ok rfl ran
  obtain ⟨-, behind⟩ := (ensures_serve_behind req buffer).of_ok rfl ran
  exact ⟨surviving, behind.trans (is.behind buffer), rfl⟩

theorem Paired.first {s s' s₁ : Server} {fs fs' t : Fs} (paired : Paired s fs s' fs')
    {req : HttpRequest} (fails : Unauthenticated req fs) (is : QuietFor s req)
    (left : exec (Bagunceiro.serve req s) fs = (.ok s₁, t)) : Paired s₁ t s' fs' := by
  obtain ⟨surviving, behind, rfl⟩ := is.serve paired.reached fails left
  exact ⟨.serve paired.reached req left, paired.reached', surviving.trans paired.servers,
    behind.trans paired.behind, paired.files⟩

theorem Paired.second {s s' s₁' : Server} {fs fs' t' : Fs} (paired : Paired s fs s' fs')
    {req : HttpRequest} (fails : Unauthenticated req fs') (is : QuietFor s' req)
    (right : exec (Bagunceiro.serve req s') fs' = (.ok s₁', t')) : Paired s fs s₁' t' := by
  obtain ⟨surviving, behind, rfl⟩ := is.serve paired.reached' fails right
  exact ⟨paired.reached, .serve paired.reached' req right, paired.servers.trans surviving.symm,
    paired.behind.trans behind.symm, paired.files⟩

theorem Histories.paired {s s' : Server} {fs fs' : Fs} (histories : Histories QuietFor s fs s' fs') :
    Paired s fs s' fs' := by
  induction histories with
  | start own ran => exact .refl (.start own ran)
  | both before req l l' left right ih => exact ih.both left right
  | first before req fails is left ih => exact ih.first fails is left
  | second before req fails is right ih => exact ih.second fails is right

theorem Server.page_congr {s s' : Server} (same : s.core = s'.core)
    (behind : s.conf.sid.drop sizeSessionId = s'.conf.sid.drop sizeSessionId) : s.page = s'.page := by
  have frame : { s.core.page with behind := [] } = { s'.core.page with behind := [] } := by rw [same]
  show { s.page with behind := s.conf.sid.drop sizeSessionId } =
    { s'.page with behind := s'.conf.sid.drop sizeSessionId }
  rw [behind]
  exact congrArg (fun page : Page => { page with behind := s'.conf.sid.drop sizeSessionId }) frame

/-! ## The month -/

/-- The month that a request is about, when it asks for a whole one or for none. -/
def wholeMonth (req : HttpRequest) : Caldate :=
  (queryMonth.value req).elim (dayOf req.leapsecs req.now) fun text =>
    caldateScan (cstr text ++ str "-01") ⟨0, 0, 0⟩

theorem parseQuery_wholeMonth {req : HttpRequest} (whole : AsksWholeMonth req) {s s' : Server}
    (parsed : parseQuery req s = .ok s') : s'.conf.qry.mon.date = wholeMonth req := by
  rw [wholeMonth]
  cases given : queryMonth.value req with
  | none => exact parseQuery_today parsed given
  | some text =>
      obtain ⟨p, old, got, selected, -⟩ := parseQuery_month req s s' parsed
      obtain ⟨q, got', success, write, -⟩ := Site.get_of_value given
      rw [got] at got'
      cases got'
      rw [(selected success).2.2, write, cstr_concat_zero]
      exact whole text given old _

/-- Whoever came before. -/
theorem serve_wholeMonth {req : HttpRequest} (whole : AsksWholeMonth req) {s s' : Server}
    {fs t : Fs} (ran : exec (serve req s) fs = (.ok s', t)) :
    s'.conf.qry.mon.date = wholeMonth req := by
  obtain ⟨s₁, t₁, parsed, handled⟩ := serve_steps ran
  obtain ⟨s₂, s₃, -, query, view⟩ := parseRequest_view parsed
  have acted : Prog.Ensures handle (fun _ => True) (handleQuery req s₁)
      (fun s' _ => s'.conf.qry.mon = s₁.conf.qry.mon) (fun _ => True) :=
    ensures_handleQuery_keeps (fun _ _ _ _ => rfl) (fun _ _ _ => rfl) s₁ fun _ _ _ _ => rfl
  have mon : s₁.conf.qry.mon = s₃.conf.qry.mon := congrArg Prod.snd (shows_of_view view)
  rw [acted.of_ok True.intro handled, mon]
  exact parseQuery_wholeMonth whole query

/-- **Quiet failures leave no trace.**  However many requests fail in whichever
of two histories, if they are quiet, every later request is served alike in
both. -/
theorem quiet_failures_leave_no_trace {s s' : Server} {fs fs' : Fs}
    (histories : Histories QuietFor s fs s' fs') (req : HttpRequest) :
    ServedAlike req s fs s' fs' := by
  constructor
  intro l l'
  have paired := histories.paired
  have served := agree_serve req l l' paired.servers fs fs' ⟨paired.files, paired.reached.own⟩
  have month : ∀ s₁ s₁', (exec (serve (req.upon l) s) fs).1 = .ok s₁ →
      (exec (serve (req.upon l') s') fs').1 = .ok s₁' →
      AsksWholeMonth req → s₁.conf.qry.mon.date = s₁'.conf.qry.mon.date := by
    intro s₁ s₁' left right whole
    have asked := @serve_wholeMonth (req.upon l) whole s s₁ fs _ (Prod.ext left rfl)
    have asked' := @serve_wholeMonth (req.upon l') whole s' s₁' fs' _ (Prod.ext right rfl)
    exact asked.trans asked'.symm
  have behind : ∀ s₁ s₁', (exec (serve (req.upon l) s) fs).1 = .ok s₁ →
      (exec (serve (req.upon l') s') fs').1 = .ok s₁' →
      s₁.conf.sid.drop sizeSessionId = s₁'.conf.sid.drop sizeSessionId :=
    fun s₁ s₁' left right => paired.behind_serve (Prod.ext left rfl) (Prod.ext right rfl)
  refine ((served.and month).and behind).mono fun s₁ s₁' left => ?_
  obtain ⟨⟨⟨servers, files⟩, month⟩, behind⟩ := left
  exact ⟨Server.page_congr servers behind, month, files.conf⟩

/-- A request that carries neither a session nor a password. -/
theorem Unauthenticated.of_none {req : HttpRequest} (session : cookieSid.value req = none)
    (login : postLogin.value req = none) (fs : Fs) : Unauthenticated req fs := by
  constructor
  · rintro ⟨id, c, carried, -⟩
    rw [session] at carried
    cases carried
  · rintro ⟨pass, c, carried, -⟩
    rw [login] at carried
    cases carried

/-- A blog with a title and no password, and somebody who is logged in. -/
def configured : Fs :=
  loggedIn.install confDb (.finished [⟨confTitle, str "Blog" ++ [0]⟩,
    ⟨confTagline, str "and more" ++ [0]⟩, ⟨confSearchbox, [121]⟩])

theorem configured_own : OwnSessions configured := .of_issued rfl

/-- The administrator's form, in which the password stays empty. -/
def ownForm : HttpRequest :=
  { HttpRequest.blank with
    cookie := some (str "sid=" ++ sessionId fun _ => 10)
    postData := str "action=config&title=Blog&tagline=new&pass=&sbox=y" }

/-- A stranger looks at the entries with a tag, and asks for the form of a new one. -/
def strangersSearch : HttpRequest :=
  { HttpRequest.blank with queryString := some (str "tag=c&add") }

/-- A request of a stranger, served after the start. -/
theorem served_after_start {req : HttpRequest} {fs : Fs} (own : OwnSessions fs)
    (fails : Unauthenticated req fs) (ends : (exec (startServer >>= serve req) fs).1.isOk = true) :
    ∃ s s', exec startServer fs = (.ok s, fs) ∧ exec (serve req s) fs = (.ok s', fs) := by
  obtain ⟨s, t, started, goesOn⟩ := exists_of_run_bind_ok handle ends
  obtain rfl : t = fs := ensures_startServer.of_ok rfl started
  obtain ⟨s', t', served⟩ := exists_of_run_ok handle goesOn
  obtain rfl : t' = t := (fails.ensures_serve own s).of_ok rfl served
  exact ⟨s, s', started, served⟩

theorem quiet_failures_leave_no_trace_sample :
    ∃ s s', exec startServer configured = (.ok s, configured) ∧
      exec (serve strangersSearch s) configured = (.ok s', configured) ∧
      ServedAlike ownForm s' configured s configured := by
  have fails : Unauthenticated strangersSearch configured :=
    .of_none (by decide +kernel) (by decide +kernel) _
  obtain ⟨s, s', started, served⟩ := served_after_start configured_own fails (by decide +kernel)
  have quiet : QuietFor s strangersSearch := by
    have absent : cookieSid.value strangersSearch = none := by decide +kernel
    refine ⟨by decide +kernel, fun id given => ?_⟩
    rw [absent] at given
    cases given
  have histories : Histories QuietFor s' configured s configured :=
    .first (.start configured_own started) strangersSearch fails quiet served
  exact ⟨s, s', started, served, quiet_failures_leave_no_trace histories ownForm⟩

/-! ## And others -/

/-- How a failed request can be told from what is saved after it. -/
theorem trace_of_saved {failed later : HttpRequest} {fs : Fs} (own : OwnSessions fs)
    (fails : Unauthenticated failed fs) {l : Leftovers} (itself : later.upon l = later)
    (ends : (exec (startServer >>= fun s => serve failed s >>= serve later) fs).1.isOk = true)
    (differ : (exec (startServer >>= fun s => serve failed s >>= serve later) fs).2.content confDb ≠
      (exec (startServer >>= serve later) fs).2.content confDb) :
    ∃ s s', Histories (fun _ _ => True) s' fs s fs ∧ ¬ ServedAlike later s' fs s fs := by
  obtain ⟨s, t, started, goesOn⟩ := exists_of_run_bind_ok handle ends
  obtain rfl : t = fs := ensures_startServer.of_ok rfl started
  obtain ⟨s', t', served, last⟩ := exists_of_run_bind_ok handle goesOn
  obtain rfl : t' = t := (fails.ensures_serve own s).of_ok rfl served
  refine ⟨s, s', .first (.start own started) failed fails True.intro served, fun alike => ?_⟩
  have same := alike.alike l l
  rw [itself] at same
  unfold exec at differ same
  rw [run_bind_ok handle started, run_bind_ok handle started, run_bind_ok handle served] at differ
  obtain ⟨s₁, t₁, left⟩ := exists_of_run_ok handle last
  cases right : run handle (serve later s) t' with
  | mk result t₂ =>
      rw [left, right] at same
      rw [left, right] at differ
      cases result with
      | ok s₂ => exact differ same.2.2
      | error e => exact same

/-- A stranger's form for a configuration with a password. -/
def strangersForm : HttpRequest :=
  { HttpRequest.blank with postData := str "action=config&pass=mine" }

theorem strangersForm_fails : Unauthenticated strangersForm configured :=
  .of_none (by decide +kernel) (by decide +kernel) _

def savedPassword (c : Option Content) : List Bytes := findAll (c.bind Content.records) confPass

/-- The stranger's password is kept in `blog_t`, and the administrator saves it. -/
theorem strangers_password_is_saved :
    let with_ := startServer >>= fun s => serve strangersForm s >>= serve ownForm
    let without := startServer >>= serve ownForm
    (exec with_ configured).1.isOk = true ∧
      savedPassword ((exec with_ configured).2.content confDb) = [str "mine" ++ [0]] ∧
      savedPassword ((exec without configured).2.content confDb) = [] := by
  decide +kernel

/-- Failed requests that are not quiet do leave traces. -/
theorem failures_leave_traces : ¬ ∀ s fs s' fs', Histories (fun _ _ => True) s fs s' fs' →
    ∀ req, ServedAlike req s fs s' fs' := by
  intro alike
  obtain ⟨ends, saved, unsaved⟩ := strangers_password_is_saved
  have itself : ownForm.upon ⟨ownForm.left, ownForm.memory, ownForm.loginMemory⟩ = ownForm := rfl
  obtain ⟨s, s', histories, differ⟩ :=
    trace_of_saved configured_own strangersForm_fails itself ends fun same => by
      have passwords := congrArg savedPassword same
      rw [saved, unsaved] at passwords
      cases passwords
  exact differ (alike _ _ _ _ histories ownForm)

end Bagunceiro
