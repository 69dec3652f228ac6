/-
# Cookies -- the headers in front of a page (`print_header_html`, `z_http.c`)

A page may set two cookies.  The style sheet comes out of the request, but it is
the name of a file by then.  The session id is fresh after a login; after a login
that was refused it is what the request's own cookie said, decoded: with a line
break in it, it ends the header.  A fresh id is printed with what is behind it, when a
cookie has taken its terminator away (`followsId`, `cookies_unbroken_iff`).
-/
import Bagunceiro.Heading
import Bagunceiro.Titles

namespace Bagunceiro

open Effect

set_option autoImplicit false

/-! ## Cookies -/

/-- `COOKIE_CSS` -/
def cookieCssName : Bytes := str "css"
/-- `COOKIE_SID` -/
def cookieSidName : Bytes := str "sid"

/-- The cookies `print_header_html` sets: name and value. -/
def headerCookies (conf : Blog) : List (Bytes × Bytes) :=
  (if conf.qry.csstype = .cssSelect then [(cookieCssName, cstr conf.qry.css)] else []) ++
  (if conf.qry.csstype = .cssReset then [(cookieCssName, [])] else []) ++
  (if conf.qry.action = .qaLogout ∨ conf.authtype = .authSid ∧ ¬ conf.auth then
    [(cookieSidName, [])] else []) ++
  (if conf.authtype = .authPost then [(cookieSidName, conf.sidText)] else [])

/-- Whether `handle_query` gets to `print_header_html`: pages for administrators
are HTML; of the others, the feed has a header of its own, and no page is shown
for a query of no type. -/
def printsHeader (s : Server) : Prop :=
  match branch s with
  | .qaShow => (accessGate s).conf.qry.type ≠ .qryNone ∧ s.conf.qry.stype = .sHtml
  | .qaAdd | .qaModify | .qaConfig | .qaLogin => True
  | .qaAddPost | .qaDelete | .qaModifyPost | .qaConfigPost | .qaLogout => s.conf.qry.stype = .sHtml

instance (s : Server) : Decidable (printsHeader s) := by
  rw [printsHeader]
  split <;> infer_instance

/-- One round of the request loop: the cookies it sets. -/
def serveCookies (req : HttpRequest) (s : Server) : M (List (Bytes × Bytes)) := do
  let parsed ← parseRequest req s
  let final ← handleQuery req parsed
  return if printsHeader parsed then headerCookies final.conf else []

/-! ## What is printed -/

/-- What is printed behind a fresh session id: a configuration form that comes with the
password has the title replaced by then. -/
def followsId (req : HttpRequest) (conf : Blog) : Bytes :=
  let behind := behindId req conf
  cstr (behind.take 1 ++
    if req.action = .qaConfigPost then savedTitle (formTitle req conf.qry.title) (behind.drop 1)
    else behind.drop 1)

section Serving

variable {req : HttpRequest} {fs : Fs} {s : Server}

/-- The pages that are HTML whatever is asked for. -/
def formActions : List Qaction := [.qaAdd, .qaModify, .qaConfig, .qaLogin]

/-- A header is printed for every page but the feed, and for every form. -/
theorem printsHeader_iff (chosen : Chosen req s) :
    printsHeader s ↔ wantsFeed req = false ∨ branch s ∈ formActions := by
  have html : s.conf.qry.stype = .sHtml ↔ wantsFeed req = false := by
    rw [chosen.stype]
    cases wantsFeed req <;> simp
  have some_ : branch s = .qaShow → (accessGate s).conf.qry.type ≠ .qryNone := by
    unfold branch accessGate
    dsimp only
    split_ifs
    · simp [Server.modQry, Server.setErr]
    · simp [Server.modQry]
    · exact chosen.shown
    · exact chosen.shown
  rw [printsHeader]
  cases is : branch s with
  | qaShow => simp [some_ is, html, formActions]
  | _ => simp [html, formActions]

/-- Without privileges the only form is that of the login. -/
theorem form_of_not_auth (chosen : Chosen req s) (auth : s.conf.auth = false) :
    branch s ∈ formActions ↔ queryLogin.flag req = true ∧ queryLogout.flag req = false := by
  rw [← chosen.login, branch_eq, auth]
  cases s.conf.qry.action <;> decide

/-- Who is let in gets to what is asked for, and who logs out asks for no form. -/
theorem branch_of_login {action : Qaction} (login : s.conf.auth = true ↔ ¬ LogsOut req)
    (asks : s.conf.qry.action = req.action) (other : action ≠ .qaShow ∧ action ≠ .qaLogout) :
    branch s = action ↔ req.action = action := by
  by_cases out : LogsOut req
  · have auth : s.conf.auth = false := Bool.eq_false_iff.2 fun privileged => login.1 privileged out
    have asked : req.action = .qaShow ∨ req.action = .qaLogout := by
      rw [LogsOut] at out
      rw [HttpRequest.action, if_pos out]
      split
      · exact .inl rfl
      · exact .inr rfl
    have shows : branch s = .qaShow := by
      rw [branch_eq, auth, asks]
      rcases asked with show_ | logout
      · rw [show_]
        rfl
      · rw [logout]
        rfl
    rw [shows]
    refine iff_of_false (Ne.symm other.1) fun same => ?_
    rcases asked with show_ | logout
    · exact other.1 (same.symm.trans show_)
    · exact other.2 (same.symm.trans logout)
  · rw [branch_eq, login.2 out, asks]
    simp

theorem form_of_login (login : s.conf.auth = true ↔ ¬ LogsOut req)
    (asks : s.conf.qry.action = req.action) : branch s ∈ formActions ↔ req.action ∈ formActions := by
  have same {action : Qaction} (other : action ≠ .qaShow ∧ action ≠ .qaLogout) :=
    branch_of_login login asks other
  rw [formActions]
  simp only [List.mem_cons, List.not_mem_nil, or_false]
  rw [same (by decide), same (by decide), same (by decide), same (by decide)]

theorem headerCookies_unbroken_iff {conf : Blog}
    (css : conf.qry.csstype = .cssSelect → Unbroken (cstr conf.qry.css)) :
    (∀ c ∈ headerCookies conf, Unbroken c.2) ↔
      (conf.authtype = .authPost → Unbroken conf.sidText) := by
  have empty : Unbroken [] := by decide
  constructor
  · intro all post
    exact all (cookieSidName, conf.sidText) (by simp [headerCookies, post])
  · intro sid c member
    simp only [headerCookies, List.mem_append] at member
    rcases member with ((select | reset) | out) | post
    · split at select
      · rename_i chosen
        rw [List.mem_singleton.1 select]
        exact css chosen
      · cases select
    · split at reset
      · rw [List.mem_singleton.1 reset]
        exact empty
      · cases reset
    · split at out
      · rw [List.mem_singleton.1 out]
        exact empty
      · cases out
    · split at post
      · rename_i type
        rw [List.mem_singleton.1 post]
        exact sid type
      · cases post

theorem printed_unbroken_iff {conf : Blog} {prints : Prop} [Decidable prints]
    (css : conf.qry.csstype = .cssSelect → Unbroken (cstr conf.qry.css)) :
    (∀ c ∈ if prints then headerCookies conf else [], Unbroken c.2) ↔
      (prints → conf.authtype = .authPost → Unbroken conf.sidText) := by
  by_cases printed : prints
  · rw [if_pos printed, headerCookies_unbroken_iff css]
    exact ⟨fun clean _ => clean, fun clean => clean printed⟩
  · rw [if_neg printed]
    exact iff_of_true (by simp) fun prints => absurd prints printed

/-- A request with a line break in a cookie.  Its login is refused, and its session
cookie, decoded, has one; or its login is accepted, and one follows the fresh id. -/
inductive Splits (req : HttpRequest) (conf : Blog) (fs : Fs) : Prop
  | refused (posted : (postLogin.value req).isSome) (wrong : ¬ CarriesLogin req fs)
      (page : wantsFeed req = false ∨ queryLogin.flag req = true ∧ queryLogout.flag req = false)
      (cookie : ¬ Unbroken (cookieId req))
  | accepted (carries : CarriesLogin req fs)
      (page : wantsFeed req = false ∨ req.action ∈ formActions)
      (behind : ¬ Unbroken (followsId req conf))

theorem CarriesLogin.posted (carries : CarriesLogin req fs) : (postLogin.value req).isSome := by
  obtain ⟨pass, c, posted, -⟩ := carries
  rw [posted]
  rfl

theorem splits_iff_of_accepted {conf : Blog} (carries : CarriesLogin req fs) :
    Splits req conf fs ↔ (wantsFeed req = false ∨ req.action ∈ formActions) ∧
      ¬ Unbroken (followsId req conf) := by
  refine ⟨fun splits => ?_, fun both => .accepted carries both.1 both.2⟩
  cases splits with
  | refused _ wrong => exact absurd carries wrong
  | accepted _ page behind => exact ⟨page, behind⟩

theorem splits_iff_of_refused {conf : Blog} (posted : (postLogin.value req).isSome)
    (wrong : ¬ CarriesLogin req fs) :
    Splits req conf fs ↔
      (wantsFeed req = false ∨ queryLogin.flag req = true ∧ queryLogout.flag req = false) ∧
        ¬ Unbroken (cookieId req) := by
  refine ⟨fun splits => ?_, fun both => .refused posted wrong both.1 both.2⟩
  cases splits with
  | refused _ _ page cookie => exact ⟨page, cookie⟩
  | accepted carries => exact absurd carries wrong

theorem not_splits_of_absent {conf : Blog} (absent : postLogin.value req = none) :
    ¬ Splits req conf fs := by
  intro splits
  have posted : (postLogin.value req).isSome := by
    cases splits with
    | refused posted => exact posted
    | accepted carries => exact carries.posted
  simp [absent] at posted

/-- **The cookies a request sets keep to their header lines, unless a refused login
hands back a session cookie with a line break, or an accepted one writes its id in
front of one.** -/
theorem cookies_unbroken_iff (reached : Reachable s fs)
    (names : ∀ p, req.access p = true → Unbroken p) {cookies : List (Bytes × Bytes)} {t : Fs}
    (ran : exec (serveCookies req s) fs = (.ok cookies, t)) :
    (∀ c ∈ cookies, Unbroken c.2) ↔ ¬ Splits req s.conf fs := by
  rw [exec, serveCookies] at ran
  obtain ⟨parsed, u, parses, ran⟩ := Prog.exists_of_run_bind handle ran
  obtain ⟨final, v, handles, ran⟩ := Prog.exists_of_run_bind handle ran
  cases ran
  have heading := (ensures_parseRequest_heading reached.sidBuffer).of_ok rfl parses
  have settled := (ensures_parseRequest_settled req s reached.own).of_ok rfl parses
  obtain ⟨asks, -⟩ := (ensures_parseRequest_action req s).of_ok True.intro parses
  have form := (ensures_parseRequest_formTitle req s).of_ok True.intro parses
  have same := (ensures_handleQuery_heading req parsed).of_ok True.intro handles
  have title := (ensures_handleQuery_title req parsed).of_ok True.intro handles
  simp only [Server.heading, Prod.mk.injEq] at same
  obtain ⟨sid, type, css, csstype⟩ := same
  have css : final.conf.qry.csstype = .cssSelect → Unbroken (cstr final.conf.qry.css) := by
    rw [css, csstype]
    exact fun select => names _ (heading.css select)
  have page := printsHeader_iff heading.chosen
  rw [printed_unbroken_iff css, type]
  cases heading.read.outcome with
  | notPosted absent none_ =>
      exact iff_of_true (fun _ post => absurd post none_) (not_splits_of_absent absent)
  | accepted carries post fresh =>
      have login : parsed.conf.auth = true ↔ ¬ LogsOut req := by
        rw [settled.auth, Admitted, if_pos carries.posted, and_iff_left carries]
      have text : Unbroken final.conf.sidText ↔ Unbroken (followsId req s.conf) := by
        obtain ⟨last, titled⟩ := heading.read.arrays
        rw [Blog.sidText, sid, title, form, ← List.take_append_drop sizeSessionId parsed.conf.sid,
          fresh, List.append_assoc, unbroken_login, followsId, last, titled]
        simp only [branch_of_login login asks (by decide : Qaction.qaConfigPost ≠ .qaShow ∧ _)]
        rfl
      rw [page, form_of_login login asks, text, splits_iff_of_accepted carries, not_and, not_not]
      exact ⟨fun clean shown => clean shown post, fun clean shown _ => clean shown⟩
  | refused posted wrong post auth kept =>
      have noForm : branch parsed ≠ .qaConfigPost := by
        rcases branch_of_not_auth auth with is | is <;> rw [is] <;> decide
      have text : final.conf.sidText = parsed.conf.sidText := by
        rw [Blog.sidText, sid, title, if_neg noForm, Blog.sidText]
      rw [page, form_of_not_auth heading.chosen auth, text, kept, splits_iff_of_refused posted wrong,
        not_and, not_not]
      exact ⟨fun clean shown => clean shown post, fun clean shown _ => clean shown⟩

end Serving

/-- A blog with a password and no session. -/
def lockedBlog : Fs :=
  (Fs.empty.install confDb (.finished [⟨confPass, str "secret"⟩])).install sessionDb (.finished [])

/-- The server that starts on this blog. -/
def lockedServer : Server :=
  match (exec startServer lockedBlog).1 with
  | .ok s => s
  | .error _ => freshServer

/-- A login with a wrong password, under some session cookie, where no style sheet
exists. -/
def wrongLogin (sid : Bytes) : HttpRequest :=
  { HttpRequest.blank with
    access := fun _ => false
    cookie := some (str "sid=" ++ sid)
    postData := str "login=guess" }

theorem lockedBlog_reached : Reachable lockedServer lockedBlog := by
  have own : OwnSessions lockedBlog := by
    intro recs stored
    have none_ : lockedBlog.content sessionDb = some (.finished []) := rfl
    rw [none_] at stored
    cases stored
    simp
  obtain ⟨s, ran⟩ : ∃ s, exec startServer lockedBlog = (.ok s, lockedBlog) := ⟨_, rfl⟩
  have same : lockedServer = s := by rw [lockedServer, ran]
  rw [same]
  exact .start own ran

theorem wrongLogin_names (sid : Bytes) : ∀ p, (wrongLogin sid).access p = true → Unbroken p := by
  simp [wrongLogin]

/-- A run, from its result. -/
theorem exec_of_fst {α : Type} {p : M α} {fs : Fs} {a : α} (result : (exec p fs).1 = .ok a) :
    exec p fs = (.ok a, (exec p fs).2) :=
  Prod.ext result rfl

theorem cookies_unbroken_sample : (∀ c ∈ [(cookieSidName, str "0123")], Unbroken c.2) ↔
    ¬ Splits (wrongLogin (str "0123")) lockedServer.conf lockedBlog := by
  have ran : (exec (serveCookies (wrongLogin (str "0123")) lockedServer) lockedBlog).1 =
      .ok [(cookieSidName, str "0123")] := by decide +kernel
  exact cookies_unbroken_iff lockedBlog_reached (wrongLogin_names _) (exec_of_fst ran)

/-- A refused login sends back a cookie that ends its header and begins another one. -/
theorem refused_login_splits :
    ¬ ∀ s fs req, Reachable s fs → (∀ p, req.access p = true → Unbroken p) →
      ∀ cookies t, exec (serveCookies req s) fs = (.ok cookies, t) → ∀ c ∈ cookies, Unbroken c.2 := by
  intro claim
  have ran : (exec (serveCookies (wrongLogin (str "1%0d%0aX:2")) lockedServer) lockedBlog).1 =
      .ok [(cookieSidName, [49, 13, 10, 88, 58, 50])] := by decide +kernel
  have unbroken := claim lockedServer lockedBlog (wrongLogin (str "1%0d%0aX:2")) lockedBlog_reached
    (wrongLogin_names _) _ _ (exec_of_fst ran)
  exact absurd (unbroken _ List.mem_cons_self) (by decide)

end Bagunceiro
