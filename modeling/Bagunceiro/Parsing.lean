/-
# Parsing -- what a round of the request loop leaves alone

`parse_query` reads the window of a page and the two search strings; the other
parsers write elsewhere.  A parameter that is read keeps every part of the
configuration that its destination is no part of (`readQry_keeps`); by it, the
view that `parse_query` makes is the view of the parsed request
(`parseRequest_view`).  An action writes the notice, what is to be shown, and the
title and the tagline that are saved (`ensures_handleQuery_keeps`).
-/
import Bagunceiro.Requests

namespace Bagunceiro

open Effect

set_option autoImplicit false

/-! ## One parameter -/

section Keeps

variable {γ : Type} {part : Server → γ} {w : γ} {req : HttpRequest} {s : Server}

/-- A choice that writes elsewhere in the query. -/
theorem choice_keeps {f : Query → Query} {c : Prop} [Decidable c]
    (leaves : ∀ s, part (s.modQry f) = part s) (same : part s = w) :
    part (if c then s.modQry f else s) = w := by
  split
  · exact (leaves s).trans same
  · exact same

/-- A page about today. -/
theorem today_keeps (leaves : ∀ (s : Server) mon, part (s.modQry ({ · with mon })) = part s)
    (same : part s = w) (mon : Caltime) : part (s.modQry ({ · with mon })) = w :=
  (leaves s mon).trans same

-- what is kept is a part of the configuration: the reply is none of it
variable (byConf : ∀ {s t : Server}, t.conf = s.conf → part t = part s)

include byConf

theorem noted_keeps (p : Param) (s : Server) : part (s.noted p) = part s :=
  byConf (Server.noted_conf s p)

theorem readQry_keeps {site : Site} {size : Nat} {get : Query → Bytes}
    {set : Bytes → Query → Query} (leaves : ∀ v s, part (Server.modQry s (set v)) = part s)
    (same : part s = w) :
    Prog.Returns (fun r => part r.2 = w) (readQry req site size get set s) := by
  rw [readQry]
  refine (Prog.Returns.self _).bind fun p _ => (Prog.Returns.self _).bind fun buffer _ => .ok ?_
  exact (noted_keeps byConf p _).trans ((leaves buffer s).trans same)

theorem readLocal_keeps {site : Site} {size : Nat} (same : part s = w) :
    Prog.Returns (fun r => part r.2.2 = w) (readLocal req site size s) := by
  rintro ⟨err, text, s'⟩ read
  obtain ⟨p, -, -, -, rfl⟩ := readLocal_ok read
  exact (noted_keeps byConf p _).trans same

end Keeps

section KeepsQuery

variable {γ : Type} {part : Server → γ} {w : γ} {req : HttpRequest} {s : Server}

-- what is kept is a part of the query, and of the time
variable (byQuery : ∀ {s t : Server}, t.conf.qry = s.conf.qry → t.conf.now = s.conf.now →
  part t = part s)

include byQuery

theorem kept_query {t : Server} (same : part s = w) (qry : t.conf.qry = s.conf.qry)
    (now : t.conf.now = s.conf.now) : part t = w := (byQuery qry now).trans same

theorem noted_keeps_query (p : Param) (s : Server) : part (s.noted p) = part s :=
  noted_keeps (fun same => byQuery (congrArg Blog.qry same) (congrArg Blog.now same)) p s

/-- A login changes the privileges, and sets a session. -/
theorem ensures_parseSid_keeps (same : part s = w) :
    Prog.Ensures handle (fun _ => True) (parseSid req s) (fun s' _ => part s' = w)
      (fun _ => True) := by
  rw [parseSid]
  refine (Prog.Ensures.any _).bind fun p => Prog.Ensures.bind (ensures_written
    (fun conf stored _ _ => storeSid_ok stored) fun _ _ => True.intro) fun conf => ?_
  refine Prog.Ensures.of_fact fun stored => ?_
  set t := (s.modConf fun _ => conf).noted p with ht
  have read : part t = w := by
    refine (noted_keeps_query byQuery p _).trans (kept_query byQuery same ?_ ?_)
    · exact (congrArg Blog.qry stored :)
    · exact (congrArg Blog.now stored :)
  split
  · refine (Prog.Ensures.any _).bind fun auth => Prog.Ensures.ret fun _ _ => ?_
    exact kept_query byQuery read rfl rfl
  · exact Prog.Ensures.ret fun _ _ => read

theorem ensures_parseLogin_keeps (same : part s = w) :
    Prog.Ensures handle (fun _ => True) (parseLogin req s) (fun s' _ => part s' = w)
      (fun _ => True) := by
  rw [parseLogin]
  refine Prog.Ensures.bind (ensures_written (fun r read fs _ =>
    readLocal_keeps (fun same => byQuery (congrArg Blog.qry same) (congrArg Blog.now same)) same r
      read) fun _ _ => True.intro) fun r => Prog.Ensures.of_fact fun same => ?_
  obtain ⟨err, token, s₁⟩ := r
  simp only at same ⊢
  split
  · refine (Prog.Ensures.any _).bind fun auth => ?_
    split
    · refine (Prog.Ensures.any _).bind fun added => ?_
      split
      · exact Prog.Ensures.ret fun _ _ => kept_query byQuery same rfl rfl
      · exact Prog.Ensures.ret fun _ _ => kept_query byQuery same rfl rfl
    · exact Prog.Ensures.ret fun _ _ => kept_query byQuery same rfl rfl
  · exact Prog.Ensures.ret fun _ _ => same

end KeepsQuery

/-! ## The view of a request -/

/-- The part of a page's window that is in the query. -/
def Query.window (q : Query) : Nat × Nat × Caltime := (q.start, q.doff, q.mon)

/-- What a page is about: the clock, the window, and the search strings. -/
def Server.view (s : Server) : Taia × (Nat × Nat × Caltime) × Bytes × Bytes :=
  (s.conf.now, s.conf.qry.window, s.conf.qry.find, s.conf.qry.tag)

/-- What is to be done, and with which entry. -/
def Server.order (s : Server) : Qaction × Bytes := (s.conf.qry.action, s.conf.qry.ts)

def Server.seen (s : Server) : (Taia × (Nat × Nat × Caltime) × Bytes × Bytes) × Qaction × Bytes :=
  (s.view, s.order)

theorem seen_of_conf {s t : Server} (same : t.conf = s.conf) : t.seen = s.seen := by
  rw [Server.seen, Server.view, Server.order, same]
  rfl

theorem seen_of_query {s t : Server} (qry : t.conf.qry = s.conf.qry)
    (now : t.conf.now = s.conf.now) : t.seen = s.seen := by
  rw [Server.seen, Server.view, Server.order, qry, now]
  rfl

theorem view_of_conf {s t : Server} (same : t.conf = s.conf) : t.view = s.view :=
  congrArg Prod.fst (seen_of_conf same)

section Seen

variable {req : HttpRequest} {s : Server}
  {w : (Taia × (Nat × Nat × Caltime) × Bytes × Bytes) × Qaction × Bytes}

theorem readCss_seen {site : Site} (same : s.seen = w) :
    Prog.Returns (fun r => r.2.seen = w) (readCss req site s) :=
  readQry_keeps seen_of_conf (fun _ _ => rfl) same

theorem parseCookie_seen (same : s.seen = w) :
    Prog.Returns (fun s' => s'.seen = w) (parseCookie req s) := by
  rw [parseCookie]
  refine Prog.Returns.bind (readCss_seen same) fun _ same => .ok ?_
  exact choice_keeps (fun _ => rfl) same

theorem parseConfigPost_seen (same : s.seen = w) :
    Prog.Returns (fun s' => s'.seen = w) (parseConfigPost req s) := by
  rw [parseConfigPost]
  refine Prog.Returns.bind (readQry_keeps seen_of_conf (fun _ _ => rfl) same) fun _ same => ?_
  refine Prog.Returns.bind (readQry_keeps seen_of_conf (fun _ _ => rfl) same) fun _ same => ?_
  refine Prog.Returns.bind (readQry_keeps seen_of_conf (fun _ _ => rfl) same) fun _ same => ?_
  refine (Prog.Returns.self _).bind fun p _ => .ok ?_
  split
  · exact (noted_keeps seen_of_conf p _).trans same
  · exact (noted_keeps seen_of_conf p _).trans same

/-- A login changes the privileges, and sets a session. -/
theorem ensures_parseSid_seen (same : s.seen = w) :
    Prog.Ensures handle (fun _ => True) (parseSid req s) (fun s' _ => s'.seen = w)
      (fun _ => True) :=
  ensures_parseSid_keeps seen_of_query same

theorem ensures_parseLogin_seen (same : s.seen = w) :
    Prog.Ensures handle (fun _ => True) (parseLogin req s) (fun s' _ => s'.seen = w)
      (fun _ => True) :=
  ensures_parseLogin_keeps seen_of_query same

end Seen

section View

variable {req : HttpRequest} {s : Server} {w : Taia × (Nat × Nat × Caltime) × Bytes × Bytes}

theorem readTs_view {site : Site} (same : s.view = w) :
    Prog.Returns (fun r => r.2.view = w) (readTs req site s) :=
  readQry_keeps view_of_conf (fun _ _ => rfl) same

theorem parseEntryPost_view (same : s.view = w) :
    Prog.Returns (fun s' => s'.view = w) (parseEntryPost req s) := by
  rw [parseEntryPost]
  refine Prog.Returns.bind (readLocal_keeps view_of_conf same) fun r same => ?_
  obtain ⟨err, parg, s₁⟩ := r
  simp only at same ⊢
  split
  · exact Prog.Returns.bind (readTs_view same) fun _ same => .ok same
  · exact .ok same

theorem parsePost_view (same : s.view = w) :
    Prog.Returns (fun s' => s'.view = w) (parsePost req s) := by
  have entry {t : Server} (chosen : t.view = w) : Prog.Returns (fun s' => s'.view = w)
      (if t.conf.qry.action = .qaAddPost ∨ t.conf.qry.action = .qaModifyPost then
        parseEntryPost req t else pure t) := by
    split
    · exact parseEntryPost_view chosen
    · exact .ok chosen
  rw [parsePost]
  split
  · refine Prog.Returns.bind (readLocal_keeps view_of_conf same) fun r same => ?_
    obtain ⟨err, tmp, s₁⟩ := r
    simp only at same ⊢
    split
    · split_ifs
      · exact Prog.Returns.bind (.ok same) fun _ => entry
      · exact Prog.Returns.bind (.ok same) fun _ => entry
      · refine Prog.Returns.bind (parseConfigPost_seen rfl) fun _ seen => entry ?_
        exact (congrArg Prod.fst seen).trans same
      · exact entry same
    · exact .ok same
  · exact .ok same

theorem doAdminMode_view (same : s.view = w) :
    Prog.Returns (fun s' => s'.view = w) (doAdminMode req s) := by
  rw [doAdminMode]
  refine Prog.Returns.bind (readTs_view same) fun _ same => ?_
  refine (Prog.Returns.self _).bind fun p _ => (Prog.Returns.self _).bind fun q _ => ?_
  refine Prog.Returns.bind (readTs_view (choice_keeps (fun _ => rfl) (choice_keeps (fun _ => rfl)
    (choice_keeps (fun _ => rfl) same)))) fun _ same => ?_
  exact parsePost_view (choice_keeps (fun _ => rfl) same)

theorem parseLogout_view (same : s.view = w) :
    Prog.Returns (fun s' => s'.view = w) (parseLogout req s) := by
  rw [parseLogout]
  refine (Prog.Returns.self _).bind fun p _ => (Prog.Returns.self _).bind fun q _ => .ok ?_
  have login : (if p.code = retNoValue then
      s.modQry ({ · with type := .qryNone, action := .qaLogin }) else s).view = w :=
    choice_keeps (fun _ => rfl) same
  split
  · exact login
  · exact login

end View

/-! ## A whole request -/

/-- What parsing does one after the other: in between only what is neither viewed
nor ordered changes. -/
structure ParseSteps (req : HttpRequest) (s s₁ s₂ s₃ s₄ s₅ s' : Server) : Prop where
  cookie : s₁.seen = (resetVariables req s).seen
  query : parseQuery req s₁ = .ok s₂
  admin : doAdminMode req s₂ = .ok s₃
  token : s₄.seen = s₃.seen
  logout : parseLogout req s₄ = .ok s₅
  checked : s' = (checkCss req (checkTs s₅)).modQry fun q => { q with ts := inflateTs q.ts }

theorem parseRequest_steps {req : HttpRequest} {s s' : Server} {fs fs' : Fs}
    (ran : exec (parseRequest req s) fs = (.ok s', fs')) :
    ∃ s₁ s₂ s₃ s₄ s₅, ParseSteps req s s₁ s₂ s₃ s₄ s₅ s' := by
  have steps : Prog.Ensures handle (fun _ => True) (parseRequest req s)
      (fun s' _ => ∃ s₁ s₂ s₃ s₄ s₅, ParseSteps req s s₁ s₂ s₃ s₄ s₅ s') (fun _ => True) := by
    rw [parseRequest]
    refine Prog.Ensures.bind (ensures_written (fun s₁ parsed _ _ => parseCookie_seen rfl s₁ parsed)
      fun _ _ => True.intro) fun s₁ => Prog.Ensures.of_fact fun cookie => ?_
    refine Prog.Ensures.bind (ensures_written (fun _ parsed _ _ => parsed)
      fun _ _ => True.intro) fun s₂ => Prog.Ensures.of_fact fun query => ?_
    refine Prog.Ensures.bind (ensures_written (fun _ parsed _ _ => parsed)
      fun _ _ => True.intro) fun s₃ => Prog.Ensures.of_fact fun admin => ?_
    have pass : Prog.Ensures handle (fun _ => True) (doAdminPassMode req s₃)
        (fun s₅ _ => ∃ s₄, s₄.seen = s₃.seen ∧ parseLogout req s₄ = .ok s₅) (fun _ => True) := by
      rw [doAdminPassMode]
      refine (ensures_parseSid_seen rfl).bind fun t => Prog.Ensures.of_fact fun sid => ?_
      refine (ensures_parseLogin_seen sid).bind fun s₄ => Prog.Ensures.of_fact fun login => ?_
      exact ensures_written (fun _ parsed _ _ => ⟨s₄, login, parsed⟩) fun _ _ => True.intro
    refine pass.bind fun s₅ => Prog.Ensures.of_fact fun parsed => Prog.Ensures.ret fun _ _ => ?_
    obtain ⟨s₄, token, logout⟩ := parsed
    exact ⟨s₁, s₂, s₃, s₄, s₅, cookie, query, admin, token, logout, rfl⟩
  exact steps.of_ok True.intro ran

/-- **A parsed request has the view that `parse_query` made of a fresh one.** -/
theorem parseRequest_view {req : HttpRequest} {s s' : Server} {fs fs' : Fs}
    (ran : exec (parseRequest req s) fs = (.ok s', fs')) :
    ∃ s₁ s₂, s₁.view = (resetVariables req s).view ∧ parseQuery req s₁ = .ok s₂ ∧
      s'.view = s₂.view := by
  obtain ⟨s₁, s₂, s₃, s₄, s₅, steps⟩ := parseRequest_steps ran
  have admin := doAdminMode_view rfl s₃ steps.admin
  have token := congrArg Prod.fst steps.token
  have logout := parseLogout_view rfl s₅ steps.logout
  have ts : (checkTs s₅).view = s₅.view := by
    rw [checkTs]
    split
    · rfl
    · rfl
  have css : (checkCss req (checkTs s₅)).view = (checkTs s₅).view := by
    rw [checkCss]
    exact choice_keeps (fun _ => rfl) rfl
  refine ⟨s₁, s₂, congrArg Prod.fst steps.cookie, steps.query, ?_⟩
  rw [steps.checked]
  exact css.trans (ts.trans (logout.trans (token.trans admin)))

/-- Before the first request. -/
def freshServer : Server := ⟨blogInit, ⟨[], 0, .nNone⟩⟩

/-! ## Actions -/

/-- A round is a parser and an action, one after the other. -/
theorem serve_steps {req : HttpRequest} {s s' : Server} {fs t : Fs}
    (ran : exec (serve req s) fs = (.ok s', t)) :
    ∃ s₁ t₁, exec (parseRequest req s) fs = (.ok s₁, t₁) ∧
      exec (handleQuery req s₁) t₁ = (.ok s', t) :=
  Prog.exists_of_run_bind handle ran

theorem takeOver_keeps (conf : Blog) :
    Prog.Returns (fun saved => ∃ title tagline, saved = { conf with title, tagline })
      (takeOver conf) := by
  have rest (title : Bytes) : Prog.Returns
      (fun saved => ∃ title tagline, saved = { conf with title, tagline })
      (store sizeTagline conf.tagline (cstr conf.qry.tagline ++ [0]) >>= fun tagline =>
        pure { conf with title, tagline }) :=
    (Prog.Returns.self _).bind fun tagline _ => .ok ⟨title, tagline, rfl⟩
  rw [takeOver]
  dsimp only
  split
  · exact (Prog.Returns.self _).bind fun title _ => rest title
  · exact rest conf.title

/-- What is saved is the title and the tagline; nothing else of the configuration moves. -/
theorem ensures_saveConfig_keeps (req : HttpRequest) (conf : Blog) :
    Prog.Ensures handle (fun _ => True) (saveConfig req.memory req.clk conf)
      (fun saved _ => ∃ title tagline, saved = { conf with title, tagline }) (fun _ => True) := by
  rw [saveConfig]
  refine (Prog.Ensures.any _).bind fun opened => ?_
  cases opened with
  | none => exact Prog.Ensures.fail fun _ _ => True.intro
  | some a =>
      refine Prog.Ensures.bind (ensures_written (fun saved taken _ _ =>
        takeOver_keeps conf saved taken) fun _ _ => True.intro) fun saved =>
          Prog.Ensures.of_fact fun same => ?_
      exact (Prog.Ensures.any _).bind fun err => Prog.Ensures.ret fun _ _ => same

section Actions

variable {γ : Type} {part : Server → γ} {req : HttpRequest} {s : Server}
  (byNotice : ∀ s msg num type, part (Server.setErr s msg num type) = part s)
  (byShown : ∀ s action type, part (Server.modQry s ({ · with action, type })) = part s)

include byNotice byShown

theorem accessGate_keeps (s : Server) : part (accessGate s) = part s := by
  unfold accessGate
  dsimp only
  split_ifs
  · exact (byNotice _ _ _ _).trans (byShown _ _ _)
  · exact byShown _ _ _
  · exact byNotice _ _ _ _
  · rfl

theorem ensures_runAction_keeps (k : Taia) (s : Server)
    (bySaved : s.conf.qry.action = .qaConfigPost → ∀ s title tagline,
      part (Server.modConf s ({ · with title, tagline })) = part s) :
    Prog.Ensures handle (fun _ => True) (runAction req k s) (fun s' _ => part s' = part s)
      (fun _ => True) := by
  have keeps {s' : Server} (same : part s' = part s) : Prog.Ensures handle (fun _ => True)
      (.ret s' : M Server) (fun s' _ => part s' = part s) (fun _ => True) :=
    Prog.Ensures.ret fun _ _ => same
  have changed (done : Bytes) (err : Option Int) : part (noticeChange s done err) = part s := by
    cases err with
    | none => exact byNotice _ _ _ _
    | some n => exact byNotice _ _ _ _
  rw [runAction]
  split
  · exact keeps rfl
  · exact keeps (byNotice _ _ _ _)
  · exact (Prog.Ensures.any _).bind fun err =>
      keeps ((byShown _ _ _).trans (changed (str "Entry added") err))
  · refine (Prog.Ensures.any _).bind fun err => keeps ?_
    split
    · exact byNotice _ _ _ _
    · exact changed _ err
  · rw [modifyAction]
    refine (Prog.Ensures.any _).bind fun opened => ?_
    cases opened with
    | none => exact Prog.Ensures.fail fun _ _ => True.intro
    | some r => exact (Prog.Ensures.any _).bind fun _ => keeps (byNotice _ _ _ _)
  · exact (Prog.Ensures.any _).bind fun err =>
      keeps ((byShown _ _ _).trans (changed (str "Entry modified") err))
  · exact keeps (byNotice _ _ _ _)
  · rename_i config
    rw [configPost]
    refine (ensures_saveConfig_keeps req _).bind fun conf => Prog.Ensures.of_fact fun saved => ?_
    obtain ⟨title, tagline, same⟩ := saved
    exact keeps ((byShown _ _ _).trans
      (same ▸ (bySaved config _ title tagline).trans (byNotice _ _ _ _)))
  · exact keeps (byNotice _ _ _ _)
  · rw [logoutAction]
    refine (Prog.Ensures.any _).bind fun err => keeps ?_
    split
    · exact byNotice _ _ _ _
    · rfl

/-- **An action keeps the rest of the server**; only that of the configuration form
saves. -/
theorem ensures_handleQuery_keeps (s : Server) (bySaved : branch s = .qaConfigPost →
    ∀ s title tagline, part (Server.modConf s ({ · with title, tagline })) = part s) :
    Prog.Ensures handle (fun _ => True) (handleQuery req s) (fun s' _ => part s' = part s)
      (fun _ => True) := by
  rw [handleQuery]
  exact (ensures_runAction_keeps byNotice byShown _ _ bySaved).mono
    (fun _ _ same => same.trans (accessGate_keeps byNotice byShown s)) fun _ => id

end Actions

end Bagunceiro
